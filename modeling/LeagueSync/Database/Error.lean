import LeagueSync.Records.Trigger

/-!
# LeagueSync.Database.Error

Why the durable store failed. A fault that is met inside a query names the column and says what is
unreadable there.
-/

namespace LeagueSync

/-- What is wrong with a stored row or with the file of the store. Columns count from zero. -/
inductive StorageFault where
  | time (column : Nat) (text : String)
  | trigger (column : Nat) (text : String)
  | list (column : Nat)
  | range (column : Nat) (value : Int)
  /-- There is no larger number for the next row. -/
  | full
  /-- The file cannot be opened or made. -/
  | cannotOpen (name : String)
  /-- The file beside it that every change needs cannot be made. -/
  | noJournal
  | notDatabase
  | readOnly
  /-- The name of the store contains a zero byte. -/
  | zeroByte (position : Nat)
  /-- The address of the store names another computer. -/
  | authority (name : String)
  /-- An option of the address has no such value. -/
  | unknownMode (kind value : String)
  /-- An option of the address asks for more than an earlier one. -/
  | forbiddenMode (value : String)
  | unknownSystem (name : String)
  deriving DecidableEq, Repr

namespace StorageFault

def unreadable (column : Nat) (reason : String) : String :=
  s!"Conversion error from type Text at index: {column}, " ++ reason

def message : StorageFault → String
  | time column text => unreadable column ("invalid datetime: " ++ text)
  | trigger column text => unreadable column (Trigger.refusal text)
  | list column => unreadable column "not a list of numbers"
  | range column value => s!"Integer {value} out of range at index {column}"
  | full => "database or disk is full"
  | cannotOpen name => "unable to open database file: " ++ name
  | noJournal => "unable to open database file"
  | notDatabase => "file is not a database"
  | readOnly => "attempt to write a readonly database"
  | zeroByte position => s!"nul byte found in provided data at position: {position}"
  | authority name => "invalid uri authority: " ++ name
  | unknownMode kind value => "no such " ++ kind ++ " mode: " ++ value
  | forbiddenMode value => "access mode not allowed: " ++ value
  | unknownSystem name => "no such vfs: " ++ name

end StorageFault

inductive DatabaseError where
  /-- A row was asked for that is not there. -/
  | noRows
  | storage (fault : StorageFault)
  | missing
  | encoding (reason : String)
  deriving DecidableEq, Repr

def DatabaseError.message : DatabaseError → String
  | noRows => "Database error: Query returned no rows"
  | storage fault => "Database connection error: Rusqlite(\"" ++ fault.message ++ "\")"
  | missing => "Record not found"
  | encoding reason => "Serialization error: " ++ reason

end LeagueSync
