import LeagueSync.Cache.Backend
import LeagueSync.Database.Error
import LeagueSync.Http.Error
import LeagueSync.Records.Entry

/-!
# LeagueSync.Failure

Errors that join those of the parts: `SyncError` is why the data of an entry could not be brought
up to date, `AppError` is why the program as a whole failed.
-/

namespace LeagueSync

inductive SyncError where
  | http (e : HttpError)
  | database (e : DatabaseError)
  | invalid (reason : String)
  | notFound (id : EntryId)
  | queueClosed
  | aborted (reason : String)
  deriving DecidableEq, Repr

namespace SyncError

def isRetryable : SyncError → Bool
  | http e => e.isRetryable
  | database _ => true
  | invalid _ => false
  | notFound _ => false
  | queueClosed => false
  | aborted _ => false

def message : SyncError → String
  | http e => "Upstream error: " ++ e.message
  | database e => "Database error: " ++ e.message
  | invalid reason => "Invalid data: " ++ reason
  | notFound id => s!"Entity not found: {id}"
  | queueClosed => "Sync queue closed"
  | aborted reason => "Sync task aborted: " ++ reason

end SyncError

inductive AppError where
  | http (e : HttpError)
  | cache (e : CacheError)
  | database (e : DatabaseError)
  | sync (e : SyncError)
  | config (reason : String)
  | internal (reason : String)
  deriving DecidableEq, Repr

def AppError.message : AppError → String
  | http e => "HTTP error: " ++ e.message
  | cache e => "Cache error: " ++ e.message
  | database e => "Database error: " ++ e.message
  | sync e => "Sync error: " ++ e.message
  | config reason => "Configuration error: " ++ reason
  | internal reason => "Internal error: " ++ reason

end LeagueSync
