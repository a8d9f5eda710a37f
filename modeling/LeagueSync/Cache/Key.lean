/-!
# LeagueSync.Cache.Key

Keys of cached values. The key of an entity has three parts, the key of a partition two with an
empty one between them; further parts may follow.
-/

namespace LeagueSync

structure CacheKey where
  text : String
  deriving DecidableEq, Repr

namespace CacheKey

def ofEntity (scope entity id : String) : CacheKey :=
  ⟨scope ++ ":" ++ entity ++ ":" ++ id⟩

/-- The key of a partition, such as a season. -/
def ofPartition (scope partition : String) : CacheKey :=
  ⟨scope ++ "::" ++ partition⟩

def sub (k : CacheKey) (part : String) : CacheKey :=
  ⟨k.text ++ ":" ++ part⟩

end CacheKey
end LeagueSync
