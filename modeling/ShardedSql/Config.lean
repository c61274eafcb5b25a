import ShardedSql.Routing.Rule

namespace ShardedSql

/-- How plans are made and run: the slice of what is not sharded, how many calls may be
unfinished at once, and a time limit in milliseconds for requests that have none of their own. -/
structure Config where
  defaultSlice : String
  maxParallel : UInt64
  backendTimeout : Option UInt64
  deriving DecidableEq, Repr

namespace Config

def standard : Config := ⟨Routing.defaultSlice, 64, none⟩

/-- At least one call runs at a time. -/
def withMaxParallel (c : Config) (n : UInt64) : Config := { c with maxParallel := max n 1 }

/-- The standard settings with what the environment sets. A value that cannot be read is ignored. -/
def ofEnvironment (lookup : String → Option String) : Config where
  defaultSlice :=
    match lookup "SHARDPLAN_DEFAULT_SLICE" with
    | some slice => if slice = "" then standard.defaultSlice else slice
    | none => standard.defaultSlice
  maxParallel :=
    match (lookup "SHARDPLAN_MAX_PARALLEL").bind Text.readUInt64? with
    | some n => if n = 0 then standard.maxParallel else n
    | none => standard.maxParallel
  backendTimeout := (lookup "SHARDPLAN_BACKEND_TIMEOUT_MS").bind Text.readUInt64?

end Config

end ShardedSql
