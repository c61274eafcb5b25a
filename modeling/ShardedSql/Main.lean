import ShardedSql.Shell

namespace ShardedSql.Shell

/-- Answers line by line until the input or the session ends. -/
partial def converse (s : Session) : IO Unit := do
  IO.print prompt
  (← IO.getStdout).flush
  let line ← (← IO.getStdin).getLine
  if line.isEmpty then return
  let (out, next) := s.answer line
  for l in out do IO.println l
  match next with
  | some s => converse s
  | none => return

end ShardedSql.Shell

open ShardedSql

def main (arguments : List String) : IO UInt32 := do
  let slice ← IO.getEnv "SHARDPLAN_DEFAULT_SLICE"
  let parallel ← IO.getEnv "SHARDPLAN_MAX_PARALLEL"
  let timeout ← IO.getEnv "SHARDPLAN_BACKEND_TIMEOUT_MS"
  let environment (name : String) : Option String :=
    match name with
    | "SHARDPLAN_DEFAULT_SLICE" => slice
    | "SHARDPLAN_MAX_PARALLEL" => parallel
    | "SHARDPLAN_BACKEND_TIMEOUT_MS" => timeout
    | _ => none
  match Shell.Session.open? (Config.ofEnvironment environment) arguments with
  | .error message =>
    IO.eprintln message
    return 2
  | .ok s =>
    Shell.converse s
    return 0
