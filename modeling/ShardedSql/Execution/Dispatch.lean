import ShardedSql.Execution.FanOut

namespace ShardedSql.Execution

open Planning (Call)
open Result (ResultSet)

/-- How a request ends: the calls it made, when it ended and with what. -/
structure Outcome (α : Type) where
  calls : List Call
  elapsed : Nat
  result : Except Error α

def Outcome.andThen {α β : Type} (o : Outcome α) (f : α → Except Error β) : Outcome β :=
  ⟨o.calls, o.elapsed, o.result.bind f⟩

def FanOut.outcome (s : FanOut) : Outcome (List ResultSet) where
  calls := s.made
  elapsed := s.time
  result :=
    match s.failure with
    | some e => .error e
    | none => .ok (inOrder s.parts)

/-- Makes calls, at most `slots` of them unfinished at a time. A request that is cancelled before
it starts makes none. -/
def dispatch (slots : Nat) (deadline cancelAfter : Option Nat) (jobs : List Job) :
    Outcome (List ResultSet) :=
  if cancelAfter = some 0 then ⟨[], 0, .error .cancelled⟩
  else ((FanOut.initial jobs).run slots (Interruption.of? deadline cancelAfter)).outcome

end ShardedSql.Execution
