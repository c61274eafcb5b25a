import ShardedSql.Config
import ShardedSql.Execution.Dispatch
import ShardedSql.Planning.Plan

namespace ShardedSql.Execution

open Planning (Call Plan RoutingMap)
open Result (ResultSet Value mergeSelect mergeWrite)

/-- The limits of one request: a time limit, and when it is cancelled, in milliseconds from its
start. -/
structure Request where
  timeout : Option Nat
  cancelAfter : Option Nat
  deriving DecidableEq, Repr

/-- A request without a limit of its own has that of the configuration. -/
def Request.deadline (r : Request) (config : Config) : Option Nat :=
  r.timeout.or (config.backendTimeout.map (·.toNat))

def slots (config : Config) : Nat := max config.maxParallel.toNat 1

theorem slots_pos (config : Config) : 0 < slots config :=
  Nat.lt_of_lt_of_le Nat.one_pos (Nat.le_max_right _ _)

/-- Makes the calls of a plan. What a call gets may depend on its place among them. -/
def runCalls (config : Config) (r : Request) (reply : Nat → Call → Reply) (calls : List Call) :
    Outcome (List ResultSet) :=
  dispatch (slots config) (r.deadline config) r.cancelAfter (jobs reply calls)

def explainColumns : List String := ["type", "slice", "db", "sql"]

/-- One row for each call that the plan would make. -/
def explainResult (sharded : Bool) (routing : RoutingMap) : ResultSet :=
  .ofRows explainColumns (routing.calls.map fun c =>
    [.text (if sharded then "shard" else "unshard"), .text c.slice, .text c.db, .text c.sql])

/-- Carries out a plan. An EXPLAIN makes no call, so that no limit applies to it. -/
def execute (config : Config) (r : Request) (backend : Call → Reply) :
    Plan → Outcome ResultSet
  | .unshard call =>
    (runCalls config r (fun _ => backend) [call]).andThen fun parts => .ok (parts.headD .empty)
  | .select routing merge =>
    (runCalls config r (fun _ => backend) routing.calls).andThen (mergeSelect merge)
  | .insert routing generated =>
    (runCalls config r (fun _ => backend) routing.calls).andThen fun parts =>
      .ok (mergeWrite generated parts)
  | .update routing | .delete routing =>
    (runCalls config r (fun _ => backend) routing.calls).andThen fun parts =>
      .ok (mergeWrite none parts)
  | .explain sharded routing => ⟨[], 0, .ok (explainResult sharded routing)⟩

end ShardedSql.Execution
