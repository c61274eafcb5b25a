import ShardedSql.Planning.RoutingMap
import ShardedSql.Result.Merge

namespace ShardedSql.Planning

open Result (SelectMerge)

/-- What a statement comes to: the calls to make, and what to do with their answers. -/
inductive Plan where
  /-- One call on the default slice. -/
  | unshard (call : Call)
  | select (routing : RoutingMap) (merge : SelectMerge)
  | update (routing : RoutingMap)
  | delete (routing : RoutingMap)
  | insert (routing : RoutingMap) (generated : Option UInt64)
  /-- Shows the calls and makes none. -/
  | explain (sharded : Bool) (routing : RoutingMap)
  deriving DecidableEq, Repr

namespace Plan

def kind : Plan → String
  | unshard _ => "unshard"
  | select _ _ => "select"
  | update _ => "update"
  | delete _ => "delete"
  | insert _ _ => "insert"
  | explain _ _ => "explain"

def isSharded : Plan → Bool
  | unshard _ => false
  | explain sharded _ => sharded
  | _ => true

def routing : Plan → RoutingMap
  | unshard call => ⟨[call]⟩
  | select r _ | update r | delete r | insert r _ | explain _ r => r

/-- How many statements the plan issues. An EXPLAIN counts as one. -/
def size : Plan → Nat
  | unshard _ | explain _ _ => 1
  | select r _ | update r | delete r | insert r _ => r.size

end Plan

end ShardedSql.Planning
