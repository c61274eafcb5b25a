import ShardedSql.Routing.RuleTable
import ShardedSql.Sequence

namespace ShardedSql.Planning

open Routing (KeyHint Router Shard)

/-- A step of planning. What a failed one has done to the state stays done. -/
abbrev Planner (σ : Type) := ExceptT Error (StateM σ)

/-- A step that leaves the state as it is. -/
def liftExcept {σ α : Type} (result : Except Error α) : Planner σ α := ExceptT.mk (pure result)

/-- What planning asks others for: the routes of sharded tables and new values for keys. Answering
may change their state. -/
structure Services (σ : Type) where
  shardKey : (db table : String) → StateM σ (Option String)
  route : (db table : String) → KeyHint → Planner σ (List Shard)
  nextKey : (scope : String) → Planner σ Int64

/-- A router without a state, next to a registry of sequences. -/
def Services.ofRouter (router : Router) : Services Registry where
  shardKey db table := pure (router.shardKey db table)
  route db table hint := liftExcept (router.route db table hint)
  nextKey scope := ExceptT.mk fun registry => registry.next scope

end ShardedSql.Planning
