import ShardedSql.Planning.ShardedTable

namespace ShardedSql.Planning

open Routing (Shard increasing)

/-- The shards of one index of several tables, in the order of the tables. All lie on one slice
and in one database. -/
structure ShardGroup where
  slice : String
  db : String
  shards : List Shard
  deriving DecidableEq, Repr

/-- The indexes that all tables are routed to. -/
def commonIndexes (first : RoutedTable) (others : List RoutedTable) : List Nat :=
  (increasing (first.shards.map (·.index))).filter fun i =>
    others.all fun t => t.shards.any (·.index = i)

/-- The shard of an index of each table. -/
def shardsAt (first : RoutedTable) (tables : List RoutedTable) (index : Nat) :
    Except Error (List Shard) :=
  tables.mapM fun t =>
    match t.shards.find? (·.index = index) with
    | some s => .ok s
    | none => .error (.unsupported (.notColocated first.table.name t.table.name))

/-- Puts shards into a group if they lie together. -/
def ShardGroup.ofShards? (lead : Shard) (others : List Shard) : Except Error ShardGroup :=
  match others.find? fun s => s.slice ≠ lead.slice || s.db ≠ lead.db with
  | some stray => .error (.unsupported (.splitJoin lead stray))
  | none => .ok ⟨lead.slice, lead.db, lead :: others⟩

def ShardGroup.at? (first : RoutedTable) (tables : List RoutedTable) (index : Nat) :
    Except Error ShardGroup := do
  match ← shardsAt first tables index with
  | [] => .ok ⟨"", "", []⟩
  | lead :: others => ofShards? lead others

/-- The tables with all their shards. -/
def withAllShards {σ : Type} (services : Services σ) (tables : List RoutedTable) :
    Planner σ (List RoutedTable) :=
  tables.mapM fun t => do
    return { t with shards := ← services.route t.table.db t.table.name .all }

/-- Aligns the shards of several tables by index. Where no index is common to all of them the
join is empty, and the first shard of the first table gives the empty answer. -/
def colocate {σ : Type} (services : Services σ) (first : RoutedTable)
    (others : List RoutedTable) : Planner σ (List ShardGroup) := do
  match commonIndexes first others with
  | [] =>
    match first.shards with
    | [] => throw (.route (.noShard first.table.db first.table.name))
    | s :: _ =>
      let tables ← withAllShards services (first :: others)
      return [← liftExcept (ShardGroup.at? first tables s.index)]
  | indexes => liftExcept (indexes.mapM (ShardGroup.at? first (first :: others)))

end ShardedSql.Planning
