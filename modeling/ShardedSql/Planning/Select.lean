import ShardedSql.Planning.Colocation
import ShardedSql.Planning.Plan
import ShardedSql.Planning.Renaming
import ShardedSql.Sql.Statement.Print

namespace ShardedSql.Planning

open Result (SelectMerge sortKeys?)
open Sql (Limit Select)

/-- The rows that each shard has to give so that the limit can be applied to all of them. -/
def pushedDown (l : Limit) : Limit :=
  ⟨none, UInt64.ofNat (min (l.count.toNat + (l.offset.getD 0).toNat) (UInt64.size - 1))⟩

/-- The SELECT for the shards and the merge of their answers. With several shards the order and
the limit are applied again to all rows, if the order can be; otherwise each shard applies its
own. -/
def splitSelect (s : Select) (shards : Nat) : Select × SelectMerge :=
  if shards ≤ 1 then (s, .empty)
  else
    match sortKeys? s with
    | some keys => ({ s with limit := s.limit.map pushedDown }, ⟨keys, s.limit, []⟩)
    | none => (s, .empty)

/-- The sharded ones among the tables of a SELECT, each routed. -/
def routeTables {σ : Type} (services : Services σ) (s : Select) (db : String) :
    Planner σ (List RoutedTable) := do
  let routed ← s.tableRefs.mapM fun ref => RoutedTable.ofRef? services ref db s.condition
  return routed.filterMap id

def renamings (tables : List RoutedTable) (group : ShardGroup) : List Renaming :=
  List.zipWith (fun t shard => Renaming.toShard t.table.db t.table.name shard) tables group.shards

def groupCall (s : Select) (db : String) (tables : List RoutedTable) (group : ShardGroup) : Call :=
  ⟨group.slice, group.db, (renameSelect db (renamings tables group) s).sql⟩

def nameTables (m : SelectMerge) (rs : List Renaming) : SelectMerge :=
  rs.foldl (fun m r => m.addTable r.physicalTable r.table) m

def planSelect {σ : Type} (services : Services σ) (s : Select) (db : String) : Planner σ Plan := do
  match ← routeTables services s db with
  | [] => throw (.route (.nothingSharded "select"))
  | first :: others =>
    let tables := first :: others
    let groups ← colocate services first others
    let (shardSelect, merge) := splitSelect s groups.length
    let routing := RoutingMap.ofCalls (groups.map (groupCall shardSelect db tables))
    return .select routing (groups.foldl (fun m g => nameTables m (renamings tables g)) merge)

end ShardedSql.Planning
