import ShardedSql.Planning.Plan
import ShardedSql.Planning.Renaming
import ShardedSql.Planning.ShardedTable
import ShardedSql.Sql.Statement.Print

namespace ShardedSql.Planning

open Routing (Shard)
open Sql (Delete Update)

def updateCall (u : Update) (db : String) (t : ShardedTable) (shard : Shard) : Call :=
  ⟨shard.slice, shard.db, (renameUpdate db [Renaming.toShard t.db t.name shard] u).sql⟩

/-- An UPDATE may not change the shard key, since the row would have to move. -/
def planUpdate {σ : Type} (services : Services σ) (u : Update) (db : String) : Planner σ Plan := do
  match ← RoutedTable.ofRef? services u.table db u.condition with
  | none => throw (.route (.nothingSharded "update"))
  | some t =>
    match u.assignments.find? fun a => t.table.isKey a.column with
    | some a => throw (.keyUpdate a.column.name)
    | none => return .update (RoutingMap.ofCalls (t.shards.map (updateCall u db t.table)))

def deleteCall (d : Delete) (db : String) (t : ShardedTable) (shard : Shard) : Call :=
  ⟨shard.slice, shard.db, (renameDelete db [Renaming.toShard t.db t.name shard] d).sql⟩

def planDelete {σ : Type} (services : Services σ) (d : Delete) (db : String) : Planner σ Plan := do
  match ← RoutedTable.ofRef? services ⟨d.table, none⟩ db d.condition with
  | none => throw (.route (.nothingSharded "delete"))
  | some t => return .delete (RoutingMap.ofCalls (t.shards.map (deleteCall d db t.table)))

end ShardedSql.Planning
