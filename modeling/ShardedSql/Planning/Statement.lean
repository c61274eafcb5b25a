import ShardedSql.Config
import ShardedSql.Planning.Insert
import ShardedSql.Planning.Select
import ShardedSql.Planning.Write

namespace ShardedSql.Planning

open Sql (Statement TableName)

/-- How a statement is handled: shown only, sent on as it is, or split by shards. -/
inductive StatementClass where
  | explain | passThrough | shardAware
  deriving DecidableEq, Repr

/-- The tables that a statement reads or writes, as far as they may be sharded. -/
def referencedTables : Statement → List TableName
  | .select s => s.tableRefs.map (·.table)
  | .insert i => [i.table]
  | .update u => [u.table.table]
  | .delete d => [d.table]
  | .explain _ | .other _ => []

def isShardedTable {σ : Type} (services : Services σ) (db : String) (t : TableName) :
    StateM σ Bool := do
  return (← services.shardKey (t.schema.getD db) t.name).isSome

def classify {σ : Type} (services : Services σ) (stmt : Statement) (db : String) :
    StateM σ StatementClass := do
  match stmt with
  | .explain _ => return .explain
  | _ =>
    if ← (referencedTables stmt).anyM (isShardedTable services db) then return .shardAware
    else return .passThrough

def planUnshard (config : Config) (db sql : String) : Plan := .unshard ⟨config.defaultSlice, db, sql⟩

/-- The plan of a statement that is not an EXPLAIN, given with its text. -/
def planDirect {σ : Type} (services : Services σ) (config : Config) (stmt : Statement)
    (db sql : String) : Planner σ Plan := do
  match ← classify services stmt db, stmt with
  | .shardAware, .select s => planSelect services s db
  | .shardAware, .insert i => planInsert services i db
  | .shardAware, .update u => planUpdate services u db
  | .shardAware, .delete d => planDelete services d db
  | _, _ => return planUnshard config db sql

/-- The plan of an EXPLAIN, which is made from the text of the statement inside. -/
def planExplain {σ : Type} (services : Services σ) (config : Config) (inner : Statement)
    (db : String) : Planner σ Plan := do
  let plan ← (planDirect services config inner db inner.sql).adapt Error.explainBuild
  return .explain plan.isSharded plan.routing

/-- The plan of a statement that was issued on a database as the text `sql`. -/
def plan {σ : Type} (services : Services σ) (config : Config) (stmt : Statement)
    (db sql : String) : Planner σ Plan :=
  match stmt with
  | .explain (.explain _) => throw .nestedExplain
  | .explain inner => planExplain services config inner db
  | stmt => planDirect services config stmt db sql

end ShardedSql.Planning
