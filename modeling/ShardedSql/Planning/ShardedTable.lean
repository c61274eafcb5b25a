import ShardedSql.Planning.Services
import ShardedSql.Sql.Statement

namespace ShardedSql.Planning

open Routing (KeyHint KeyValue Shard)
open Sql (ColumnName Expr TableRef)

/-- A reference to a sharded table: its logical database, its names and its shard key. -/
structure ShardedTable where
  db : String
  name : String
  aliasName : Option String
  key : String
  deriving DecidableEq, Repr

/-- The key value that a literal expression stands for. -/
def literalValue? : Expr → Option KeyValue
  | .literal (.integer i) => some (.int i)
  | .literal (.text s) => some (.str s)
  | .literal (.number n) => some (.str n)
  | .negate (.literal (.integer i)) => (Text.toInt64? (-i.toInt)).map .int
  | .paren e => literalValue? e
  | _ => none

namespace ShardedTable

/-- Whether a column is the shard key of the table, by name and qualifier. -/
def isKey (t : ShardedTable) (c : ColumnName) : Bool :=
  Text.sameName c.name t.key &&
    match c.table with
    | none => true
    | some q => Text.sameName q t.name || t.aliasName.any fun a => Text.sameName a q

/-- Whether an expression is the shard key. -/
def isKeyColumn (t : ShardedTable) : Expr → Bool
  | .column c => t.isKey c
  | _ => false

/-- What a condition says about the shard key. -/
def hintOf (t : ShardedTable) : Expr → KeyHint
  | .paren e => t.hintOf e
  | .binary l .and r => (t.hintOf l).both (t.hintOf r)
  | .binary l .or r => (t.hintOf l).either (t.hintOf r)
  | .binary l .equal r =>
    if t.isKeyColumn l then KeyHint.ofValues? ((literalValue? r).map ([·]))
    else if t.isKeyColumn r then KeyHint.ofValues? ((literalValue? l).map ([·]))
    else .all
  | .inList e items false =>
    if t.isKeyColumn e then KeyHint.ofValues? (items.mapM literalValue?) else .all
  | _ => .all

def hint (t : ShardedTable) : Option Expr → KeyHint
  | some condition => t.hintOf condition
  | none => .all

end ShardedTable

/-- A sharded table and the shards that its part of a statement goes to. -/
structure RoutedTable where
  table : ShardedTable
  shards : List Shard
  deriving DecidableEq, Repr

/-- Routes a table by what the condition says about its key. A condition on a value that no shard
can own says nothing. -/
def ShardedTable.route {σ : Type} (services : Services σ) (t : ShardedTable)
    (condition : Option Expr) : Planner σ (List Shard) :=
  tryCatch (services.route t.db t.name (t.hint condition)) fun
    | .invalidValue e =>
      if t.hint condition = .all then throw (.invalidValue e)
      else services.route t.db t.name .all
    | e => throw e

/-- Routes a table reference, if it is one to a sharded table. -/
def RoutedTable.ofRef? {σ : Type} (services : Services σ) (ref : TableRef) (defaultDb : String)
    (condition : Option Expr) : Planner σ (Option RoutedTable) := do
  let db := ref.table.schema.getD defaultDb
  match ← services.shardKey db ref.table.name with
  | none => return none
  | some key =>
    let table : ShardedTable := ⟨db, ref.table.name, ref.aliasName, key⟩
    return some ⟨table, ← table.route services condition⟩

end ShardedSql.Planning
