import ShardedSql.Planning.Plan
import ShardedSql.Planning.Renaming
import ShardedSql.Planning.ShardedTable
import ShardedSql.Sql.Statement.Print

namespace ShardedSql.Planning

open Routing (KeyHint KeyValue Shard)
open Sql (Expr Insert)

/-- The table of an INSERT, its columns with the shard key among them, and where that stands. -/
structure InsertTarget where
  db : String
  table : String
  key : String
  columns : List String
  keyPlace : Nat
  deriving DecidableEq, Repr

/-- A key column that the INSERT leaves out is appended. -/
def InsertTarget.of (i : Insert) (db key : String) : InsertTarget :=
  match i.columns.findIdx? fun c => Text.sameName c key with
  | some place => ⟨db, i.table.name, key, i.columns, place⟩
  | none => ⟨db, i.table.name, key, i.columns ++ [key], i.columns.length⟩

theorem InsertTarget.of_db (i : Insert) (db key : String) : (InsertTarget.of i db key).db = db := by
  unfold InsertTarget.of
  split <;> rfl

theorem InsertTarget.of_table (i : Insert) (db key : String) :
    (InsertTarget.of i db key).table = i.table.name := by
  unfold InsertTarget.of
  split <;> rfl

/-- A row with a key in it, and the key if it was generated. -/
structure FilledRow where
  cells : List Expr
  key : KeyValue
  generated : Option Int64
  deriving DecidableEq, Repr

/-- A row and the shard that owns its key. -/
structure PlacedRow where
  shard : Shard
  row : FilledRow
  deriving DecidableEq, Repr

namespace InsertTarget

variable {σ : Type}

/-- A row as wide as the columns, with NULL for a key that was left out. -/
def widen (t : InsertTarget) (row : List Expr) : List Expr :=
  if row.length < t.columns.length then row ++ [.literal .null] else row

/-- Gives a row its key. A key that is missing, NULL or DEFAULT comes from the sequence. -/
def fill (services : Services σ) (t : InsertTarget) (row : List Expr) : Planner σ FilledRow := do
  let cells := t.widen row
  let cell := cells.getD t.keyPlace (.literal .null)
  if cell = .literal .null ∨ cell = .defaultValue then
    let id ← services.nextKey (sequenceScope t.db t.table)
    return ⟨cells.set t.keyPlace (.literal (.integer id)), .int id, some id⟩
  else
    match literalValue? cell with
    | some v => return ⟨cells, v, none⟩
    | none => throw (.invalidValue (.computedKey t.key cell))

/-- Fills the row with a number and finds its shard. -/
def place (services : Services σ) (t : InsertTarget) (width : Nat) (row : List Expr)
    (number : Nat) : Planner σ PlacedRow := do
  if row.length ≠ width then throw (.invalidValue (.rowLength number))
  let filled ← t.fill services row
  match ← services.route t.db t.table (.values [filled.key]) with
  | shard :: _ => return ⟨shard, filled⟩
  | [] => throw (.route (.noOwner t.db t.table filled.key))

/-- Places rows one after the other, numbered from `number` on. -/
def placeAll (services : Services σ) (t : InsertTarget) (width : Nat) :
    List (List Expr) → Nat → Planner σ (List PlacedRow)
  | [], _ => return []
  | row :: rows, number => do
    let placed ← t.place services width row number
    return placed :: (← placeAll services t width rows (number + 1))

end InsertTarget

/-- The rows of one shard, in the order of the statement. -/
structure RowGroup where
  shard : Shard
  rows : List (List Expr)
  deriving DecidableEq, Repr

/-- Adds a row to the group of its shard, in a list of groups by increasing index. -/
def addRow (p : PlacedRow) : List RowGroup → List RowGroup
  | [] => [⟨p.shard, [p.row.cells]⟩]
  | g :: gs =>
    if p.shard.index < g.shard.index then ⟨p.shard, [p.row.cells]⟩ :: g :: gs
    else if p.shard.index = g.shard.index then { g with rows := g.rows ++ [p.row.cells] } :: gs
    else g :: addRow p gs

def groupRows (placed : List PlacedRow) : List RowGroup :=
  placed.foldl (fun groups p => addRow p groups) []

def rowsCall (i : Insert) (db : String) (t : InsertTarget) (g : RowGroup) : Call :=
  let renamer : Renamer := ⟨db, [Renaming.toShard t.db t.table g.shard], []⟩
  let shardInsert :=
    { i with table := renamer.tableName i.table, columns := t.columns, rows := g.rows }
  ⟨g.shard.slice, g.shard.db, shardInsert.sql⟩

def generatedId (placed : List PlacedRow) : Option UInt64 :=
  (placed.findSome? (·.row.generated)).bind fun id => Text.toUInt64? id.toInt

/-- An INSERT is split by rows. It must name its columns, and may not change the shard key of a row
that is there. -/
def planInsert {σ : Type} (services : Services σ) (i : Insert) (db : String) : Planner σ Plan := do
  let tableDb := i.table.schema.getD db
  match ← services.shardKey tableDb i.table.name with
  | none => throw (.route (.notSharded tableDb i.table.name))
  | some key =>
    if i.columns = [] then throw (.missingColumnList i.table.name)
    if i.onDuplicate.any fun a => Text.sameName a.column.name key then throw (.keyUpdate key)
    let target := InsertTarget.of i tableDb key
    let placed ← target.placeAll services i.columns.length i.rows 1
    let calls := (groupRows placed).map (rowsCall i db target)
    return .insert (RoutingMap.ofCalls calls) (generatedId placed)

end ShardedSql.Planning
