import ShardedSql.Error
import ShardedSql.Result.ResultSet
import ShardedSql.Result.Sorting
import ShardedSql.Sql.Statement

namespace ShardedSql.Result

open Sql (Expr Limit OrderItem Select SelectItem)

/-- What an ORDER BY item sorts a result by: a column of a name, or the column at a place. -/
inductive SortKey where
  | column (name : String)
  | place (n : Nat)
  deriving DecidableEq, Repr

/-- What is left to do once the rows of several shards are put together: the order and the window
of the rows, and which logical names stand for the physical ones of the columns. -/
structure SelectMerge where
  orderBy : List (SortKey × Bool)
  limit : Option Limit
  tableNames : List (String × String)
  deriving DecidableEq, Repr

/-- Whether an item gives the result a column of this name. -/
def projects (item : SelectItem) (name : String) : Bool :=
  match item with
  | .expr _ (some a) => Text.sameName a name
  | .expr (.column c) none => Text.sameName c.name name
  | _ => false

def isStar : SelectItem → Bool
  | .star | .tableStar _ => true
  | .expr .. => false

/-- The sort key of an ORDER BY item, if the items of the SELECT give the column that it needs. -/
def sortKey? (items : List SelectItem) (o : OrderItem) : Option (SortKey × Bool) :=
  match o.expr with
  | .literal (.integer n) =>
    if 1 ≤ n.toInt ∧ (items.any isStar ∨ n.toInt ≤ items.length) then
      some (.place (n.toInt.toNat - 1), o.descending)
    else none
  | .column c =>
    if items.any isStar ∨ items.any (projects · c.name) then
      some (.column c.name, o.descending)
    else none
  | _ => none

/-- The sort keys of a SELECT, if each ORDER BY item has one. -/
def sortKeys? (s : Select) : Option (List (SortKey × Bool)) := s.orderBy.mapM (sortKey? s.items)

namespace SelectMerge

def empty : SelectMerge := ⟨[], none, []⟩

/-- A later name for the same physical table replaces an earlier one. -/
def addTable (m : SelectMerge) (physical logical : String) : SelectMerge :=
  { m with tableNames := (Text.lower physical, logical) :: m.tableNames }

def logicalName (m : SelectMerge) (table : String) : String :=
  (m.tableNames.lookup (Text.lower table)).getD table

def logicalColumn (m : SelectMerge) (c : Column) : Column :=
  { c with table := c.table.map m.logicalName }

end SelectMerge

/-- Rows and counts together, with the columns of the first part. -/
def concatenate : List ResultSet → ResultSet
  | [] => .empty
  | first :: others =>
    { first with
      rows := first.rows ++ others.flatMap (·.rows)
      affected := others.foldl (fun n r => n + r.affected) first.affected }

def SortKey.find? (columns : List Column) : SortKey → Option Nat
  | column name => columnIndex? columns name
  | place n => if n < columns.length then some n else none

def sortColumn? (columns : List Column) (k : SortKey × Bool) : Option SortColumn :=
  (k.1.find? columns).map fun i => ⟨i, k.2⟩

/-- The rows that a limit lets through. -/
def window (limit : Limit) (rows : List (List Value)) : List (List Value) :=
  (rows.drop (limit.offset.getD 0).toNat).take limit.count.toNat

def applyLimit (limit : Option Limit) (rows : List (List Value)) : List (List Value) :=
  match limit with
  | some l => window l rows
  | none => rows

/-- Merges the answers to a SELECT. A sort key without a column leaves the rows unsorted, which is
an error where a limit is to be applied. -/
def mergeSelect (m : SelectMerge) (parts : List ResultSet) : Except Error ResultSet :=
  match parts with
  | [] => .ok .empty
  | _ =>
    let all := concatenate parts
    let columns := all.columns.map m.logicalColumn
    match m.orderBy.mapM (sortColumn? columns) with
    | some keys =>
      .ok { all with columns := columns, rows := applyLimit m.limit (sortRows keys all.rows) }
    | none =>
      if m.limit.isSome then .error (.unsupported .missingSortKey)
      else .ok { all with columns := columns }

/-- Merges the answers to a write. A key that planning generated is reported before any other. -/
def mergeWrite (generated : Option UInt64) (parts : List ResultSet) : ResultSet :=
  .ofCounts (parts.foldl (fun n r => n + r.affected) 0)
    (generated.getD (parts.foldl (fun n r => max n r.insertId) 0))

end ShardedSql.Result
