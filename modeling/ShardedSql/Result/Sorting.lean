import ShardedSql.Result.Value

namespace ShardedSql.Result

/-- A column to sort by. -/
structure SortColumn where
  index : Nat
  descending : Bool
  deriving DecidableEq, Repr

/-- How one column orders two rows. A row too short for the column is equal to any other. -/
def SortColumn.order (k : SortColumn) (a b : List Value) : Ordering :=
  match a[k.index]?, b[k.index]? with
  | some x, some y => if k.descending then (x.order y).swap else x.order y
  | _, _ => .eq

/-- How columns order two rows: the first that tells them apart decides. -/
def orderRows (a b : List Value) : List SortColumn → Ordering
  | [] => .eq
  | k :: ks => (k.order a b).then (orderRows a b ks)

/-- Puts an item before all items that it is not below, in a list that runs downwards. -/
def insertBelow {α : Type} (isBelow : α → α → Bool) (x : α) : List α → List α
  | [] => [x]
  | y :: ys => if isBelow x y then y :: insertBelow isBelow x ys else x :: y :: ys

/-- Sorts upwards. Items of which none is below the other keep their order. -/
def stableSort {α : Type} (isBelow : α → α → Bool) (xs : List α) : List α :=
  (xs.foldl (fun sorted x => insertBelow isBelow x sorted) []).reverse

def sortRows (columns : List SortColumn) (rows : List (List Value)) : List (List Value) :=
  stableSort (fun a b => orderRows a b columns == .lt) rows

theorem perm_insertBelow {α : Type} (isBelow : α → α → Bool) (x : α) (ys : List α) :
    (insertBelow isBelow x ys).Perm (x :: ys) := by
  induction ys with
  | nil => exact .refl _
  | cons y ys ih =>
    unfold insertBelow
    split
    · exact (ih.cons y).trans (.swap x y ys)
    · exact .refl _

end ShardedSql.Result
