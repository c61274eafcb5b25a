import ShardedSql.Proofs.Result.StableSort
import ShardedSql.Result.Merge

namespace ShardedSql.Result

/-- The kinds of cells other than NULL. -/
inductive Kind where
  | int | uint | float | text
  deriving DecidableEq, Repr

namespace Value

def kind? : Value → Option Kind
  | null => none
  | int _ => some .int
  | uint _ => some .uint
  | float _ => some .float
  | text _ => some .text

/-- Where a number stands among those of its kind. -/
def number? : Value → Option Int
  | int i => some i.toInt
  | uint u => some u.toNat
  | float x => some x.rank
  | _ => none

def string? : Value → Option String
  | text s => some s
  | _ => none

/-- An order of all cells that is the one of sorting where the cells are of one kind. -/
def kindOrder (a b : Value) : Ordering :=
  (compare a.number? b.number?).then (compare a.string? b.string?)

instance : Std.TransCmp kindOrder :=
  inferInstanceAs (Std.TransCmp (compareLex (compareOn number?) (compareOn string?)))

theorem kindOrder_swap (a b : Value) : kindOrder a b = (kindOrder b a).swap :=
  Std.OrientedCmp.eq_swap

theorem isLE_kindOrder_trans {a b c : Value} (hab : (kindOrder a b).isLE = true)
    (hbc : (kindOrder b c).isLE = true) : (kindOrder a c).isLE = true :=
  Std.TransCmp.isLE_trans hab hbc

theorem compare_natCast (m n : Nat) : compare (m : Int) n = compare m n := by
  change compareOfLessAndEq (m : Int) n = compareOfLessAndEq m n
  simp only [compareOfLessAndEq, Int.ofNat_lt, Int.natCast_inj]

theorem order_eq_kindOrder {kind : Kind} {a b : Value} (ha : a = null ∨ a.kind? = some kind)
    (hb : b = null ∨ b.kind? = some kind) : a.order b = kindOrder a b := by
  rcases ha with rfl | ha <;> rcases hb with rfl | hb
  · rfl
  · cases b <;> rfl
  · cases a <;> rfl
  · have hkind : a.kind? = b.kind? := ha.trans hb.symm
    cases a <;> cases b <;>
      first
      | rfl
      | exact Ordering.then_eq.symm
      | exact ((Ordering.then_eq).trans (compare_natCast _ _)).symm
      | exact absurd hkind (by simp [kind?])

end Value

namespace SortColumn

/-- `SortColumn.order` for a column of one kind. -/
def kindOrder (k : SortColumn) (a b : List Value) : Ordering :=
  let order := (a.getD k.index .null).kindOrder (b.getD k.index .null)
  if k.descending then order.swap else order

instance (k : SortColumn) : Std.TransCmp k.kindOrder where
  eq_swap {a b} := by
    unfold kindOrder
    rw [Value.kindOrder_swap (a.getD k.index .null)]
    split <;> rfl
  isLE_trans {a b c} := by
    intro hab hbc
    cases hd : k.descending with
    | false =>
      simp only [kindOrder, hd] at hab hbc ⊢
      exact Value.isLE_kindOrder_trans hab hbc
    | true =>
      simp only [kindOrder, hd, if_true, ← Value.kindOrder_swap] at hab hbc ⊢
      exact Value.isLE_kindOrder_trans hbc hab

/-- A row with a cell of a kind, or NULL, in the column. -/
def Holds (k : SortColumn) (kind : Kind) (row : List Value) : Prop :=
  ∃ v, row[k.index]? = some v ∧ (v = .null ∨ v.kind? = some kind)

theorem order_eq_kindOrder {k : SortColumn} {kind : Kind} {a b : List Value}
    (ha : k.Holds kind a) (hb : k.Holds kind b) : k.order a b = k.kindOrder a b := by
  obtain ⟨v, hv, hkv⟩ := ha
  obtain ⟨w, hw, hkw⟩ := hb
  simp only [order, kindOrder, List.getD, hv, hw, Option.getD_some,
    Value.order_eq_kindOrder hkv hkw]

end SortColumn

/-- `orderRows` for columns of one kind each. -/
def kindOrderRows : List SortColumn → List Value → List Value → Ordering
  | [] => fun _ _ => .eq
  | k :: ks => compareLex k.kindOrder (kindOrderRows ks)

instance (columns : List SortColumn) : Std.TransCmp (kindOrderRows columns) := by
  induction columns with
  | nil => exact { eq_swap := rfl, isLE_trans := fun h _ => h }
  | cons k ks ih => exact inferInstanceAs (Std.TransCmp (compareLex _ _))

/-- Whether each column holds cells of one kind, next to NULLs, in all the rows. -/
def OneKindEach (columns : List SortColumn) (rows : List (List Value)) : Prop :=
  ∀ k ∈ columns, ∃ kind, ∀ row ∈ rows, k.Holds kind row

theorem orderRows_eq_kindOrderRows {columns : List SortColumn} {rows : List (List Value)}
    (h : OneKindEach columns rows) {a b : List Value} (ha : a ∈ rows) (hb : b ∈ rows) :
    orderRows a b columns = kindOrderRows columns a b := by
  induction columns with
  | nil => rfl
  | cons k ks ih =>
    obtain ⟨kind, hk⟩ := h k (by simp)
    have hrest := ih fun k' hk' => h k' (by simp [hk'])
    simp only [orderRows, kindOrderRows, compareLex, hrest,
      SortColumn.order_eq_kindOrder (hk a ha) (hk b hb)]

theorem kindOrderRows_swap (columns : List SortColumn) (a b : List Value) :
    kindOrderRows columns a b = (kindOrderRows columns b a).swap := Std.OrientedCmp.eq_swap

theorem isLE_kindOrderRows_trans (columns : List SortColumn) (a b c : List Value)
    (hab : (kindOrderRows columns a b).isLE = true) (hbc : (kindOrderRows columns b c).isLE = true) :
    (kindOrderRows columns a c).isLE = true := Std.TransCmp.isLE_trans hab hbc

theorem isLE_kindOrderRows_total (columns : List SortColumn) (a b : List Value) :
    ((kindOrderRows columns a b).isLE || (kindOrderRows columns b a).isLE) = true := by
  rw [kindOrderRows_swap columns b]
  cases kindOrderRows columns a b <;> rfl

/-- Whatever sorts these rows, it compares them as `kindOrderRows` does. -/
theorem mergeSort_orderRows {columns : List SortColumn} {rows : List (List Value)}
    (h : OneKindEach columns rows) :
    (rows.mergeSort fun a b => (orderRows a b columns).isLE) =
      rows.mergeSort fun a b => (kindOrderRows columns a b).isLE :=
  mergeSort_congr fun _ ha _ hb => congrArg _ (orderRows_eq_kindOrderRows h ha hb)

theorem sortRows_eq_mergeSort {columns : List SortColumn} {rows : List (List Value)}
    (h : OneKindEach columns rows) :
    sortRows columns rows = rows.mergeSort fun a b => (kindOrderRows columns a b).isLE := by
  have hbelow : ∀ a ∈ rows, ∀ b ∈ rows, (orderRows a b columns == .lt) =
      !(kindOrderRows columns b a).isLE := by
    intro a ha b hb
    rw [orderRows_eq_kindOrderRows h ha hb, kindOrderRows_swap columns b]
    cases kindOrderRows columns a b <;> rfl
  rw [sortRows, stableSort_congr hbelow]
  exact stableSort_eq_mergeSort (isLE_kindOrderRows_trans columns)
    (isLE_kindOrderRows_total columns) rows

theorem OneKindEach.mono {columns : List SortColumn} {rows rows' : List (List Value)}
    (h : OneKindEach columns rows) (hsub : ∀ row ∈ rows', row ∈ rows) : OneKindEach columns rows' :=
  fun k hk => (h k hk).imp fun _ hkind row hrow => hkind row (hsub row hrow)

end ShardedSql.Result
