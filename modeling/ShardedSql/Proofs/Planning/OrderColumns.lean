import Mathlib.Data.List.Forall2
import ShardedSql.Proofs.Planning.GlobalOrder

namespace ShardedSql.Planning

open Result
open Sql (ColumnName Expr OrderItem Select SelectItem)

/-- The name that an item gives its column of the result, if it gives it just one column and a name
for it. -/
def resultName? : SelectItem → Option String
  | .expr _ (some a) => some a
  | .expr (.column c) none => some c.name
  | _ => none

theorem projects_eq_any (item : SelectItem) (name : String) :
    projects item name = (resultName? item).any (Text.sameName · name) := by
  cases item with
  | star | tableStar => rfl
  | expr e aliasName => cases aliasName <;> cases e <;> rfl

theorem resultName?_of_isStar {item : SelectItem} (h : isStar item = true) :
    resultName? item = none := by
  cases item with
  | star | tableStar => rfl
  | expr => cases h

def columnOf? : SelectItem → Option ColumnName
  | .expr (.column c) _ => some c
  | _ => none

/-- Whether an item is the column `c`. One without a qualifier can mean no other column of its
name. -/
def IsColumn (c : ColumnName) (item : SelectItem) : Prop :=
  ∃ c' ∈ columnOf? item, Text.sameName c'.name c.name = true ∧
    ∀ q ∈ c.table, ∀ q' ∈ c'.table, Text.sameName q' q = true

instance (c : ColumnName) (item : SelectItem) : Decidable (IsColumn c item) :=
  inferInstanceAs (Decidable (∃ c' ∈ columnOf? item, Text.sameName c'.name c.name = true ∧
    ∀ q ∈ c.table, ∀ q' ∈ c'.table, Text.sameName q' q = true))

/-- Whether an item puts another column under the name of `c`. -/
def Hides (c : ColumnName) (item : SelectItem) : Prop :=
  projects item c.name = true ∧ ¬ IsColumn c item

instance (c : ColumnName) (item : SelectItem) : Decidable (Hides c item) :=
  inferInstanceAs (Decidable (_ ∧ ¬ _))

/-- Whether the column `c` is in the result under its own name, before any other of that name. -/
def Shown (items : List SelectItem) (c : ColumnName) : Prop :=
  ∃ before item after, items = before ++ item :: after ∧ projects item c.name = true ∧
    IsColumn c item ∧ ∀ other ∈ before, ¬ Hides c other

/-- The first column of a name is `c` exactly if `c` is shown. -/
theorem isColumn_first_iff_shown {items : List SelectItem} {c : ColumnName} {i : Nat}
    (h : items.findIdx? (projects · c.name) = some i) : ∃ item, items[i]? = some item ∧
      projects item c.name = true ∧ (IsColumn c item ↔ Shown items c) := by
  obtain ⟨hlt, hprojects, hfirst⟩ := List.findIdx?_eq_some_iff_getElem.mp h
  refine ⟨items[i], List.getElem?_eq_getElem hlt, hprojects, fun hcolumn => ?_, ?_⟩
  · refine ⟨items.take i, items[i], items.drop (i + 1), ?_, hprojects, hcolumn, ?_⟩
    · rw [← List.drop_eq_getElem_cons hlt, List.take_append_drop]
    · intro other hother hhides
      obtain ⟨j, hj, rfl⟩ := List.mem_take_iff_getElem.mp hother
      exact hfirst j (by omega) hhides.1
  · rintro ⟨before, item, after, rfl, hitem, hcolumn, hclear⟩
    rcases Nat.lt_trichotomy i before.length with hless | rfl | hgreater
    · rw [List.getElem_append_left hless] at hprojects ⊢
      by_contra hother
      exact hclear _ (List.getElem_mem hless) ⟨hprojects, hother⟩
    · rwa [List.getElem_append_right (Nat.le_refl _), getElem_congr_idx (Nat.sub_self _)]
    · have hnot := hfirst before.length hgreater
      rw [List.getElem_append_right (Nat.le_refl _), getElem_congr_idx (Nat.sub_self _)] at hnot
      exact absurd hitem hnot

theorem columnIndex?_eq_findIdx? {items : List SelectItem} {columns : List Column}
    (hnames : columns.map (fun c => some c.name) = items.map resultName?) (name : String) :
    columnIndex? columns name = items.findIdx? (projects · name) := by
  let hasName : Option String → Bool := fun n => n.any (Text.sameName · name)
  calc columnIndex? columns name
      = (columns.map fun c => some c.name).findIdx? hasName := by
        rw [List.findIdx?_map]
        rfl
    _ = items.findIdx? fun item => hasName (resultName? item) := by
        rw [hnames, List.findIdx?_map]
        rfl
    _ = items.findIdx? (projects · name) := by
        simp only [projects_eq_any, hasName]

theorem any_isStar_of_names {items : List SelectItem} {columns : List Column}
    (hnames : columns.map (fun c => some c.name) = items.map resultName?) :
    items.any isStar = false := by
  rw [List.any_eq_false]
  intro item hitem hstar
  have hnone : none ∈ columns.map fun c => some c.name := by
    rw [hnames, ← resultName?_of_isStar hstar]
    exact List.mem_map_of_mem hitem
  obtain ⟨c, -, hc⟩ := List.mem_map.mp hnone
  cases hc

/-- What an ORDER BY item asks of the column that the result is sorted by: its place, or that the
first column of its name is the one that the item names. -/
structure SortsBy (items : List SelectItem) (o : OrderItem) (k : SortColumn) : Prop where
  direction : k.descending = o.descending
  place : ∀ n, o.expr = .literal (.integer n) → n.toInt = k.index + 1
  column : ∀ c, o.expr = .column c → ∃ item, items[k.index]? = some item ∧
    projects item c.name = true ∧ (IsColumn c item ↔ Shown items c)

theorem sortsBy_of_sortKey? {items : List SelectItem} {columns : List Column} {o : OrderItem}
    {key : SortKey × Bool} (hnames : columns.map (fun c => some c.name) = items.map resultName?)
    (hkey : sortKey? items o = some key) :
    ∃ k, sortColumn? columns key = some k ∧ SortsBy items o k := by
  have hlength : columns.length = items.length := by simpa using congrArg List.length hnames
  have hstar := any_isStar_of_names hnames
  obtain ⟨e, descending⟩ := o
  simp only [sortKey?, hstar, Bool.false_eq_true, false_or] at hkey
  split at hkey
  · next n =>
    split at hkey
    · next hplace =>
      cases hkey
      have hlt : n.toInt.toNat - 1 < columns.length := by omega
      refine ⟨⟨n.toInt.toNat - 1, descending⟩, ?_, rfl, fun n' hn => ?_, fun c hc => ?_⟩
      · rw [sortColumn?, SortKey.find?, if_pos hlt]
        rfl
      · cases hn
        change n.toInt = (n.toInt.toNat - 1 : Nat) + 1
        omega
      · cases hc
    · cases hkey
  · next c =>
    split at hkey
    · next hany =>
      cases hkey
      have hfound : (items.findIdx? (projects · c.name)).isSome = true :=
        List.findIdx?_isSome.trans hany
      obtain ⟨i, hi⟩ := Option.isSome_iff_exists.mp hfound
      refine ⟨⟨i, descending⟩, ?_, rfl, fun n hn => ?_, fun c' hc => ?_⟩
      · rw [sortColumn?, SortKey.find?, columnIndex?_eq_findIdx? hnames, hi]
        rfl
      · cases hn
      · cases hc
        exact isColumn_first_iff_shown hi
    · cases hkey
  · cases hkey

theorem sortsBy_of_sortKeys? {items : List SelectItem} {columns : List Column}
    (hnames : columns.map (fun c => some c.name) = items.map resultName?) {os : List OrderItem}
    {keys : List (SortKey × Bool)} (hkeys : os.mapM (sortKey? items) = some keys) :
    ∃ ks, keys.mapM (sortColumn? columns) = some ks ∧ List.Forall₂ (SortsBy items) os ks := by
  induction os generalizing keys with
  | nil =>
    cases hkeys
    exact ⟨[], rfl, .nil⟩
  | cons o os ih =>
    rw [List.mapM_cons] at hkeys
    obtain ⟨key, hkey, hkeys⟩ := Option.bind_eq_some_iff.mp hkeys
    obtain ⟨rest, hrest, hkeys⟩ := Option.bind_eq_some_iff.mp hkeys
    cases hkeys
    obtain ⟨k, hk, hsorts⟩ := sortsBy_of_sortKey? hnames hkey
    obtain ⟨ks, hks, hall⟩ := ih hrest
    refine ⟨k :: ks, ?_, .cons hsorts hall⟩
    rw [List.mapM_cons, hk, hks]
    rfl

/-- Where each ORDER BY item has a sort key, the rows of all parts are sorted by a column for each
of them. For a qualified column it is that column exactly if the items show it before any other of
its name. -/
theorem merge_sorts_by_shown_columns (s : Select) (m : SelectMerge) (parts : List ResultSet)
    (columns : List Column) (hkeys : sortKeys? s = some m.orderBy)
    (hcolumns : parts.head?.map (·.columns) = some columns)
    (hnames : columns.map (fun c => some c.name) = s.items.map resultName?) :
    ∃ ks result, mergeSelect m parts = .ok result ∧
      result.rows = applyLimit m.limit (sortRows ks (parts.map (·.rows)).flatten) ∧
      List.Forall₂ (SortsBy s.items) s.orderBy ks := by
  obtain ⟨ks, hks, hsorts⟩ := sortsBy_of_sortKeys? hnames hkeys
  obtain ⟨result, hresult, hrows⟩ := mergeSelect_of_sortColumns hcolumns hks
  exact ⟨ks, result, hresult, hrows, hsorts⟩

/-- `SELECT users.id, orders.id FROM orders JOIN users ON orders.uid = users.id ORDER BY orders.id
LIMIT 1`, with or without an alias for the first item. -/
def smallestOrder (userAlias : Option String) : Select where
  distinct := false
  items := [.expr (.column ⟨some "users", "id"⟩) userAlias,
    .expr (.column ⟨some "orders", "id"⟩) none]
  sources := [⟨⟨none, "orders"⟩, none⟩]
  joins := [⟨.inner, ⟨⟨none, "users"⟩, none⟩,
    some (.binary (.column ⟨some "orders", "uid"⟩) .equal (.column ⟨some "users", "id"⟩))⟩]
  condition := none
  groupBy := []
  having := none
  orderBy := [⟨.column ⟨some "orders", "id"⟩, false⟩]
  limit := some ⟨none, 1⟩
  forUpdate := false

/-- The answers of two shards, the first of which has the smallest order. -/
def smallestOrders (userName : String) : List ResultSet :=
  [⟨[⟨userName, some "users"⟩, ⟨"id", some "orders_0"⟩], [[.int 9, .int 2]], 0, 0⟩,
    ⟨[⟨userName, some "users"⟩, ⟨"id", some "orders_1"⟩], [[.int 1, .int 3]], 0, 0⟩]

def bySmallestId : SelectMerge := ⟨[(.column "id", false)], some ⟨none, 1⟩, []⟩

theorem smallest_order_of_aliased_user : ∃ result,
    mergeSelect bySmallestId (smallestOrders "uid") = .ok result ∧
      result.rows = [[.int 9, .int 2]] := by
  obtain ⟨ks, result, hresult, hrows, hsorts⟩ := merge_sorts_by_shown_columns
    (smallestOrder (some "uid")) bySmallestId (smallestOrders "uid") _ (by decide) rfl (by decide)
  refine ⟨result, hresult, hrows.trans ?_⟩
  obtain ⟨k, _, hk, hnil, rfl⟩ := List.forall₂_cons_left_iff.mp hsorts
  cases hnil
  obtain ⟨item, hitem, -, hcolumn⟩ := hk.column ⟨some "orders", "id"⟩ rfl
  have hshown : Shown (smallestOrder (some "uid")).items ⟨some "orders", "id"⟩ :=
    ⟨[_], _, [], rfl, by decide, by decide, by decide⟩
  have hitem' := hcolumn.mpr hshown
  have hascending := hk.direction
  obtain ⟨index, descending⟩ := k
  cases hascending
  match index with
  | 0 =>
    cases hitem
    exact absurd hitem' (by decide)
  | 1 => rfl
  | _ + 2 => cases hitem

/-- Under one name the column of the first item hides the one that the statement names. -/
theorem smallest_order_sought_by_user :
    sortKeys? (smallestOrder none) = some bySmallestId.orderBy ∧
      (smallestOrders "id").head?.map (fun part => part.columns.map fun c => some c.name) =
        some ((smallestOrder none).items.map resultName?) ∧
      bySmallestId.orderBy.mapM (sortColumn? [⟨"id", some "users"⟩, ⟨"id", some "orders"⟩]) =
        some [⟨0, false⟩] ∧
      (∀ item ∈ (smallestOrder none).items[0]?, ¬ IsColumn ⟨some "orders", "id"⟩ item) ∧
      ∃ result, mergeSelect bySmallestId (smallestOrders "id") = .ok result ∧
        result.rows = [[.int 1, .int 3]] :=
  ⟨by decide, by decide, by decide, by decide, _, rfl, by decide⟩

end ShardedSql.Planning
