import ShardedSql.Proofs.Planning.Builders
import ShardedSql.Proofs.Planning.OneTable
import ShardedSql.Proofs.Result.RowOrder

namespace ShardedSql.Planning

open Result
open Routing (RuleTable ordersById)
open Sql (Limit Select)

/-- The complete answers of the shards to a SELECT without its limit: rows as wide as the columns,
with cells of one kind in each key column, sorted by the keys. -/
structure CompleteAnswers (width : Nat) (keys : List SortColumn)
    (complete : List (List (List Value))) : Prop where
  wide : ∀ rows ∈ complete, ∀ row ∈ rows, row.length = width
  oneKind : ∀ k ∈ keys, ∃ kind, ∀ rows ∈ complete, ∀ row ∈ rows, ∀ v ∈ row[k.index]?,
    v = .null ∨ v.kind? = some kind
  sorted : ∀ rows ∈ complete, rows.Pairwise fun a b => (orderRows a b keys).isLE = true
  few : ∀ rows ∈ complete, rows.length < 2 ^ 64

/-- The sort of the library by the keys. It is stable. -/
def globalOrder (keys : List SortColumn) (rows : List (List Value)) : List (List Value) :=
  rows.mergeSort fun a b => (orderRows a b keys).isLE

/-- Where each column holds one kind of cells, the insertion sort of the merge comes to it. -/
theorem globalOrder_eq_sortRows {keys : List SortColumn} {rows : List (List Value)}
    (h : OneKindEach keys rows) : globalOrder keys rows = sortRows keys rows :=
  (mergeSort_orderRows h).trans (sortRows_eq_mergeSort h).symm

theorem toNat_count_pushedDown (l : Limit) : (pushedDown l).count.toNat =
    min (l.count.toNat + (l.offset.getD 0).toNat) (2 ^ 64 - 1) := by
  have hlt : min (l.count.toNat + (l.offset.getD 0).toNat) (2 ^ 64 - 1) < 2 ^ 64 := by omega
  exact UInt64.toNat_ofNat_of_lt' hlt

theorem window_pushedDown (l : Limit) (rows : List (List Value)) :
    window (pushedDown l) rows =
      rows.take (min (l.count.toNat + (l.offset.getD 0).toNat) (2 ^ 64 - 1)) := by
  rw [window, toNat_count_pushedDown]
  rfl

/-- A row that a shard cuts off is not in the window of the whole. -/
theorem window_mergeSort_pushedDown {le : List Value → List Value → Bool}
    (trans : ∀ a b c, le a b = true → le b c = true → le a c = true)
    (total : ∀ a b, (le a b || le b a) = true) (l : Limit) {complete : List (List (List Value))}
    (hsorted : ∀ rows ∈ complete, rows.Pairwise fun a b => le a b = true)
    (hfew : ∀ rows ∈ complete, rows.length < 2 ^ 64) :
    window l ((complete.map (window (pushedDown l))).flatten.mergeSort le) =
      window l (complete.flatten.mergeSort le) := by
  have hcut : complete.map (window (pushedDown l)) =
      complete.map (·.take (l.count.toNat + (l.offset.getD 0).toNat)) := by
    refine List.map_congr_left fun rows hrows => ?_
    have := hfew rows hrows
    rw [window_pushedDown]
    by_cases hn : l.count.toNat + (l.offset.getD 0).toNat ≤ 2 ^ 64 - 1
    · rw [Nat.min_eq_left hn]
    · rw [List.take_of_length_le (by omega), List.take_of_length_le (by omega)]
  have hwindow (rows : List (List Value)) : window l rows =
      (rows.take (l.count.toNat + (l.offset.getD 0).toNat)).drop (l.offset.getD 0).toNat := by
    rw [window, List.take_drop, Nat.add_comm]
  rw [hwindow, hwindow, hcut, take_mergeSort_flatten trans total _ hsorted]

theorem sortColumn_index_lt {columns : List Column} {k : SortKey × Bool} {c : SortColumn}
    (h : sortColumn? columns k = some c) : c.index < columns.length := by
  obtain ⟨i, hi, rfl⟩ := Option.map_eq_some_iff.mp h
  obtain ⟨key, descending⟩ := k
  cases key with
  | column name => exact (List.findIdx?_eq_some_iff_getElem.mp hi).1
  | place n =>
    simp only [SortKey.find?] at hi
    split at hi
    · cases hi
      assumption
    · cases hi

theorem sortColumns_index_lt {columns : List Column} {keys : List (SortKey × Bool)}
    {cs : List SortColumn} (h : keys.mapM (sortColumn? columns) = some cs) :
    ∀ c ∈ cs, c.index < columns.length := by
  induction keys generalizing cs with
  | nil =>
    cases h
    simp
  | cons k keys ih =>
    rw [List.mapM_cons] at h
    obtain ⟨c, hc, h⟩ := Option.bind_eq_some_iff.mp h
    obtain ⟨cs, hcs, h⟩ := Option.bind_eq_some_iff.mp h
    cases h
    intro d hd
    rcases List.mem_cons.mp hd with rfl | hd
    · exact sortColumn_index_lt hc
    · exact ih hcs d hd

theorem CompleteAnswers.oneKindEach {width : Nat} {keys : List SortColumn}
    {complete : List (List (List Value))} (h : CompleteAnswers width keys complete)
    (hkeys : ∀ k ∈ keys, k.index < width) : OneKindEach keys complete.flatten := by
  intro k hk
  obtain ⟨kind, hkind⟩ := h.oneKind k hk
  refine ⟨kind, fun row hrow => ?_⟩
  obtain ⟨rows, hrows, hrow⟩ := List.mem_flatten.mp hrow
  have hlt : k.index < row.length := h.wide rows hrows row hrow ▸ hkeys k hk
  exact ⟨row[k.index], List.getElem?_eq_getElem hlt,
    hkind rows hrows row hrow _ (List.getElem?_eq_getElem hlt)⟩

/-- The names of tables make no difference to the columns that are sorted by. -/
theorem sortColumn?_logicalColumn (m : SelectMerge) (columns : List Column) :
    sortColumn? (columns.map m.logicalColumn) = sortColumn? columns := by
  funext ⟨key, descending⟩
  cases key with
  | column name =>
    simp only [sortColumn?, SortKey.find?, columnIndex?, List.findIdx?_map]
    rfl
  | place n => simp [sortColumn?, SortKey.find?]

theorem rows_concatenate (parts : List ResultSet) :
    (concatenate parts).rows = (parts.map (·.rows)).flatten := by
  cases parts with
  | nil => rfl
  | cons part parts => simp [concatenate, List.flatMap_def]

/-- What merging comes to where the sort keys have columns. -/
theorem mergeSelect_of_sortColumns {m : SelectMerge} {parts : List ResultSet}
    {columns : List Column} {keys : List SortColumn}
    (hcolumns : parts.head?.map (·.columns) = some columns)
    (hkeys : m.orderBy.mapM (sortColumn? columns) = some keys) :
    ∃ result, mergeSelect m parts = .ok result ∧
      result.rows = applyLimit m.limit (sortRows keys (parts.map (·.rows)).flatten) := by
  cases parts with
  | nil => cases hcolumns
  | cons part parts =>
    cases hcolumns
    unfold mergeSelect
    simp only [sortColumn?_logicalColumn]
    rw [show (concatenate (part :: parts)).columns = part.columns from rfl, hkeys,
      rows_concatenate]
    exact ⟨_, rfl, rfl⟩

theorem nameTables_foldl (m : SelectMerge) (tables : List RoutedTable) (groups : List ShardGroup) :
    (groups.foldl (fun m g => nameTables m (renamings tables g)) m).orderBy = m.orderBy ∧
      (groups.foldl (fun m g => nameTables m (renamings tables g)) m).limit = m.limit := by
  have hname (rs : List Renaming) (m : SelectMerge) :
      (nameTables m rs).orderBy = m.orderBy ∧ (nameTables m rs).limit = m.limit := by
    induction rs generalizing m with
    | nil => exact ⟨rfl, rfl⟩
    | cons r rs ih => exact ih (m.addTable r.physicalTable r.table)
  induction groups generalizing m with
  | nil => exact ⟨rfl, rfl⟩
  | cons g groups ih =>
    obtain ⟨horder, hlimit⟩ := ih (nameTables m (renamings tables g))
    obtain ⟨horder', hlimit'⟩ := hname (renamings tables g) m
    exact ⟨horder.trans horder', hlimit.trans hlimit'⟩

variable {σ : Type}

/-- What planning a SELECT comes to: a call for each group of shards. -/
theorem planSelect_outcome {services : Services σ} {s : Select} {db : String}
    {routing : RoutingMap} {merge : SelectMerge} {st st' : σ}
    (h : (planSelect services s db).outcome st = (.ok (.select routing merge), st')) :
    ∃ (tables : List RoutedTable) (groups : List ShardGroup), routing.size = groups.length ∧
      routing.calls.Perm (groups.map (groupCall (splitSelect s groups.length).1 db tables)) ∧
      merge.orderBy = (splitSelect s groups.length).2.orderBy ∧
      merge.limit = (splitSelect s groups.length).2.limit := by
  obtain ⟨first, others, groups, st₁, -, -, hplan⟩ := planSelect_cases h
  cases hplan
  obtain ⟨horder, hlimit⟩ :=
    nameTables_foldl (splitSelect s groups.length).2 (first :: others) groups
  refine ⟨first :: others, groups, ?_, RoutingMap.perm_ofCalls _, horder, hlimit⟩
  rw [RoutingMap.size_ofCalls, List.length_map]

theorem splitSelect_of_keys {s : Select} {keys : List (SortKey × Bool)}
    (hkeys : sortKeys? s = some keys) {shards : Nat} (h : 1 < shards) :
    splitSelect s shards = ({ s with limit := s.limit.map pushedDown }, ⟨keys, s.limit, []⟩) := by
  unfold splitSelect
  rw [if_neg (by omega), hkeys]

theorem mem_of_mem_limited (limit : Option Limit) {complete : List (List (List Value))} :
    ∀ row ∈ (complete.map (applyLimit limit)).flatten, row ∈ complete.flatten := by
  intro row hrow
  obtain ⟨_, hrows, hrow⟩ := List.mem_flatten.mp hrow
  obtain ⟨rows, hmem, rfl⟩ := List.mem_map.mp hrows
  refine List.mem_flatten_of_mem hmem ?_
  cases limit with
  | none => exact hrow
  | some l => exact List.mem_of_mem_drop (List.mem_of_mem_take hrow)

/-- Where the rows of several shards are sorted again, the result is what sorting all rows that the
shards have, and then applying the limit, would give. The shards are asked for no more rows than
the limit needs. -/
theorem mergeSelect_eq_globalOrder (services : Services σ) (s : Select) (db : String) (st st' : σ)
    (routing : RoutingMap) (merge : SelectMerge) (keys : List (SortKey × Bool))
    (columns : List Column) (sortColumns : List SortColumn)
    (complete : List (List (List Value))) (parts : List ResultSet)
    (hplan : (planSelect services s db).outcome st = (.ok (.select routing merge), st'))
    (hsize : 1 < routing.size) (hkeys : sortKeys? s = some keys)
    (hcolumns : parts.head?.map (·.columns) = some columns)
    (hfound : keys.mapM (sortColumn? columns) = some sortColumns)
    (hcomplete : CompleteAnswers columns.length sortColumns complete)
    (hparts : parts.map (·.rows) = complete.map (applyLimit (s.limit.map pushedDown))) :
    (∃ (tables : List RoutedTable) (groups : List ShardGroup), routing.calls.Perm
      (groups.map (groupCall { s with limit := s.limit.map pushedDown } db tables))) ∧
    ∃ result, mergeSelect merge parts = .ok result ∧
      result.rows = applyLimit s.limit (globalOrder sortColumns complete.flatten) := by
  obtain ⟨tables, groups, hgroups, hcalls, horder, hlimit⟩ := planSelect_outcome hplan
  rw [splitSelect_of_keys hkeys (hgroups ▸ hsize)] at hcalls horder hlimit
  refine ⟨⟨tables, groups, hcalls⟩, ?_⟩
  obtain ⟨result, hresult, hrows⟩ := mergeSelect_of_sortColumns (m := merge) hcolumns
    (show merge.orderBy.mapM (sortColumn? columns) = some sortColumns by rw [horder]; exact hfound)
  refine ⟨result, hresult, ?_⟩
  have hkind := hcomplete.oneKindEach (sortColumns_index_lt hfound)
  have hcut : ∀ row ∈ (parts.map (·.rows)).flatten, row ∈ complete.flatten := by
    rw [hparts]
    exact mem_of_mem_limited _
  rw [hrows, hlimit, sortRows_eq_mergeSort (hkind.mono hcut), hparts, globalOrder,
    mergeSort_orderRows hkind]
  cases hl : s.limit with
  | none =>
    change ((complete.map id).flatten.mergeSort _) = _
    rw [List.map_id]
    rfl
  | some l =>
    refine window_mergeSort_pushedDown (isLE_kindOrderRows_trans sortColumns)
      (isLE_kindOrderRows_total sortColumns) l (fun rows hrows => ?_) hcomplete.few
    refine (hcomplete.sorted rows hrows).imp_of_mem fun ha hb hle => ?_
    rwa [← orderRows_eq_kindOrderRows hkind (List.mem_flatten_of_mem hrows ha)
      (List.mem_flatten_of_mem hrows hb)]

/-- `SELECT id FROM orders ORDER BY id DESC LIMIT 1, 2`. -/
def latestOrders : Select where
  distinct := false
  items := [.expr (.column ⟨none, "id"⟩) none]
  sources := [⟨⟨none, "orders"⟩, none⟩]
  joins := []
  condition := none
  groupBy := []
  having := none
  orderBy := [⟨.column ⟨none, "id"⟩, true⟩]
  limit := some ⟨some 1, 2⟩
  forUpdate := false

def latestAnswers : List (List (List Value)) := [[[.int 8], [.int 4]], [[.int 9]], [], [[.int 7]]]

theorem completeAnswers_latest : CompleteAnswers 1 [⟨0, true⟩] latestAnswers where
  wide := by decide
  oneKind := by
    intro k hk
    obtain rfl := List.mem_singleton.mp hk
    exact ⟨.int, by decide⟩
  sorted := by decide
  few := by decide

theorem latest_orders_of_all_shards : ∃ routing merge result,
    (planSelect (Services.ofRules ⟨[ordersById]⟩ fun _ => throw .cancelled) latestOrders
      "shop").outcome () = (.ok (.select routing merge), ()) ∧
    mergeSelect merge (latestAnswers.map (.ofRows ["id"])) = .ok result ∧
    result.rows = [[.int 8], [.int 7]] := by
  have hroute : (RoutedTable.ofRef? (Services.ofRules ⟨[ordersById]⟩ fun _ => throw .cancelled)
      ⟨⟨none, "orders"⟩, none⟩ "shop" none).outcome () = (.ok (some
        ⟨.ofRef ⟨⟨none, "orders"⟩, none⟩ "shop" ordersById,
          [0, 1, 2, 3].map (ordersById.shard "shop")⟩), ()) := rfl
  obtain ⟨merge, hplan⟩ := planSelect_onlyTable (fun _ => throw .cancelled) (s := latestOrders)
    rfl (by decide) (by decide) hroute
  have hsorted : globalOrder [⟨0, true⟩] latestAnswers.flatten =
      [[.int 9], [.int 8], [.int 7], [.int 4]] :=
    (globalOrder_eq_sortRows (completeAnswers_latest.oneKindEach (by decide))).trans rfl
  obtain ⟨-, result, hresult, hrows⟩ := mergeSelect_eq_globalOrder _ latestOrders "shop" () () _
    merge [(.column "id", true)] [⟨"id", none⟩] [⟨0, true⟩] latestAnswers
    (latestAnswers.map (.ofRows ["id"])) hplan (by rw [RoutingMap.size_ofCalls]; decide)
    rfl rfl rfl completeAnswers_latest rfl
  refine ⟨_, merge, result, hplan, hresult, ?_⟩
  rw [hrows, hsorted]
  rfl

end ShardedSql.Planning
