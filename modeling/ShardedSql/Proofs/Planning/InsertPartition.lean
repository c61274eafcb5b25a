import ShardedSql.Proofs.Planning.RowGroups
import ShardedSql.Proofs.Planning.Steps
import ShardedSql.Proofs.Routing.Placement

namespace ShardedSql.Planning

open Routing (KeyValue Rule RuleTable Shard ordersById)
open Sql (Expr Insert)

variable {σ : Type}

/-- Takes so many new keys of a scope, one after the other. -/
def drawKeys (nextKey : String → Planner σ Int64) (scope : String) : Nat → Planner σ (List Int64)
  | 0 => return []
  | n + 1 => do
    let id ← nextKey scope
    return id :: (← drawKeys nextKey scope n)

namespace InsertTarget

/-- Whether a row has no key of its own: none, NULL or DEFAULT. -/
def lacksKey (t : InsertTarget) (row : List Expr) : Bool :=
  let cell := (t.widen row).getD t.keyPlace (.literal .null)
  decide (cell = .literal .null ∨ cell = .defaultValue)

/-- The rows with their keys. The n-th row without one gets the n-th of the new keys. -/
def fillAll (t : InsertTarget) : List (List Expr) → List Int64 → List (List Expr)
  | [], _ => []
  | row :: rows, ids =>
    if t.lacksKey row then
      (t.widen row).set t.keyPlace (.literal (.integer (ids.headD 0))) :: t.fillAll rows ids.tail
    else t.widen row :: t.fillAll rows ids

/-- The shard to which the key of a filled row routes. -/
def homeOf (t : InsertTarget) (rules : RuleTable) (row : List Expr) : Option Shard :=
  match literalValue? (row.getD t.keyPlace (.literal .null)) with
  | none => none
  | some key =>
    match rules.route t.db t.table (.values [key]) with
    | .ok (shard :: _) => some shard
    | _ => none

/-- The rows of a shard, in the order of the statement. -/
def rowsOf (t : InsertTarget) (rules : RuleTable) (filled : List (List Expr)) (shard : Shard) :
    List (List Expr) :=
  filled.filter fun row => t.homeOf rules row = some shard

/-- The INSERT of a shard: the one of the statement with other rows, on the physical table. -/
def shardInsert (t : InsertTarget) (i : Insert) (shard : Shard) (rows : List (List Expr)) :
    Insert :=
  { i with
    table := ⟨i.table.schema.map fun _ => shard.db, shard.table⟩
    columns := t.columns
    rows := rows }

end InsertTarget

/-- The place of the key column among the columns of the statements for the shards. It is the first of
the columns of an INSERT that has the name of the key, or one that is appended to them. -/
inductive KeyColumn (key : String) (columns : List String) :
    (place : Nat) → (widened : List String) → Prop
  | named {place : Nat} {c : String} (hc : columns[place]? = some c)
      (hname : Text.sameName c key = true)
      (hfirst : ∀ d ∈ columns.take place, Text.sameName d key = false) :
      KeyColumn key columns place columns
  | appended (h : ∀ c ∈ columns, Text.sameName c key = false) :
      KeyColumn key columns columns.length (columns ++ [key])

theorem InsertTarget.keyColumn_of (i : Insert) (db key : String) :
    KeyColumn key i.columns (InsertTarget.of i db key).keyPlace (InsertTarget.of i db key).columns := by
  unfold InsertTarget.of
  split
  · next place hplace =>
    obtain ⟨hlt, hname, hbefore⟩ := List.findIdx?_eq_some_iff_getElem.mp hplace
    refine .named (List.getElem?_eq_getElem hlt) hname fun c hc => ?_
    obtain ⟨j, hj, rfl⟩ := List.mem_take_iff_getElem.mp hc
    exact Bool.eq_false_iff.mpr (hbefore j (Nat.lt_of_lt_of_le hj (Nat.min_le_left _ _)))
  · next hnone => exact .appended fun c hc => List.findIdx?_eq_none_iff.mp hnone c hc

/-- What becomes of the rows of an INSERT: each of them is in the statement of the shard of its
key and in no other, and there is a statement for each shard that has a row. -/
structure RowPartition (rules : RuleTable) (t : InsertTarget) (i : Insert)
    (filled : List (List Expr)) (shards : List Shard) (calls : List Call) : Prop where
  home : ∀ row ∈ filled, ∃ s ∈ shards, t.homeOf rules row = some s
  distinct : shards.Nodup
  owns : ∀ s ∈ shards, t.rowsOf rules filled s ≠ []
  once : (shards.flatMap (t.rowsOf rules filled)).Perm filled
  calls : calls.Perm (shards.map fun s =>
    ⟨s.slice, s.db, (t.shardInsert i s (t.rowsOf rules filled s)).sql⟩)

/-- A list is made of its parts by a function, if every value of the function is asked for once. -/
theorem flatMap_filter_perm {α β : Type} [DecidableEq β] (f : α → Option β) {bs : List β}
    (hnd : bs.Nodup) {xs : List α} (h : ∀ x ∈ xs, ∃ b ∈ bs, f x = some b) :
    (bs.flatMap fun b => xs.filter fun x => f x = some b).Perm xs := by
  induction bs generalizing xs with
  | nil =>
    have hnil : xs = [] := List.eq_nil_iff_forall_not_mem.mpr fun x hx => by simpa using h x hx
    subst hnil
    exact .refl _
  | cons b bs ih =>
    obtain ⟨hb, hbs⟩ := List.nodup_cons.mp hnd
    have hcover : ∀ x ∈ xs.filter fun x => !decide (f x = some b), ∃ c ∈ bs, f x = some c := by
      intro x hx
      obtain ⟨hx, hn⟩ := List.mem_filter.mp hx
      obtain ⟨c, hc, he⟩ := h x hx
      rcases List.mem_cons.mp hc with rfl | hc
      · simp [he] at hn
      · exact ⟨c, hc, he⟩
    have hrest := ih hbs hcover
    have hsame : (bs.flatMap fun c => xs.filter fun x => f x = some c) =
        bs.flatMap fun c =>
          (xs.filter fun x => !decide (f x = some b)).filter fun x => f x = some c := by
      rw [List.flatMap_def, List.flatMap_def]
      refine congrArg _ (List.map_congr_left fun c hc => ?_)
      rw [List.filter_filter]
      refine List.filter_congr fun x _ => ?_
      by_cases hx : f x = some c
      · have hne : c ≠ b := fun e => hb (e ▸ hc)
        simp [hx, hne]
      · simp [hx]
    rw [List.flatMap_cons, hsame]
    exact (hrest.append_left _).trans (List.filter_append_perm _ xs)

/-- The key has a place in every row that is as wide as the statement says. -/
theorem InsertTarget.keyPlace_lt (i : Insert) (db key : String) {row : List Expr}
    (h : row.length = i.columns.length) :
    (InsertTarget.of i db key).keyPlace < ((InsertTarget.of i db key).widen row).length := by
  unfold InsertTarget.of
  split
  · next place hplace =>
    have hlt := (List.findIdx?_eq_some_iff_getElem.mp hplace).1
    simpa [widen, h] using hlt
  · simp [widen, h]

namespace InsertTarget

variable {rules : RuleTable} {nextKey : String → Planner σ Int64} {t : InsertTarget}

theorem lacksKey_iff {row : List Expr} : t.lacksKey row = true ↔
    (t.widen row).getD t.keyPlace (.literal .null) = .literal .null ∨
      (t.widen row).getD t.keyPlace (.literal .null) = .defaultValue := decide_eq_true_iff

theorem getD_set_self {α : Type} {xs : List α} {n : Nat} (h : n < xs.length) (a d : α) :
    (xs.set n a).getD n d = a := by
  simp [List.getD, h]

/-- What filling a row comes to: a row without a key takes a new one, and another row takes
none. -/
theorem fill_outcome {row : List Expr} (hplace : t.keyPlace < (t.widen row).length)
    {filled : FilledRow} {st st' : σ}
    (h : (t.fill (Services.ofRules rules nextKey) row).outcome st = (.ok filled, st')) :
    literalValue? (filled.cells.getD t.keyPlace (.literal .null)) = some filled.key ∧
      if t.lacksKey row then ∃ id, (nextKey (sequenceScope t.db t.table)).outcome st = (.ok id, st') ∧
          filled.generated = some id ∧
          filled.cells = (t.widen row).set t.keyPlace (.literal (.integer id))
        else st' = st ∧ filled.generated = none ∧ filled.cells = t.widen row := by
  unfold fill at h
  by_cases hlacks : t.lacksKey row = true
  · simp only [lacksKey_iff.mp hlacks, if_true] at h
    obtain ⟨id, st'', hid, h⟩ := Planner.outcome_bind_eq_ok.mp h
    cases h
    rw [if_pos hlacks, getD_set_self hplace]
    exact ⟨rfl, id, hid, rfl, rfl⟩
  · have hc := mt lacksKey_iff.mpr hlacks
    simp only [hc, if_false] at h
    rw [if_neg hlacks]
    split at h
    · next v hv =>
      cases h
      exact ⟨hv, rfl, rfl, rfl⟩
    · cases h

/-- What placing a row comes to: it is filled, and goes to the shard of its key. -/
theorem place_outcome {width : Nat} {row : List Expr} {number : Nat} {p : PlacedRow} {st st' : σ}
    (h : (t.place (Services.ofRules rules nextKey) width row number).outcome st = (.ok p, st')) :
    row.length = width ∧
      (t.fill (Services.ofRules rules nextKey) row).outcome st = (.ok p.row, st') ∧
      ∃ others, rules.route t.db t.table (.values [p.row.key]) = .ok (p.shard :: others) := by
  unfold place at h
  by_cases hw : row.length = width
  · simp only [hw, ne_eq, not_true_eq_false, if_false] at h
    obtain ⟨filled, st'', hfill, h⟩ := Planner.outcome_bind_eq_ok.mp h
    obtain ⟨shards, st''', hroute, h⟩ := Planner.outcome_bind_eq_ok.mp h
    rw [Services.ofRules_route] at hroute
    split at h
    · next shard others =>
      cases h
      obtain ⟨hr, rfl⟩ := Prod.mk.inj hroute
      exact ⟨hw, hfill, others, hr⟩
    · cases h
  · simp only [ne_eq, hw, not_false_eq_true, if_true] at h
    cases h

theorem homeOf_of_place {width : Nat} {row : List Expr} {number : Nat} {p : PlacedRow} {st st' : σ}
    (hplace : t.keyPlace < (t.widen row).length)
    (h : (t.place (Services.ofRules rules nextKey) width row number).outcome st = (.ok p, st')) :
    t.homeOf rules p.row.cells = some p.shard := by
  obtain ⟨-, hfill, others, hroute⟩ := place_outcome h
  obtain ⟨hkey, -⟩ := fill_outcome hplace hfill
  simp only [homeOf, hkey, hroute]

/-- What placing all rows comes to: new keys are drawn for the rows without one, and for no
other. -/
theorem placeAll_outcome {width : Nat}
    (hplace : ∀ row : List Expr, row.length = width → t.keyPlace < (t.widen row).length)
    {rows : List (List Expr)} {number : Nat} {placed : List PlacedRow} {st st' : σ}
    (h : (t.placeAll (Services.ofRules rules nextKey) width rows number).outcome st =
      (.ok placed, st')) :
    ∃ ids, (drawKeys nextKey (sequenceScope t.db t.table) (rows.countP t.lacksKey)).outcome st =
        (.ok ids, st') ∧
      placed.map (·.row.cells) = t.fillAll rows ids ∧
      placed.findSome? (·.row.generated) = ids.head? ∧
      ∀ p ∈ placed, t.homeOf rules p.row.cells = some p.shard := by
  induction rows generalizing number placed st with
  | nil =>
    cases h
    exact ⟨[], rfl, rfl, rfl, by simp⟩
  | cons row rows ih =>
    unfold placeAll at h
    obtain ⟨p, s, hp, h⟩ := Planner.outcome_bind_eq_ok.mp h
    obtain ⟨ps, s', hps, h⟩ := Planner.outcome_bind_eq_ok.mp h
    cases h
    obtain ⟨ids, hids, hcells, hfirst, hhome⟩ := ih hps
    have hwidth := hplace row (place_outcome hp).1
    have hall : ∀ q ∈ p :: ps, t.homeOf rules q.row.cells = some q.shard := by
      intro q hq
      rcases List.mem_cons.mp hq with rfl | hq
      · exact homeOf_of_place hwidth hp
      · exact hhome q hq
    have hfill := (fill_outcome hwidth (place_outcome hp).2.1).2
    split at hfill
    · next hlacks =>
      obtain ⟨id, hid, hgen, hset⟩ := hfill
      refine ⟨id :: ids, ?_, ?_, ?_, hall⟩
      · rw [List.countP_cons_of_pos hlacks]
        unfold drawKeys
        rw [Planner.outcome_bind_of_ok hid, Planner.outcome_bind_of_ok hids]
        rfl
      · simp [fillAll, hlacks, hset, hcells]
      · simp [hgen]
    · next hlacks =>
      obtain ⟨rfl, hgen, hsame⟩ := hfill
      refine ⟨ids, ?_, ?_, ?_, hall⟩
      · rw [List.countP_cons_of_neg hlacks]
        exact hids
      · simp [fillAll, hlacks, hsame, hcells]
      · simp [hgen, hfirst]

/-- The home of a row is a shard of the rule of its table. -/
theorem shard_of_homeOf {r : Rule} (hr : rules.find? t.db t.table = some r) {row : List Expr}
    {s : Shard} (h : t.homeOf rules row = some s) : s = r.shard t.db s.index ∧ r.HasShard s.index := by
  unfold homeOf at h
  split at h
  · cases h
  · split at h
    · next hroute =>
      cases h
      obtain ⟨hindex, hshard⟩ := RuleTable.indexOf_of_route hr hroute
      exact ⟨hshard, fun hcount => Rule.indexOf_lt hcount hindex⟩
    · cases h

theorem home_eq_iff {key : String} (hkey : rules.shardKey t.db t.table = some key)
    {row row' : List Expr} {s s' : Shard} (h : t.homeOf rules row = some s)
    (h' : t.homeOf rules row' = some s') : s = s' ↔ s.index = s'.index := by
  obtain ⟨r, hr, -⟩ := Option.map_eq_some_iff.mp hkey
  constructor
  · exact fun e => congrArg _ e
  · intro e
    rw [(shard_of_homeOf hr h).1, (shard_of_homeOf hr h').1, e]

end InsertTarget

theorem length_of_drawKeys {nextKey : String → Planner σ Int64} {scope : String} {n : Nat}
    {ids : List Int64} {st st' : σ}
    (h : (drawKeys nextKey scope n).outcome st = (.ok ids, st')) : ids.length = n := by
  induction n generalizing ids st with
  | zero =>
    cases h
    rfl
  | succ n ih =>
    unfold drawKeys at h
    obtain ⟨id, s, -, h⟩ := Planner.outcome_bind_eq_ok.mp h
    obtain ⟨rest, s', hrest, h⟩ := Planner.outcome_bind_eq_ok.mp h
    cases h
    rw [List.length_cons, ih hrest]

/-- The statement of a group, with the physical table in place of the logical one. -/
theorem rowsCall_eq (i : Insert) (db key : String) (shard : Shard) (rows : List (List Expr)) :
    rowsCall i db (InsertTarget.of i (i.table.schema.getD db) key) ⟨shard, rows⟩ =
      ⟨shard.slice, shard.db, ((InsertTarget.of i (i.table.schema.getD db) key).shardInsert i shard
        rows).sql⟩ := by
  simp [rowsCall, InsertTarget.shardInsert, Renamer.tableName, Renamer.find?, Renaming.toShard,
    InsertTarget.of_db, InsertTarget.of_table, Text.sameName_refl]

/-- The groups of placed rows share out the rows as their keys say. -/
theorem rowPartition_of_placed {rules : RuleTable} {t : InsertTarget} {key : String}
    (hkey : rules.shardKey t.db t.table = some key) (i : Insert) {placed : List PlacedRow}
    (hhome : ∀ p ∈ placed, t.homeOf rules p.row.cells = some p.shard) {calls : List Call}
    (hcalls : calls.Perm ((groupRows placed).map fun g =>
      ⟨g.shard.slice, g.shard.db, (t.shardInsert i g.shard g.rows).sql⟩)) :
    RowPartition rules t i (placed.map (·.row.cells)) ((groupRows placed).map (·.shard)) calls := by
  have hgrouped := grouped_groupRows placed
  have hrows : ∀ g ∈ groupRows placed,
      t.rowsOf rules (placed.map (·.row.cells)) g.shard = g.rows := by
    intro g hg
    obtain ⟨q, hq, hqg⟩ := hgrouped.source g hg
    rw [hgrouped.rows g hg, InsertTarget.rowsOf, List.filter_map]
    refine congrArg _ (List.filter_congr fun p hp => ?_)
    have hiff := InsertTarget.home_eq_iff hkey (hhome p hp) (hhome q hq)
    simp [hhome p hp, ← hqg, hiff]
  have hcover : ∀ row ∈ placed.map (·.row.cells),
      ∃ s ∈ (groupRows placed).map (·.shard), t.homeOf rules row = some s := by
    intro row hrow
    obtain ⟨p, hp, rfl⟩ := List.mem_map.mp hrow
    obtain ⟨g, hg, he⟩ := hgrouped.all p hp
    obtain ⟨q, hq, hqg⟩ := hgrouped.source g hg
    refine ⟨g.shard, List.mem_map.mpr ⟨g, hg, rfl⟩, ?_⟩
    rw [hhome p hp, ← hqg]
    exact congrArg _ ((InsertTarget.home_eq_iff hkey (hhome p hp) (hhome q hq)).mpr
      (he.symm.trans (congrArg _ hqg.symm)))
  have hdistinct : ((groupRows placed).map (·.shard)).Nodup := by
    refine List.Pairwise.map _ (fun g g' hlt he => ?_) hgrouped.ordered
    rw [he] at hlt
    exact Nat.lt_irrefl _ hlt
  refine ⟨hcover, hdistinct, ?_, flatMap_filter_perm _ hdistinct hcover, ?_⟩
  · intro s hs
    obtain ⟨g, hg, rfl⟩ := List.mem_map.mp hs
    obtain ⟨q, hq, hqg⟩ := hgrouped.source g hg
    refine List.ne_nil_of_mem (a := q.row.cells) ?_
    exact List.mem_filter.mpr ⟨List.mem_map.mpr ⟨q, hq, rfl⟩, by simp [hhome q hq, hqg]⟩
  · rw [List.map_map]
    refine hcalls.trans (.of_eq (List.map_congr_left fun g hg => ?_))
    simp only [Function.comp, hrows g hg]

theorem toUInt64?_eq_if (id : Int64) :
    Text.toUInt64? id.toInt = if 0 ≤ id then some id.toUInt64 else none := by
  have hle := id.toInt_lt
  unfold Text.toUInt64?
  by_cases h : 0 ≤ id
  · have h0 : 0 ≤ id.toInt := by simpa [Int64.le_iff_toInt_le] using h
    have hsize : id.toInt < UInt64.size := by
      rw [UInt64.size]
      omega
    rw [if_pos h, if_pos ⟨h0, hsize⟩]
    refine congrArg _ (UInt64.toNat_inj.mp ?_)
    rw [Int64.toNat_toUInt64_of_le h, UInt64.toNat_ofNat_of_lt' (show id.toInt.toNat < 2 ^ 64 by omega)]
    rfl
  · rw [if_neg h, if_neg]
    intro h'
    exact h (by simpa [Int64.le_iff_toInt_le] using h'.1)

/-- What an INSERT that is planned comes to. Its columns have the key column among them, in its place or
appended. The rows without a key take new ones from the sequence of the table, which is asked for no
others, and then every row is in the statement of its shard. -/
theorem insert_partitions_rows (rules : RuleTable) (nextKey : String → Planner σ Int64)
    (i : Insert) (db : String) (st st' : σ) (p : Plan)
    (h : (planInsert (Services.ofRules rules nextKey) i db).outcome st = (.ok p, st')) :
    ∃ (key : String) (t : InsertTarget) (ids : List Int64) (shards : List Shard),
      rules.shardKey (i.table.schema.getD db) i.table.name = some key ∧
      t = .of i (i.table.schema.getD db) key ∧
      t.db = i.table.schema.getD db ∧ t.table = i.table.name ∧
      KeyColumn key i.columns t.keyPlace t.columns ∧
      (drawKeys nextKey (sequenceScope (i.table.schema.getD db) i.table.name)
        (i.rows.countP t.lacksKey)).outcome st = (.ok ids, st') ∧
      ids.length = i.rows.countP t.lacksKey ∧
      p = .insert p.routing (ids.head?.bind fun id => if 0 ≤ id then some id.toUInt64 else none) ∧
      RowPartition rules t i (t.fillAll i.rows ids) shards p.routing.calls := by
  unfold planInsert at h
  simp only [Planner.outcome_bind, Services.ofRules_shardKey] at h
  cases hkey : rules.shardKey (i.table.schema.getD db) i.table.name with
  | none =>
    rw [hkey] at h
    cases h
  | some key =>
    rw [hkey] at h
    simp only [] at h
    split at h
    · cases h
    split at h
    · cases h
    obtain ⟨placed, s, hplaced, h⟩ := Planner.outcome_bind_eq_ok.mp h
    cases h
    obtain ⟨ids, hids, hcells, hfirst, hhome⟩ :=
      InsertTarget.placeAll_outcome (fun row => InsertTarget.keyPlace_lt i _ key) hplaced
    rw [InsertTarget.of_db, InsertTarget.of_table] at hids
    refine ⟨key, _, ids, (groupRows placed).map (·.shard), rfl, rfl, InsertTarget.of_db i _ key,
      InsertTarget.of_table i _ key, InsertTarget.keyColumn_of i _ key, hids,
      length_of_drawKeys hids, ?_, ?_⟩
    · simp only [generatedId, hfirst, toUInt64?_eq_if]
      rfl
    · rw [← hcells]
      refine rowPartition_of_placed (by simpa [InsertTarget.of_db, InsertTarget.of_table] using hkey)
        i hhome ((RoutingMap.perm_ofCalls _).trans (.of_eq ?_))
      exact List.map_congr_left fun g _ => rowsCall_eq i db key g.shard g.rows

/-- `INSERT INTO orders (id, name) VALUES (5, 'a'), (NULL, 'b')`. -/
def twoOrders : Insert where
  replace := false
  ignore := false
  table := ⟨none, "orders"⟩
  columns := ["id", "name"]
  rows := [[.literal (.integer 5), .literal (.text "a")],
    [.literal .null, .literal (.text "b")]]
  onDuplicate := []

def placedOrders : List PlacedRow :=
  [⟨⟨"slice-0", "shop", "orders_1", 1⟩,
      ⟨[.literal (.integer 5), .literal (.text "a")], .int 5, none⟩⟩,
    ⟨⟨"slice-0", "shop", "orders_3", 3⟩,
      ⟨[.literal (.integer 7), .literal (.text "b")], .int 7, some 7⟩⟩]

def twoOrdersCalls : List Call :=
  [⟨"slice-0", "shop", "INSERT INTO orders_1 (id, name) VALUES (5, 'a')"⟩,
    ⟨"slice-0", "shop", "INSERT INTO orders_3 (id, name) VALUES (7, 'b')"⟩]

/-- Counts upwards, for every scope alike. -/
def countUp (_ : String) : Planner Int64 Int64 := do
  let n ← get
  set (n + 1)
  return n

theorem planInsert_twoOrders :
    (planInsert (Services.ofRules ⟨[ordersById]⟩ countUp) twoOrders "shop").outcome 7 =
      (.ok (.insert ⟨twoOrdersCalls⟩ (some 7)), 8) := by
  have hkey : (⟨[ordersById]⟩ : RuleTable).shardKey (twoOrders.table.schema.getD "shop")
      twoOrders.table.name = some "id" := rfl
  have hplaced : (InsertTarget.placeAll (Services.ofRules ⟨[ordersById]⟩ countUp)
      (.of twoOrders "shop" "id") 2 twoOrders.rows 1).outcome 7 = (.ok placedOrders, 8) := rfl
  have hcalls : (groupRows placedOrders).map
      (rowsCall twoOrders "shop" (.of twoOrders "shop" "id")) = twoOrdersCalls := rfl
  have hmap : RoutingMap.ofCalls twoOrdersCalls = ⟨twoOrdersCalls⟩ := by decide
  unfold planInsert
  rw [Planner.outcome_bind, Services.ofRules_shardKey, hkey]
  refine (Planner.outcome_bind_of_ok hplaced).trans ?_
  change ((.ok (.insert (.ofCalls ((groupRows placedOrders).map
    (rowsCall twoOrders "shop" (.of twoOrders "shop" "id")))) (generatedId placedOrders)), 8) :
    Except Error Plan × Int64) = _
  rw [hcalls, hmap]
  rfl

theorem two_orders_are_parted :
    ∃ shards, RowPartition ⟨[ordersById]⟩ (.of twoOrders "shop" "id") twoOrders
      [[.literal (.integer 5), .literal (.text "a")], [.literal (.integer 7), .literal (.text "b")]]
      shards twoOrdersCalls := by
  obtain ⟨key, t, ids, shards, hkey, rfl, -, -, -, hids, -, -, hpart⟩ :=
    insert_partitions_rows ⟨[ordersById]⟩ countUp twoOrders "shop" 7 8 _ planInsert_twoOrders
  have hid : "id" = key := Option.some.inj ((show some "id" = _ from rfl).trans hkey)
  subst hid
  have hdraw : (drawKeys countUp "shop.orders" 1).outcome 7 = (.ok [7], 8) := rfl
  have hcount : twoOrders.rows.countP (InsertTarget.lacksKey (.of twoOrders "shop" "id")) = 1 :=
    rfl
  rw [show twoOrders.table.schema.getD "shop" = "shop" from rfl, hcount] at hids
  cases hdraw.symm.trans hids
  exact ⟨shards, hpart⟩

end ShardedSql.Planning
