import ShardedSql.Proofs.Planning.Agreement
import ShardedSql.Proofs.Planning.Issued
import ShardedSql.Proofs.Planning.Referents
import ShardedSql.Sql.Statement.Parse

namespace ShardedSql.Planning

open Routing (RuleTable ordersById)
open Sql (Insert Statement TableRef)

/-- Whether a qualifier is the name of a sharded table of a statement, and neither an alias there nor
a physical name of the shards of an index. -/
structure IsLogicalName (rules : RuleTable) (db : String) (k : Nat) (refs : List TableRef)
    (q : String) : Prop where
  sharded : ∃ t ∈ refs, (ruleOf? rules db t).isSome ∧ Text.sameName t.table.name q = true
  notAlias : ∀ t ∈ refs, ∀ a, t.aliasName = some a → Text.sameName a q = false
  notPhysical : ∀ t ∈ refs, (ruleOf? rules db t).isSome →
    Text.sameName (physicalName rules db k t) q = false

variable {rules : RuleTable} {db : String} {k : Nat} {refs : List TableRef} {q : String}
  {stmt phys : Statement} {c : Call}

/-- Renaming leaves no logical name: an alias is none, and every other qualifier that is one becomes
physical. -/
theorem not_isLogicalName_qualifier :
    ¬IsLogicalName rules db k refs ((refsRenamer rules db k refs).qualifier q) := by
  intro h
  by_cases halias : ∃ u ∈ refs, ∃ a, u.aliasName = some a ∧ Text.sameName a q = true
  · rw [qualifier_of_alias halias] at h
    obtain ⟨u, hu, a, ha, hq⟩ := halias
    have hno := h.notAlias u hu a ha
    rw [hq] at hno
    cases hno
  · have hnone : ∀ u ∈ refs, ∀ a, u.aliasName = some a → Text.sameName a q = false := by
      intro u hu a ha
      rw [Bool.eq_false_iff]
      intro hq
      exact halias ⟨u, hu, a, ha, hq⟩
    rcases @qualifier_of_not_alias rules db k refs q hnone with
      ⟨u, hu, hsharded, -, hphysical⟩ | ⟨hother, hsame⟩
    · have hno := h.notPhysical u hu hsharded
      rw [hphysical, Text.sameName_refl] at hno
      cases hno
    · obtain ⟨u, hu, hsharded, hname⟩ := h.sharded
      rw [hsame, hother u hu hsharded] at hname
      cases hname

/-- The name of the one table of an INSERT is logical wherever it stands. -/
theorem isLogicalName_insert_iff {i : Insert} (hr : (ruleOf? rules db ⟨i.table, none⟩).isSome) :
    IsLogicalName rules db k [⟨i.table, none⟩] q ↔ Text.sameName i.table.name q = true := by
  constructor
  · intro h
    obtain ⟨t, ht, -, hq⟩ := h.sharded
    obtain rfl := List.mem_singleton.mp ht
    exact hq
  · intro hq
    refine ⟨⟨_, List.mem_singleton_self _, hr, hq⟩, ?_, ?_⟩
    · intro t ht a ha
      obtain rfl := List.mem_singleton.mp ht
      cases ha
    · intro t ht _
      obtain rfl := List.mem_singleton.mp ht
      rw [Text.sameName_comm]
      exact not_sameName_physicalName hr hq

theorem isSome_ruleOf?_of_insert {σ : Type} {nextKey : String → Planner σ Int64} {st : σ} {i : Insert}
    (hclass : (classify (.ofRules rules nextKey) (.insert i) db st).1 = .shardAware) :
    (ruleOf? rules db ⟨i.table, none⟩).isSome := by
  rw [classify_insert] at hclass
  cases hkey : (rules.shardKey (i.table.schema.getD db) i.table.name).isSome with
  | true => rwa [RuleTable.shardKey, Option.isSome_map] at hkey
  | false =>
    rw [hkey] at hclass
    cases hclass

/-- The qualifiers of an INSERT are sent as they are, those of its rows to the shards of the rows and
those of its assignments to every shard. -/
theorem Issued.qualifiers_insert {i : Insert} (h : Issued db (.insert i) c phys) :
    (∀ q ∈ phys.qualifiers, q ∈ i.qualifiers) ∧
      ∀ a ∈ i.onDuplicate, ∀ q ∈ a.qualifiers, q ∈ phys.qualifiers := by
  cases h with
  | insert _ t g hrows =>
    constructor
    · intro q hq
      rcases List.mem_append.mp hq with hq | hq
      · obtain ⟨cell, hcell, hq⟩ := List.mem_flatMap.mp hq
        obtain ⟨cells, hcells, hmem⟩ := List.mem_flatten.mp hcell
        rcases (hrows.2 cells hcells).cell hmem with ⟨row, hrow, hmem⟩ | rfl | ⟨id, rfl⟩
        · have hold : cell ∈ i.rows.flatten := List.mem_flatten.mpr ⟨row, hrow, hmem⟩
          exact List.mem_append_left _ (List.mem_flatMap.mpr ⟨cell, hold, hq⟩)
        · cases hq
        · cases hq
      · exact List.mem_append_right _ hq
    · intro a ha q hq
      exact List.mem_append_right _ (List.mem_flatMap.mpr ⟨a, ha, hq⟩)

/-- The logical names before a point in a statement for shards are those of an INSERT. -/
theorem OnShards.isLogicalName_iff (h : OnShards rules db k stmt c phys)
    (hsharded : ∀ i, stmt = .insert i → (ruleOf? rules db ⟨i.table, none⟩).isSome)
    (hq : q ∈ phys.qualifiers) : IsLogicalName rules db k stmt.tableRefs q ↔
      ∃ i, stmt = .insert i ∧ Text.sameName i.table.name q = true := by
  by_cases hinsert : ∃ i, stmt = .insert i
  · obtain ⟨i, rfl⟩ := hinsert
    have hname : IsLogicalName rules db k [⟨i.table, none⟩] q ↔ Text.sameName i.table.name q = true :=
      isLogicalName_insert_iff (hsharded i rfl)
    constructor
    · intro hlogical
      exact ⟨i, rfl, hname.mp hlogical⟩
    · rintro ⟨i', hi, hq⟩
      cases hi
      exact hname.mpr hq
  · have hother : ∀ i, stmt ≠ .insert i := by
      intro i hi
      exact hinsert ⟨i, hi⟩
    rw [h.qualifiers hother] at hq
    obtain ⟨q', -, rfl⟩ := List.mem_map.mp hq
    constructor
    · intro hlogical
      exact absurd hlogical not_isLogicalName_qualifier
    · rintro ⟨i, hi, -⟩
      exact absurd hi (hother i)

/-- Which logical names are sent. No table reference keeps the name of a sharded table, and the only
qualifiers that do are those of an INSERT with its own name: what its rows and its assignments for
duplicate keys say before a point is not renamed. -/
theorem logical_name_sent_iff {σ : Type} (rules : RuleTable) (nextKey : String → Planner σ Int64)
    (config : Config) (stmt : Statement) (db sql : String) (st st' : σ) (p : Plan)
    (hclass : (classify (.ofRules rules nextKey) stmt db st).1 = .shardAware)
    (h : (plan (.ofRules rules nextKey) config stmt db sql).outcome st = (.ok p, st')) :
    ∀ c ∈ p.routing.calls, ∃ (k : Nat) (phys : Statement), Issued db stmt c phys ∧
      c.sql = phys.sql ∧
      phys.tableRefs.map (fun t => (t.table.name, t.aliasName)) =
        stmt.tableRefs.map (fun t => (physicalName rules db k t, t.aliasName)) ∧
      (∀ t ∈ stmt.tableRefs, (ruleOf? rules db t).isSome →
        Text.sameName t.table.name (physicalName rules db k t) = false) ∧
      (∀ q ∈ phys.qualifiers, IsLogicalName rules db k stmt.tableRefs q ↔
        ∃ i, stmt = .insert i ∧ Text.sameName i.table.name q = true) ∧
      ∀ i, stmt = .insert i → (∀ q ∈ phys.qualifiers, q ∈ i.qualifiers) ∧
        ∀ a ∈ i.onDuplicate, ∀ q ∈ a.qualifiers, q ∈ phys.qualifiers := by
  intro c hc
  obtain ⟨k, phys, hphys⟩ := onShards_of_plan hclass h c hc
  refine ⟨k, phys, hphys.issued, hphys.issued.sql_eq, ?_, ?_, ?_, ?_⟩
  · rw [hphys.tableRefs, List.map_map]
    apply List.map_congr_left
    intro t ht
    rw [Function.comp, name_tableRef_of_mem ht]
    rfl
  · intro t _ hsharded
    exact not_sameName_physicalName hsharded (Text.sameName_refl _)
  · intro q hq
    refine hphys.isLogicalName_iff ?_ hq
    rintro i rfl
    exact isSome_ruleOf?_of_insert hclass
  · rintro i rfl
    exact hphys.issued.qualifiers_insert

/-- `SELECT orders.x FROM orders JOIN users ON orders.uid = users.id WHERE orders.id = 3` is sent
without the name `orders`. -/
theorem orders_of_users_sent_renamed :
    (classify (.ofRules ⟨[ordersById]⟩ noKeys) (.select ordersOfUsers) "shop" ()).1 = .shardAware ∧
    ∀ c ∈ ordersOfUsersPlan.routing.calls, ∃ phys : Statement, c.sql = phys.sql ∧
      ∀ q ∈ phys.qualifiers, Text.sameName "orders" q = false := by
  have hclass : (classify (.ofRules ⟨[ordersById]⟩ noKeys) (.select ordersOfUsers) "shop" ()).1 =
      .shardAware := rfl
  refine ⟨hclass, ?_⟩
  intro c hc
  obtain ⟨k, phys, -, hsql, -, -, hlogical, -⟩ := logical_name_sent_iff ⟨[ordersById]⟩ noKeys
    .standard (.select ordersOfUsers) "shop" ordersOfUsers.sql () () ordersOfUsersPlan hclass
    plan_ordersOfUsers c hc
  refine ⟨phys, hsql, ?_⟩
  intro q hq
  rw [Bool.eq_false_iff]
  intro hname
  have hrefs : ordersOfUsers.tableRefs = [⟨⟨none, "orders"⟩, none⟩, ⟨⟨none, "users"⟩, none⟩] := rfl
  have horders : (ruleOf? ⟨[ordersById]⟩ "shop" ⟨⟨none, "orders"⟩, none⟩).isSome := rfl
  have hname' : IsLogicalName ⟨[ordersById]⟩ "shop" k ordersOfUsers.tableRefs q := by
    refine ⟨⟨_, List.mem_cons_self, horders, hname⟩, ?_, ?_⟩
    · simp [hrefs]
    · intro t ht hsharded
      rw [Text.sameName_comm]
      apply not_sameName_physicalName hsharded
      rw [hrefs] at ht
      rcases List.mem_pair.mp ht with rfl | rfl
      · exact hname
      · exact absurd hsharded (by decide +kernel)
  obtain ⟨i, hi, -⟩ := (hlogical q hq).mp hname'
  cases hi

/-- `INSERT INTO orders (id, n) VALUES (3, 1) ON DUPLICATE KEY UPDATE n = orders.n + 1`. -/
def countedOrder : Insert where
  replace := false
  ignore := false
  table := ⟨none, "orders"⟩
  columns := ["id", "n"]
  rows := [[.literal (.integer 3), .literal (.integer 1)]]
  onDuplicate := [⟨⟨none, "n"⟩,
    .binary (.column ⟨some "orders", "n"⟩) .plus (.literal (.integer 1))⟩]

def countedOrderCall : Call := ⟨"slice-0", "shop",
  "INSERT INTO orders_3 (id, n) VALUES (3, 1) ON DUPLICATE KEY UPDATE n = orders.n + 1"⟩

/-- The assignment of an INSERT is sent with the name `orders`, which no table has there. -/
theorem assignment_sent_with_logical_name :
    (plan (.ofRules ⟨[ordersById]⟩ noKeys) .standard (.insert countedOrder) "shop"
      countedOrder.sql).outcome () = (.ok (.insert ⟨[countedOrderCall]⟩ none), ()) ∧
    Statement.ofString? countedOrderCall.sql =
      .ok (.insert { countedOrder with table := ⟨none, "orders_3"⟩ }) ∧
    Insert.qualifiers { countedOrder with table := ⟨none, "orders_3"⟩ } = ["orders"] ∧
    (∀ k, IsLogicalName ⟨[ordersById]⟩ "shop" k [⟨countedOrder.table, none⟩] "orders") := by
  refine ⟨rfl, by decide +kernel, rfl, ?_⟩
  intro k
  exact (isLogicalName_insert_iff rfl).mpr (by decide)

end ShardedSql.Planning
