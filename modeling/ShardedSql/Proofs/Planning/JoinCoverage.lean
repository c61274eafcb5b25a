import ShardedSql.Proofs.Planning.Emissions
import ShardedSql.Proofs.Planning.TableLocations
import ShardedSql.Proofs.Text.Decimal

namespace ShardedSql.Planning

open Routing (Rule RuleTable Shard)
open Sql (Select Statement)

/-- How many indexes all of some tables have. -/
def commonCount : List RuledRef → Nat
  | [] => 0
  | [q] => q.rule.count.toNat
  | q :: q' :: qs => min q.rule.count.toNat (commonCount (q' :: qs))

/-- Whether the shards of an index of some tables lie on one slice and in one database. -/
def Together (db : String) (qs : List RuledRef) (k : Nat) : Prop :=
  ∀ q ∈ qs, ∀ q' ∈ qs,
    (q.shard db k).slice = (q'.shard db k).slice ∧ (q.shard db k).db = (q'.shard db k).db

instance (db : String) (qs : List RuledRef) (k : Nat) : Decidable (Together db qs k) :=
  inferInstanceAs (Decidable (∀ q ∈ qs, ∀ q' ∈ qs, _))

/-- Whether some tables have an index in common, and the shards of each such index lie together. -/
def Joinable (db : String) (qs : List RuledRef) : Prop :=
  0 < commonCount qs ∧ ∀ k < commonCount qs, Together db qs k

instance (db : String) (qs : List RuledRef) : Decidable (Joinable db qs) :=
  inferInstanceAs (Decidable (_ ∧ ∀ k < commonCount qs, _))

/-- Whether a call reads a shard: the call goes to its slice, and a reference to a sharded table has
become one that means the shard on the connection of the call. -/
def Emission.Reads (rules : RuleTable) (db : String) (stmt : Statement) (e : Emission)
    (shard : Shard) : Prop :=
  e.call.slice = shard.slice ∧ ∃ t ∈ stmt.tableRefs.zip e.phys.tableRefs,
    (ruleOf? rules db t.1).isSome ∧ t.2.table.onConnection e.call.db = (shard.db, shard.table)

instance (rules : RuleTable) (db : String) (stmt : Statement) (e : Emission) (shard : Shard) :
    Decidable (e.Reads rules db stmt shard) := inferInstanceAs (Decidable (_ ∧ ∃ t ∈ _, _))

theorem lt_commonCount {qs : List RuledRef} (hne : qs ≠ []) (k : Nat) :
    k < commonCount qs ↔ ∀ q ∈ qs, k < q.rule.count.toNat := by
  induction qs with
  | nil => exact absurd rfl hne
  | cons q qs ih =>
    cases qs with
    | nil => simp [commonCount]
    | cons q' qs =>
      rw [commonCount, Nat.lt_min, ih (by simp)]
      simp only [List.forall_mem_cons]

section

variable {db : String} {p : RuledRef} {ps : List RuledRef} {k : Nat}

theorem stray?_eq_none_iff : stray? db p ps k = none ↔ Together db (p :: ps) k := by
  have hlies : stray? db p ps k = none ↔ ∀ q ∈ p :: ps,
      (q.shard db k).slice = (p.shard db k).slice ∧ (q.shard db k).db = (p.shard db k).db := by
    unfold stray?
    simp
  rw [hlies]
  constructor
  · intro h q hq q' hq'
    exact ⟨(h q hq).1.trans (h q' hq').1.symm, (h q hq).2.trans (h q' hq').2.symm⟩
  · exact fun h q hq => h q hq p List.mem_cons_self

theorem reached_none (p : RuledRef) (db : String) :
    p.reached db none = List.range p.rule.count.toNat := by
  simp [RuledRef.reached, ShardedTable.hint, Rule.reached, Rule.indexes_all]

theorem filter_range_of_le {m n : Nat} (h : m ≤ n) :
    (List.range n).filter (fun k => decide (k < m)) = List.range m := by
  obtain ⟨d, rfl⟩ := Nat.exists_eq_add_of_le h
  have hlow : (List.range m).filter (fun k => decide (k < m)) = List.range m :=
    List.filter_eq_self.mpr fun k hk => by simpa using hk
  have hhigh : ((List.range d).map (m + ·)).filter (fun k => decide (k < m)) = [] :=
    List.filter_eq_nil_iff.mpr fun k hk => by
      obtain ⟨j, -, rfl⟩ := List.mem_map.mp hk
      simp
  rw [List.range_add, List.filter_append, hlow, hhigh, List.append_nil]

theorem sharedIndexes_none :
    sharedIndexes db none p ps = List.range (commonCount (p :: ps)) := by
  have hle : commonCount (p :: ps) ≤ p.rule.count.toNat := by
    by_contra hlt
    have hp := (lt_commonCount (List.cons_ne_nil p ps) p.rule.count.toNat).mp (by omega) p (by simp)
    omega
  rw [← filter_range_of_le hle, sharedIndexes, reached_none]
  apply List.filter_congr
  intro k hk
  rw [Bool.eq_iff_iff, decide_eq_true_iff, lt_commonCount (List.cons_ne_nil p ps)]
  simpa [reached_none] using fun _ => List.mem_range.mp hk

/-- Without a condition a join makes calls for all indexes that its tables have in common, and for
none only if there are none. -/
theorem joinIndexes_none (db : String) (p : RuledRef) (ps : List RuledRef) :
    (commonCount (p :: ps) = 0 ∧ ∃ e, joinIndexes db none p ps = .error e) ∨
    (0 < commonCount (p :: ps) ∧
      joinIndexes db none p ps = .ok (List.range (commonCount (p :: ps)))) := by
  unfold joinIndexes
  rw [sharedIndexes_none, reached_none]
  cases hcount : commonCount (p :: ps) with
  | succ n =>
    right
    refine ⟨Nat.succ_pos n, ?_⟩
    rw [List.range_succ_eq_map]
  | zero =>
    left
    refine ⟨rfl, ?_⟩
    cases hp : p.rule.count.toNat with
    | zero => exact ⟨_, rfl⟩
    | succ m =>
      have hsome : ((p :: ps).find? fun q => decide (0 ∉ List.range q.rule.count.toNat)).isSome := by
        have hnot := (lt_commonCount (List.cons_ne_nil p ps) 0).not.mp (by omega)
        simp only [not_forall] at hnot
        obtain ⟨q, hq, hzero⟩ := hnot
        rw [List.find?_isSome]
        exact ⟨q, hq, by simpa using hzero⟩
      obtain ⟨q, hq⟩ := Option.isSome_iff_exists.mp hsome
      rw [List.range_succ_eq_map, List.range_zero]
      dsimp only
      rw [hq]
      exact ⟨_, rfl⟩

end

variable {rules : RuleTable} {db : String} {stmt phys : Statement} {c : Call} {k j : Nat}
  {q : RuledRef}

/-- A call for the shards of an index reads those and no others. -/
theorem OnShards.reads_iff (h : OnShards rules db k stmt c phys)
    (hq : q ∈ ruledRefs rules db stmt.tableRefs) :
    (Emission.mk k c phys).Reads rules db stmt (q.shard db j) ↔ k = j := by
  have hlies := h.lies q hq
  have hzip : stmt.tableRefs.zip phys.tableRefs =
      stmt.tableRefs.map fun t => (t, (refsRenamer rules db k stmt.tableRefs).tableRef t) := by
    rw [h.tableRefs]
    exact List.map_prod_left_eq_zip.symm
  constructor
  · rintro ⟨-, t, ht, hsharded, hmeans⟩
    rw [hzip] at ht
    obtain ⟨t, htable, rfl⟩ := List.mem_map.mp ht
    obtain ⟨r, hr⟩ := Option.isSome_iff_exists.mp hsharded
    have hname := (Prod.mk.inj ((h.onConnection_tableRef htable hr).symm.trans hmeans)).2
    have hfirst := RuledRef.table_shard ⟨t, r⟩ db k
    change (r.shard (t.table.schema.getD db) k).table = _ at hfirst
    rw [hfirst, q.table_shard] at hname
    exact Text.number_eq_of_append hname
  · rintro rfl
    obtain ⟨hmem, hr⟩ := mem_ruledRefs.mp hq
    refine ⟨hlies.1.symm, _, hzip ▸ List.mem_map_of_mem hmem, by simp [hr], ?_⟩
    rw [hlies.2.1]
    exact h.onConnection_tableRef hmem hr

/-- How often calls for different indexes read a shard. -/
theorem countP_reads {es : List Emission} {ks : List Nat} (hindex : es.map (·.index) = ks)
    (hks : ks.Nodup) (h : ∀ e ∈ es, OnShards rules db e.index stmt e.call e.phys)
    (hq : q ∈ ruledRefs rules db stmt.tableRefs) (j : Nat) :
    es.countP (fun e => decide (e.Reads rules db stmt (q.shard db j))) =
      if j ∈ ks then 1 else 0 := by
  have hreads : es.countP (fun e => decide (e.Reads rules db stmt (q.shard db j))) =
      es.countP ((fun k => decide (k = j)) ∘ fun e => e.index) := by
    apply List.countP_congr
    intro e he
    simpa using (h e he).reads_iff hq
  have hcount : ks.countP (fun k => decide (k = j)) = ks.count j := by
    apply List.countP_congr
    simp
  rw [hreads, ← List.countP_map, hindex, hcount, hks.count]

/-- All indexes of some tables are common to them exactly if the tables have equally many. -/
theorem all_common_iff {qs : List RuledRef} :
    (∀ q ∈ qs, ∀ k < q.rule.count.toNat, k < commonCount qs) ↔
      ∀ q ∈ qs, ∀ q' ∈ qs, q.rule.count = q'.rule.count := by
  constructor
  · intro h q hq q' hq'
    have hle : ∀ a ∈ qs, ∀ b ∈ qs, a.rule.count.toNat ≤ b.rule.count.toNat := by
      intro a ha b hb
      by_contra hlt
      have hb' := (lt_commonCount (List.ne_nil_of_mem ha) _).mp
        (h a ha b.rule.count.toNat (by omega)) b hb
      omega
    have hle₁ := hle q hq q' hq'
    have hle₂ := hle q' hq' q hq
    exact UInt64.toNat_inj.mp (by omega)
  · intro h q hq k hk
    apply (lt_commonCount (List.ne_nil_of_mem hq) k).mpr
    intro q' hq'
    rwa [← h q hq q' hq']

/-- A join without a condition is planned exactly if it is joinable, and then for all indexes that its
tables have in common. -/
theorem planSelect_unconditioned {σ : Type} (nextKey : String → Planner σ Int64) (st : σ)
    {s : Select} {p : RuledRef} {ps : List RuledRef} (hrefs : ruledRefs rules db s.tableRefs = p :: ps)
    (hall : s.condition = none) :
    (∃ e, (planSelect (.ofRules rules nextKey) s db).outcome st = (.error e, st)) ∧
      ¬Joinable db (p :: ps) ∨
    ∃ plan, (planSelect (.ofRules rules nextKey) s db).outcome st = (.ok plan, st) ∧
      Joinable db (p :: ps) ∧ Sends rules db (.select s) plan
        (joinEmissions db s p ps (List.range (commonCount (p :: ps)))) := by
  have hindexes := joinIndexes_none db p ps
  have hplan := planSelect_joined nextKey st hrefs
  rw [hall] at hplan
  rcases hindexes with ⟨hzero, e, herror⟩ | ⟨hpos, hok⟩
  · have hnot : ¬Joinable db (p :: ps) := by
      intro hjoin
      have hpos := hjoin.1
      omega
    rcases hplan with ⟨e, -, hplan⟩ | ⟨ks, k, q, hks, -⟩ | ⟨ks, merge, hks, -⟩
    · exact .inl ⟨⟨e, hplan⟩, hnot⟩
    · cases herror.symm.trans hks
    · cases herror.symm.trans hks
  · rcases hplan with
      ⟨e, herror, -⟩ | ⟨ks, k, q, hks, hk, hq, hplan⟩ | ⟨ks, merge, hks, htogether, hplan⟩
    · cases herror.symm.trans hok
    · cases hks.symm.trans hok
      refine .inl ⟨⟨_, hplan⟩, fun hjoin => ?_⟩
      rw [stray?_eq_none_iff.mpr (hjoin.2 k (List.mem_range.mp hk))] at hq
      cases hq
    · cases hks.symm.trans hok
      rw [← hall] at hks
      refine .inr ⟨_, hplan, ⟨hpos, fun k hk => ?_⟩, sends_joinEmissions hrefs hks htogether merge⟩
      exact stray?_eq_none_iff.mp (htogether k (List.mem_range.mpr hk))

/-- What a join without a condition reads. It is refused if its tables have no index in common, or an
index whose shards lie apart. Otherwise a shard is read by one call if its index is common to all of
the tables, and by none if it is not. So every shard is read once exactly if the tables have equally
many. -/
theorem join_reads_common_shards {σ : Type} (rules : RuleTable) (nextKey : String → Planner σ Int64)
    (config : Config) (s : Select) (db sql : String) (st : σ)
    (hsharded : ruledRefs rules db s.tableRefs ≠ []) (hall : s.condition = none) :
    (∃ e, (plan (.ofRules rules nextKey) config (.select s) db sql).outcome st = (.error e, st)) ∧
      ¬Joinable db (ruledRefs rules db s.tableRefs) ∨
    ∃ (p : Plan) (es : List Emission),
      (plan (.ofRules rules nextKey) config (.select s) db sql).outcome st = (.ok p, st) ∧
      Joinable db (ruledRefs rules db s.tableRefs) ∧ Sends rules db (.select s) p es ∧
      (∀ q ∈ ruledRefs rules db s.tableRefs, ∀ k,
        es.countP (fun e => decide (e.Reads rules db (.select s) (q.shard db k))) =
          if k < commonCount (ruledRefs rules db s.tableRefs) then 1 else 0) ∧
      ((∀ q ∈ ruledRefs rules db s.tableRefs, ∀ k < q.rule.count.toNat,
        es.countP (fun e => decide (e.Reads rules db (.select s) (q.shard db k))) = 1) ↔
          ∀ q ∈ ruledRefs rules db s.tableRefs, ∀ q' ∈ ruledRefs rules db s.tableRefs,
            q.rule.count = q'.rule.count) := by
  obtain ⟨p, ps, hrefs⟩ := List.exists_cons_of_ne_nil hsharded
  have hne : ruledRefs rules db (Statement.select s).tableRefs ≠ [] := hsharded
  rw [plan_of_ruledRefs hne config sql, hrefs]
  rcases planSelect_unconditioned nextKey st hrefs hall with
    hfails | ⟨plan, hplan, hjoin, hsends⟩
  · exact .inl hfails
  have hcount : ∀ q ∈ p :: ps, ∀ k,
      (joinEmissions db s p ps (List.range (commonCount (p :: ps)))).countP
        (fun e => decide (e.Reads rules db (.select s) (q.shard db k))) =
          if k < commonCount (p :: ps) then 1 else 0 := by
    intro q hq k
    rw [← hrefs] at hq
    simpa only [List.mem_range] using
      countP_reads index_joinEmissions List.nodup_range hsends.onShards hq k
  refine .inr ⟨plan, _, hplan, hjoin, hsends, hcount, ?_⟩
  rw [← all_common_iff]
  apply forall₂_congr
  intro q hq
  apply forall₂_congr
  intro k _
  rw [hcount q hq k]
  simp

def ordersInTwo : Rule := .new "shop" "orders" "id" 2

def itemsInTwo : Rule := .new "shop" "items" "order_id" 2

def itemsInFour : Rule := .new "shop" "items" "order_id" 4

/-- `SELECT * FROM orders JOIN items ON orders.id = items.order_id`. -/
def ordersWithItems : Select where
  distinct := false
  items := [.star]
  sources := [⟨⟨none, "orders"⟩, none⟩]
  joins := [⟨.inner, ⟨⟨none, "items"⟩, none⟩,
    some (.binary (.column ⟨some "orders", "id"⟩) .equal (.column ⟨some "items", "order_id"⟩))⟩]
  condition := none
  groupBy := []
  having := none
  orderBy := []
  limit := none
  forUpdate := false

theorem orders_in_two_read_with_items_in_two :
    ruledRefs ⟨[ordersInTwo, itemsInTwo]⟩ "shop" ordersWithItems.tableRefs ≠ [] ∧
    ∃ (p : Plan) (es : List Emission),
      (plan (.ofRules ⟨[ordersInTwo, itemsInTwo]⟩ noKeys) .standard (.select ordersWithItems) "shop"
        ordersWithItems.sql).outcome () = (.ok p, ()) ∧
      Sends ⟨[ordersInTwo, itemsInTwo]⟩ "shop" (.select ordersWithItems) p es ∧
      ∀ q ∈ ruledRefs ⟨[ordersInTwo, itemsInTwo]⟩ "shop" ordersWithItems.tableRefs,
        ∀ k < q.rule.count.toNat, es.countP (fun e => decide (e.Reads ⟨[ordersInTwo, itemsInTwo]⟩
          "shop" (.select ordersWithItems) (q.shard "shop" k))) = 1 := by
  have hsharded : ruledRefs ⟨[ordersInTwo, itemsInTwo]⟩ "shop" ordersWithItems.tableRefs ≠ [] := by
    decide +kernel
  refine ⟨hsharded, ?_⟩
  rcases join_reads_common_shards ⟨[ordersInTwo, itemsInTwo]⟩ noKeys .standard ordersWithItems "shop"
    ordersWithItems.sql () hsharded rfl with ⟨-, hnot⟩ | ⟨p, es, hplan, -, hsends, -, hall⟩
  · exact absurd (by decide +kernel) hnot
  · exact ⟨p, es, hplan, hsends, hall.mpr (by decide +kernel)⟩

def ordersWithItemsPlan : Plan :=
  .select
    ⟨[⟨"slice-0", "shop", "SELECT * FROM orders_0 JOIN items_0 ON orders_0.id = items_0.order_id"⟩,
      ⟨"slice-0", "shop", "SELECT * FROM orders_1 JOIN items_1 ON orders_1.id = items_1.order_id"⟩]⟩
    ⟨[], none, [("items_1", "items"), ("orders_1", "orders"), ("items_0", "items"),
      ("orders_0", "orders")]⟩

/-- Two of the four shards of `items` are read by no call. -/
theorem half_of_items_in_four_not_read :
    (plan (.ofRules ⟨[ordersInTwo, itemsInFour]⟩ noKeys) .standard (.select ordersWithItems) "shop"
      ordersWithItems.sql).outcome () = (.ok ordersWithItemsPlan, ()) ∧
    2 < itemsInFour.count.toNat ∧ (itemsInFour.shard "shop" 2).table = "items_2" ∧
    ordersWithItemsPlan.routing.calls.map (fun c => (Statement.ofString? c.sql).toOption.map
      fun phys => phys.tableRefs.map (·.table.onConnection c.db)) =
        [some [("shop", "orders_0"), ("shop", "items_0")],
          some [("shop", "orders_1"), ("shop", "items_1")]] :=
  ⟨by decide +kernel, by decide, rfl, by decide +kernel⟩

end ShardedSql.Planning
