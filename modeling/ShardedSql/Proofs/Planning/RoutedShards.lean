import ShardedSql.Proofs.Planning.JoinCoverage
import ShardedSql.Proofs.Planning.KeyPruning
import ShardedSql.Proofs.Routing.Routes
import ShardedSql.Proofs.Sql.Statements

namespace ShardedSql.Planning

open Routing (KeyHint KeyValue Rule RuleTable Shard ordersById)
open Sql (BinaryOp ColumnName Derives Expr Rank Statement Token)

namespace ShardedTable

variable {t : ShardedTable}

theorem ofValues?_ne_nil {vs : Option (List KeyValue)} (h : vs ≠ some []) :
    KeyHint.ofValues? vs ≠ .values [] := by
  cases vs with
  | none => simp [KeyHint.ofValues?]
  | some vs => simpa [KeyHint.ofValues?] using h

theorem hintOf_binary_ne_nil {l e : Expr} (op : BinaryOp) (hl : t.hintOf l ≠ .values [])
    (he : t.hintOf e ≠ .values []) : t.hintOf (.binary l op e) ≠ .values [] := by
  have hsingle (v : Option KeyValue) : v.map ([·]) ≠ some [] := by
    cases v <;> simp
  cases op with
  | and => exact both_ne_nil hl he
  | or => exact either_ne_nil (.inl hl)
  | equal =>
    simp only [hintOf]
    split
    · exact ofValues?_ne_nil (hsingle _)
    · split
      · exact ofValues?_ne_nil (hsingle _)
      · simp
  | _ => simp [hintOf]

theorem hintOf_inList_ne_nil {e : Expr} {items : List Expr} (hne : items ≠ []) (negated : Bool) :
    t.hintOf (.inList e items negated) ≠ .values [] := by
  cases negated with
  | true => simp [hintOf]
  | false =>
    simp only [hintOf]
    split
    · refine ofValues?_ne_nil fun hnil => ?_
      obtain ⟨x, xs, rfl⟩ := List.exists_cons_of_ne_nil hne
      rw [List.mapM_cons] at hnil
      obtain ⟨v, -, hnil⟩ := Option.bind_eq_some_iff.mp hnil
      obtain ⟨vs, -, hnil⟩ := Option.bind_eq_some_iff.mp hnil
      cases hnil
    · simp

/-- An expression that is read from a text never pins the empty list of values, whatever becomes of
the names of its columns. -/
theorem hintOf_ne_nil_of_derives {k : Nat} {r : Rank} {e : Expr} {u : List Token}
    (h : Derives k r e u) (f : ColumnName → ColumnName) :
    t.hintOf (e.mapColumns f) ≠ .values [] := by
  induction h with
  | number h =>
    subst h
    unfold Expr.ofNumber
    split <;> simp [Expr.mapColumns, hintOf]
  | chain _ _ _ _ ihl ihe => exact hintOf_binary_ne_nil _ ihl ihe
  | comparison _ _ _ ihl ihe => exact hintOf_binary_ne_nil _ ihl ihe
  | paren _ _ ih => simpa [Expr.mapColumns, hintOf] using ih
  | inList _ _ hne =>
    simp only [Expr.mapColumns, Expr.mapColumnsAll_eq_map]
    exact hintOf_inList_ne_nil (by simpa using hne) _
  | plus _ ih => exact ih
  | tighter _ _ _ ih => exact ih
  | _ => simp [Expr.mapColumns, hintOf]

theorem hint_ne_nil_of_written {k : Nat} {condition : Option Expr}
    (h : ∀ e ∈ condition, e.Written k) : t.hint condition ≠ .values [] := by
  cases condition with
  | none => simp [hint]
  | some e =>
    obtain ⟨x, u, f, hx, -, rfl⟩ := h e rfl
    exact hintOf_ne_nil_of_derives hx f

end ShardedTable

/-- The condition of a SELECT, UPDATE or DELETE. -/
def conditionOf : Statement → Option Expr
  | .select s => s.condition
  | .update u => u.condition
  | .delete d => d.condition
  | .insert _ | .explain _ | .other _ => none

theorem hint_conditionOf_ne_nil_of_written {stmt : Statement} (h : stmt.Written)
    (t : ShardedTable) : t.hint (conditionOf stmt) ≠ .values [] := by
  cases stmt with
  | select s => exact ShardedTable.hint_ne_nil_of_written h.condition
  | update u => exact ShardedTable.hint_ne_nil_of_written h.condition
  | delete d => exact ShardedTable.hint_ne_nil_of_written h
  | insert _ | explain _ | other _ => simp [conditionOf, ShardedTable.hint]

theorem hint_conditionOf_ne_nil {text : String} {stmt : Statement}
    (h : Statement.ofString? text = .ok stmt) (t : ShardedTable) :
    t.hint (conditionOf stmt) ≠ .values [] := by
  rcases Statement.written_of_ofString? h with hwritten | ⟨inner, rfl⟩ | ⟨tokens, rfl⟩
  · exact hint_conditionOf_ne_nil_of_written hwritten t
  · simp [conditionOf, ShardedTable.hint]
  · simp [conditionOf, ShardedTable.hint]

section

variable {σ : Type} {rules : RuleTable} {nextKey : String → Planner σ Int64} {db : String}
  {stmt : Statement} {q : RuledRef} {st st' : σ} {p : Plan}

theorem joinIndexes_one {condition : Option Expr} (hne : q.reached db condition ≠ []) :
    joinIndexes db condition q [] = .ok (q.reached db condition) := by
  have hshared : sharedIndexes db condition q [] = q.reached db condition := by
    simp [sharedIndexes]
  unfold joinIndexes
  rw [hshared]
  split
  · next hnil => exact absurd hnil hne
  · rfl

/-- The plan of a statement on one sharded table makes a call for each index that its condition
keeps. -/
theorem sends_of_plan_ok (hone : ruledRefs rules db stmt.tableRefs = [q])
    (hinsert : ∀ i, stmt ≠ .insert i) (hne : q.reached db (conditionOf stmt) ≠ [])
    {config : Config} {sql : String}
    (hplan : (plan (.ofRules rules nextKey) config stmt db sql).outcome st = (.ok p, st')) :
    ∃ es, Sends rules db stmt p es ∧ es.map (·.index) = q.reached db (conditionOf stmt) := by
  rw [plan_of_ruledRefs (by rw [hone]; exact List.cons_ne_nil _ _)] at hplan
  obtain ⟨hmem, hr⟩ := mem_ruledRefs.mp (hone ▸ List.mem_singleton_self q)
  obtain ⟨ref, r⟩ := q
  have hshards : ∀ k ∈ RuledRef.reached db (conditionOf stmt) ⟨ref, r⟩, r.HasShard k :=
    fun k hk => Rule.hasShard_of_reached hk
  cases stmt with
  | select s =>
    obtain ⟨q', qs, ks, merge, hrefs, hks, htogether, rfl⟩ := planSelect_joined_ok hplan
    cases hone.symm.trans hrefs
    have hsends := sends_joinEmissions hrefs hks htogether merge
    cases (joinIndexes_one hne).symm.trans hks
    exact ⟨_, hsends, index_joinEmissions⟩
  | update u =>
    obtain rfl := List.mem_singleton.mp hmem
    have hupdate := (planUpdate_outcome hr).symm.trans hplan
    split at hupdate
    · cases hupdate
    · cases hupdate
      exact ⟨_, sends_updateEmissions hr hshards, index_updateEmissions⟩
  | delete d =>
    obtain rfl := List.mem_singleton.mp hmem
    cases (planDelete_outcome hr).symm.trans hplan
    exact ⟨_, sends_deleteEmissions hr hshards, index_deleteEmissions⟩
  | insert i => exact absurd rfl (hinsert i)
  | explain _ | other _ => cases hone

/-- A SELECT, UPDATE or DELETE on one sharded table that is read from a text and can be planned makes
one call for each shard that the table is routed to, at the place of the shard, and none for another
shard of the table. It is routed to some of the shards of its rule, and at least to one. -/
theorem one_call_for_each_routed_shard (rules : RuleTable) (hgrown : rules.Grown)
    (nextKey : String → Planner σ Int64) (config : Config) (text : String) (stmt : Statement)
    (db sql : String) (st st' : σ) (p : Plan) (q : RuledRef)
    (hread : Statement.ofString? text = .ok stmt)
    (hone : ruledRefs rules db stmt.tableRefs = [q]) (hinsert : ∀ i, stmt ≠ .insert i)
    (hplan : (plan (.ofRules rules nextKey) config stmt db sql).outcome st = (.ok p, st')) :
    ∃ (shards : List Shard) (es : List Emission),
      ((ShardedTable.ofRef q.ref db q.rule).route (.ofRules rules nextKey)
        (conditionOf stmt)).outcome st = (.ok shards, st) ∧
      shards ≠ [] ∧ shards.Sublist ((List.range q.rule.count.toNat).map (q.shard db)) ∧
      Sends rules db stmt p es ∧
      List.Forall₂ (fun s e => e.call.slice = s.slice ∧ e.call.db = s.db ∧ e.Reads rules db stmt s)
        shards es ∧
      ∀ k, es.countP (fun e => decide (e.Reads rules db stmt (q.shard db k))) =
        if q.shard db k ∈ shards then 1 else 0 := by
  have hq : q ∈ ruledRefs rules db stmt.tableRefs := hone ▸ List.mem_singleton_self q
  have hr := (mem_ruledRefs.mp hq).2
  have hcount : q.rule.count ≠ 0 := hgrown.count_ne_zero hr
  have hne : q.reached db (conditionOf stmt) ≠ [] :=
    Rule.reached_ne_nil hcount (hint_conditionOf_ne_nil hread _)
  obtain ⟨es, hsends, hindex⟩ := sends_of_plan_ok hone hinsert hne hplan
  refine ⟨(q.reached db (conditionOf stmt)).map (q.shard db), es, ?_, by simpa using hne,
    (Rule.sublist_reached hcount _).map _, hsends, ?_, fun k => ?_⟩
  · exact route_outcome nextKey (t := .ofRef q.ref db q.rule) hr (conditionOf stmt) st
  · rw [← hindex, List.map_map, List.forall₂_map_left_iff, List.forall₂_same]
    intro e he
    have honshards := hsends.onShards e he
    obtain ⟨hslice, hdb, -⟩ := honshards.lies q hq
    exact ⟨hslice.symm, hdb.symm, (honshards.reads_iff hq).mpr rfl⟩
  · have hnodup : (q.reached db (conditionOf stmt)).Nodup :=
      (q.rule.pairwise_reached _).imp Nat.ne_of_lt
    have hinjective : Function.Injective (q.shard db) := fun _ _ h => congrArg Shard.index h
    simp only [List.mem_map_of_injective hinjective]
    exact countP_reads hindex hnodup hsends.onShards hq k

end

/-- `UPDATE orders SET n = n + 1 WHERE id IN (1, '1', 5, 6)`. -/
def countOrders : Statement :=
  .update ⟨⟨⟨none, "orders"⟩, none⟩,
    [⟨⟨none, "n"⟩, .binary (.column ⟨none, "n"⟩) .plus (.literal (.integer 1))⟩],
    some (.inList (.column ⟨none, "id"⟩) [.literal (.integer 1), .literal (.text "1"),
      .literal (.integer 5), .literal (.integer 6)] false), none⟩

def countOrdersPlan : Plan :=
  .update ⟨[⟨"slice-0", "shop", "UPDATE orders_1 SET n = n + 1 WHERE id IN (1, '1', 5, 6)"⟩,
    ⟨"slice-0", "shop", "UPDATE orders_2 SET n = n + 1 WHERE id IN (1, '1', 5, 6)"⟩]⟩

theorem orders_of_two_shards_counted_once : ∃ es,
    (plan (.ofRules ⟨[ordersById]⟩ noKeys) .standard countOrders "shop" countOrders.sql).outcome () =
      (.ok countOrdersPlan, ()) ∧
    Sends ⟨[ordersById]⟩ "shop" countOrders countOrdersPlan es ∧
    List.Forall₂ (fun s e => e.call.slice = s.slice ∧ e.call.db = s.db ∧
      e.Reads ⟨[ordersById]⟩ "shop" countOrders s) ([1, 2].map (ordersById.shard "shop")) es := by
  have hread : Statement.ofString? countOrders.sql = .ok countOrders := by decide +kernel
  have hplan : (plan (.ofRules ⟨[ordersById]⟩ noKeys) .standard countOrders "shop"
      countOrders.sql).outcome () = (.ok countOrdersPlan, ()) := rfl
  obtain ⟨shards, es, hroute, -, -, hsends, hcalls, -⟩ := one_call_for_each_routed_shard
    ⟨[ordersById]⟩ RuleTable.grown_ordersById noKeys .standard countOrders.sql countOrders "shop"
    countOrders.sql () () countOrdersPlan ⟨⟨⟨none, "orders"⟩, none⟩, ordersById⟩ hread
    rfl nofun hplan
  have hshards : ((ShardedTable.ofRef ⟨⟨none, "orders"⟩, none⟩ "shop" ordersById).route
      (.ofRules ⟨[ordersById]⟩ noKeys) (conditionOf countOrders)).outcome () =
        (.ok ([1, 2].map (ordersById.shard "shop")), ()) := rfl
  cases hshards.symm.trans hroute
  exact ⟨es, hplan, hsends, hcalls⟩

end ShardedSql.Planning
