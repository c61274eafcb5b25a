import ShardedSql.Planning.Statement
import ShardedSql.Proofs.Planning.Steps
import ShardedSql.Proofs.Routing.Placement

namespace ShardedSql.Planning

open Routing (Rule RuleTable Shard)
open Sql (Assignment Expr Select Statement TableRef)

/-- The one table that a SELECT, UPDATE or DELETE is about, and its condition. -/
def onlyTable? : Statement → Option (TableRef × Option Expr)
  | .select s =>
    match s.tableRefs with
    | [ref] => some (ref, s.condition)
    | _ => none
  | .update u => some (u.table, u.condition)
  | .delete d => some (⟨d.table, none⟩, d.condition)
  | .insert _ | .explain _ | .other _ => none

def assignmentsOf : Statement → List Assignment
  | .update u => u.assignments
  | _ => []

/-- The table of a rule as a statement refers to it. -/
def ShardedTable.ofRef (ref : TableRef) (db : String) (r : Rule) : ShardedTable :=
  ⟨ref.table.schema.getD db, ref.table.name, ref.aliasName, r.key⟩

/-- The physical statement for one of so many shards. -/
def callOn (stmt : Statement) (db : String) (t : ShardedTable) (shards : Nat) (shard : Shard) :
    Call :=
  match stmt with
  | .select s =>
    groupCall (splitSelect s shards).1 db [⟨t, []⟩] ⟨shard.slice, shard.db, [shard]⟩
  | .update u => updateCall u db t shard
  | .delete d => deleteCall d db t shard
  | stmt => ⟨shard.slice, shard.db, stmt.sql⟩

variable {σ : Type} {rules : RuleTable} (nextKey : String → Planner σ Int64) {r : Rule}

/-- The shards that a table is routed to: those that its condition says, by increasing index. A
value that no shard owns counts as no condition. -/
theorem route_outcome {t : ShardedTable} (hfind : rules.find? t.db t.name = some r)
    (condition : Option Expr) (st : σ) :
    (t.route (Services.ofRules rules nextKey) condition).outcome st =
      (.ok ((r.reached (t.hint condition)).map (r.shard t.db)), st) := by
  unfold ShardedTable.route
  rw [Planner.outcome_tryCatch, Services.ofRules_route]
  cases hns : r.indexes (t.hint condition) with
  | ok ns =>
    rw [RuleTable.route_of_indexes hfind hns, Rule.reached, hns]
  | error e =>
    obtain ⟨hall, v, rfl⟩ := Rule.indexes_error hns
    rw [RuleTable.route_of_indexes_error hfind hns, Rule.reached, hns]
    dsimp only
    rw [if_neg hall, Services.ofRules_route, RuleTable.route_of_indexes hfind r.indexes_all]

/-- How a reference to a sharded table is routed. -/
theorem ofRef?_of_find {ref : TableRef} {db : String}
    (hfind : rules.find? (ref.table.schema.getD db) ref.table.name = some r)
    (condition : Option Expr) (st : σ) :
    (RoutedTable.ofRef? (Services.ofRules rules nextKey) ref db condition).outcome st =
      (.ok (some ⟨ShardedTable.ofRef ref db r,
        (r.reached ((ShardedTable.ofRef ref db r).hint condition)).map
          (r.shard (ref.table.schema.getD db))⟩), st) := by
  have hroute := route_outcome nextKey (t := ShardedTable.ofRef ref db r) hfind condition st
  unfold RoutedTable.ofRef?
  simp only [Planner.outcome_bind, Services.ofRules_shardKey, RuleTable.shardKey_of_find hfind]
  rw [show (⟨ref.table.schema.getD db, ref.table.name, ref.aliasName, r.key⟩ : ShardedTable) =
    ShardedTable.ofRef ref db r from rfl, hroute]
  rfl

theorem ofRef?_of_find_none {ref : TableRef} {db : String}
    (hfind : rules.find? (ref.table.schema.getD db) ref.table.name = none)
    (condition : Option Expr) (st : σ) :
    (RoutedTable.ofRef? (Services.ofRules rules nextKey) ref db condition).outcome st =
      (.ok none, st) := by
  unfold RoutedTable.ofRef?
  rw [Planner.outcome_bind, Services.ofRules_shardKey, RuleTable.shardKey, hfind]
  rfl

theorem ofRef_outcome (ref : TableRef) (db : String) (condition : Option Expr) (st : σ)
    (hfind : rules.find? (ref.table.schema.getD db) ref.table.name = some r)
    (hcount : r.count ≠ 0) :
    ∃ ns : List Nat, ns.Pairwise (· < ·) ∧
      (∀ n, n ∈ ns ↔ n < r.count.toNat ∧
        r.Reaches n ((ShardedTable.ofRef ref db r).hint condition)) ∧
      (RoutedTable.ofRef? (Services.ofRules rules nextKey) ref db condition).outcome st =
        (.ok (some ⟨ShardedTable.ofRef ref db r,
          ns.map (r.shard (ref.table.schema.getD db))⟩), st) :=
  ⟨_, r.pairwise_reached _, fun _ => Rule.mem_reached hcount,
    ofRef?_of_find nextKey hfind condition st⟩

theorem find?_shard {db : String} {ns : List Nat} {m : Nat} (h : m ∈ ns) :
    (ns.map (r.shard db)).find? (·.index = m) = some (r.shard db m) := by
  have hm : ns.find? (fun n => decide (n = m)) = some m := by
    cases hf : ns.find? fun n => decide (n = m) with
    | none => simpa using List.find?_eq_none.mp hf m h
    | some k => simpa using List.find?_some hf
  rw [List.find?_map]
  change (ns.find? fun n => decide (n = m)).map _ = _
  rw [hm]
  rfl

theorem groups_of_one (t : ShardedTable) (r : Rule) (db : String) (ns : List Nat) (ms : List Nat)
    (h : ∀ m ∈ ms, m ∈ ns) :
    ms.mapM (ShardGroup.at? ⟨t, ns.map (r.shard db)⟩ [⟨t, ns.map (r.shard db)⟩]) =
      .ok (ms.map fun m => ⟨(r.shard db m).slice, (r.shard db m).db, [r.shard db m]⟩) := by
  induction ms with
  | nil => rfl
  | cons m ms ih =>
    have hm : (ns.map (r.shard db)).find? (·.index = m) = some (r.shard db m) :=
      find?_shard (h m (by simp))
    have hgroup : ShardGroup.at? ⟨t, ns.map (r.shard db)⟩ [⟨t, ns.map (r.shard db)⟩] m =
        .ok ⟨(r.shard db m).slice, (r.shard db m).db, [r.shard db m]⟩ := by
      simp [ShardGroup.at?, shardsAt, hm, ShardGroup.ofShards?]
      rfl
    rw [List.mapM_cons, hgroup, ih fun k hk => h k (by simp [hk])]
    rfl

theorem colocate_one (services : Services σ) (t : ShardedTable) (r : Rule) (db : String)
    {ns : List Nat} (hlt : ns.Pairwise (· < ·)) (hne : ns ≠ []) (st : σ) :
    (colocate services ⟨t, ns.map (r.shard db)⟩ []).outcome st =
      (.ok (ns.map fun m => ⟨(r.shard db m).slice, (r.shard db m).db, [r.shard db m]⟩), st) := by
  have hc : commonIndexes ⟨t, ns.map (r.shard db)⟩ [] = ns := by
    have hi : (ns.map (r.shard db)).map (·.index) = ns := by
      rw [List.map_map]
      exact List.map_id ns
    simp [commonIndexes, hi, Routing.increasing_of_pairwise hlt]
  unfold colocate
  rw [hc]
  split
  · exact absurd rfl hne
  · rw [Planner.outcome_liftExcept, groups_of_one t r db ns ns fun _ h => h]

theorem classify_onlyTable {stmt : Statement} {ref : TableRef} {condition : Option Expr}
    (h : onlyTable? stmt = some (ref, condition)) {db : String}
    (hfind : rules.find? (ref.table.schema.getD db) ref.table.name = some r) (st : σ) :
    classify (Services.ofRules rules nextKey) stmt db st = (.shardAware, st) := by
  have hsharded : (isShardedTable (Services.ofRules rules nextKey) db ref.table) st = (true, st) := by
    change (((rules.shardKey _ _).isSome, st) : Bool × σ) = _
    rw [RuleTable.shardKey_of_find hfind]
    rfl
  have hclass (tables : List Sql.TableName) (ht : tables = [ref.table]) :
      (do
        if ← tables.anyM (isShardedTable (Services.ofRules rules nextKey) db) then
          return StatementClass.shardAware
        else return StatementClass.passThrough : StateM σ StatementClass) st = (.shardAware, st) := by
    subst ht
    simp only [List.anyM, bind, StateT.bind, hsharded]
    rfl
  cases stmt with
  | select s =>
    refine hclass _ ?_
    simp only [onlyTable?] at h
    split at h
    · next ref' hrefs =>
      cases h
      simp [referencedTables, hrefs]
    · cases h
  | update u => cases h; exact hclass _ rfl
  | delete d => cases h; exact hclass _ rfl
  | insert _ => cases h
  | explain _ => cases h
  | other _ => cases h

/-- The builder that plans a statement which names a sharded table. -/
def planSharded (services : Services σ) (config : Config) (stmt : Statement) (db sql : String) :
    Planner σ Plan :=
  match stmt with
  | .select s => planSelect services s db
  | .insert i => planInsert services i db
  | .update u => planUpdate services u db
  | .delete d => planDelete services d db
  | .explain _ | .other _ => return planUnshard config db sql

theorem plan_of_not_explain (services : Services σ) (config : Config) {stmt : Statement}
    (h : ∀ inner, stmt ≠ .explain inner) (db sql : String) :
    plan services config stmt db sql = planDirect services config stmt db sql := by
  cases stmt with
  | explain inner => exact absurd rfl (h inner)
  | _ => rfl

theorem planDirect_of_shardAware {services : Services σ} {stmt : Statement} {db : String}
    {st st' : σ} (h : classify services stmt db st = (.shardAware, st')) (config : Config)
    (sql : String) :
    (planDirect services config stmt db sql).outcome st =
      (planSharded services config stmt db sql).outcome st' := by
  unfold planDirect
  rw [Planner.outcome_bind, Planner.outcome_lift, h]
  cases stmt <;> rfl

theorem planSelect_onlyTable {s : Select} {ref : TableRef} (hrefs : s.tableRefs = [ref])
    {db : String} {ns : List Nat} {st : σ} (hlt : ns.Pairwise (· < ·)) (hne : ns ≠ [])
    (hroute : (RoutedTable.ofRef? (Services.ofRules rules nextKey) ref db s.condition).outcome st =
        (.ok (some ⟨ShardedTable.ofRef ref db r,
          ns.map (r.shard (ref.table.schema.getD db))⟩), st)) :
    ∃ merge, (planSelect (Services.ofRules rules nextKey) s db).outcome st =
      (.ok (.select (RoutingMap.ofCalls (ns.map fun n =>
        callOn (.select s) db (ShardedTable.ofRef ref db r) ns.length
          (r.shard (ref.table.schema.getD db) n))) merge), st) := by
  have htables : (routeTables (Services.ofRules rules nextKey) s db).outcome st =
      (.ok [⟨ShardedTable.ofRef ref db r, ns.map (r.shard (ref.table.schema.getD db))⟩], st) := by
    unfold routeTables
    rw [hrefs, List.mapM_cons, List.mapM_nil]
    simp only [Planner.outcome_bind, hroute, Planner.outcome_pure]
    rfl
  unfold planSelect
  rw [Planner.outcome_bind_of_ok htables]
  simp only []
  rw [Planner.outcome_bind_of_ok (colocate_one _ _ r _ hlt hne st)]
  simp only [List.length_map, List.map_map]
  exact ⟨_, rfl⟩

/-- The plan of a statement on one table: one physical statement for each shard that its condition
keeps it on. -/
theorem plan_onlyTable {stmt : Statement} {ref : TableRef} {condition : Option Expr}
    (h : onlyTable? stmt = some (ref, condition)) {db : String}
    (hfind : rules.find? (ref.table.schema.getD db) ref.table.name = some r)
    (hcount : r.count ≠ 0)
    (hset : ∀ a ∈ assignmentsOf stmt, (ShardedTable.ofRef ref db r).isKey a.column = false)
    (hsome : ∃ n < r.count.toNat, r.Reaches n ((ShardedTable.ofRef ref db r).hint condition))
    (config : Config) (sql : String) (st : σ) :
    ∃ (p : Plan) (ns : List Nat), ns.Pairwise (· < ·) ∧
      (∀ n, n ∈ ns ↔ n < r.count.toNat ∧
        r.Reaches n ((ShardedTable.ofRef ref db r).hint condition)) ∧
      (plan (Services.ofRules rules nextKey) config stmt db sql).outcome st = (.ok p, st) ∧
      p.routing = RoutingMap.ofCalls (ns.map fun n =>
        callOn stmt db (ShardedTable.ofRef ref db r) ns.length
          (r.shard (ref.table.schema.getD db) n)) := by
  obtain ⟨ns, hlt, hmem, hroute⟩ := ofRef_outcome nextKey ref db condition st hfind hcount
  have hclass := classify_onlyTable nextKey h hfind st
  have hdirect := planDirect_of_shardAware hclass config sql
  cases stmt with
  | select s =>
    simp only [onlyTable?] at h
    split at h
    · next ref' hrefs =>
      cases h
      obtain ⟨n, hn⟩ := hsome
      have hne : ns ≠ [] := List.ne_nil_of_mem ((hmem n).mpr hn)
      obtain ⟨merge, hplan⟩ := planSelect_onlyTable nextKey hrefs hlt hne hroute
      exact ⟨_, ns, hlt, hmem, hdirect.trans hplan, rfl⟩
    · cases h
  | update u =>
    cases h
    refine ⟨.update _, ns, hlt, hmem, hdirect.trans ?_, rfl⟩
    have hnone : (u.assignments.find? fun a => (ShardedTable.ofRef u.table db r).isKey a.column) =
        none := List.find?_eq_none.mpr fun a ha => by simp [hset a ha]
    change (planUpdate (Services.ofRules rules nextKey) u db).outcome st = _
    unfold planUpdate
    rw [Planner.outcome_bind_of_ok hroute]
    simp only [hnone, Planner.outcome_pure, List.map_map]
    rfl
  | delete d =>
    cases h
    refine ⟨.delete _, ns, hlt, hmem, hdirect.trans ?_, rfl⟩
    change (planDelete (Services.ofRules rules nextKey) d db).outcome st = _
    unfold planDelete
    rw [Planner.outcome_bind_of_ok hroute]
    simp only [Planner.outcome_pure, List.map_map]
    rfl
  | insert _ => cases h
  | explain _ => cases h
  | other _ => cases h

end ShardedSql.Planning
