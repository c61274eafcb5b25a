import ShardedSql.Proofs.Planning.Builders
import ShardedSql.Proofs.Planning.InsertPartition
import ShardedSql.Proofs.Planning.Qualifiers
import ShardedSql.Proofs.Planning.ShardNames

namespace ShardedSql.Planning

open Routing (Rule RuleTable Shard)
open Sql (Delete Expr Insert Select Statement TableRef Update)

namespace InsertTarget

variable {t : InsertTarget} {rows : List (List Expr)} {cells : List Expr}

/-- Whether a row is one of a statement, with a place for its key and perhaps a new key there. -/
def Fills (t : InsertTarget) (rows : List (List Expr)) (cells : List Expr) : Prop :=
  ∃ row ∈ rows, cells = t.widen row ∨
    ∃ id : Int64, cells = (t.widen row).set t.keyPlace (.literal (.integer id))

theorem fills_of_mem_fillAll {ids : List Int64} (h : cells ∈ t.fillAll rows ids) :
    t.Fills rows cells := by
  induction rows generalizing ids with
  | nil => cases h
  | cons row rows ih =>
    have hrest : ∀ {ids : List Int64}, cells ∈ t.fillAll rows ids → t.Fills (row :: rows) cells := by
      intro ids hmem
      obtain ⟨row', hrow', hcells⟩ := ih hmem
      exact ⟨row', List.mem_cons_of_mem _ hrow', hcells⟩
    unfold fillAll at h
    split at h
    · rcases List.mem_cons.mp h with rfl | h
      · exact ⟨row, List.mem_cons_self, .inr ⟨_, rfl⟩⟩
      · exact hrest h
    · rcases List.mem_cons.mp h with rfl | h
      · exact ⟨row, List.mem_cons_self, .inl rfl⟩
      · exact hrest h

/-- The values of a filled row: those of the statement, NULL for a place that is not used, and a
new key. -/
theorem Fills.cell (h : t.Fills rows cells) {c : Expr} (hc : c ∈ cells) :
    (∃ row ∈ rows, c ∈ row) ∨ c = .literal .null ∨ ∃ id, c = .literal (.integer id) := by
  obtain ⟨row, hrow, hcells⟩ := h
  have hwiden : c ∈ t.widen row → c ∈ row ∨ c = .literal .null := by
    unfold widen
    split
    · simp
    · exact .inl
  have hold : c ∈ t.widen row → (∃ row ∈ rows, c ∈ row) ∨ c = .literal .null ∨
      ∃ id, c = .literal (.integer id) := fun hmem =>
    (hwiden hmem).imp (fun hmem => ⟨row, hrow, hmem⟩) .inl
  rcases hcells with rfl | ⟨id, rfl⟩
  · exact hold hc
  · rcases List.mem_or_eq_of_mem_set hc with hc | rfl
    · exact hold hc
    · exact .inr (.inr ⟨id, rfl⟩)

end InsertTarget

/-- What a call of the plan of a statement is printed from: the statement with physical names, and
with the limit or the rows of the shard. -/
inductive Issued (db : String) : Statement → Call → Statement → Prop
  | select (s : Select) (shards : Nat) (tables : List RoutedTable) (g : ShardGroup) :
      Issued db (.select s) (groupCall (splitSelect s shards).1 db tables g)
        (.select (renameSelect db (renamings tables g) (splitSelect s shards).1))
  | insert (i : Insert) (t : InsertTarget) (g : RowGroup)
      (hrows : g.rows ≠ [] ∧ ∀ cells ∈ g.rows, t.Fills i.rows cells) :
      Issued db (.insert i) ⟨g.shard.slice, g.shard.db, (t.shardInsert i g.shard g.rows).sql⟩
        (.insert (t.shardInsert i g.shard g.rows))
  | update (u : Update) (t : ShardedTable) (shard : Shard) :
      Issued db (.update u) (updateCall u db t shard)
        (.update (renameUpdate db [Renaming.toShard t.db t.name shard] u))
  | delete (d : Delete) (t : ShardedTable) (shard : Shard) :
      Issued db (.delete d) (deleteCall d db t shard)
        (.delete (renameDelete db [Renaming.toShard t.db t.name shard] d))

theorem Issued.sql_eq {db : String} {stmt phys : Statement} {c : Call}
    (h : Issued db stmt c phys) : c.sql = phys.sql := by
  cases h <;> rfl

variable {σ : Type} {rules : RuleTable} {nextKey : String → Planner σ Int64} {db : String}
  {st st' : σ} {p : Plan}

/-- The rows of a group are rows of the statement with their keys. -/
theorem fills_of_mem_groupRows {i : Insert} {key : String} {number : Nat} {placed : List PlacedRow}
    (hplaced : ((InsertTarget.of i (i.table.schema.getD db) key).placeAll
      (.ofRules rules nextKey) i.columns.length i.rows number).outcome st = (.ok placed, st'))
    {g : RowGroup} (hg : g ∈ groupRows placed) : g.rows ≠ [] ∧
      ∀ cells ∈ g.rows, (InsertTarget.of i (i.table.schema.getD db) key).Fills i.rows cells := by
  obtain ⟨ids, -, hcells, -⟩ :=
    InsertTarget.placeAll_outcome (fun row => InsertTarget.keyPlace_lt i _ key) hplaced
  have hgrouped := grouped_groupRows placed
  obtain ⟨q, hq, hqg⟩ := hgrouped.source g hg
  rw [hgrouped.rows g hg]
  refine ⟨List.ne_nil_of_mem (a := q.row.cells) ?_, fun cells hmem => ?_⟩
  · exact List.mem_map_of_mem (List.mem_filter.mpr ⟨hq, by simp [hqg]⟩)
  · obtain ⟨r, hr, rfl⟩ := List.mem_map.mp hmem
    have hfilled : r.row.cells ∈ InsertTarget.fillAll _ i.rows ids :=
      hcells ▸ List.mem_map_of_mem (List.mem_filter.mp hr).1
    exact InsertTarget.fills_of_mem_fillAll hfilled

theorem plan_of_shardAware {services : Services σ} {stmt : Statement}
    (h : classify services stmt db st = (.shardAware, st')) (config : Config) (sql : String) :
    (plan services config stmt db sql).outcome st =
      (planSharded services config stmt db sql).outcome st' := by
  rw [← planDirect_of_shardAware h config sql]
  cases stmt with
  | explain _ => cases h
  | select _ | insert _ | update _ | delete _ | other _ => rfl

/-- That a call of the plan of a statement is for the shards of an index, and what it is printed from
names them in the place of their tables. -/
structure OnShards (rules : RuleTable) (db : String) (k : Nat) (stmt : Statement) (c : Call)
    (phys : Statement) : Prop where
  issued : Issued db stmt c phys
  lies : ∀ p ∈ ruledRefs rules db stmt.tableRefs,
    (p.shard db k).slice = c.slice ∧ (p.shard db k).db = c.db ∧ p.rule.HasShard k
  tableRefs : phys.tableRefs = stmt.tableRefs.map (refsRenamer rules db k stmt.tableRefs).tableRef
  qualifiers : (∀ i, stmt ≠ .insert i) →
    phys.qualifiers = stmt.qualifiers.map (refsRenamer rules db k stmt.tableRefs).qualifier

theorem onShards_joinCall {s : Select} {q : RuledRef} {qs : List RuledRef} {k n : Nat}
    (hrefs : ruledRefs rules db s.tableRefs = q :: qs) (hshard : ∀ r ∈ q :: qs, r.rule.HasShard k)
    (htogether : stray? db q qs k = none) :
    OnShards rules db k (.select s) (joinCall db s q qs n k)
      (.select (shardSelect db s (q :: qs) n k)) := by
  have hrenamer : selectRenamer db ((q :: qs).map (RuledRef.rename db k)) (splitSelect s n).1 =
      refsRenamer rules db k s.tableRefs := by
    rw [selectRenamer, tableRefs_splitSelect, refsRenamer, hrefs]
  have htables := tableRefs_renameSelect db ((q :: qs).map (RuledRef.rename db k)) (splitSelect s n).1
  have hqualifiers := qualifiers_renameSelect db ((q :: qs).map (RuledRef.rename db k))
    (splitSelect s n).1
  rw [hrenamer, tableRefs_splitSelect] at htables
  rw [hrenamer, qualifiers_splitSelect] at hqualifiers
  have hissued : Issued db (.select s) _ _ :=
    .select s n ((q :: qs).map (RuledRef.routed db none)) (groupOf db q qs k)
  rw [groupCall_groupOf, renamings_groupOf] at hissued
  refine ⟨hissued, ?_, htables, fun _ => hqualifiers⟩
  intro r hr
  rw [Statement.tableRefs, hrefs] at hr
  have hlies := lies_of_together htogether r hr
  exact ⟨hlies.1, hlies.2, hshard r hr⟩

theorem onShards_of_planSelect {s : Select}
    (h : (planSelect (.ofRules rules nextKey) s db).outcome st = (.ok p, st')) :
    ∀ c ∈ p.routing.calls, ∃ k phys, OnShards rules db k (.select s) c phys := by
  obtain ⟨q, qs, ks, merge, hrefs, hks, htogether, rfl⟩ := planSelect_joined_ok h
  intro c hc
  obtain ⟨k, hk, rfl⟩ := RoutingMap.mem_ofCalls_map.mp hc
  exact ⟨k, _, onShards_joinCall hrefs (hasShard_of_joinIndexes hks hk) (htogether k hk)⟩

/-- How the table of an UPDATE or DELETE was routed, which is sharded then. -/
theorem routedRef_ok {ref : TableRef} {condition : Option Expr} {t : RoutedTable}
    (h : (RoutedTable.ofRef? (.ofRules rules nextKey) ref db condition).outcome st =
      (.ok (some t), st')) :
    ∃ r, ruledRefs rules db [ref] = [⟨ref, r⟩] ∧ t.table = .ofRef ref db r ∧
      ∀ shard ∈ t.shards, ∃ k, shard = r.shard (ref.table.schema.getD db) k ∧ r.HasShard k := by
  cases hr : ruleOf? rules db ref with
  | none =>
    rw [ofRef?_of_find_none nextKey hr] at h
    cases h
  | some r =>
    rw [ofRef?_of_find nextKey hr] at h
    cases h
    refine ⟨r, ruledRefs_singleton hr, rfl, ?_⟩
    intro shard hmem
    obtain ⟨k, hk, rfl⟩ := List.mem_map.mp hmem
    exact ⟨k, rfl, Rule.hasShard_of_reached hk⟩

theorem onShards_updateCall {u : Update} {r : Rule} {k : Nat}
    (hruled : ruledRefs rules db [u.table] = [⟨u.table, r⟩]) (hk : r.HasShard k) :
    OnShards rules db k (.update u)
      (updateCall u db (.ofRef u.table db r) (RuledRef.shard db k ⟨u.table, r⟩))
      (.update (renameUpdate db [RuledRef.rename db k ⟨u.table, r⟩] u)) := by
  have hrenamer := refsRenamer_singleton (k := k) hruled
  have hqualifiers := qualifiers_renameUpdate db [RuledRef.rename db k ⟨u.table, r⟩] u
  rw [← hrenamer] at hqualifiers
  refine ⟨.update u _ _, ?_, ?_, fun _ => hqualifiers⟩
  · simpa only [Statement.tableRefs, hruled, List.forall_mem_singleton] using ⟨rfl, rfl, hk⟩
  · simp only [Statement.tableRefs, hrenamer]
    rfl

theorem onShards_of_planUpdate {u : Update}
    (h : (planUpdate (.ofRules rules nextKey) u db).outcome st = (.ok p, st')) :
    ∀ c ∈ p.routing.calls, ∃ k phys, OnShards rules db k (.update u) c phys := by
  obtain ⟨t, hroute, rfl⟩ := planUpdate_cases h
  obtain ⟨r, hruled, htable, hshards⟩ := routedRef_ok hroute
  intro c hc
  obtain ⟨shard, hmem, rfl⟩ := RoutingMap.mem_ofCalls_map.mp hc
  obtain ⟨k, rfl, hk⟩ := hshards shard hmem
  rw [htable]
  exact ⟨k, _, onShards_updateCall hruled hk⟩

theorem onShards_deleteCall {d : Delete} {r : Rule} {k : Nat}
    (hruled : ruledRefs rules db [⟨d.table, none⟩] = [⟨⟨d.table, none⟩, r⟩]) (hk : r.HasShard k) :
    OnShards rules db k (.delete d)
      (deleteCall d db (.ofRef ⟨d.table, none⟩ db r) (RuledRef.shard db k ⟨⟨d.table, none⟩, r⟩))
      (.delete (renameDelete db [RuledRef.rename db k ⟨⟨d.table, none⟩, r⟩] d)) := by
  have hrenamer := refsRenamer_singleton (k := k) hruled
  have hqualifiers := qualifiers_renameDelete db [RuledRef.rename db k ⟨⟨d.table, none⟩, r⟩] d
  refine ⟨.delete d _ _, ?_, ?_, fun _ => ?_⟩
  · simpa only [Statement.tableRefs, hruled, List.forall_mem_singleton] using ⟨rfl, rfl, hk⟩
  · simp only [Statement.tableRefs, hrenamer]
    rfl
  · simp only [Statement.tableRefs, hrenamer]
    exact hqualifiers

theorem onShards_of_planDelete {d : Delete}
    (h : (planDelete (.ofRules rules nextKey) d db).outcome st = (.ok p, st')) :
    ∀ c ∈ p.routing.calls, ∃ k phys, OnShards rules db k (.delete d) c phys := by
  obtain ⟨t, hroute, rfl⟩ := planDelete_cases h
  obtain ⟨r, hruled, htable, hshards⟩ := routedRef_ok hroute
  intro c hc
  obtain ⟨shard, hmem, rfl⟩ := RoutingMap.mem_ofCalls_map.mp hc
  obtain ⟨k, rfl, hk⟩ := hshards shard hmem
  rw [htable]
  exact ⟨k, _, onShards_deleteCall hruled hk⟩

/-- The shard of a group of placed rows is one of the rule of their table. -/
theorem shard_of_mem_groupRows {i : Insert} {key : String} {r : Rule}
    (hr : rules.find? (i.table.schema.getD db) i.table.name = some r) {placed : List PlacedRow}
    (hplaced : ((InsertTarget.of i (i.table.schema.getD db) key).placeAll
      (.ofRules rules nextKey) i.columns.length i.rows 1).outcome st = (.ok placed, st'))
    {g : RowGroup} (hg : g ∈ groupRows placed) :
    g.shard = r.shard (i.table.schema.getD db) g.shard.index ∧ r.HasShard g.shard.index := by
  obtain ⟨-, -, -, -, hhome⟩ :=
    InsertTarget.placeAll_outcome (fun row => InsertTarget.keyPlace_lt i _ key) hplaced
  obtain ⟨q, hq, hqg⟩ := (grouped_groupRows placed).source g hg
  rw [← InsertTarget.of_db i (i.table.schema.getD db) key, ← InsertTarget.of_table i _ key] at hr
  have hshard := InsertTarget.shard_of_homeOf hr (hhome q hq)
  rwa [hqg, InsertTarget.of_db] at hshard

theorem onShards_of_planInsert {i : Insert}
    (h : (planInsert (.ofRules rules nextKey) i db).outcome st = (.ok p, st')) :
    ∀ c ∈ p.routing.calls, ∃ k phys, OnShards rules db k (.insert i) c phys := by
  obtain ⟨key, st₁, placed, hkey, hplaced, rfl⟩ := planInsert_cases h
  obtain ⟨r, hr, -⟩ := Option.map_eq_some_iff.mp (Prod.mk.inj hkey).1
  have hruled : ruledRefs rules db [⟨i.table, none⟩] = [⟨⟨i.table, none⟩, r⟩] :=
    ruledRefs_singleton hr
  intro c hc
  obtain ⟨g, hg, rfl⟩ := RoutingMap.mem_ofCalls_map.mp hc
  rw [rowsCall_eq i db key g.shard g.rows]
  obtain ⟨hshard, hk⟩ := shard_of_mem_groupRows hr hplaced hg
  have hrenamer := refsRenamer_singleton (k := g.shard.index) hruled
  refine ⟨g.shard.index, _, .insert i _ g (fills_of_mem_groupRows hplaced hg), ?_, ?_, ?_⟩
  · simp only [Statement.tableRefs, hruled, List.forall_mem_singleton]
    change (r.shard _ _).slice = _ ∧ (r.shard _ _).db = _ ∧ _
    rw [← hshard]
    exact ⟨rfl, rfl, hk⟩
  · have hself : RuledRef.rename db g.shard.index ⟨⟨i.table, none⟩, r⟩ =
        .toShard (i.table.schema.getD db) i.table.name g.shard := congrArg _ hshard.symm
    simp only [Statement.tableRefs, hrenamer, List.map_singleton, Renamer.tableRef, Renamer.tableName,
      Renamer.find?, hself]
    simp [Renaming.toShard, Text.sameName_refl, InsertTarget.shardInsert]
  · exact fun hne => absurd rfl (hne i)

/-- Every call of a plan for shards is one for the shards of an index. -/
theorem onShards_of_plan {config : Config} {stmt : Statement} {sql : String}
    (hclass : (classify (.ofRules rules nextKey) stmt db st).1 = .shardAware)
    (h : (plan (.ofRules rules nextKey) config stmt db sql).outcome st = (.ok p, st')) :
    ∀ c ∈ p.routing.calls, ∃ k phys, OnShards rules db k stmt c phys := by
  have hclass' : classify (.ofRules rules nextKey) stmt db st =
      (.shardAware, (classify (.ofRules rules nextKey) stmt db st).2) := Prod.ext hclass rfl
  rw [plan_of_shardAware hclass' config sql] at h
  cases stmt with
  | explain _ => cases hclass
  | other _ => cases hclass
  | select s => exact onShards_of_planSelect h
  | insert i => exact onShards_of_planInsert h
  | update u => exact onShards_of_planUpdate h
  | delete d => exact onShards_of_planDelete h

/-- Every call of a plan for shards is printed from a statement with physical names. -/
theorem issued_of_plan {config : Config} {stmt : Statement} {sql : String}
    (hclass : (classify (.ofRules rules nextKey) stmt db st).1 = .shardAware)
    (h : (plan (.ofRules rules nextKey) config stmt db sql).outcome st = (.ok p, st')) :
    ∀ c ∈ p.routing.calls, ∃ phys, Issued db stmt c phys := by
  intro c hc
  obtain ⟨k, phys, hphys⟩ := onShards_of_plan hclass h c hc
  exact ⟨phys, hphys.issued⟩

end ShardedSql.Planning
