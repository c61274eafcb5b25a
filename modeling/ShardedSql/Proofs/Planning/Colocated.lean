import ShardedSql.Proofs.Lists
import ShardedSql.Proofs.Planning.ManyTables

namespace ShardedSql.Planning

open Routing (Rule RuleTable Shard)
open Sql (Expr Select)

namespace RuledRef

/-- The table that is referred to with its shards of some indexes. -/
def indexed (db : String) (ks : List Nat) (p : RuledRef) : RoutedTable :=
  ⟨.ofRef p.ref db p.rule, ks.map (p.shard db)⟩

/-- The indexes of the table's shards that a condition keeps. -/
def reached (db : String) (condition : Option Expr) (p : RuledRef) : List Nat :=
  p.rule.reached ((ShardedTable.ofRef p.ref db p.rule).hint condition)

theorem routed_eq (db : String) (condition : Option Expr) (p : RuledRef) :
    p.routed db condition = p.indexed db (p.reached db condition) := rfl

end RuledRef

section

variable (db : String) (condition : Option Expr) (p : RuledRef) (ps : List RuledRef) (k : Nat)

/-- The first of some tables whose shard of an index does not lie with the one of `p`. -/
def stray? : Option RuledRef :=
  ps.find? fun q =>
    (q.shard db k).slice ≠ (p.shard db k).slice || (q.shard db k).db ≠ (p.shard db k).db

/-- The shards of an index as a group that lies where the one of `p` does. -/
def groupOf : ShardGroup :=
  ⟨(p.shard db k).slice, (p.shard db k).db, (p :: ps).map (RuledRef.shard db k)⟩

/-- What putting the shards of an index together comes to. -/
def groupAt : Except Error ShardGroup :=
  match stray? db p ps k with
  | some q => .error (.unsupported (.splitJoin (p.shard db k) (q.shard db k)))
  | none => .ok (groupOf db p ps k)

/-- The indexes that a condition keeps for all of the tables. -/
def sharedIndexes : List Nat :=
  (p.reached db condition).filter fun k => ps.all fun q => decide (k ∈ q.reached db condition)

/-- The indexes that a join makes calls for. -/
def joinIndexes : Except Error (List Nat) :=
  match sharedIndexes db condition p ps with
  | [] =>
    match p.reached db condition with
    | [] => .error (.route (.noShard (p.ref.table.schema.getD db) p.ref.table.name))
    | k :: _ =>
      match (p :: ps).find? fun q => decide (k ∉ List.range q.rule.count.toNat) with
      | some q => .error (.unsupported (.notColocated p.ref.table.name q.ref.table.name))
      | none => .ok [k]
  | ks => .ok ks

end

section

variable {db : String} {condition : Option Expr} {p : RuledRef} {ps : List RuledRef} {k : Nat}

theorem find?_indexed (q : RuledRef) (ks : List Nat) :
    (q.indexed db ks).shards.find? (·.index = k) =
      if k ∈ ks then some (q.shard db k) else none := by
  split
  · next h => exact find?_shard h
  · next h =>
    apply List.find?_eq_none.mpr
    intro s hs
    obtain ⟨j, hj, rfl⟩ := List.mem_map.mp hs
    have hne : j ≠ k := by
      rintro rfl
      exact h hj
    simpa [RuledRef.shard, Rule.shard] using hne

theorem shardsAt_indexed (first : RoutedTable) (ks : RuledRef → List Nat) (qs : List RuledRef) :
    shardsAt first (qs.map fun q => q.indexed db (ks q)) k =
      match qs.find? fun q => decide (k ∉ ks q) with
      | some q => .error (.unsupported (.notColocated first.table.name q.ref.table.name))
      | none => .ok (qs.map (RuledRef.shard db k)) := by
  unfold shardsAt
  induction qs with
  | nil => rfl
  | cons q qs ih =>
    rw [List.map_cons, List.mapM_cons, ih, find?_indexed]
    by_cases hk : k ∈ ks q
    · rw [if_pos hk, List.find?_cons_of_neg (by simpa using hk)]
      cases qs.find? fun q => decide (k ∉ ks q) <;> rfl
    · rw [if_neg hk, List.find?_cons_of_pos (by simpa using hk)]
      rfl

theorem ofShards?_groupAt :
    ShardGroup.ofShards? (p.shard db k) (ps.map (RuledRef.shard db k)) = groupAt db p ps k := by
  have hfind : (ps.map (RuledRef.shard db k)).find? (fun s =>
      s.slice ≠ (p.shard db k).slice || s.db ≠ (p.shard db k).db) =
      (stray? db p ps k).map (RuledRef.shard db k) := List.find?_map ..
  unfold ShardGroup.ofShards? groupAt
  rw [hfind]
  cases stray? db p ps k <;> rfl

/-- The group of an index that some tables do not have is refused. -/
theorem at?_indexed (db : String) (p : RuledRef) (ps : List RuledRef) (k : Nat)
    (first : RoutedTable) (ks : RuledRef → List Nat) :
    ShardGroup.at? first ((p :: ps).map fun q => q.indexed db (ks q)) k =
      match (p :: ps).find? fun q => decide (k ∉ ks q) with
      | some q => .error (.unsupported (.notColocated first.table.name q.ref.table.name))
      | none => groupAt db p ps k := by
  unfold ShardGroup.at?
  rw [shardsAt_indexed]
  cases (p :: ps).find? fun q => decide (k ∉ ks q) with
  | some q => rfl
  | none => exact ofShards?_groupAt

theorem index_indexed (q : RuledRef) (ks : List Nat) :
    (q.indexed db ks).shards.map (·.index) = ks := by
  rw [RuledRef.indexed, List.map_map]
  exact List.map_id ks

theorem commonIndexes_routed :
    commonIndexes (p.routed db condition) (ps.map (RuledRef.routed db condition)) =
      sharedIndexes db condition p ps := by
  have hfirst : Routing.increasing (p.reached db condition) = p.reached db condition :=
    Routing.increasing_of_pairwise (p.rule.pairwise_reached _)
  unfold commonIndexes sharedIndexes
  rw [RuledRef.routed_eq, index_indexed, hfirst]
  apply List.filter_congr
  intro k _
  rw [List.all_map]
  congr 1
  funext q
  rw [Function.comp_apply, RuledRef.routed_eq, Bool.eq_iff_iff]
  simp [RuledRef.indexed, RuledRef.shard, Rule.shard]

theorem mem_of_mem_sharedIndexes (h : k ∈ sharedIndexes db condition p ps) :
    ∀ q ∈ p :: ps, k ∈ q.reached db condition := by
  obtain ⟨hp, hps⟩ := List.mem_filter.mp h
  simpa [hp] using hps

theorem at?_routed (h : k ∈ sharedIndexes db condition p ps) (first : RoutedTable) :
    ShardGroup.at? first ((p :: ps).map (RuledRef.routed db condition)) k = groupAt db p ps k := by
  have hnone : ((p :: ps).find? fun q => decide (k ∉ q.reached db condition)) = none := by
    apply List.find?_eq_none.mpr
    intro q hq
    simpa using mem_of_mem_sharedIndexes h q hq
  have hat := at?_indexed db p ps k first (RuledRef.reached db condition)
  rwa [hnone] at hat

variable {σ : Type} {rules : RuleTable} {nextKey : String → Planner σ Int64} {st : σ}

theorem withAllShards_routed (nextKey : String → Planner σ Int64) (condition : Option Expr) (st : σ)
    {qs : List RuledRef} (hruled : ∀ q ∈ qs, ruleOf? rules db q.ref = some q.rule) :
    (withAllShards (.ofRules rules nextKey) (qs.map (RuledRef.routed db condition))).outcome st =
      (.ok (qs.map fun q => q.indexed db (List.range q.rule.count.toNat)), st) := by
  unfold withAllShards
  induction qs with
  | nil => rfl
  | cons q qs ih =>
    have hroute : rules.route (q.ref.table.schema.getD db) q.ref.table.name .all =
        .ok ((List.range q.rule.count.toNat).map (q.shard db)) :=
      RuleTable.route_of_indexes (hruled q (by simp)) q.rule.indexes_all
    have hall : ((Services.ofRules rules nextKey).route (q.routed db condition).table.db
        (q.routed db condition).table.name .all).outcome st =
          (.ok ((List.range q.rule.count.toNat).map (q.shard db)), st) := by
      rw [Services.ofRules_route]
      exact congrArg (·, st) hroute
    rw [List.map_cons, List.mapM_cons, bind_assoc,
      Planner.outcome_bind_of_ok hall, pure_bind,
      Planner.outcome_bind_of_ok (ih fun q hq => hruled q (by simp [hq]))]
    rfl

/-- What becomes of the routed tables of a join: their shards by the indexes of the join, each index
by itself. -/
theorem colocate_routed (hruled : ∀ q ∈ p :: ps, ruleOf? rules db q.ref = some q.rule) :
    (colocate (.ofRules rules nextKey) (p.routed db condition)
      (ps.map (RuledRef.routed db condition))).outcome st =
        (do (← joinIndexes db condition p ps).mapM (groupAt db p ps), st) := by
  unfold colocate joinIndexes
  rw [commonIndexes_routed]
  cases hshared : sharedIndexes db condition p ps with
  | nil =>
    rw [RuledRef.routed_eq]
    cases hreached : p.reached db condition with
    | nil => rfl
    | cons k ks =>
      have hall := withAllShards_routed nextKey condition st hruled
      rw [List.map_cons, RuledRef.routed_eq, hreached] at hall
      have hat := at?_indexed db p ps k (p.indexed db (k :: ks))
        fun q => List.range q.rule.count.toNat
      change ((withAllShards (.ofRules rules nextKey) _ >>= _ : Planner σ _)).outcome st = _
      rw [Planner.outcome_bind_of_ok hall, Planner.outcome_bind, Planner.outcome_liftExcept]
      have hindex : ((fun k => p.shard db k) k).index = k := rfl
      rw [hindex, hat]
      dsimp only
      cases (p :: ps).find? fun q => decide (k ∉ List.range q.rule.count.toNat) with
      | some q => rfl
      | none =>
        change _ = ([k].mapM (groupAt db p ps), st)
        rw [List.mapM_cons, List.mapM_nil]
        cases groupAt db p ps k <;> rfl
  | cons k ks =>
    dsimp only
    rw [Planner.outcome_liftExcept]
    have hgroups : ∀ j ∈ k :: ks, ShardGroup.at? (p.routed db condition)
        ((p :: ps).map (RuledRef.routed db condition)) j = groupAt db p ps j :=
      fun j hj => at?_routed (hshared ▸ hj) _
    rw [List.map_cons] at hgroups
    rw [mapM_congr hgroups]
    rfl

/-- There is a shard of every index of a join, in each of the tables. -/
theorem hasShard_of_joinIndexes {ks : List Nat} (h : joinIndexes db condition p ps = .ok ks)
    (hk : k ∈ ks) : ∀ q ∈ p :: ps, q.rule.HasShard k := by
  unfold joinIndexes at h
  intro q hq
  cases hshared : sharedIndexes db condition p ps with
  | cons j js =>
    rw [hshared] at h
    cases h
    exact Rule.hasShard_of_reached (mem_of_mem_sharedIndexes (hshared ▸ hk) q hq)
  | nil =>
    rw [hshared] at h
    cases hreached : p.reached db condition with
    | nil =>
      rw [hreached] at h
      cases h
    | cons j js =>
      rw [hreached] at h
      dsimp only at h
      cases hfind : (p :: ps).find? fun q => decide (j ∉ List.range q.rule.count.toNat) with
      | some q' =>
        rw [hfind] at h
        cases h
      | none =>
        rw [hfind] at h
        cases h
        obtain rfl := List.mem_singleton.mp hk
        have hlt := List.find?_eq_none.mp hfind q hq
        intro _
        simpa using hlt

theorem mapM_groupAt (db : String) (p : RuledRef) (ps : List RuledRef) (ks : List Nat) :
    (∃ k ∈ ks, ∃ q, stray? db p ps k = some q ∧ ks.mapM (groupAt db p ps) =
      .error (.unsupported (.splitJoin (p.shard db k) (q.shard db k)))) ∨
    (∀ k ∈ ks, stray? db p ps k = none) ∧
      ks.mapM (groupAt db p ps) = .ok (ks.map (groupOf db p ps)) := by
  induction ks with
  | nil => exact .inr ⟨by simp, rfl⟩
  | cons k ks ih =>
    rw [List.mapM_cons]
    cases hstray : stray? db p ps k with
    | some q =>
      left
      refine ⟨k, List.mem_cons_self, q, hstray, ?_⟩
      rw [groupAt, hstray]
      rfl
    | none =>
      rcases ih with ⟨j, hj, q, hq, herror⟩ | ⟨htogether, hok⟩
      · left
        refine ⟨j, List.mem_cons_of_mem _ hj, q, hq, ?_⟩
        rw [groupAt, hstray, herror]
        rfl
      · right
        refine ⟨List.forall_mem_cons.mpr ⟨hstray, htogether⟩, ?_⟩
        rw [groupAt, hstray, hok]
        rfl

end

/-- The statement for the shards of an index, where a SELECT is split into so many. -/
def shardSelect (db : String) (s : Select) (qs : List RuledRef) (n k : Nat) : Select :=
  renameSelect db (qs.map (RuledRef.rename db k)) (splitSelect s n).1

/-- The call for the shards of an index, which lie where the one of `p` does. -/
def joinCall (db : String) (s : Select) (p : RuledRef) (ps : List RuledRef) (n k : Nat) : Call :=
  ⟨(p.shard db k).slice, (p.shard db k).db, (shardSelect db s (p :: ps) n k).sql⟩

/-- The plan of a join for some groups of shards. -/
def joinPlan (db : String) (s : Select) (p : RuledRef) (ps : List RuledRef)
    (groups : List ShardGroup) : Plan :=
  .select (.ofCalls (groups.map (groupCall (splitSelect s groups.length).1 db
      ((p :: ps).map (RuledRef.routed db s.condition)))))
    (groups.foldl (fun m g => nameTables m
      (renamings ((p :: ps).map (RuledRef.routed db s.condition)) g)) (splitSelect s groups.length).2)

section

variable {σ : Type} {rules : RuleTable} {nextKey : String → Planner σ Int64} {db : String} {s : Select}
  {p : RuledRef} {ps : List RuledRef} {k n : Nat} {st : σ}

theorem renamings_groupOf (condition : Option Expr) :
    renamings ((p :: ps).map (RuledRef.routed db condition)) (groupOf db p ps k) =
      (p :: ps).map (RuledRef.rename db k) := by
  rw [renamings, groupOf, List.zipWith_map_left, List.zipWith_map_right, List.zipWith_self]
  rfl

theorem groupCall_groupOf (condition : Option Expr) :
    groupCall (splitSelect s n).1 db ((p :: ps).map (RuledRef.routed db condition))
      (groupOf db p ps k) = joinCall db s p ps n k := by
  rw [groupCall, renamings_groupOf]
  rfl

theorem joinPlan_groupOf (db : String) (s : Select) (p : RuledRef) (ps : List RuledRef)
    (ks : List Nat) : ∃ merge, joinPlan db s p ps (ks.map (groupOf db p ps)) =
      .select (.ofCalls (ks.map (joinCall db s p ps ks.length))) merge := by
  have hcalls : (ks.map (groupOf db p ps)).map (groupCall (splitSelect s ks.length).1 db
      ((p :: ps).map (RuledRef.routed db s.condition))) = ks.map (joinCall db s p ps ks.length) := by
    rw [List.map_map]
    apply List.map_congr_left
    intro k _
    exact groupCall_groupOf s.condition
  rw [joinPlan, List.length_map, hcalls]
  exact ⟨_, rfl⟩

theorem planSelect_unruled (hrefs : ruledRefs rules db s.tableRefs = []) :
    (planSelect (.ofRules rules nextKey) s db).outcome st =
      (.error (.route (.nothingSharded "select")), st) := by
  unfold planSelect
  rw [Planner.outcome_bind_of_ok (routeTables_outcome s st), hrefs]
  rfl

/-- Planning a SELECT on sharded tables comes to a plan for the groups of the indexes of the join, and
leaves the state alone. -/
theorem planSelect_ruled (hrefs : ruledRefs rules db s.tableRefs = p :: ps) :
    (planSelect (.ofRules rules nextKey) s db).outcome st =
      ((joinIndexes db s.condition p ps >>= fun ks => ks.mapM (groupAt db p ps)).map
        (joinPlan db s p ps), st) := by
  have hruled : ∀ q ∈ p :: ps, ruleOf? rules db q.ref = some q.rule := by
    intro q hq
    rw [← hrefs] at hq
    exact (mem_ruledRefs.mp hq).2
  have htables : (routeTables (.ofRules rules nextKey) s db).outcome st =
      (.ok (p.routed db s.condition :: ps.map (RuledRef.routed db s.condition)), st) := by
    rw [routeTables_outcome, hrefs, List.map_cons]
  unfold planSelect
  rw [Planner.outcome_bind_of_ok htables]
  dsimp only
  rw [Planner.outcome_bind, colocate_routed hruled]
  cases joinIndexes db s.condition p ps >>= fun ks => ks.mapM (groupAt db p ps) <;> rfl

/-- What planning a SELECT on sharded tables comes to: no index to make a call for, an index whose
shards lie apart, or one call for each index. -/
theorem planSelect_joined (nextKey : String → Planner σ Int64) (st : σ)
    (hrefs : ruledRefs rules db s.tableRefs = p :: ps) :
    (∃ e, joinIndexes db s.condition p ps = .error e ∧
      (planSelect (.ofRules rules nextKey) s db).outcome st = (.error e, st)) ∨
    (∃ ks k q, joinIndexes db s.condition p ps = .ok ks ∧ k ∈ ks ∧ stray? db p ps k = some q ∧
      (planSelect (.ofRules rules nextKey) s db).outcome st =
        (.error (.unsupported (.splitJoin (p.shard db k) (q.shard db k))), st)) ∨
    ∃ ks merge, joinIndexes db s.condition p ps = .ok ks ∧ (∀ k ∈ ks, stray? db p ps k = none) ∧
      (planSelect (.ofRules rules nextKey) s db).outcome st =
        (.ok (.select (.ofCalls (ks.map (joinCall db s p ps ks.length))) merge), st) := by
  rw [planSelect_ruled hrefs]
  cases hks : joinIndexes db s.condition p ps with
  | error e => exact .inl ⟨e, rfl, rfl⟩
  | ok ks =>
    right
    have hgroups : (Except.ok (ε := Error) ks >>= fun ks => ks.mapM (groupAt db p ps)) =
        ks.mapM (groupAt db p ps) := rfl
    rw [hgroups]
    rcases mapM_groupAt db p ps ks with ⟨k, hk, q, hq, herror⟩ | ⟨htogether, hok⟩
    · rw [herror]
      exact .inl ⟨ks, k, q, rfl, hk, hq, rfl⟩
    · rw [hok]
      obtain ⟨merge, hplan⟩ := joinPlan_groupOf db s p ps ks
      exact .inr ⟨ks, merge, rfl, htogether, by rw [Except.map, hplan]⟩

/-- What planning a SELECT comes to that does not fail. -/
theorem planSelect_joined_ok {st' : σ} {plan : Plan}
    (h : (planSelect (.ofRules rules nextKey) s db).outcome st = (.ok plan, st')) :
    ∃ p ps ks merge, ruledRefs rules db s.tableRefs = p :: ps ∧
      joinIndexes db s.condition p ps = .ok ks ∧ (∀ k ∈ ks, stray? db p ps k = none) ∧
      plan = .select (.ofCalls (ks.map (joinCall db s p ps ks.length))) merge := by
  cases hrefs : ruledRefs rules db s.tableRefs with
  | nil => cases (planSelect_unruled hrefs).symm.trans h
  | cons p ps =>
    rcases planSelect_joined nextKey st hrefs with
      ⟨e, -, hplan⟩ | ⟨ks, k, q, -, -, -, hplan⟩ | ⟨ks, merge, hks, htogether, hplan⟩
    · cases hplan.symm.trans h
    · cases hplan.symm.trans h
    · cases hplan.symm.trans h
      exact ⟨p, ps, ks, merge, rfl, hks, htogether, rfl⟩

/-- The shards of an index without a stray lie with the one of `p`. -/
theorem lies_of_together (h : stray? db p ps k = none) : ∀ q ∈ p :: ps,
    (q.shard db k).slice = (p.shard db k).slice ∧ (q.shard db k).db = (p.shard db k).db := by
  intro q hq
  rcases List.mem_cons.mp hq with rfl | hps
  · exact ⟨rfl, rfl⟩
  · simpa using List.find?_eq_none.mp h q hps

/-- Every call of the plan of a SELECT is for one group of shards, which are the shards of one
index. -/
theorem planSelect_ok {st' : σ} {plan : Plan}
    (h : (planSelect (.ofRules rules nextKey) s db).outcome st = (.ok plan, st')) :
    ∃ (tables : List RoutedTable) (groups : List ShardGroup) (merge : Result.SelectMerge),
      plan = .select (.ofCalls (groups.map
        (groupCall (splitSelect s groups.length).1 db tables))) merge ∧
      ∀ g ∈ groups, ∃ k,
        renamings tables g = (ruledRefs rules db s.tableRefs).map (RuledRef.rename db k) ∧
        ∀ p ∈ ruledRefs rules db s.tableRefs, (p.shard db k).slice = g.slice ∧
          (p.shard db k).db = g.db ∧ p.rule.HasShard k := by
  obtain ⟨p, ps, ks, merge, hrefs, hks, htogether, rfl⟩ := planSelect_joined_ok h
  refine ⟨(p :: ps).map (RuledRef.routed db none), ks.map (groupOf db p ps), merge, ?_, ?_⟩
  · rw [List.map_map, List.length_map]
    refine congrArg (fun calls => Plan.select (.ofCalls calls) merge) ?_
    apply List.map_congr_left
    intro k _
    exact (groupCall_groupOf none).symm
  · intro g hg
    obtain ⟨k, hk, rfl⟩ := List.mem_map.mp hg
    rw [hrefs, renamings_groupOf]
    refine ⟨k, rfl, fun q hq => ?_⟩
    have hlies := lies_of_together (htogether k hk) q hq
    exact ⟨hlies.1, hlies.2, hasShard_of_joinIndexes hks hk q hq⟩

end

end ShardedSql.Planning
