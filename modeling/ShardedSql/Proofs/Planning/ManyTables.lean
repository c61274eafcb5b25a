import ShardedSql.Proofs.Planning.OneTable

namespace ShardedSql.Planning

open Routing (Rule RuleTable Shard)
open Sql (Expr Select TableRef)

/-- A reference to a sharded table and the rule of the table. -/
structure RuledRef where
  ref : TableRef
  rule : Rule
  deriving DecidableEq, Repr

/-- The references of a SELECT to sharded tables, each with its rule. -/
def ruledRefs (rules : RuleTable) (db : String) (refs : List TableRef) : List RuledRef :=
  refs.filterMap fun ref =>
    (rules.find? (ref.table.schema.getD db) ref.table.name).map (RuledRef.mk ref)

/-- The rule of the table that is referred to, if it is sharded. -/
def ruleOf? (rules : RuleTable) (db : String) (t : TableRef) : Option Rule :=
  rules.find? (t.table.schema.getD db) t.table.name

theorem mem_ruledRefs {rules : RuleTable} {db : String} {refs : List TableRef} {p : RuledRef} :
    p ∈ ruledRefs rules db refs ↔ p.ref ∈ refs ∧ ruleOf? rules db p.ref = some p.rule := by
  unfold ruledRefs
  rw [List.mem_filterMap]
  constructor
  · rintro ⟨t, ht, hp⟩
    obtain ⟨r, hr, rfl⟩ := Option.map_eq_some_iff.mp hp
    exact ⟨ht, hr⟩
  · rintro ⟨ht, hr⟩
    exact ⟨p.ref, ht, Option.map_eq_some_iff.mpr ⟨p.rule, hr, rfl⟩⟩

theorem ruledRefs_cons_of_rule {rules : RuleTable} {db : String} {t : TableRef} {r : Rule}
    (h : ruleOf? rules db t = some r) (refs : List TableRef) :
    ruledRefs rules db (t :: refs) = ⟨t, r⟩ :: ruledRefs rules db refs := by
  unfold ruleOf? at h
  simp [ruledRefs, h]

theorem ruledRefs_cons_of_unsharded {rules : RuleTable} {db : String} {t : TableRef}
    (h : ruleOf? rules db t = none) (refs : List TableRef) :
    ruledRefs rules db (t :: refs) = ruledRefs rules db refs := by
  unfold ruleOf? at h
  simp [ruledRefs, h]

namespace RuledRef

/-- The shard of an index of the table that is referred to. -/
def shard (db : String) (k : Nat) (p : RuledRef) : Shard :=
  p.rule.shard (p.ref.table.schema.getD db) k

def rename (db : String) (k : Nat) (p : RuledRef) : Renaming :=
  .toShard (p.ref.table.schema.getD db) p.ref.table.name (p.shard db k)

/-- The table that is referred to with the shards that a condition keeps. -/
def routed (db : String) (condition : Option Expr) (p : RuledRef) : RoutedTable :=
  ⟨.ofRef p.ref db p.rule,
    (p.rule.reached ((ShardedTable.ofRef p.ref db p.rule).hint condition)).map fun k => p.shard db k⟩

end RuledRef

variable {σ : Type} {rules : RuleTable} {nextKey : String → Planner σ Int64} {db : String}

theorem routeRefs_outcome (refs : List TableRef) (condition : Option Expr) (st : σ) :
    ∃ routed : List (Option RoutedTable),
      (refs.mapM fun ref => RoutedTable.ofRef? (.ofRules rules nextKey) ref db condition).outcome st =
        (.ok routed, st) ∧
      routed.filterMap id = (ruledRefs rules db refs).map (RuledRef.routed db condition) := by
  induction refs with
  | nil => exact ⟨[], rfl, rfl⟩
  | cons ref refs ih =>
    obtain ⟨routed, hrouted, hmap⟩ := ih
    rw [List.mapM_cons]
    cases hfind : rules.find? (ref.table.schema.getD db) ref.table.name with
    | none =>
      refine ⟨none :: routed, ?_, ?_⟩
      · rw [Planner.outcome_bind_of_ok (ofRef?_of_find_none nextKey hfind condition st),
          Planner.outcome_bind_of_ok hrouted]
        rfl
      · simpa [ruledRefs, hfind] using hmap
    | some r =>
      refine ⟨some (RuledRef.routed db condition ⟨ref, r⟩) :: routed, ?_, ?_⟩
      · rw [Planner.outcome_bind_of_ok (ofRef?_of_find nextKey hfind condition st),
          Planner.outcome_bind_of_ok hrouted]
        rfl
      · simpa [ruledRefs, hfind] using hmap

/-- How the references of a SELECT are routed: the sharded ones, each by itself. -/
theorem routeTables_outcome (s : Select) (st : σ) :
    (routeTables (.ofRules rules nextKey) s db).outcome st =
      (.ok ((ruledRefs rules db s.tableRefs).map (RuledRef.routed db s.condition)), st) := by
  obtain ⟨routed, hrouted, hmap⟩ := routeRefs_outcome s.tableRefs s.condition st
  unfold routeTables
  rw [Planner.outcome_bind_of_ok hrouted, hmap]
  rfl

end ShardedSql.Planning
