import Mathlib.Data.List.Sort
import ShardedSql.Proofs.Routing.Placement

namespace ShardedSql.Routing

namespace Rule

variable {r : Rule}

theorem reached_ne_nil (hcount : r.count ≠ 0) {hint : KeyHint} (hhint : hint ≠ .values []) :
    r.reached hint ≠ [] := by
  obtain ⟨n, hn⟩ := exists_reaches hcount hhint
  exact List.ne_nil_of_mem ((mem_reached hcount).mpr hn)

theorem sublist_reached (hcount : r.count ≠ 0) (hint : KeyHint) :
    (r.reached hint).Sublist (List.range r.count.toNat) := by
  have hlt := r.pairwise_reached hint
  have hsubset : r.reached hint ⊆ List.range r.count.toNat :=
    fun n hn => List.mem_range.mpr ((mem_reached hcount).mp hn).1
  exact List.sublist_of_subperm_of_pairwise
    (List.subperm_of_subset (hlt.imp Nat.ne_of_lt) hsubset) hlt List.pairwise_lt_range

end Rule

namespace RuleTable

variable {rules : RuleTable} {r : Rule} {db table : String} {hint : KeyHint} {shards : List Shard}

/-- A rule table as it comes of adding rules. -/
inductive Grown : RuleTable → Prop
  | empty : Grown .empty
  | add {rules rules' : RuleTable} {r : Rule} (grown : Grown rules)
      (added : rules.add r = .ok rules') : Grown rules'

theorem add_eq_ok {rules' : RuleTable} (h : rules.add r = .ok rules') :
    r.check = .ok () ∧ rules' = ⟨rules.rules ++ [r]⟩ := by
  unfold add at h
  cases hcheck : r.check with
  | error e =>
    rw [hcheck] at h
    cases h
  | ok =>
    rw [hcheck] at h
    dsimp only [bind, Except.bind] at h
    split at h
    · cases h
    · cases h
      exact ⟨rfl, rfl⟩

theorem Grown.check (h : rules.Grown) : ∀ r ∈ rules.rules, r.check = .ok () := by
  induction h with
  | empty => exact nofun
  | add _ hadd ih =>
    obtain ⟨hcheck, rfl⟩ := add_eq_ok hadd
    intro r hr
    rcases List.mem_append.mp hr with hold | hnew
    · exact ih r hold
    · rwa [List.mem_singleton.mp hnew]

theorem Grown.count_ne_zero (h : rules.Grown) (hfind : rules.find? db table = some r) :
    r.count ≠ 0 :=
  Rule.count_ne_zero_of_check (h.check r (List.mem_of_find?_eq_some hfind))

/-- A route leads to the shards that its hint reaches by the rule of the table. -/
theorem route_eq_ok (h : rules.route db table hint = .ok shards) :
    ∃ r, rules.find? db table = some r ∧ shards = (r.reached hint).map (r.shard db) := by
  cases hfind : rules.find? db table with
  | none =>
    rw [route, hfind] at h
    cases h
  | some r =>
    refine ⟨r, rfl, ?_⟩
    cases hns : r.indexes hint with
    | error e => cases (route_of_indexes_error hfind hns).symm.trans h
    | ok ns =>
      cases (route_of_indexes hfind hns).symm.trans h
      rw [Rule.reached, hns]

theorem Grown.route_ne_nil (hgrown : rules.Grown) (h : rules.route db table hint = .ok shards)
    (hhint : hint ≠ .values []) : shards ≠ [] := by
  obtain ⟨r, hfind, rfl⟩ := route_eq_ok h
  simpa using Rule.reached_ne_nil (hgrown.count_ne_zero hfind) hhint

/-- A table with a route has one to all shards of its rule. -/
theorem route_all (h : rules.route db table hint = .ok shards) :
    ∃ all, rules.route db table .all = .ok all := by
  obtain ⟨r, hfind, -⟩ := route_eq_ok h
  exact ⟨_, route_of_indexes hfind r.indexes_all⟩

theorem grown_ordersById : Grown ⟨[ordersById]⟩ := by
  have hadd : empty.add ordersById = .ok ⟨[ordersById]⟩ := rfl
  exact .add .empty hadd

end RuleTable

end ShardedSql.Routing
