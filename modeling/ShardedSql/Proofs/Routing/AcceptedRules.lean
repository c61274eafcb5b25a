import Mathlib.Data.List.Induction
import ShardedSql.Proofs.Routing.Arithmetic
import ShardedSql.Proofs.Routing.Routes

namespace ShardedSql.Routing

namespace Rule

/-- A rule that can be stored: with shards, with slices, and with a database for each shard unless
it has none. -/
structure Valid (r : Rule) : Prop where
  count : r.count ≠ 0
  slices : r.slices ≠ []
  databases : r.databases ≠ [] → r.databases.length = r.count.toNat

variable {r : Rule} {db : String} {n : Nat}

theorem valid_iff : r.Valid ↔ r.count ≠ 0 ∧ r.slices ≠ [] ∧
    (r.databases ≠ [] → r.databases.length = r.count.toNat) :=
  ⟨fun h => ⟨h.count, h.slices, h.databases⟩, fun h => ⟨h.1, h.2.1, h.2.2⟩⟩

instance : DecidablePred Valid := fun _ => decidable_of_iff _ valid_iff.symm

theorem check_eq_ok_iff : r.check = .ok () ↔ r.Valid := by
  rw [valid_iff, check]
  split_ifs with hcount hslices hdbs
  · simp [hcount]
  · simp [hslices]
  · simp [hdbs.1, hdbs.2]
  · simpa [hcount, hslices] using hdbs

/-- A shard on a slice and in a database that the rule lists at its places. Where the rule lists no
databases, the shard lies in the logical one. -/
structure Targets (r : Rule) (db : String) (s : Shard) : Prop where
  index : s.index < r.count.toNat
  shard : s = r.shard db s.index
  slice : r.slices[r.slicePosition s.index]? = some s.slice
  database : if r.databases = [] then s.db = db else r.databases[s.index]? = some s.db

theorem Valid.targets (h : r.Valid) (db : String) (hn : n < r.count.toNat) :
    r.Targets db (r.shard db n) where
  index := hn
  shard := rfl
  slice := by
    have hposition := slicePosition_lt (check_eq_ok_iff.mpr h) hn
    simp [shard, List.getD, hposition]
  database := by
    split
    next hnil => simp [shard, hnil]
    next hdbs =>
      have hn : n < r.databases.length := h.databases hdbs ▸ hn
      simp [shard, List.getD, hn]

end Rule

namespace RuleTable

variable {rules : RuleTable} {r : Rule}

/-- Adds a rule if it can be stored. A table that refuses it stays as it is. -/
def offer (rules : RuleTable) (r : Rule) : RuleTable :=
  match rules.add r with
  | .ok rules' => rules'
  | .error _ => rules

def offerAll (offered : List Rule) : RuleTable := offered.foldl offer empty

theorem offerAll_concat (offered : List Rule) (r : Rule) :
    offerAll (offered ++ [r]) = (offerAll offered).offer r := by
  simp [offerAll]

theorem offer_of_error {e : Error} (h : rules.add r = .error e) : rules.offer r = rules := by
  rw [offer, h]

theorem grown_offerAll (offered : List Rule) : (offerAll offered).Grown := by
  induction offered using List.reverseRecOn with
  | nil => exact .empty
  | append_singleton offered r ih =>
    rw [offerAll_concat, offer]
    split
    next hadd => exact .add ih hadd
    next => exact ih

theorem Grown.valid (h : rules.Grown) (hr : r ∈ rules.rules) : r.Valid :=
  Rule.check_eq_ok_iff.mp (h.check r hr)

theorem add_of_valid (h : r.Valid) : rules.add r =
    match rules.find? r.db r.table with
    | some _ => .error (.route (.duplicateRule r.db r.table))
    | none => .ok ⟨rules.rules ++ [r]⟩ := by
  rw [add, Rule.check_eq_ok_iff.mpr h]
  rfl

theorem add_of_not_valid (h : ¬r.Valid) : ∃ e, rules.add r = .error e := by
  rw [← Rule.check_eq_ok_iff] at h
  cases hcheck : r.check with
  | ok => exact absurd hcheck h
  | error e => exact ⟨e, by rw [add, hcheck]; rfl⟩

theorem add_eq_error_iff :
    (∃ e, rules.add r = .error e) ↔ ¬r.Valid ∨ (rules.find? r.db r.table).isSome = true := by
  by_cases hvalid : r.Valid
  · rw [add_of_valid hvalid]
    cases rules.find? r.db r.table <;> simp [hvalid]
  · simp [hvalid, add_of_not_valid hvalid]

theorem find?_concat (rules : RuleTable) (r : Rule) (db table : String) :
    find? ⟨rules.rules ++ [r]⟩ db table =
      (rules.find? db table).or (if r.isFor db table then some r else none) := by
  rw [find?, find?, List.find?_append, List.find?_singleton]

theorem find?_of_isFor {db table : String} (rules : RuleTable) (h : r.isFor db table = true) :
    rules.find? db table = rules.find? r.db r.table := by
  have hnames := Bool.and_eq_true_iff.mp h
  exact (find?_congr rules hnames.1 hnames.2).symm

/-- One more rule answers only where no earlier one does. -/
theorem find?_offer (rules : RuleTable) (r : Rule) (db table : String) :
    (rules.offer r).find? db table =
      (rules.find? db table).or (if r.Valid ∧ r.isFor db table then some r else none) := by
  by_cases hvalid : r.Valid
  · cases hfind : rules.find? r.db r.table with
    | none =>
      have hadd : rules.add r = .ok ⟨rules.rules ++ [r]⟩ := by rw [add_of_valid hvalid, hfind]
      rw [offer, hadd]
      simpa [hvalid] using find?_concat rules r db table
    | some s =>
      obtain ⟨e, hadd⟩ : ∃ e, rules.add r = .error e :=
        add_eq_error_iff.mpr (.inr (by simp [hfind]))
      rw [offer_of_error hadd]
      by_cases hfor : r.isFor db table = true
      · -- the earlier rule of the same names is found first
        rw [find?_of_isFor rules hfor, hfind, Option.some_or]
      · simp [hfor]
  · obtain ⟨e, hadd⟩ : ∃ e, rules.add r = .error e := add_of_not_valid hvalid
    rw [offer_of_error hadd]
    simp [hvalid]

/-- The rule found for a table is the first valid one that was offered for it. -/
theorem find?_offerAll (offered : List Rule) (db table : String) :
    (offerAll offered).find? db table = offered.find? fun r => r.Valid ∧ r.isFor db table := by
  induction offered using List.reverseRecOn with
  | nil => rfl
  | append_singleton offered r ih =>
    rw [offerAll_concat, find?_offer, ih, List.find?_append, List.find?_singleton]
    simp only [decide_eq_true_eq]

/-- A refused rule changes nothing for those that come after it. -/
theorem offerAll_append_cons_of_error {offered : List Rule} {e : Error}
    (h : (offerAll offered).add r = .error e) (later : List Rule) :
    offerAll (offered ++ r :: later) = offerAll (offered ++ later) := by
  simp only [offerAll, List.foldl_append, List.foldl_cons] at h ⊢
  rw [offer_of_error h]

/-- All shards that a table leads to are at places that a valid rule lists. -/
theorem Grown.targets {db table : String} {hint : KeyHint} {shards : List Shard} {s : Shard}
    (hgrown : rules.Grown) (hroute : rules.route db table hint = .ok shards) (hs : s ∈ shards) :
    ∃ r ∈ rules.rules, r.Targets db s := by
  obtain ⟨r, hfind, rfl⟩ := route_eq_ok hroute
  have hr : r ∈ rules.rules := List.mem_of_find?_eq_some hfind
  obtain ⟨n, hn, rfl⟩ := List.mem_map.mp hs
  have hvalid := hgrown.valid hr
  exact ⟨r, hr, hvalid.targets db ((Rule.mem_reached hvalid.count).mp hn).1⟩

end RuleTable

/-- Rules by the names of their tables in small letters. -/
structure KeyedRules where
  rules : Std.HashMap (String × String) Rule

namespace KeyedRules

variable {keyed : KeyedRules} {rules : RuleTable}

def empty : KeyedRules := ⟨∅⟩

def key (db table : String) : String × String := (Text.lower db, Text.lower table)

def find? (keyed : KeyedRules) (db table : String) : Option Rule := keyed.rules[key db table]?

/-- Stores a rule under its names, if they are free. -/
def add (keyed : KeyedRules) (r : Rule) : Except Error KeyedRules := do
  r.check
  if keyed.rules.contains (key r.db r.table) then
    .error (.route (.duplicateRule r.db r.table))
  else
    .ok ⟨keyed.rules.insert (key r.db r.table) r⟩

def offer (keyed : KeyedRules) (r : Rule) : KeyedRules :=
  match keyed.add r with
  | .ok keyed' => keyed'
  | .error _ => keyed

def offerAll (offered : List Rule) : KeyedRules := offered.foldl offer empty

theorem key_eq_iff {r : Rule} {db table : String} :
    key r.db r.table = key db table ↔ r.isFor db table = true := by
  rw [key, key, Prod.mk.injEq, Rule.isFor, Bool.and_eq_true, Text.sameName_iff, Text.sameName_iff]

/-- Maps and tables that find the same rules take and refuse the same rules. -/
theorem map_find?_add (h : keyed.find? = rules.find?) (r : Rule) :
    (keyed.add r).map find? = (rules.add r).map RuleTable.find? := by
  have hself : keyed.rules.contains (key r.db r.table) = (rules.find? r.db r.table).isSome := by
    rw [Std.HashMap.contains_eq_isSome_getElem?, ← h]
    rfl
  unfold add RuleTable.add
  rw [hself]
  cases r.check with
  | error e => rfl
  | ok =>
    cases hfind : rules.find? r.db r.table with
    | some s => rfl
    | none =>
      refine congrArg Except.ok (funext fun db => funext fun table => ?_)
      have hold := congrFun (congrFun h db) table
      rw [RuleTable.find?_concat, ← hold, find?, find?, Std.HashMap.getElem?_insert]
      by_cases hfor : r.isFor db table = true
      · have hnone : keyed.rules[key db table]? = none := by
          rw [← find?, hold, rules.find?_of_isFor hfor, hfind]
        rw [if_pos (beq_iff_eq.mpr (key_eq_iff.mpr hfor)), hnone, if_pos hfor, Option.none_or]
      · rw [if_neg (mt beq_iff_eq.mp (mt key_eq_iff.mp hfor)), if_neg hfor, Option.or_none]

theorem find?_offer (h : keyed.find? = rules.find?) (r : Rule) :
    (keyed.offer r).find? = (rules.offer r).find? := by
  have hadd := map_find?_add h r
  unfold offer RuleTable.offer
  cases hkeyed : keyed.add r <;> cases hrules : rules.add r <;> rw [hkeyed, hrules] at hadd
  · exact h
  · cases hadd
  · cases hadd
  · exact Except.ok.inj hadd

/-- Rules kept by their names are found as in the table. -/
theorem find?_offerAll (offered : List Rule) :
    (offerAll offered).find? = (RuleTable.offerAll offered).find? := by
  induction offered using List.reverseRecOn with
  | nil =>
    funext db table
    exact Std.HashMap.getElem?_empty
  | append_singleton offered r ih =>
    rw [RuleTable.offerAll_concat, offerAll, List.foldl_append]
    exact find?_offer ih r

end KeyedRules

namespace RuleTable

/-- A table answers by the first valid rule that was offered for the names, in whatever case of
letters, and has no answer where there is none. So does a map by names. A rule is refused exactly if
it is not valid or not the first for its names, and then nothing shows that it was offered. All
stored rules are valid, so a route leads to slices and databases that its rule lists. -/
theorem first_valid_rule_answers (offered : List Rule) (db table : String) (hint : KeyHint) :
    let rules := offerAll offered
    let first := offered.find? fun r => r.Valid ∧ r.isFor db table
    (KeyedRules.offerAll offered).find? = rules.find? ∧
    rules.shardKey db table = first.map (·.key) ∧
    rules.route db table hint = first.elim (.error (.route (.noRule db table)))
      (fun r => (r.indexes hint).map fun ns => ns.map (r.shard db)) ∧
    (∀ r, (∃ e, rules.add r = .error e) ↔
      r.count = 0 ∨ r.slices = [] ∨ (r.databases ≠ [] ∧ r.databases.length ≠ r.count.toNat) ∨
        ∃ s ∈ offered, s.Valid ∧ s.isFor r.db r.table) ∧
    (∀ r e, rules.add r = .error e →
      ∀ later, offerAll (offered ++ r :: later) = offerAll (offered ++ later)) ∧
    (∀ r ∈ rules.rules, r.Valid) ∧
    ∀ shards, rules.route db table hint = .ok shards →
      ∀ s ∈ shards, ∃ r ∈ rules.rules, r.Targets db s := by
  have hgrown := grown_offerAll offered
  refine ⟨KeyedRules.find?_offerAll offered, ?_, ?_, fun r => ?_,
    fun r e h => offerAll_append_cons_of_error h, fun r => hgrown.valid,
    fun shards h s => hgrown.targets h⟩
  · rw [shardKey, find?_offerAll]
  · rw [route, find?_offerAll]
    cases offered.find? fun r => r.Valid ∧ r.isFor db table with
    | none => rfl
    | some r =>
      dsimp only [Option.elim_some]
      cases r.indexes hint <;> rfl
  · rw [add_eq_error_iff, find?_offerAll, Rule.valid_iff, List.find?_isSome]
    simp only [ne_eq, not_and_or, not_not, Classical.not_imp, or_assoc, decide_eq_true_eq]

example : offerAll [{ ordersById with slices := [] }, ordersById,
    { ordersById with table := "ORDERS", key := "number" }] = ⟨[ordersById]⟩ := by decide

end RuleTable

end ShardedSql.Routing
