import Mathlib.Algebra.Group.Int.Defs
import Mathlib.Algebra.Group.Nat.Defs
import ShardedSql.Routing.RuleTable

namespace ShardedSql.Routing

/-- The integer that a key value denotes. A text denotes what it reads as without the blanks at its
ends. -/
def KeyValue.integer? : KeyValue → Option Int64
  | int i => some i
  | str s => Text.readInt64? (Text.trim s)

/-- A number from half of the range on is negative as a signed one. -/
theorem toInt_toInt64 (n : UInt64) :
    n.toInt64.toInt = if n.toNat < 2 ^ 63 then (n.toNat : Int) else n.toNat - 2 ^ 64 := by
  have hlt := n.toNat_lt
  rw [Int64.toInt, UInt64.toBitVec_toInt64, BitVec.toInt_eq_toNat_bmod, UInt64.toNat_toBitVec,
    Int.bmod_def]
  split <;> split <;> omega

namespace Rule

/-- Whether some shard owns a value. -/
def Places (r : Rule) (v : KeyValue) : Prop := ∃ n, r.indexOf v = .ok n

/-- Whether two values are one key: the same integer where keys are placed by their remainder, the
same text where they are hashed. -/
def SameKey (r : Rule) (v k : KeyValue) : Prop :=
  match r.placement with
  | .modulo => ∃ i, v.integer? = some i ∧ k.integer? = some i
  | .hash => v.text = k.text

theorem indexOf_modulo {r : Rule} (h : r.placement = .modulo) (v : KeyValue) :
    r.indexOf v = match v.integer? with
      | some i => .ok (r.remainder i)
      | none => .error (.invalidValue (.unplaceable r.db r.table v.text)) := by
  cases v with
  | int i => simp [indexOf, h, KeyValue.integer?]
  | str s =>
    cases hs : Text.readInt64? (Text.trim s) <;>
      simp [indexOf, h, KeyValue.integer?, KeyValue.text, hs]

theorem indexOf_hash {r : Rule} (h : r.placement = .hash) (v : KeyValue) :
    r.indexOf v = .ok ((hashText v.text).toNat % r.count.toNat) := by
  simp [indexOf, h]

theorem indexOf_eq_of_sameKey {r : Rule} {v k : KeyValue} (h : r.SameKey v k) :
    r.indexOf v = r.indexOf k := by
  unfold SameKey at h
  split at h
  · next hp =>
    obtain ⟨i, hv, hk⟩ := h
    rw [indexOf_modulo hp, indexOf_modulo hp, hv, hk]
  · next hp => rw [indexOf_hash hp, indexOf_hash hp, h]

/-- A value that no shard owns is refused as an invalid one. -/
theorem indexOf_of_not_places {r : Rule} {v : KeyValue} (h : ¬r.Places v) :
    ∃ e, r.indexOf v = .error (.invalidValue e) := by
  cases hp : r.placement with
  | hash => exact absurd ⟨_, indexOf_hash hp v⟩ h
  | modulo =>
    rw [indexOf_modulo hp]
    split
    · next i hi => exact absurd ⟨_, by rw [indexOf_modulo hp, hi]⟩ h
    · exact ⟨_, rfl⟩

theorem count_pos {r : Rule} (h : r.count ≠ 0) : 0 < r.count.toNat :=
  Nat.pos_of_ne_zero fun hz => h (UInt64.toNat_inj.mp (by simpa using hz))

theorem remainder_lt {r : Rule} (h : r.count ≠ 0) (i : Int64) : r.remainder i < r.count.toNat := by
  have hpos := count_pos h
  have hlt := r.count.toNat_lt
  have hm : r.count.toInt64.toInt ≠ 0 ∧ r.count.toInt64.toInt.natAbs ≤ r.count.toNat := by
    rw [toInt_toInt64]
    split <;> omega
  have hr := Int.emod_lt i.toInt hm.1
  have hn := Int.emod_nonneg i.toInt hm.1
  unfold remainder
  omega

theorem indexOf_lt {r : Rule} (h : r.count ≠ 0) {v : KeyValue} {n : Nat}
    (hv : r.indexOf v = .ok n) : n < r.count.toNat := by
  cases hp : r.placement with
  | hash =>
    rw [indexOf_hash hp] at hv
    cases hv
    exact Nat.mod_lt _ (count_pos h)
  | modulo =>
    rw [indexOf_modulo hp] at hv
    split at hv
    · cases hv
      exact remainder_lt h _
    · cases hv

theorem count_ne_zero_of_check {r : Rule} (h : r.check = .ok ()) : r.count ≠ 0 := by
  intro hc
  simp [check, hc] at h

/-- The indexes of values, each of which some shard owns. -/
theorem mapM_indexOf_of_places {r : Rule} {vs : List KeyValue} (h : ∀ v ∈ vs, r.Places v) :
    ∃ ns, vs.mapM r.indexOf = .ok ns ∧ ∀ n, n ∈ ns ↔ ∃ v ∈ vs, r.indexOf v = .ok n := by
  induction vs with
  | nil => exact ⟨[], rfl, by simp⟩
  | cons v vs ih =>
    obtain ⟨ns, hns, hmem⟩ := ih fun w hw => h w (by simp [hw])
    obtain ⟨m, hm⟩ := h v (by simp)
    refine ⟨m :: ns, by simp [hm, hns]; rfl, fun n => ?_⟩
    simp [hmem, hm, eq_comm]

theorem mapM_indexOf_of_not_places {r : Rule} {vs : List KeyValue} (h : ∃ v ∈ vs, ¬r.Places v) :
    ∃ e, vs.mapM r.indexOf = .error (.invalidValue e) := by
  induction vs with
  | nil => simp at h
  | cons v vs ih =>
    by_cases hv : r.Places v
    · obtain ⟨n, hn⟩ := hv
      obtain ⟨e, he⟩ := ih (by
        obtain ⟨w, hw, hp⟩ := h
        rcases List.mem_cons.mp hw with rfl | hw
        · exact absurd ⟨n, hn⟩ hp
        · exact ⟨w, hw, hp⟩)
      exact ⟨e, by simp [hn, he]; rfl⟩
    · obtain ⟨e, he⟩ := indexOf_of_not_places hv
      exact ⟨e, by simp [he]; rfl⟩

end Rule

theorem insertOrdered_of_lt {n : Nat} {ms : List Nat} (h : ∀ m ∈ ms, n < m) :
    insertOrdered n ms = n :: ms := by
  cases ms with
  | nil => rfl
  | cons m ms => rw [insertOrdered, if_pos (h m (by simp))]

theorem increasing_of_pairwise {ns : List Nat} (h : ns.Pairwise (· < ·)) : increasing ns = ns := by
  induction ns with
  | nil => rfl
  | cons n ns ih =>
    obtain ⟨hn, hns⟩ := List.pairwise_cons.mp h
    change insertOrdered n (increasing ns) = n :: ns
    rw [ih hns, insertOrdered_of_lt hn]

namespace Rule

/-- Whether a value keeps a statement on a shard. One that no shard owns keeps it on all of them. -/
def Leads (r : Rule) (n : Nat) (v : KeyValue) : Prop := r.Places v → r.indexOf v = .ok n

/-- Whether a hint keeps a statement on a shard. -/
def Reaches (r : Rule) (n : Nat) : KeyHint → Prop
  | .all => True
  | .values vs => ∃ v ∈ vs, r.Leads n v

theorem reaches_all (r : Rule) (n : Nat) : r.Reaches n .all := trivial

theorem leads_of_sameKey {r : Rule} {v k : KeyValue} {n : Nat} (h : r.SameKey v k)
    (hk : r.indexOf k = .ok n) : r.Leads n v := fun _ => (indexOf_eq_of_sameKey h).trans hk

theorem leads_of_not_places {r : Rule} {v : KeyValue} {n : Nat} (h : ¬r.Places v) : r.Leads n v :=
  fun hv => absurd hv h

/-- A hint reaches a shard, unless it allows no value at all. -/
theorem exists_reaches {r : Rule} (hcount : r.count ≠ 0) {hint : KeyHint}
    (hhint : hint ≠ .values []) : ∃ n < r.count.toNat, r.Reaches n hint := by
  match hint with
  | .all => exact ⟨0, count_pos hcount, reaches_all r 0⟩
  | .values [] => exact absurd rfl hhint
  | .values (v :: vs) =>
    by_cases hv : r.Places v
    · obtain ⟨n, hn⟩ := hv
      exact ⟨n, indexOf_lt hcount hn, v, List.mem_cons_self, fun _ => hn⟩
    · exact ⟨0, count_pos hcount, v, List.mem_cons_self, leads_of_not_places hv⟩

theorem indexes_all (r : Rule) : r.indexes .all = .ok (List.range r.count.toNat) := rfl

/-- Values that all have a shard lead to their shards, in order and each once. -/
theorem indexes_of_places {r : Rule} {vs : List KeyValue} (h : ∀ v ∈ vs, r.Places v) :
    ∃ ns, r.indexes (.values vs) = .ok ns ∧ ns.Pairwise (· < ·) ∧
      ∀ n, n ∈ ns ↔ ∃ v ∈ vs, r.indexOf v = .ok n := by
  obtain ⟨ns, hns, hmem⟩ := mapM_indexOf_of_places h
  refine ⟨increasing ns, ?_, pairwise_increasing ns, fun n => mem_increasing.trans (hmem n)⟩
  simp only [indexes, hns]
  rfl

theorem indexes_of_not_places {r : Rule} {vs : List KeyValue} (h : ∃ v ∈ vs, ¬r.Places v) :
    ∃ e, r.indexes (.values vs) = .error (.invalidValue e) := by
  obtain ⟨e, he⟩ := mapM_indexOf_of_not_places h
  exact ⟨e, by simp only [indexes, he]; rfl⟩

/-- The indexes of a hint can only fail to be found for a value that no shard owns. -/
theorem indexes_error {r : Rule} {hint : KeyHint} {e : Error} (h : r.indexes hint = .error e) :
    hint ≠ .all ∧ ∃ v, e = .invalidValue v := by
  cases hint with
  | all =>
    rw [indexes_all] at h
    cases h
  | values vs =>
    by_cases hp : ∀ v ∈ vs, r.Places v
    · obtain ⟨ns, hns, -⟩ := indexes_of_places hp
      cases h.symm.trans hns
    · have hnot : ∃ v ∈ vs, ¬r.Places v := by simpa using hp
      obtain ⟨v, hv⟩ := indexes_of_not_places hnot
      cases h.symm.trans hv
      exact ⟨by simp, v, rfl⟩

/-- The indexes that a hint keeps a statement on: all of them if no shard owns one of its values. -/
def reached (r : Rule) (hint : KeyHint) : List Nat :=
  match r.indexes hint with
  | .ok ns => ns
  | .error _ => List.range r.count.toNat

theorem mem_reached {r : Rule} (hcount : r.count ≠ 0) {hint : KeyHint} {n : Nat} :
    n ∈ r.reached hint ↔ n < r.count.toNat ∧ r.Reaches n hint := by
  unfold reached
  cases hint with
  | all =>
    rw [indexes_all]
    simp [Reaches]
  | values vs =>
    by_cases hp : ∀ v ∈ vs, r.Places v
    · obtain ⟨ns, hns, -, hmem⟩ := indexes_of_places hp
      rw [hns]
      refine (hmem n).trans ⟨?_, ?_⟩
      · rintro ⟨v, hv, hn⟩
        exact ⟨indexOf_lt hcount hn, v, hv, fun _ => hn⟩
      · rintro ⟨_, v, hv, hn⟩
        exact ⟨v, hv, hn (hp v hv)⟩
    · obtain ⟨v, hv, hnot⟩ : ∃ v ∈ vs, ¬r.Places v := by simpa using hp
      obtain ⟨e, he⟩ := indexes_of_not_places ⟨v, hv, hnot⟩
      rw [he]
      simpa using fun _ => ⟨v, hv, leads_of_not_places hnot⟩

theorem pairwise_reached (r : Rule) (hint : KeyHint) : (r.reached hint).Pairwise (· < ·) := by
  unfold reached
  cases hns : r.indexes hint with
  | error e => exact List.pairwise_lt_range
  | ok ns =>
    cases hint with
    | all =>
      cases hns
      exact List.pairwise_lt_range
    | values vs =>
      simp only [indexes] at hns
      cases hall : vs.mapM r.indexOf with
      | error e =>
        rw [hall] at hns
        cases hns
      | ok ms =>
        rw [hall] at hns
        cases hns
        exact pairwise_increasing ms

/-- Whether there is a shard of an index. A rule without shards, which no table admits, may have any
index. -/
def HasShard (r : Rule) (n : Nat) : Prop := r.count ≠ 0 → n < r.count.toNat

theorem hasShard_of_reached {r : Rule} {hint : KeyHint} {n : Nat} (hn : n ∈ r.reached hint) :
    r.HasShard n := by
  intro hcount
  exact ((mem_reached hcount).mp hn).1

end Rule

namespace RuleTable

variable {rules : RuleTable} {r : Rule} {db table : String}

theorem find?_congr (rules : RuleTable) {db db' table table' : String}
    (hdb : Text.sameName db db' = true) (htable : Text.sameName table table' = true) :
    rules.find? db table = rules.find? db' table' := by
  have hcongr {a b : String} (h : Text.sameName a b = true) (c : String) :
      Text.sameName c a = Text.sameName c b := by
    rw [Bool.eq_iff_iff, Text.sameName_iff, Text.sameName_iff, (Text.sameName_iff a b).mp h]
  unfold find? Rule.isFor
  simp only [hcongr hdb, hcongr htable]

theorem sameName_of_find? {rules : RuleTable} {db table : String} {r : Rule}
    (h : rules.find? db table = some r) : Text.sameName r.table table = true := by
  have hfor := List.find?_some (p := fun r : Rule => r.isFor db table) h
  simp only [Rule.isFor, Bool.and_eq_true] at hfor
  exact hfor.2

theorem shardKey_of_find (h : rules.find? db table = some r) :
    rules.shardKey db table = some r.key := by
  simp [shardKey, h]

theorem route_of_indexes (h : rules.find? db table = some r) {hint : KeyHint} {ns : List Nat}
    (hns : r.indexes hint = .ok ns) : rules.route db table hint = .ok (ns.map (r.shard db)) := by
  simp only [route, h, hns]
  rfl

theorem route_of_indexes_error (h : rules.find? db table = some r) {hint : KeyHint} {e : Error}
    (he : r.indexes hint = .error e) : rules.route db table hint = .error e := by
  simp only [route, h, he]
  rfl

theorem route_value_of_indexOf (h : rules.find? db table = some r) {k : KeyValue} {n : Nat}
    (hk : r.indexOf k = .ok n) : rules.route db table (.values [k]) = .ok [r.shard db n] := by
  have hns : r.indexes (.values [k]) = .ok [n] := by
    simp only [Rule.indexes, List.mapM_cons, List.mapM_nil, hk]
    rfl
  exact route_of_indexes h hns

/-- The first shard that one value is routed to is the one of its index. -/
theorem indexOf_of_route {k : KeyValue} {home : Shard} {others : List Shard}
    (hfind : rules.find? db table = some r)
    (h : rules.route db table (.values [k]) = .ok (home :: others)) :
    r.indexOf k = .ok home.index ∧ home = r.shard db home.index := by
  by_cases hk : r.Places k
  · obtain ⟨n, hn⟩ := hk
    rw [route_value_of_indexOf hfind hn] at h
    cases h
    exact ⟨hn, rfl⟩
  · obtain ⟨e, he⟩ := Rule.indexes_of_not_places ⟨k, List.mem_singleton_self k, hk⟩
    rw [route_of_indexes_error hfind he] at h
    cases h

end RuleTable

/-- Four shards by the remainder of `id`. -/
def ordersById : Rule := .new "shop" "orders" "id" 4

end ShardedSql.Routing
