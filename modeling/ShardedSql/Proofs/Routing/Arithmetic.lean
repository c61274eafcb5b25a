import ShardedSql.Proofs.Routing.Routes

namespace ShardedSql.Routing

/-- The remainder of signed 64-bit numbers. There is none by zero, and none where the quotient does
not fit. -/
def signedRemainder? (i n : Int64) : Option Nat :=
  if n = 0 ∨ i = Int64.minValue ∧ n = -1 then none else some (i.toInt % n.toInt).toNat

/-- Up to half the range, a count that is taken for a signed number leaves the same remainders. -/
theorem emod_toInt_toInt64 {n : UInt64} (hhalf : n.toNat ≤ 2 ^ 63) (i : Int) :
    i % n.toInt64.toInt = i % n.toNat := by
  rw [toInt_toInt64]
  split
  · rfl
  · have hminus : (n.toNat : Int) - 2 ^ 64 = -(n.toNat : Int) := by omega
    rw [hminus, Int.emod_neg]

namespace Rule

variable {r : Rule} {i : Int64} {n p : Nat}

/-- The number whose remainder by the count of shards is the index of a key: the key itself, or the
hash of its text. -/
def keyNumber (r : Rule) (i : Int64) : Int :=
  match r.placement with
  | .modulo => i.toInt
  | .hash => (hashText (KeyValue.int i).text).toNat

/-- The index of a key as 64-bit numbers give it, if no step fails. -/
def checkedIndex? (r : Rule) (i : Int64) : Option Nat :=
  match r.placement with
  | .modulo => signedRemainder? i r.count.toInt64
  | .hash =>
    if r.count = 0 then none
    else some ((hashText (KeyValue.int i).text).toNat % r.count.toNat)

/-- The slice position of a shard, if the product does not overflow. -/
def checkedPosition? (r : Rule) (n : Nat) : Option Nat :=
  if n * r.slices.length < UInt64.size ∧ r.count ≠ 0 then
    some (n * r.slices.length / r.count.toNat)
  else none

/-- A key is located at a shard and a slice position: no step overflows or fails, the index is the
remainder of the key's number, and the position is the share of the slices that lies before it. -/
structure Located (r : Rule) (i : Int64) (n p : Nat) : Prop where
  checkedIndex : r.checkedIndex? i = some n
  checkedPosition : r.checkedPosition? n = some p
  indexOf : r.indexOf (.int i) = .ok n
  slicePosition : r.slicePosition n = p
  index : (n : Int) = r.keyNumber i % r.count.toNat
  index_lt : n < r.count.toNat
  position : p = n * r.slices.length / r.count.toNat
  position_lt : p < r.slices.length

theorem indexOf_of_checkedIndex (h : r.checkedIndex? i = some n) :
    r.indexOf (.int i) = .ok n := by
  unfold checkedIndex? at h
  split at h
  · next hp =>
    unfold signedRemainder? at h
    split at h
    · cases h
    · cases h
      rw [indexOf_modulo hp]
      rfl
  · next hp =>
    split at h
    · cases h
    · cases h
      exact indexOf_hash hp _

theorem slicePosition_eq (hfits : n * r.slices.length < UInt64.size) :
    r.slicePosition n = n * r.slices.length / r.count.toNat := by
  rw [slicePosition, Nat.mod_eq_of_lt hfits]

theorem slices_pos (hcheck : r.check = .ok ()) : 0 < r.slices.length := by
  apply List.length_pos_of_ne_nil
  intro hnil
  have hcount := count_ne_zero_of_check hcheck
  simp [check, hcount, hnil] at hcheck

/-- The position of a shard is that of a slice, even where the product overflows. -/
theorem slicePosition_lt (hcheck : r.check = .ok ()) (hn : n < r.count.toNat) :
    r.slicePosition n < r.slices.length := by
  have hproduct : n * r.slices.length < r.count.toNat * r.slices.length :=
    Nat.mul_lt_mul_of_pos_right hn (slices_pos hcheck)
  exact Nat.div_lt_of_lt_mul (Nat.lt_of_le_of_lt (Nat.mod_le _ _) hproduct)

/-- A key whose index is found is located if the product of index and slices fits. -/
theorem located_of_fits (hcheck : r.check = .ok ()) (hn : r.checkedIndex? i = some n)
    (hindex : (n : Int) = r.keyNumber i % r.count.toNat)
    (hfits : n * r.slices.length < UInt64.size) :
    r.Located i n (n * r.slices.length / r.count.toNat) := by
  have hcount := count_ne_zero_of_check hcheck
  have hrun := indexOf_of_checkedIndex hn
  have hlt := indexOf_lt hcount hrun
  have hposition := slicePosition_lt hcheck hlt
  rw [slicePosition_eq hfits] at hposition
  exact {
    checkedIndex := hn
    checkedPosition := if_pos ⟨hfits, hcount⟩
    indexOf := hrun
    slicePosition := slicePosition_eq hfits
    index := hindex
    index_lt := hlt
    position := rfl
    position_lt := hposition }

theorem Located.fits (h : r.Located i n p) : n * r.slices.length < UInt64.size := by
  have hposition := h.checkedPosition
  unfold checkedPosition? at hposition
  split at hposition
  · next hfits => exact hfits.1
  · cases hposition

/-- By a count of at most half the range, every key has its remainder. -/
theorem checkedIndex_of_count_le (hp : r.placement = .modulo) (hcount : r.count ≠ 0)
    (hhalf : r.count.toNat ≤ 2 ^ 63) (i : Int64) :
    r.checkedIndex? i = some (i.toInt % r.count.toNat).toNat := by
  have hpos := count_pos hcount
  have hsigned := toInt_toInt64 r.count
  have hne : ¬(r.count.toInt64 = 0 ∨ i = Int64.minValue ∧ r.count.toInt64 = -1) := by
    rintro (hzero | ⟨-, hone⟩)
    · rw [hzero] at hsigned
      change (0 : Int) = _ at hsigned
      split at hsigned <;> omega
    · rw [hone] at hsigned
      change (-1 : Int) = _ at hsigned
      split at hsigned <;> omega
  rw [checkedIndex?, hp]
  change signedRemainder? i r.count.toInt64 = _
  rw [signedRemainder?, if_neg hne, emod_toInt_toInt64 hhalf]

/-- By a count beyond half the range, the key before zero does not have its remainder. -/
theorem count_le_of_located (hp : r.placement = .modulo) (h : r.Located (-1) n p) :
    r.count.toNat ≤ 2 ^ 63 := by
  by_contra hbig
  have hlt := r.count.toNat_lt
  have hindex : (n : Int) = -1 % (r.count.toNat : Int) := by
    have hkey := h.index
    rwa [keyNumber, hp] at hkey
  have hrun : n = r.remainder (-1) := by
    have hindexOf := h.indexOf
    rw [indexOf_modulo hp] at hindexOf
    cases hindexOf
    rfl
  have hminus : r.count.toInt64.toInt = -(2 ^ 64 - r.count.toNat : Int) := by
    rw [toInt_toInt64, if_neg (by omega)]
    omega
  have hremainder : r.remainder (-1) = (-1 % (2 ^ 64 - r.count.toNat : Int)).toNat := by
    rw [remainder, hminus, Int.emod_neg]
    rfl
  have hfew : (-1 : Int) % (2 ^ 64 - r.count.toNat : Int) < 2 ^ 64 - r.count.toNat :=
    Int.emod_lt_of_pos _ (by omega)
  have hmany : (-1 : Int) % (r.count.toNat : Int) = r.count.toNat - 1 := by
    rw [← Int.add_emod_right, Int.emod_eq_of_lt (by omega) (by omega)]
    omega
  omega

theorem exists_located_iff_of_modulo (hcheck : r.check = .ok ()) (hp : r.placement = .modulo) :
    (∀ i, ∃ n p, r.Located i n p) ↔
      r.count.toNat ≤ 2 ^ 63 ∧ (r.count.toNat - 1) * r.slices.length < UInt64.size := by
  have hcount := count_ne_zero_of_check hcheck
  have hpos := count_pos hcount
  have hkey : ∀ i, r.keyNumber i = i.toInt := fun i => by rw [keyNumber, hp]
  constructor
  · intro hall
    obtain ⟨_, _, hminus⟩ := hall (-1)
    have hhalf := count_le_of_located hp hminus
    refine ⟨hhalf, ?_⟩
    -- The last shard, which has the largest product, belongs to the key before the count.
    have hlast : (Int64.ofInt (r.count.toNat - 1)).toInt = r.count.toNat - 1 :=
      Int64.toInt_ofInt_of_le (by omega) (by omega)
    obtain ⟨n, p, hlocated⟩ := hall (Int64.ofInt (r.count.toNat - 1))
    have hindex := hlocated.index
    rw [hkey, hlast, Int.emod_eq_of_lt (by omega) (by omega)] at hindex
    have hn : n = r.count.toNat - 1 := by omega
    rw [← hn]
    exact hlocated.fits
  · rintro ⟨hhalf, hfits⟩ i
    have hindex := checkedIndex_of_count_le hp hcount hhalf i
    have hnonneg := Int.emod_nonneg i.toInt (b := r.count.toNat) (by omega)
    have hlt := indexOf_lt hcount (indexOf_of_checkedIndex hindex)
    have hproduct : (i.toInt % r.count.toNat).toNat * r.slices.length ≤
        (r.count.toNat - 1) * r.slices.length := Nat.mul_le_mul_right _ (by omega)
    refine ⟨_, _, located_of_fits hcheck hindex ?_ (Nat.lt_of_le_of_lt hproduct hfits)⟩
    rw [hkey]
    exact Int.toNat_of_nonneg hnonneg

theorem exists_located_iff_of_hash (hcheck : r.check = .ok ()) (hp : r.placement = .hash)
    (i : Int64) : (∃ n p, r.Located i n p) ↔
      r.keyNumber i % r.count.toNat * r.slices.length < UInt64.size := by
  have hcount := count_ne_zero_of_check hcheck
  constructor
  · rintro ⟨n, p, h⟩
    rw [← h.index]
    exact_mod_cast h.fits
  · intro hfits
    have hkey : r.keyNumber i = (hashText (KeyValue.int i).text).toNat := by rw [keyNumber, hp]
    have hindex : r.checkedIndex? i =
        some ((hashText (KeyValue.int i).text).toNat % r.count.toNat) := by
      rw [checkedIndex?, hp]
      exact if_neg hcount
    rw [hkey] at hfits
    refine ⟨_, _, located_of_fits hcheck hindex ?_ (by exact_mod_cast hfits)⟩
    rw [hkey]
    rfl

end Rule

/-- The arithmetic of an accepted rule. With the remainder of the key, every integer key is located
without a failing step at its remainder and share exactly if the count is at most half the range of
64 bits and the product of the last index and the slices fits. With the hash, a key is located so
exactly if its own product fits. Indexes and slice positions are in range at any count. -/
theorem keys_located_iff {rules rules' : RuleTable} {r : Rule} (h : rules.add r = .ok rules') :
    (r.placement = .modulo →
      ((∀ i, ∃ n p, r.Located i n p) ↔
        r.count.toNat ≤ 2 ^ 63 ∧ (r.count.toNat - 1) * r.slices.length < UInt64.size)) ∧
    (r.placement = .hash → ∀ i, (∃ n p, r.Located i n p) ↔
      r.keyNumber i % r.count.toNat * r.slices.length < UInt64.size) ∧
    ∀ v n, r.indexOf v = .ok n → n < r.count.toNat ∧ r.slicePosition n < r.slices.length := by
  have hcheck := (RuleTable.add_eq_ok h).1
  refine ⟨Rule.exists_located_iff_of_modulo hcheck, Rule.exists_located_iff_of_hash hcheck, ?_⟩
  intro v n hn
  have hlt := Rule.indexOf_lt (Rule.count_ne_zero_of_check hcheck) hn
  exact ⟨hlt, Rule.slicePosition_lt hcheck hlt⟩

/-- A third of the range of 64 bits on three slices. The product of the last index is the largest
number that fits. -/
def ordersOnThreeSlices : Rule :=
  { Rule.new "shop" "orders" "id" 0x5555555555555556 with slices := ["a", "b", "c"] }

theorem keys_of_three_slices_located :
    RuleTable.empty.add ordersOnThreeSlices = .ok ⟨[ordersOnThreeSlices]⟩ ∧
    ordersOnThreeSlices.placement = .modulo ∧ ∀ i, ∃ n p, ordersOnThreeSlices.Located i n p := by
  have hadd : RuleTable.empty.add ordersOnThreeSlices = .ok ⟨[ordersOnThreeSlices]⟩ := by decide
  exact ⟨hadd, rfl, ((keys_located_iff hadd).1 rfl).mpr (by decide)⟩

/-- One shard more than half the range of 64 bits has numbers. -/
def ordersBeyondHalf : Rule := .new "shop" "orders" "id" 0x8000000000000001

/-- The shard of the key before zero is not the last one but one further down, as the count is taken
for a negative number. -/
theorem key_before_zero_misplaced :
    RuleTable.empty.add ordersBeyondHalf = .ok ⟨[ordersBeyondHalf]⟩ ∧
    ordersBeyondHalf.indexOf (.int (-1)) = .ok 0x7ffffffffffffffe ∧
    (-1 : Int) % ordersBeyondHalf.count.toNat = 0x8000000000000000 := by
  decide

/-- The largest count is taken for minus one, by which the smallest key has no quotient. -/
example : (Rule.new "shop" "orders" "id" 0xffffffffffffffff).checkedIndex? Int64.minValue = none := by
  decide

end ShardedSql.Routing
