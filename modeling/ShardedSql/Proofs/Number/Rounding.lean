import Mathlib.Algebra.Group.Nat.Defs
import ShardedSql.Number.Binary64

namespace ShardedSql.Number.Binary64

theorem div_le_roundQuotient (n d : Nat) : n / d ≤ roundQuotient n d := by
  simp only [roundQuotient]
  split <;> omega

theorem roundQuotient_le (n d : Nat) : roundQuotient n d ≤ n / d + 1 := by
  simp only [roundQuotient]
  split <;> omega

theorem roundQuotient_mono {m n : Nat} (h : m ≤ n) (d : Nat) :
    roundQuotient m d ≤ roundQuotient n d := by
  have hm := Nat.div_add_mod m d
  have hn := Nat.div_add_mod n d
  rcases Nat.lt_or_eq_of_le (Nat.div_le_div_right (c := d) h) with hlt | heq
  · have hup := roundQuotient_le m d
    have hdown := div_le_roundQuotient n d
    omega
  · -- with one quotient the remainders decide, and a larger one is not rounded down
    rw [← heq] at hn
    have hrem : m % d ≤ n % d := by omega
    simp only [roundQuotient, ← heq]
    split <;> split <;> omega

/-- The significand of a natural number, which a carry may make one bit longer. -/
def significand (n : Nat) : Nat :=
  if n.log2 ≤ 52 then n <<< (52 - n.log2) else roundQuotient n (1 <<< (n.log2 - 52))

theorem scaled_bounds {n : Nat} (hn : n ≠ 0) (hexact : n.log2 ≤ 52) :
    2 ^ 52 ≤ n * 2 ^ (52 - n.log2) ∧ n * 2 ^ (52 - n.log2) < 2 ^ 53 := by
  have hlow : 2 ^ n.log2 * 2 ^ (52 - n.log2) = 2 ^ 52 := by
    rw [← Nat.pow_add]
    congr 1
    omega
  have hhigh : 2 ^ (n.log2 + 1) * 2 ^ (52 - n.log2) = 2 ^ 53 := by
    rw [← Nat.pow_add]
    congr 1
    omega
  constructor
  · rw [← hlow]
    exact Nat.mul_le_mul_right _ (Nat.log2_self_le hn)
  · rw [← hhigh]
    exact Nat.mul_lt_mul_of_pos_right Nat.lt_log2_self (Nat.two_pow_pos _)

theorem significand_bounds {n : Nat} (hn : n ≠ 0) :
    2 ^ 52 ≤ significand n ∧ significand n ≤ 2 ^ 53 := by
  unfold significand
  split
  · next hexact =>
    have hscaled := scaled_bounds hn hexact
    rw [Nat.shiftLeft_eq]
    omega
  · next hlong =>
    rw [Nat.one_shiftLeft]
    have hpos : 0 < 2 ^ (n.log2 - 52) := Nat.two_pow_pos _
    have hlow : 2 ^ 52 ≤ n / 2 ^ (n.log2 - 52) := by
      rw [Nat.le_div_iff_mul_le hpos, ← Nat.pow_add]
      have hexp : 52 + (n.log2 - 52) = n.log2 := by omega
      rw [hexp]
      exact Nat.log2_self_le hn
    have hhigh : n / 2 ^ (n.log2 - 52) < 2 ^ 53 := by
      rw [Nat.div_lt_iff_lt_mul hpos, ← Nat.pow_add]
      have hexp : 53 + (n.log2 - 52) = n.log2 + 1 := by omega
      rw [hexp]
      exact Nat.lt_log2_self
    have hdown := div_le_roundQuotient n (2 ^ (n.log2 - 52))
    have hup := roundQuotient_le n (2 ^ (n.log2 - 52))
    omega

theorem significand_mono {m n : Nat} (h : m ≤ n) (hlog : m.log2 = n.log2) :
    significand m ≤ significand n := by
  unfold significand
  rw [hlog]
  split
  · rw [Nat.shiftLeft_eq, Nat.shiftLeft_eq]
    exact Nat.mul_le_mul_right _ h
  · exact roundQuotient_mono h _

theorem log2_mono {m n : Nat} (hm : m ≠ 0) (h : m ≤ n) : m.log2 ≤ n.log2 :=
  (Nat.le_log2 (by omega)).mpr (Nat.le_trans (Nat.log2_self_le hm) h)

theorem log2_le_of_lt {n : Nat} (hlt : n < 2 ^ 64) : n.log2 ≤ 63 := by
  by_cases hn : n = 0
  · simp [hn]
  · have hlog := (Nat.log2_lt hn).mpr hlt
    omega

theorem toNat_bits_ofNat {n : Nat} (hn : n ≠ 0) (hlt : n < 2 ^ 64) :
    (ofNat n).bits.toNat = (n.log2 + 1022) * 2 ^ 52 + significand n := by
  have hlog := log2_le_of_lt hlt
  have hbounds := significand_bounds hn
  have hbits : (ofNat n).bits = UInt64.ofNat (((n.log2 + 1022) <<< 52) + significand n) := by
    rw [ofNat, if_neg hn]
    rfl
  rw [hbits, Nat.shiftLeft_eq, UInt64.toNat_ofNat_of_lt']
  change _ < 2 ^ 64
  omega

theorem toNat_bits_ofNat_lt {n : Nat} (hlt : n < 2 ^ 64) : (ofNat n).bits.toNat < 2 ^ 63 := by
  by_cases hn : n = 0
  · subst hn
    decide
  · have hlog := log2_le_of_lt hlt
    have hbounds := significand_bounds hn
    rw [toNat_bits_ofNat hn hlt]
    omega

theorem toNat_bits_ofNat_mono {m n : Nat} (h : m ≤ n) (hlt : n < 2 ^ 64) :
    (ofNat m).bits.toNat ≤ (ofNat n).bits.toNat := by
  by_cases hm : m = 0
  · subst hm
    exact Nat.zero_le _
  have hn : n ≠ 0 := by omega
  rw [toNat_bits_ofNat hm (by omega), toNat_bits_ofNat hn hlt]
  rcases Nat.lt_or_eq_of_le (log2_mono hm h) with hlog | hlog
  · -- a carry at most reaches the first significand of the next exponent
    have hbounds := significand_bounds hm
    have hbounds' := significand_bounds hn
    omega
  · have hsignificand := significand_mono h hlog
    rw [hlog]
    omega

/-- Up to `2 ^ 53` no significand is rounded. -/
theorem toNat_bits_ofNat_strictMono {m n : Nat} (h : m < n) (hn : n ≤ 2 ^ 53) :
    (ofNat m).bits.toNat < (ofNat n).bits.toNat := by
  have hpos : n ≠ 0 := by omega
  have hbounds := significand_bounds hpos
  rw [toNat_bits_ofNat hpos (by omega)]
  by_cases hm : m = 0
  · subst hm
    change 0 < _
    omega
  have hlog : m.log2 < 53 := (Nat.log2_lt hm).mpr (by omega)
  have hexact : significand m = m * 2 ^ (52 - m.log2) := by
    rw [significand, if_pos (by omega), Nat.shiftLeft_eq]
  rw [toNat_bits_ofNat hm (by omega)]
  rcases Nat.lt_or_eq_of_le (log2_mono hm (Nat.le_of_lt h)) with hless | hsame
  · have hscaled := scaled_bounds hm (by omega)
    omega
  · have hexact' : significand n = n * 2 ^ (52 - m.log2) := by
      rw [significand, if_pos (by omega), Nat.shiftLeft_eq, hsame]
    have hless : m * 2 ^ (52 - m.log2) < n * 2 ^ (52 - m.log2) :=
      Nat.mul_lt_mul_of_pos_right h (Nat.two_pow_pos _)
    rw [hexact, hexact', hsame]
    rw [hsame] at hless
    omega

theorem rank_ofInt_of_nonneg {i : Int} (h : 0 ≤ i) (hlt : i.natAbs < 2 ^ 64) :
    (ofInt i).rank = (ofNat i.natAbs).bits.toNat := by
  have hbits := toNat_bits_ofNat_lt hlt
  rw [ofInt, if_neg (by omega), rank, isNegative, if_neg]
  simpa using hbits

theorem rank_ofInt_of_neg {i : Int} (h : i < 0) (hlt : i.natAbs < 2 ^ 64) :
    (ofInt i).rank = -1 - (ofNat i.natAbs).bits.toNat := by
  have hbits := toNat_bits_ofNat_lt hlt
  have hsum : ((ofNat i.natAbs).bits + UInt64.ofNat (1 <<< 63)).toNat =
      (ofNat i.natAbs).bits.toNat + 2 ^ 63 := by
    have hsign : (UInt64.ofNat (1 <<< 63)).toNat = 2 ^ 63 := by decide
    rw [UInt64.toNat_add, hsign]
    omega
  rw [ofInt, if_pos h, rank, isNegative, if_pos]
  · simp only [hsum]
    omega
  · simp only [hsum, decide_eq_true_eq]
    omega

/-- Rounding integers keeps their order. -/
theorem rank_ofInt_mono {i j : Int} (h : i ≤ j) (hi : i.natAbs < 2 ^ 64) (hj : j.natAbs < 2 ^ 64) :
    (ofInt i).rank ≤ (ofInt j).rank := by
  rcases Int.lt_or_le i 0 with hneg | hpos
  · rw [rank_ofInt_of_neg hneg hi]
    rcases Int.lt_or_le j 0 with hneg' | hpos'
    · have hbits := toNat_bits_ofNat_mono (m := j.natAbs) (n := i.natAbs) (by omega) hi
      rw [rank_ofInt_of_neg hneg' hj]
      omega
    · rw [rank_ofInt_of_nonneg hpos' hj]
      omega
  · have hbits := toNat_bits_ofNat_mono (m := i.natAbs) (n := j.natAbs) (by omega) hj
    rw [rank_ofInt_of_nonneg hpos hi, rank_ofInt_of_nonneg (by omega) hj]
    omega

theorem rank_ofInt_strictMono {i j : Int} (h : i < j) (hi : i.natAbs ≤ 2 ^ 53)
    (hj : j.natAbs ≤ 2 ^ 53) : (ofInt i).rank < (ofInt j).rank := by
  rcases Int.lt_or_le i 0 with hneg | hpos
  · rw [rank_ofInt_of_neg hneg (by omega)]
    rcases Int.lt_or_le j 0 with hneg' | hpos'
    · have hbits := toNat_bits_ofNat_strictMono (m := j.natAbs) (n := i.natAbs) (by omega) hi
      rw [rank_ofInt_of_neg hneg' (by omega)]
      omega
    · rw [rank_ofInt_of_nonneg hpos' (by omega)]
      omega
  · have hbits := toNat_bits_ofNat_strictMono (m := i.natAbs) (n := j.natAbs) (by omega) hj
    rw [rank_ofInt_of_nonneg hpos (by omega), rank_ofInt_of_nonneg (by omega) (by omega)]
    omega

theorem ofInt_inj {i j : Int} (hi : i.natAbs ≤ 2 ^ 53) (hj : j.natAbs ≤ 2 ^ 53)
    (h : ofInt i = ofInt j) : i = j := by
  rcases Int.lt_trichotomy i j with hlt | heq | hgt
  · have hrank := rank_ofInt_strictMono hlt hi hj
    rw [h] at hrank
    exact absurd hrank (Int.lt_irrefl _)
  · exact heq
  · have hrank := rank_ofInt_strictMono hgt hj hi
    rw [h] at hrank
    exact absurd hrank (Int.lt_irrefl _)

end ShardedSql.Number.Binary64
