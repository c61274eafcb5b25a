import ShardedSql.Text.Case
import ShardedSql.Text.Integer

namespace ShardedSql.Text

theorem isDigit_toDigits (n : Nat) : ∀ c ∈ Nat.toDigits 10 n, c.isDigit = true :=
  fun _ hc => Nat.isDigit_of_mem_toDigits (by decide) (by decide) hc

theorem readNat?_toDigits (n : Nat) : readNat? (Nat.toDigits 10 n) = some n := by
  have hall : (Nat.toDigits 10 n).all Char.isDigit = true :=
    List.all_eq_true.mpr (isDigit_toDigits n)
  have hvalue : Nat.ofDigitChars 10 (Nat.toDigits 10 n) 0 = n := Nat.ofDigitChars_ten_toDigits
  unfold readNat?
  rw [if_neg]
  · exact congrArg some hvalue
  · simp [hall, Nat.toDigits_ne_nil]

theorem head_toDigits (n : Nat) {c : Char} (hc : c.isDigit = false) :
    (Nat.toDigits 10 n).head? ≠ some c := by
  intro hhead
  have hdigit := isDigit_toDigits n c (List.mem_of_head? hhead)
  rw [hc] at hdigit
  cases hdigit

theorem readInt?_toDigits (n : Nat) : readInt? (Nat.toDigits 10 n) = some (n : Int) := by
  have hminus := head_toDigits n (c := '-') (by decide)
  have hplus := head_toDigits n (c := '+') (by decide)
  unfold readInt?
  split
  · next h => exact absurd (by rw [h]; rfl) hminus
  · next h => exact absurd (by rw [h]; rfl) hplus
  · rw [readNat?_toDigits]
    rfl

theorem toList_decimal_of_nonneg {i : Int} (h : 0 ≤ i) :
    (decimal i).toList = Nat.toDigits 10 i.toNat := by
  rw [decimal, if_neg (by omega), String.toList_ofList, List.nil_append]
  congr 1
  omega

theorem toList_decimal_natCast (n : Nat) : (decimal n).toList = Nat.toDigits 10 n := by
  rw [toList_decimal_of_nonneg (by omega), Int.toNat_natCast]

theorem toList_decimal_of_neg {i : Int} (h : i < 0) :
    (decimal i).toList = '-' :: (decimal (-i)).toList := by
  have hpos : 0 ≤ -i := by omega
  have habs : i.natAbs = (-i).toNat := by omega
  rw [toList_decimal_of_nonneg hpos, decimal, if_pos h, String.toList_ofList, habs]
  rfl

theorem readInt?_decimal {i : Int} (h : 0 ≤ i) : readInt? (decimal i).toList = some i := by
  rw [toList_decimal_of_nonneg h, readInt?_toDigits]
  congr 1
  omega

theorem readInt64?_decimal {i : Int} (h : 0 ≤ i) : readInt64? (decimal i) = toInt64? i := by
  rw [readInt64?, readInt?_decimal h]
  rfl

theorem readUInt64?_decimal (n : UInt64) : readUInt64? (decimal n.toNat) = some n := by
  have hnonneg : (0 : Int) ≤ n.toNat := by omega
  have hlt := n.toNat_lt_size
  rw [readUInt64?, if_neg, readInt?_decimal hnonneg, Option.bind_some, toUInt64?, if_pos (by omega),
    Int.toNat_natCast, UInt64.ofNat_toNat]
  rw [toList_decimal_of_nonneg hnonneg]
  exact head_toDigits _ (by decide)

/-- A number that is read without a sign is not negative. -/
theorem readInt?_nonneg {cs : List Char} {i : Int} (h : readInt? cs = some i)
    (hminus : cs.head? ≠ some '-') : 0 ≤ i := by
  unfold readInt? at h
  split at h
  · exact absurd rfl hminus
  all_goals
    simp only [Option.map_id', Option.pure_def, Option.bind_eq_bind] at h
    obtain ⟨n, -, hn⟩ := Option.bind_eq_some_iff.mp h
    cases hn
    exact Int.natCast_nonneg n

/-- A number can be read off the end of a name, behind the last line. -/
theorem number_eq_of_append {a b : String} {j k : Nat}
    (h : a ++ ("_" ++ decimal j) = b ++ ("_" ++ decimal k)) : j = k := by
  have hdigits : ∀ (c : String) (n : Nat),
      (c ++ ("_" ++ decimal n)).toList.reverse.takeWhile Char.isDigit =
        (Nat.toDigits 10 n).reverse := by
    intro c n
    simp only [String.toList_append, List.reverse_append, List.append_assoc,
      toList_decimal_natCast]
    rw [List.takeWhile_append_of_pos]
    · simp
    · intro d hd
      exact isDigit_toDigits n d (List.mem_reverse.mp hd)
  have hsame : Nat.toDigits 10 j = Nat.toDigits 10 k := by
    rw [← List.reverse_inj, ← hdigits a j, ← hdigits b k, h]
  have hread := readNat?_toDigits j
  rw [hsame, readNat?_toDigits] at hread
  exact (Option.some.inj hread).symm

theorem toLower_of_isDigit {c : Char} (h : c.isDigit = true) : c.toLower = c := by
  obtain ⟨-, hle⟩ : c.val ≥ '0'.val ∧ c.val ≤ '9'.val := by simpa [Char.isDigit] using h
  refine dif_neg fun hletter => ?_
  exact absurd (UInt32.le_trans hletter.1 hle) (by decide)

theorem lower_decimal (n : Nat) : lower (decimal n) = decimal n := by
  have hdigit : ∀ c ∈ (decimal n).toList, c.toLower = c := fun c hc => by
    rw [toList_decimal_natCast] at hc
    exact toLower_of_isDigit (isDigit_toDigits n c hc)
  rw [lower, List.map_congr_left hdigit, List.map_id', String.ofList_toList]

end ShardedSql.Text
