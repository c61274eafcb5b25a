import Mathlib.Data.String.Basic

namespace ShardedSql.Text

/-- The UTF-8 bytes of a text. -/
def bytes (s : String) : List UInt8 := s.toUTF8.data.toList

theorem bytes_eq_flatMap (s : String) : bytes s = s.toList.flatMap String.utf8EncodeChar := by
  rw [bytes, String.toUTF8_eq_toByteArray, ← String.utf8Encode_toList, List.utf8Encode,
    List.data_toByteArray]

theorem byte_lt_byte_iff {m n : Nat} (hm : m < 256) (hn : n < 256) :
    UInt8.ofNat m < UInt8.ofNat n ↔ m < n := by
  rw [UInt8.lt_iff_toNat_lt, UInt8.toNat_ofNat_of_lt' hm, UInt8.toNat_ofNat_of_lt' hn]

/-- How many bytes follow the first one of a character. -/
def followers (v : Nat) : Nat :=
  if v ≤ 0x7f then 0 else if v ≤ 0x7ff then 1 else if v ≤ 0xffff then 2 else 3

/-- What the first of so many bytes is marked with. -/
def mark : Nat → Nat
  | 0 => 0
  | 1 => 0xc0
  | 2 => 0xe0
  | _ => 0xf0

/-- The first byte of a character. -/
def leadingByte (v : Nat) : Nat := v / 64 ^ followers v + mark (followers v)

/-- The bytes that follow it, with six bits each. -/
def followingBytes (v : Nat) : Nat → List UInt8
  | 0 => []
  | k + 1 => UInt8.ofNat (v / 64 ^ k % 64 + 128) :: followingBytes v k

theorem toNat_val_lt (c : Char) : c.val.toNat < 0x110000 := by
  have hvalid : Nat.isValidChar c.val.toNat := c.valid
  unfold Nat.isValidChar at hvalid
  omega

theorem utf8EncodeChar_eq (c : Char) : String.utf8EncodeChar c =
    UInt8.ofNat (leadingByte c.val.toNat) :: followingBytes c.val.toNat (followers c.val.toNat) := by
  have hlt := toNat_val_lt c
  unfold String.utf8EncodeChar leadingByte followers
  generalize c.val.toNat = v at hlt ⊢
  dsimp only
  split_ifs with h1 h2 h3
  · simp [followingBytes, mark]
  · have hlead : v / 64 % 32 = v / 64 := by omega
    simp [followingBytes, mark, hlead]
  · have hlead : v / 4096 % 16 = v / 4096 := by omega
    simp [followingBytes, mark, hlead]
  · have hlead : v / 262144 % 8 = v / 262144 := by omega
    simp [followingBytes, mark, hlead]

theorem leadingByte_lt {v : Nat} (hv : v < 0x110000) : leadingByte v < 256 := by
  unfold leadingByte followers
  split_ifs <;> simp only [mark, Nat.reducePow] <;> omega

theorem leadingByte_lt_of_followers_lt {v w : Nat} (h : followers v < followers w)
    (hv : v < 0x110000) : leadingByte v < leadingByte w := by
  unfold leadingByte followers at *
  split_ifs at * <;> simp only [mark, Nat.reducePow] at * <;> omega

theorem followers_mono {v w : Nat} (h : v ≤ w) : followers v ≤ followers w := by
  unfold followers
  split_ifs <;> omega

/-- A larger character has a larger first byte, or the same first byte and as many others. -/
theorem leadingByte_cases {v w : Nat} (h : v < w) (hw : w < 0x110000) :
    leadingByte v < leadingByte w ∨
      leadingByte v = leadingByte w ∧ followers v = followers w ∧
        v / 64 ^ followers v = w / 64 ^ followers v := by
  rcases Nat.lt_or_eq_of_le (followers_mono (Nat.le_of_lt h)) with hfew | hsame
  · exact .inl (leadingByte_lt_of_followers_lt hfew (Nat.lt_trans h hw))
  · have hle : v / 64 ^ followers v ≤ w / 64 ^ followers v :=
      Nat.div_le_div_right (Nat.le_of_lt h)
    unfold leadingByte
    rw [← hsame]
    omega

/-- Numbers that agree up to their last six-bit digits are in the order of those. -/
theorem followingBytes_append_lt {v w k : Nat} (h : v < w) (hk : v / 64 ^ k = w / 64 ^ k)
    (cs ds : List UInt8) : followingBytes v k ++ cs < followingBytes w k ++ ds := by
  induction k with
  | zero =>
    rw [Nat.pow_zero, Nat.div_one, Nat.div_one] at hk
    omega
  | succ k ih =>
    have hle : v / 64 ^ k ≤ w / 64 ^ k := Nat.div_le_div_right (Nat.le_of_lt h)
    rw [Nat.pow_succ, ← Nat.div_div_eq_div_mul, ← Nat.div_div_eq_div_mul] at hk
    simp only [followingBytes, List.cons_append, List.cons_lt_cons_iff]
    rcases Nat.lt_or_eq_of_le hle with hlt | heq
    · left
      rw [byte_lt_byte_iff (by omega) (by omega)]
      omega
    · right
      exact ⟨by rw [heq], ih heq⟩

/-- The bytes of a smaller character come first, whatever follows. -/
theorem utf8EncodeChar_append_lt {c d : Char} (h : c < d) (cs ds : List UInt8) :
    String.utf8EncodeChar c ++ cs < String.utf8EncodeChar d ++ ds := by
  have hlt : c.val.toNat < d.val.toNat := h
  rw [utf8EncodeChar_eq, utf8EncodeChar_eq, List.cons_append, List.cons_append,
    List.cons_lt_cons_iff]
  rcases leadingByte_cases hlt (toNat_val_lt d) with hlead | ⟨hlead, hmany, hrest⟩
  · left
    rwa [byte_lt_byte_iff (leadingByte_lt (toNat_val_lt c)) (leadingByte_lt (toNat_val_lt d))]
  · right
    refine ⟨by rw [hlead], ?_⟩
    rw [← hmany]
    exact followingBytes_append_lt hlt hrest cs ds

theorem flatMap_utf8EncodeChar_lt {cs ds : List Char} (h : cs < ds) :
    cs.flatMap String.utf8EncodeChar < ds.flatMap String.utf8EncodeChar := by
  induction h with
  | nil =>
    rw [List.flatMap_nil, List.flatMap_cons, utf8EncodeChar_eq, List.cons_append]
    exact List.nil_lt_cons ..
  | rel h => exact utf8EncodeChar_append_lt h _ _
  | cons _ ih => exact List.append_left_lt ih

theorem bytes_inj {a b : String} : bytes a = bytes b ↔ a = b := by
  refine ⟨fun h => ?_, fun h => by rw [h]⟩
  rw [← String.toByteArray_inj, ← String.toUTF8_eq_toByteArray, ← String.toUTF8_eq_toByteArray]
  exact ByteArray.ext (Array.toList_inj.mp h)

/-- Texts are in the order of their bytes. -/
theorem lt_iff_bytes_lt {a b : String} : a < b ↔ bytes a < bytes b := by
  have hmono : ∀ {a b : String}, a < b → bytes a < bytes b := fun h => by
    rw [bytes_eq_flatMap, bytes_eq_flatMap]
    exact flatMap_utf8EncodeChar_lt (String.lt_iff_toList_lt.mp h)
  refine ⟨hmono, fun h => ?_⟩
  rcases lt_trichotomy a b with hlt | rfl | hgt
  · exact hlt
  · exact absurd h (List.lt_irrefl _)
  · exact absurd (hmono hgt) (List.lt_asymm h)

end ShardedSql.Text
