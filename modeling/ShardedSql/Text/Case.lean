namespace ShardedSql.Text

/-- ASCII letters lowered; every other character stays as it is. -/
def lower (s : String) : String := String.ofList (s.toList.map Char.toLower)

def upper (s : String) : String := String.ofList (s.toList.map Char.toUpper)

theorem toLower_toLower (c : Char) : c.toLower.toLower = c.toLower := by
  by_cases hupper : 'A'.val ≤ c.val ∧ c.val ≤ 'Z'.val
  · have hval : c.toLower.val = c.val + ('a'.val - 'A'.val) := congrArg Char.val (dif_pos hupper)
    -- the small letters lie behind the capital ones
    refine dif_neg fun h => ?_
    rw [hval] at h
    simp only [ge_iff_le, UInt32.le_iff_toNat_le, UInt32.toNat_add, Char.reduceVal,
      UInt32.reduceSub, UInt32.reduceToNat] at hupper h
    omega
  · have hsame : c.toLower = c := dif_neg hupper
    rw [hsame, hsame]

theorem lower_lower (s : String) : lower (lower s) = lower s := by
  have hchar : Char.toLower ∘ Char.toLower = Char.toLower := funext toLower_toLower
  simp [lower, hchar]

/-- Names are one name when they differ only in the case of ASCII letters. -/
def sameName (a b : String) : Bool := lower a == lower b

theorem sameName_iff (a b : String) : sameName a b = true ↔ lower a = lower b := by
  simp [sameName]

theorem sameName_refl (a : String) : sameName a a = true := by simp [sameName]

theorem sameName_comm (a b : String) : sameName a b = sameName b a := by
  simp only [sameName]
  exact Bool.eq_iff_iff.2 (by simp only [beq_iff_eq]; exact eq_comm)

theorem sameName_trans {a b c : String} (hab : sameName a b = true) (hbc : sameName b c = true) :
    sameName a c = true := by
  rw [sameName_iff] at *
  exact hab.trans hbc

theorem lower_append (a b : String) : lower (a ++ b) = lower a ++ lower b := by
  simp [lower]

theorem sameName_append_right (a b c : String) : sameName (a ++ c) (b ++ c) = sameName a b := by
  rw [Bool.eq_iff_iff, sameName_iff, sameName_iff, lower_append, lower_append]
  constructor
  · intro h
    have hlist := congrArg String.toList h
    rw [String.toList_append, String.toList_append] at hlist
    exact String.toList_inj.mp (List.append_cancel_right hlist)
  · intro h
    rw [h]

theorem length_eq_of_sameName {a b : String} (h : sameName a b = true) : a.length = b.length := by
  have hlength := congrArg (List.length ∘ String.toList) ((sameName_iff a b).mp h)
  rw [← String.length_toList, ← String.length_toList]
  simpa [lower] using hlength

end ShardedSql.Text
