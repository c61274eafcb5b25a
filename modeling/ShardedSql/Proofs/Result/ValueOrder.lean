import Mathlib.Order.Compare
import ShardedSql.Proofs.Number.Rounding
import ShardedSql.Proofs.Result.RowOrder

namespace ShardedSql.Result.Value

open Number (Binary64)

/-- The order of all cells that takes a number for the floating-point one it rounds to. -/
def roundedOrder : Value → Value → Ordering :=
  compareLex (compareOn rank)
    (compareLex (compareOn fun a => a.toBinary64?.map Binary64.rank) (compareOn string?))

instance : Std.TransCmp roundedOrder :=
  inferInstanceAs (Std.TransCmp (compareLex (compareOn rank) (compareLex
    (compareOn fun a => a.toBinary64?.map Binary64.rank) (compareOn string?))))

theorem roundedOrder_swap (a b : Value) : a.roundedOrder b = (b.roundedOrder a).swap :=
  Std.OrientedCmp.eq_swap

/-- The order of two numbers of one kind. Other cells it does not tell apart. -/
def exactOrder (a b : Value) : Ordering :=
  if a.kind? = b.kind? then compare a.number? b.number? else .eq

theorem roundedOrder_eq_iff {a b : Value} :
    a.roundedOrder b = .eq ↔
      a.rank = b.rank ∧ a.toBinary64? = b.toBinary64? ∧ a.string? = b.string? := by
  have hinj : Function.Injective (Option.map Binary64.rank) :=
    Option.map_injective fun _ _ => Binary64.rank_injective
  simp only [roundedOrder, compareLex, compareOn, Ordering.then_eq_eq, Std.compare_eq_iff_eq,
    hinj.eq_iff]

/-- Rounding brings no two integers out of order, so that it decides nothing before they are
compared exactly. -/
theorem compare_rank_then {i j : Int} (hi : i.natAbs < 2 ^ 64) (hj : j.natAbs < 2 ^ 64) :
    (compare (Binary64.ofInt i).rank (Binary64.ofInt j).rank).then (compare i j) = compare i j := by
  rcases Int.lt_trichotomy i j with hlt | rfl | hgt
  · have hrank := Binary64.rank_ofInt_mono (Int.le_of_lt hlt) hi hj
    rw [Int.compare_eq_lt.mpr hlt]
    cases h : compare (Binary64.ofInt i).rank (Binary64.ofInt j).rank with
    | gt => exact absurd (Int.compare_eq_gt.mp h) (Int.not_lt.mpr hrank)
    | _ => rfl
  · rw [Std.compare_self, Std.compare_self]
    rfl
  · have hrank := Binary64.rank_ofInt_mono (Int.le_of_lt hgt) hj hi
    rw [Int.compare_eq_gt.mpr hgt]
    cases h : compare (Binary64.ofInt i).rank (Binary64.ofInt j).rank with
    | lt => exact absurd (Int.compare_eq_lt.mp h) (Int.not_lt.mpr hrank)
    | _ => rfl

theorem natAbs_toInt_lt (i : Int64) : i.toInt.natAbs < 2 ^ 64 := by
  have hlow := i.le_toInt
  have hhigh := i.toInt_lt
  omega

theorem compare_some {α : Type} [Ord α] (a b : α) : compare (some a) (some b) = compare a b := rfl

/-- Cells are compared as rounded, then numbers of one kind exactly. -/
theorem order_eq_then (a b : Value) :
    a.order b = (a.roundedOrder b).then (a.exactOrder b) := by
  cases a <;> cases b <;>
    simp only [order, roundedOrder, exactOrder, compareLex, compareOn, rank, toBinary64?, string?,
      kind?, number?, Option.map_some, Option.map_none, compare_some, Binary64.order,
      Std.compare_self, Ordering.eq_then, Ordering.then_eq, Option.some.injEq, reduceCtorEq,
      if_true, if_false]
  case int.int i j => exact (compare_rank_then (natAbs_toInt_lt i) (natAbs_toInt_lt j)).symm
  case uint.uint u v =>
    rw [← compare_natCast]
    exact (compare_rank_then (i := u.toNat) (j := v.toNat) u.toNat_lt v.toNat_lt).symm
  case float.float x y => cases compare x.rank y.rank <;> rfl
  all_goals rfl

theorem exactOrder_swap (a b : Value) : a.exactOrder b = (b.exactOrder a).swap := by
  unfold exactOrder
  by_cases hkind : a.kind? = b.kind?
  · rw [if_pos hkind, if_pos hkind.symm]
    exact Std.OrientedCmp.eq_swap
  · rw [if_neg hkind, if_neg (Ne.symm hkind)]
    rfl

theorem exactOrder_eq_iff {a b : Value} :
    a.exactOrder b = .eq ↔ (a.kind? = b.kind? → a.number? = b.number?) := by
  unfold exactOrder
  split
  · next hkind => simp [hkind]
  · next hkind => simp [hkind]

theorem isLE_exactOrder_trans {a b c : Value} (hkind : b.kind? = a.kind?)
    (hab : (a.exactOrder b).isLE = true) (hbc : (b.exactOrder c).isLE = true) :
    (a.exactOrder c).isLE = true := by
  unfold exactOrder at hab hbc ⊢
  rw [hkind] at hab hbc
  split
  · next hac =>
    simp only [hac, if_true] at hab hbc
    exact Std.TransCmp.isLE_trans hab hbc
  · rfl

theorem order_eq_iff {a b : Value} :
    a.order b = .eq ↔ a.roundedOrder b = .eq ∧ a.exactOrder b = .eq := by
  rw [order_eq_then, Ordering.then_eq_eq]

/-- Sorting one way or the other compares alike. -/
theorem order_swap (a b : Value) : a.order b = (b.order a).swap := by
  rw [order_eq_then, order_eq_then, exactOrder_swap, Ordering.swap_then, roundedOrder_swap]

/-- Two integers of one kind that round to one number. -/
def RoundAlike (a c : Value) : Prop :=
  a.kind? = c.kind? ∧ a.number? ≠ c.number? ∧ a.toBinary64? = c.toBinary64?

/-- Whether `b` is a number of another kind that stands for the one that `a` and `c` round to. -/
def Blurs (b a c : Value) : Prop :=
  a.RoundAlike c ∧ b.kind? ≠ a.kind? ∧ b.toBinary64? = a.toBinary64?

theorem Blurs.symm {a b c : Value} (h : b.Blurs a c) : b.Blurs c a := by
  obtain ⟨⟨hkind, hnumber, hfloat⟩, hother, hsame⟩ := h
  exact ⟨⟨hkind.symm, hnumber.symm, hfloat.symm⟩, hkind ▸ hother, hsame.trans hfloat⟩

theorem number?_eq_none {a : Value} (h : a.toBinary64? = none) : a.number? = none := by
  cases a with
  | null | text => rfl
  | int | uint | float => cases h

theorem RoundAlike.toBinary64?_ne_none {a c : Value} (h : a.RoundAlike c) :
    a.toBinary64? ≠ none := by
  obtain ⟨-, hnumber, hfloat⟩ := h
  intro hnone
  exact hnumber ((number?_eq_none hnone).trans (number?_eq_none (hfloat ▸ hnone)).symm)

theorem roundedOrder_eq_of_number {a b : Value} (hnumber : a.toBinary64? ≠ none)
    (h : a.toBinary64? = b.toBinary64?) : a.roundedOrder b = .eq := by
  rw [roundedOrder_eq_iff]
  cases a <;> cases b <;> simp_all [toBinary64?, rank, string?]

/-- Only integers beyond `2 ^ 53` round to a number that another one of their kind rounds to. -/
theorem RoundAlike.large {a c : Value} (h : a.RoundAlike c) :
    ∃ i j, a.number? = some i ∧ c.number? = some j ∧ (2 ^ 53 < i.natAbs ∨ 2 ^ 53 < j.natAbs) := by
  have hlarge {i j : Int} (hdiffer : i ≠ j) (hfloat : Binary64.ofInt i = Binary64.ofInt j) :
      2 ^ 53 < i.natAbs ∨ 2 ^ 53 < j.natAbs := by
    by_cases hi : i.natAbs ≤ 2 ^ 53
    · exact .inr (Nat.lt_of_not_le fun hj => hdiffer (Binary64.ofInt_inj hi hj hfloat))
    · exact .inl (Nat.lt_of_not_le hi)
  obtain ⟨hkind, hdiffer, hfloat⟩ := h
  cases a <;> cases c <;> cases hkind
  case int.int i j =>
    exact ⟨_, _, rfl, rfl, hlarge (fun h => hdiffer (congrArg some h)) (Option.some.inj hfloat)⟩
  case uint.uint u v =>
    exact ⟨_, _, rfl, rfl, hlarge (fun h => hdiffer (congrArg some h)) (Option.some.inj hfloat)⟩
  case float.float =>
    cases hfloat
    exact absurd rfl hdiffer
  all_goals exact absurd rfl hdiffer

/-- A number blurs two others exactly if it is equal to both of them while they differ. -/
theorem blurs_iff {a b c : Value} :
    b.Blurs a c ↔ a.order b = .eq ∧ b.order c = .eq ∧ a.order c ≠ .eq := by
  constructor
  · rintro ⟨halike, hother, hsame⟩
    have hnumber := halike.toBinary64?_ne_none
    obtain ⟨hkind, hdiffer, hfloat⟩ := halike
    refine ⟨?_, ?_, fun hac => ?_⟩
    · exact order_eq_iff.mpr ⟨roundedOrder_eq_of_number hnumber hsame.symm,
        exactOrder_eq_iff.mpr fun h => absurd h.symm hother⟩
    · exact order_eq_iff.mpr ⟨roundedOrder_eq_of_number (hsame ▸ hnumber) (hsame.trans hfloat),
        exactOrder_eq_iff.mpr fun h => absurd (h.trans hkind.symm) hother⟩
    · exact hdiffer (exactOrder_eq_iff.mp (order_eq_iff.mp hac).2 hkind)
  · rintro ⟨hab, hbc, hac⟩
    rw [order_eq_iff] at hab hbc
    rw [ne_eq, order_eq_iff] at hac
    have hrounded : a.roundedOrder c = .eq := Std.TransCmp.eq_trans hab.1 hbc.1
    have hexact : ¬ (a.kind? = c.kind? → a.number? = c.number?) :=
      fun h => hac ⟨hrounded, exactOrder_eq_iff.mpr h⟩
    obtain ⟨hkind, hdiffer⟩ := Classical.not_imp.mp hexact
    refine ⟨⟨hkind, hdiffer, (roundedOrder_eq_iff.mp hrounded).2.1⟩, ?_,
      (roundedOrder_eq_iff.mp hab.1).2.1.symm⟩
    intro hsame
    have hfirst := exactOrder_eq_iff.mp hab.2 hsame.symm
    have hsecond := exactOrder_eq_iff.mp hbc.2 (hsame.trans hkind)
    exact hdiffer (hfirst.trans hsecond)

theorem isLE_order_iff {a b : Value} :
    (a.order b).isLE = true ↔ (a.roundedOrder b).isLE = true ∧
      (a.roundedOrder b = .lt ∨ (a.exactOrder b).isLE = true) := by
  rw [order_eq_then, Ordering.isLE_then_iff_and]

theorem isLE_order_trans {a b c : Value} (hab : (a.order b).isLE = true)
    (hbc : (b.order c).isLE = true) (hclear : ¬ b.Blurs a c) : (a.order c).isLE = true := by
  rw [isLE_order_iff] at hab hbc ⊢
  have hrounded : (a.roundedOrder c).isLE = true := Std.TransCmp.isLE_trans hab.1 hbc.1
  refine ⟨hrounded, Classical.or_iff_not_imp_left.mpr fun hless => ?_⟩
  have hac : a.roundedOrder c = .eq := by
    cases h : a.roundedOrder c <;> simp_all
  have hca : (c.roundedOrder a).isLE = true := by
    rw [roundedOrder_swap, hac]
    rfl
  have heq : a.roundedOrder b = .eq :=
    Std.OrientedCmp.isLE_antisymm hab.1 (Std.TransCmp.isLE_trans hbc.1 hca)
  have heq' : b.roundedOrder c = .eq :=
    Std.TransCmp.eq_trans (Std.OrientedCmp.eq_symm heq) hac
  by_cases hkind : b.kind? = a.kind?
  · exact isLE_exactOrder_trans hkind (hab.2.resolve_left (by simp [heq]))
      (hbc.2.resolve_left (by simp [heq']))
  · have hexact : a.exactOrder c = .eq := exactOrder_eq_iff.mpr fun hsame =>
      Classical.not_not.mp fun hdiffer => hclear ⟨⟨hsame, hdiffer,
        (roundedOrder_eq_iff.mp hac).2.1⟩, hkind, (roundedOrder_eq_iff.mp heq).2.1.symm⟩
    rw [hexact]
    rfl

/-- Equal cells compare alike with a third one, unless one of them blurs the others. -/
theorem order_congr_iff {a b : Value} (c : Value) (hab : a.order b = .eq) :
    a.order c = b.order c ↔ ¬ b.Blurs a c ∧ ¬ a.Blurs b c := by
  have hba : b.order a = .eq := by
    rw [order_swap, hab]
    rfl
  constructor
  · intro hsame
    constructor
    · intro hblurs
      have h := blurs_iff.mp hblurs
      exact h.2.2 (hsame.trans h.2.1)
    · intro hblurs
      have h := blurs_iff.mp hblurs
      exact h.2.2 (hsame.symm.trans h.2.1)
  · rintro ⟨hclear, hclear'⟩
    have hle : (a.order c).isLE = true ↔ (b.order c).isLE = true :=
      ⟨fun h => isLE_order_trans (by rw [hba]; rfl) h hclear',
        fun h => isLE_order_trans (by rw [hab]; rfl) h hclear⟩
    have hge : (c.order a).isLE = true ↔ (c.order b).isLE = true :=
      ⟨fun h => isLE_order_trans h (by rw [hab]; rfl) fun hblurs => hclear' hblurs.symm,
        fun h => isLE_order_trans h (by rw [hba]; rfl) fun hblurs => hclear hblurs.symm⟩
    rw [order_swap c, order_swap c b] at hge
    cases h : a.order c <;> cases h' : b.order c <;> simp_all

instance (b a c : Value) : Decidable (b.Blurs a c) := inferInstanceAs (Decidable ((_ ∧ _) ∧ _ ∧ _))

/-- The order of cells is a total preorder, but for a number that blurs two integers of another
kind, which takes integers beyond `2 ^ 53`. -/
theorem order_preorder_unless_blurred (a b c : Value) :
    b.order a = (a.order b).swap ∧
      (a.order b ≠ .gt → b.order c ≠ .gt → ¬ b.Blurs a c → a.order c ≠ .gt) ∧
      (a.order b = .eq → (a.order c = b.order c ↔ ¬ b.Blurs a c ∧ ¬ a.Blurs b c)) ∧
      (b.Blurs a c ↔ a.order b = .eq ∧ b.order c = .eq ∧ a.order c ≠ .eq) ∧
      (b.Blurs a c → ∃ i j, a.number? = some i ∧ c.number? = some j ∧
        (2 ^ 53 < i.natAbs ∨ 2 ^ 53 < j.natAbs)) := by
  simp only [← Ordering.isLE_iff_ne_gt]
  exact ⟨order_swap b a, isLE_order_trans, order_congr_iff c, blurs_iff, fun h => h.1.large⟩

theorem mixed_numbers_in_order :
    let a := int 3
    let b := float (Binary64.ofInt 3)
    let c := uint 4
    a.order c ≠ .gt ∧ a.order c = b.order c := by
  intro a b c
  have hlaws := order_preorder_unless_blurred a b c
  have hab : a.order b = .eq := by decide
  have hbc : b.order c ≠ .gt := by decide
  have hclear : ¬ b.Blurs a c := by decide
  have hclear' : ¬ a.Blurs b c := by decide
  exact ⟨hlaws.2.1 (by rw [hab]; decide) hbc hclear, (hlaws.2.2.1 hab).mpr ⟨hclear, hclear'⟩⟩

/-- Two neighbouring integers are both equal to the floating-point number of one of them. -/
theorem neighbours_equal_to_one_float :
    let a := int 9007199254740993
    let b := float ⟨0x4340000000000000⟩
    let c := int 9007199254740992
    a.order b = .eq ∧ b.order c = .eq ∧ a.order c = .gt ∧ b.Blurs a c := by
  decide

end ShardedSql.Result.Value
