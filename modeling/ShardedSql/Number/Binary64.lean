namespace ShardedSql.Number

/-- A binary64 floating-point number, given by its bits: sign, 11 bits of exponent, 52 of
fraction. -/
structure Binary64 where
  bits : UInt64
  deriving DecidableEq

namespace Binary64

def isNegative (x : Binary64) : Bool := 1 <<< 63 ≤ x.bits.toNat

def exponentField (x : Binary64) : Nat := (x.bits.toNat >>> 52) % (1 <<< 11)

def fraction (x : Binary64) : Nat := x.bits.toNat % (1 <<< 52)

/-- Position in the total order of all bit patterns: negative ones before positive ones, each
sign by magnitude, so `-0` comes just before `0` and a NaN lies beyond the infinity of its sign. -/
def rank (x : Binary64) : Int :=
  if x.isNegative then 0x7fffffffffffffff - x.bits.toNat else x.bits.toNat

def order (x y : Binary64) : Ordering := compare x.rank y.rank

theorem rank_injective {x y : Binary64} (h : x.rank = y.rank) : x = y := by
  have hx := x.bits.toNat_lt
  have hy := y.bits.toNat_lt
  have e : x.bits.toNat = y.bits.toNat := by
    simp only [rank, isNegative, decide_eq_true_eq] at h
    split at h <;> split at h <;> omega
  cases x; cases y
  exact congrArg _ (UInt64.toNat_inj.1 e)

/-- The quotient rounded to the nearest whole number, a half to the even one. -/
def roundQuotient (n d : Nat) : Nat :=
  let q := n / d
  let r := n % d
  if d < 2 * r ∨ d = 2 * r ∧ q % 2 = 1 then q + 1 else q

/-- The nearest number to `n`, a half to the even significand. A significand rounded up to
`2 ^ 53` carries into the exponent. -/
def ofNat (n : Nat) : Binary64 :=
  if n = 0 then ⟨0⟩
  else
    let e := n.log2
    let significand := if e ≤ 52 then n <<< (52 - e) else roundQuotient n (1 <<< (e - 52))
    ⟨UInt64.ofNat (((e + 1022) <<< 52) + significand)⟩

def ofInt (i : Int) : Binary64 :=
  if i < 0 then ⟨(ofNat i.natAbs).bits + UInt64.ofNat (1 <<< 63)⟩ else ofNat i.natAbs

end Binary64

end ShardedSql.Number
