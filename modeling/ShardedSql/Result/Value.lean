import ShardedSql.Number.Shortest
import ShardedSql.Text.Integer

namespace ShardedSql.Result

open Number (Binary64)

/-- A cell of a result. -/
inductive Value where
  | null
  | int (i : Int64)
  | uint (u : UInt64)
  | float (x : Binary64)
  | text (s : String)
  deriving DecidableEq

namespace Value

/-- The kinds in sort order. -/
def rank : Value → Nat
  | null => 0
  | int _ | uint _ | float _ => 1
  | text _ => 2

def toBinary64? : Value → Option Binary64
  | int i => some (Binary64.ofInt i.toInt)
  | uint u => some (Binary64.ofInt u.toNat)
  | float x => some x
  | _ => none

/-- The order by which rows are sorted again: null before numbers before text. Two integers of one
kind compare exactly, other numbers as floating-point ones, texts by code points. -/
def order : Value → Value → Ordering
  | int a, int b => compare a.toInt b.toInt
  | uint a, uint b => compare a.toNat b.toNat
  | text a, text b => compareOfLessAndEq a b
  | a, b =>
    match a.toBinary64?, b.toBinary64? with
    | some x, some y => x.order y
    | _, _ => compare a.rank b.rank

def shown : Value → String
  | null => "NULL"
  | int i => Text.decimal i.toInt
  | uint u => Text.decimal u.toNat
  | float x => x.text
  | text s => s

end Value

end ShardedSql.Result
