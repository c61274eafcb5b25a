namespace ShardedSql.Text

/-- One decimal digit or more, and nothing else. -/
def readNat? (cs : List Char) : Option Nat :=
  if cs.isEmpty || !cs.all Char.isDigit then none
  else some (cs.foldl (fun n c => 10 * n + (c.toNat - '0'.toNat)) 0)

/-- Digits after at most one sign. -/
def readInt? : List Char → Option Int
  | '-' :: cs => (readNat? cs).map fun n => -(n : Int)
  | '+' :: cs => (readNat? cs).map fun n => (n : Int)
  | cs => (readNat? cs).map fun n => (n : Int)

/-- A number that fits 64 bits with a sign. -/
def toInt64? (i : Int) : Option Int64 :=
  if Int64.minValue.toInt ≤ i ∧ i ≤ Int64.maxValue.toInt then some (Int64.ofInt i) else none

def toUInt64? (i : Int) : Option UInt64 :=
  if 0 ≤ i ∧ i < UInt64.size then some (UInt64.ofNat i.toNat) else none

def readInt64? (s : String) : Option Int64 :=
  (readInt? s.toList).bind toInt64?

/-- An unsigned number takes a plus sign but no minus sign, not even before a zero. -/
def readUInt64? (s : String) : Option UInt64 :=
  if s.toList.head? = some '-' then none else (readInt? s.toList).bind toUInt64?

/-- Decimal digits, after a minus sign for a negative number. -/
def decimal (i : Int) : String :=
  String.ofList ((if i < 0 then ['-'] else []) ++ Nat.toDigits 10 i.natAbs)

theorem toInt_toInt64? {i : Int} {x : Int64} (h : toInt64? i = some x) : x.toInt = i := by
  unfold toInt64? at h
  split at h
  · next hi =>
    cases h
    rw [Int64.toInt_minValue, Int64.toInt_maxValue] at hi
    exact Int64.toInt_ofInt_of_le hi.1 (by omega)
  · cases h

theorem toInt64?_toInt (x : Int64) : toInt64? x.toInt = some x := by
  rw [toInt64?, if_pos ⟨x.minValue_le_toInt, x.toInt_le⟩, Int64.ofInt_toInt]

end ShardedSql.Text
