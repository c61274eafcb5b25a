import ShardedSql.Text.Alphabetic
import ShardedSql.Text.Numeric
import ShardedSql.Text.WhiteSpace

namespace ShardedSql.Text

def isBlank (c : Char) : Bool := whiteSpace.contains c

def isLetter (c : Char) : Bool :=
  if c.toNat < 128 then c.isAlpha else alphabetic.contains c

def isLetterOrNumber (c : Char) : Bool :=
  if c.toNat < 128 then c.isAlphanum else alphabetic.contains c || numeric.contains c

/-- The characters of a bare word: letters and numbers of every script, `_` and `$`. -/
def isWordChar (c : Char) : Bool := isLetterOrNumber c || c == '_' || c == '$'

/-- A bare name may not start with a number. -/
def isNameStart (c : Char) : Bool := isLetter c || c == '_' || c == '$'

/-- A text without the blanks at its two ends. -/
def trim (s : String) : String :=
  String.ofList ((s.toList.dropWhile isBlank).reverse.dropWhile isBlank).reverse

theorem isWordChar_of_isNameStart {c : Char} (h : isNameStart c = true) : isWordChar c = true := by
  simp only [isNameStart, isWordChar, isLetter, isLetterOrNumber, Bool.or_eq_true] at h ⊢
  split at h <;> simp_all [Char.isAlphanum]
  all_goals grind

theorem isWordChar_of_isDigit {c : Char} (h : c.isDigit = true) : isWordChar c = true := by
  have hc : c.toNat < 128 := by
    simp only [Char.isDigit, Bool.and_eq_true, decide_eq_true_eq] at h
    have := UInt32.le_iff_toNat_le.1 h.2
    simp only [Char.toNat] at *
    have e : ('9' : Char).val.toNat = 57 := rfl
    omega
  simp [isWordChar, isLetterOrNumber, hc, Char.isAlphanum, h]

end ShardedSql.Text
