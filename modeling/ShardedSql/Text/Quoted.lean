import ShardedSql.Text.GraphemeExtend
import ShardedSql.Text.Unprintable

namespace ShardedSql.Text

def isPrintable (c : Char) : Bool :=
  if c.toNat < 128 then 32 ≤ c.toNat && c.toNat < 127 else !unprintable.contains c

/-- Marks that attach to the character before them. The two halfwidth Katakana sound marks are
letters, which take up a place of their own. -/
def isAttached (c : Char) : Bool :=
  graphemeExtend.contains c && c ≠ '\uff9e' && c ≠ '\uff9f'

/-- A character as messages show it: what would not be seen, or would join the character before
it, is given by its code point. -/
def shown (c : Char) : String :=
  match c with
  | '\x00' => "\\0"
  | '\t' => "\\t"
  | '\r' => "\\r"
  | '\n' => "\\n"
  | '\\' => "\\\\"
  | '"' => "\\\""
  | c =>
    if isAttached c || !isPrintable c then
      "\\u\x7b" ++ String.ofList (Nat.toDigits 16 c.toNat) ++ "\x7d"
    else c.toString

/-- A text in double quotes, as messages show it. -/
def quoted (s : String) : String :=
  "\"" ++ String.join (s.toList.map shown) ++ "\""

end ShardedSql.Text
