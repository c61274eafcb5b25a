import ShardedSql.Sql.Token
import ShardedSql.Text.Character

namespace ShardedSql.Sql

open Text (isBlank isWordChar)

inductive ScanError where
  | unterminatedComment
  | unterminatedString
  | unterminatedName
  | strayCharacter (c : Char)
  deriving DecidableEq, Repr

/-- The longest symbol that a text starts with. -/
def Symbol.atFront? : List Char → Option (Symbol × List Char)
  | '<' :: '=' :: '>' :: rest => some (nullSafeEqual, rest)
  | '<' :: '>' :: rest => some (lessGreater, rest)
  | '!' :: '=' :: rest => some (bangEqual, rest)
  | '<' :: '=' :: rest => some (lessEqual, rest)
  | '>' :: '=' :: rest => some (greaterEqual, rest)
  | '=' :: rest => some (equal, rest)
  | '<' :: rest => some (less, rest)
  | '>' :: rest => some (greater, rest)
  | '(' :: rest => some (leftParen, rest)
  | ')' :: rest => some (rightParen, rest)
  | ',' :: rest => some (comma, rest)
  | '.' :: rest => some (dot, rest)
  | ';' :: rest => some (semicolon, rest)
  | '+' :: rest => some (plus, rest)
  | '-' :: rest => some (minus, rest)
  | '*' :: rest => some (star, rest)
  | '/' :: rest => some (slash, rest)
  | '%' :: rest => some (percent, rest)
  | '@' :: rest => some (atSign, rest)
  | _ => none

theorem Symbol.atFront?_eq {cs rest : List Char} {s : Symbol}
    (h : Symbol.atFront? cs = some (s, rest)) : cs = s.text.toList ++ rest := by
  unfold Symbol.atFront? at h
  split at h <;> simp_all [Symbol.text] <;> obtain ⟨rfl, rfl⟩ := h <;> simp

theorem Symbol.text_ne_empty (s : Symbol) : 0 < s.text.toList.length := by
  cases s <;> decide

namespace Token

/-- What follows the first end of a comment. -/
def afterComment : List Char → Option (List Char)
  | '*' :: '/' :: rest => some rest
  | _ :: rest => afterComment rest
  | [] => none

/-- What a backslash before a character stands for. -/
def unescape : Char → Char
  | 'n' => '\n'
  | 't' => '\t'
  | 'r' => '\r'
  | '0' => '\x00'
  | 'Z' => '\x1a'
  | c => c

/-- The content of a string up to its closing quote, and what follows. A doubled quote stands for
one. -/
def stringBody (quote : Char) : List Char → Option (List Char × List Char)
  | [] => none
  | c :: rest =>
    if c = '\\' then
      match rest with
      | [] => none
      | d :: rest => (stringBody quote rest).map fun r => (unescape d :: r.1, r.2)
    else if c = quote then
      match rest with
      | [] => some ([], [])
      | d :: rest =>
        if d = quote then (stringBody quote rest).map fun r => (quote :: r.1, r.2)
        else some ([], d :: rest)
    else (stringBody quote rest).map fun r => (c :: r.1, r.2)

def backquote : Char := '\x60'

/-- The content of a quoted name up to its closing backquote, and what follows. -/
def nameBody : List Char → Option (List Char × List Char)
  | [] => none
  | c :: rest =>
    if c = backquote then
      match rest with
      | [] => some ([], [])
      | d :: rest =>
        if d = backquote then (nameBody rest).map fun r => (backquote :: r.1, r.2)
        else some ([], d :: rest)
    else (nameBody rest).map fun r => (c :: r.1, r.2)

def startsWithDigit (cs : List Char) : Bool := cs.head?.any Char.isDigit

def splitSign : List Char → List Char × List Char
  | '+' :: cs => (['+'], cs)
  | '-' :: cs => (['-'], cs)
  | cs => ([], cs)

/-- The exponent that a text starts with, empty when there is none, and what follows. -/
def exponent : List Char → List Char × List Char
  | [] => ([], [])
  | e :: cs =>
    if (e = 'e' ∨ e = 'E') ∧ startsWithDigit (splitSign cs).2 then
      (e :: (splitSign cs).1 ++ (splitSign cs).2.takeWhile Char.isDigit,
        (splitSign cs).2.dropWhile Char.isDigit)
    else ([], e :: cs)

def isNumberChar (c : Char) : Bool := c.isDigit || c == '.'

/-- The digits, points and exponent that a text starts with, and what follows. -/
def numeral (cs : List Char) : List Char × List Char :=
  let power := exponent (cs.dropWhile isNumberChar)
  (cs.takeWhile isNumberChar ++ power.1, power.2)

/-- A number, which becomes a word when word characters follow it directly. -/
def numberOrWord (cs : List Char) : Token × List Char :=
  let rest := (numeral cs).2
  if rest.head?.any isWordChar then
    (word (String.ofList ((numeral cs).1 ++ rest.takeWhile isWordChar)), rest.dropWhile isWordChar)
  else (number (String.ofList (numeral cs).1), rest)

/-- What a text starts with, and what follows: a token, or nothing for a blank or a comment. -/
def first (c : Char) (cs : List Char) : Except ScanError (Option Token × List Char) :=
  if isBlank c then .ok (none, cs)
  else if c = '#' ∨ c = '-' ∧ cs.head? = some '-' then .ok (none, cs.dropWhile (· ≠ '\n'))
  else if c = '/' ∧ cs.head? = some '*' then
    match afterComment cs.tail with
    | some rest => .ok (none, rest)
    | none => .error .unterminatedComment
  else if c = '\x27' ∨ c = '\x22' then
    match stringBody c cs with
    | some (body, rest) => .ok (some (str (String.ofList body)), rest)
    | none => .error .unterminatedString
  else if c = backquote then
    match nameBody cs with
    | some (body, rest) => .ok (some (quoted (String.ofList body)), rest)
    | none => .error .unterminatedName
  else if c.isDigit ∨ c = '.' ∧ startsWithDigit cs then
    let found := numberOrWord (c :: cs)
    .ok (some found.1, found.2)
  else if isWordChar c then
    .ok (some (word (String.ofList (c :: cs.takeWhile isWordChar))), cs.dropWhile isWordChar)
  else if c = '?' then .ok (some placeholder, cs)
  else
    match Symbol.atFront? (c :: cs) with
    | some (s, rest) => .ok (some (symbol s), rest)
    | none => .error (.strayCharacter c)

theorem length_dropWhile_le (p : Char → Bool) (cs : List Char) :
    (cs.dropWhile p).length ≤ cs.length :=
  (List.dropWhile_sublist p).length_le

theorem length_afterComment {cs rest : List Char} (h : afterComment cs = some rest) :
    rest.length ≤ cs.length := by
  fun_induction afterComment cs with
  | case1 => cases h; simp; omega
  | case2 _ _ _ ih => have := ih h; simp; omega
  | case3 => cases h

theorem length_stringBody {quote : Char} {cs : List Char} {r : List Char × List Char}
    (h : stringBody quote cs = some r) : r.2.length ≤ cs.length := by
  fun_induction stringBody quote cs generalizing r with
  | case1 | case2 => cases h
  | case4 | case6 => cases h; simp
  | case3 _ _ ih | case5 _ _ ih | case7 _ _ _ _ ih =>
    obtain ⟨r', hr, rfl⟩ := Option.map_eq_some_iff.1 h
    have := ih hr
    simp; omega

theorem length_nameBody {cs : List Char} {r : List Char × List Char}
    (h : nameBody cs = some r) : r.2.length ≤ cs.length := by
  fun_induction nameBody cs generalizing r with
  | case1 => cases h
  | case2 | case4 => cases h; simp
  | case3 _ ih | case5 _ _ _ ih =>
    obtain ⟨r', hr, rfl⟩ := Option.map_eq_some_iff.1 h
    have := ih hr
    simp; omega

theorem length_splitSign (cs : List Char) : (splitSign cs).2.length ≤ cs.length := by
  unfold splitSign
  split <;> simp

theorem length_exponent (cs : List Char) : (exponent cs).2.length ≤ cs.length := by
  unfold exponent
  split
  · simp
  · rename_i e cs
    have h1 := length_splitSign cs
    have h2 := length_dropWhile_le Char.isDigit (splitSign cs).2
    split <;> simp
    omega

theorem length_numeral (c : Char) (cs : List Char) (h : isNumberChar c = true) :
    (numeral (c :: cs)).2.length ≤ cs.length := by
  have h1 := length_exponent (cs.dropWhile isNumberChar)
  have h2 := length_dropWhile_le isNumberChar cs
  simp only [numeral, List.dropWhile_cons_of_pos h]
  omega

theorem length_numberOrWord (c : Char) (cs : List Char) (h : isNumberChar c = true) :
    (numberOrWord (c :: cs)).2.length ≤ cs.length := by
  have h1 := length_numeral c cs h
  have h2 := length_dropWhile_le isWordChar (numeral (c :: cs)).2
  unfold numberOrWord
  simp only []
  split
  · exact Nat.le_trans h2 h1
  · exact h1

/-- What may stand at the front of a text, with the token there, if it is one, and what follows. -/
inductive Front (c : Char) (cs : List Char) : Option Token → List Char → Prop
  | blank (h : isBlank c = true) : Front c cs none cs
  | line (h : c = '#' ∨ c = '-' ∧ cs.head? = some '-') :
      Front c cs none (cs.dropWhile (· ≠ '\n'))
  | comment {rest : List Char} (h : c = '/' ∧ cs.head? = some '*')
      (hafter : afterComment cs.tail = some rest) : Front c cs none rest
  | text {body rest : List Char} (hbody : stringBody c cs = some (body, rest)) :
      Front c cs (some (str (String.ofList body))) rest
  | name {body rest : List Char} (h : c = backquote) (hbody : nameBody cs = some (body, rest)) :
      Front c cs (some (quoted (String.ofList body))) rest
  | number {t : Token} {rest : List Char} (h : c.isDigit = true ∨ c = '.' ∧ startsWithDigit cs = true)
      (hfound : numberOrWord (c :: cs) = (t, rest)) : Front c cs (some t) rest
  | word (h : isWordChar c = true) (hd : c.isDigit = false) :
      Front c cs (some (word (String.ofList (c :: cs.takeWhile isWordChar))))
        (cs.dropWhile isWordChar)
  | mark : Front c cs (some placeholder) cs
  | symbol {s : Symbol} {rest : List Char} (h : Symbol.atFront? (c :: cs) = some (s, rest)) :
      Front c cs (some (symbol s)) rest

theorem front_of_first {c : Char} {cs rest : List Char} {t : Option Token}
    (h : first c cs = .ok (t, rest)) : Front c cs t rest := by
  unfold first at h
  split at h
  · next hblank =>
    cases h
    exact .blank hblank
  split at h
  · next hline =>
    cases h
    exact .line hline
  split at h
  · next hopen =>
    split at h <;> cases h
    exact .comment hopen ‹_›
  split at h
  · split at h <;> cases h
    exact .text ‹_›
  split at h
  · next hquote =>
    split at h <;> cases h
    exact .name hquote ‹_›
  split at h
  · next hnumber =>
    cases h
    exact .number hnumber rfl
  next hnumber =>
  split at h
  · next hword =>
    cases h
    exact .word hword (Bool.eq_false_iff.mpr fun hd => hnumber (.inl hd))
  split at h
  · cases h
    exact .mark
  · split at h <;> cases h
    exact .symbol ‹_›

theorem length_first {c : Char} {cs rest : List Char} {t : Option Token}
    (h : first c cs = .ok (t, rest)) : rest.length ≤ cs.length := by
  cases front_of_first h with
  | blank | mark => exact Nat.le_refl _
  | line | word => exact length_dropWhile_le _ cs
  | comment _ hafter =>
    have hrest := length_afterComment hafter
    have htail : cs.tail.length ≤ cs.length := by simp
    omega
  | text hbody => exact length_stringBody hbody
  | name _ hbody => exact length_nameBody hbody
  | number hstarts hfound =>
    have hchar : isNumberChar c = true := by
      rcases hstarts with hd | ⟨rfl, -⟩ <;> simp_all [isNumberChar]
    have hrest := length_numberOrWord c cs hchar
    rwa [hfound] at hrest
  | @symbol s _ hs =>
    have hlength := congrArg List.length (Symbol.atFront?_eq hs)
    have hne := Symbol.text_ne_empty s
    simp only [List.length_cons, List.length_append] at hlength
    omega

/-- The tokens of a text. -/
def scan : List Char → Except ScanError (List Token)
  | [] => .ok []
  | c :: cs =>
    match _h : first c cs with
    | .error e => .error e
    | .ok (t, rest) =>
      match scan rest with
      | .error e => .error e
      | .ok ts => .ok (t.toList ++ ts)
termination_by cs => cs.length
decreasing_by
  have := length_first _h
  simp; omega

def ofString? (s : String) : Except ScanError (List Token) := scan s.toList

end Token

end ShardedSql.Sql
