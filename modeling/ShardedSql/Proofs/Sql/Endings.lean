import ShardedSql.Proofs.Sql.PassedOn
import ShardedSql.Proofs.Sql.Rederived

namespace ShardedSql.Sql.Token

open Text (isWordChar)

/-- How a printed text ends, as far as it matters for what is printed behind it. There are no blanks
around a dot, so that digits next to it are read as one number with it. -/
inductive Ending where
  /-- With nothing, or with a sign that no blank is written behind. -/
  | opening
  /-- With a dot that digits would make the point of a number. -/
  | loose
  /-- With a number of digits and points, which a dot would be a part of. -/
  | digits
  /-- With a dot that is a part of such a number. -/
  | point
  /-- With a name that is the exponent of such a number. -/
  | power
  /-- With any other token. -/
  | closed
  deriving DecidableEq, Repr

/-- A name that loses its quotes and is then a keyword in other letters. -/
def isRecased : Token → Bool
  | quoted q => isBareName q && commonKeywords.contains (Text.upper q) && Text.upper q != q
  | _ => false

namespace Ending

def ofNumber (n : String) : Ending := if n.toList.all isNumberChar then digits else closed

/-- The end of a word that belongs to the number in front of it. -/
def ofWord (w : String) : Ending := if (numeral w.toList).2 = [] then power else closed

/-- The end of a token that does not belong to what is in front of it, unless the token is printed
in other letters when it is read again. -/
def ofToken? : Token → Option Ending
  | number n => some (ofNumber n)
  | t => if t.isRecased then none else some (if t.opens then opening else closed)

/-- The end of a text when a token is printed behind it, unless letters or blanks change when it is
read and printed again. -/
def next? : Ending → Token → Option Ending
  | opening, t => ofToken? t
  | loose, t => if startsWithDigit t.sql.toList then none else ofToken? t
  | digits, t => if t = symbol .dot then some point else ofToken? t
  | closed, t => if t = symbol .dot then some loose else ofToken? t
  | power, t =>
    if t = symbol .dot then some loose else if t = symbol .leftParen then none else ofToken? t
  | point, t =>
    match t with
    | symbol .dot => some point
    | symbol .comma | symbol .rightParen | symbol .semicolon => some closed
    | number n => some (ofNumber n)
    | word w => some (ofWord w)
    | quoted q => if isBareName q then some (ofWord q) else none
    | _ => none

/-- Whether tokens are printed behind a text so that nothing changes when they are read and printed
again. -/
def settles (e : Ending) : List Token → Bool
  | [] => true
  | t :: ts => (e.next? t).any fun e' => e'.settles ts

@[simp] theorem settles_digits_dot (ts : List Token) :
    digits.settles (symbol .dot :: ts) = point.settles ts := rfl

@[simp] theorem settles_closed_dot (ts : List Token) :
    closed.settles (symbol .dot :: ts) = loose.settles ts := rfl

@[simp] theorem settles_point_dot (ts : List Token) :
    point.settles (symbol .dot :: ts) = point.settles ts := rfl

@[simp] theorem settles_power_dot (ts : List Token) :
    power.settles (symbol .dot :: ts) = loose.settles ts := rfl

end Ending

variable {cs rest m : List Char} {t u x y : Token} {ts us xs : List Token}

theorem not_isNumberChar_of {c : Char} (hword : isWordChar c = false) (hdot : c ≠ '.') :
    isNumberChar c = false := by
  have hdigit : c.isDigit = false := by
    cases hd : c.isDigit with
    | false => rfl
    | true => rw [Text.isWordChar_of_isDigit hd] at hword; cases hword
  simp [isNumberChar, hdigit, hdot]

/-- Digits and points in front of a text are read as the number that it starts with goes on. -/
theorem numeral_append_of_all (hm : m.all isNumberChar = true) (cs : List Char) :
    numeral (m ++ cs) = (m ++ (numeral cs).1, (numeral cs).2) := by
  have hall : ∀ c ∈ m, isNumberChar c = true := List.all_eq_true.mp hm
  simp only [numeral, List.takeWhile_append_of_pos hall, List.dropWhile_append_of_pos hall,
    List.append_assoc]

theorem numeral_of_not_number (h : ∀ c ∈ cs.head?, isWordChar c = false ∧ c ≠ '.') :
    numeral cs = ([], cs) := by
  cases cs with
  | nil => rfl
  | cons c cs =>
    obtain ⟨hword, hdot⟩ := h c rfl
    have hnumber := not_isNumberChar_of hword hdot
    have hexponent : exponent (c :: cs) = ([], c :: cs) := by
      apply exponent_of_not
      rintro ⟨rfl | rfl, -⟩
      · cases hword
      · cases hword
    simp [numeral, hnumber, hexponent]

theorem spells_digits (hm : m.all isNumberChar = true) (hstarts : startsNumber m = true)
    (hrest : ∀ c ∈ rest.head?, isWordChar c = false ∧ c ≠ '.') :
    Spells m [number (String.ofList m)] rest := by
  have hnext : rest.head?.any isWordChar = false := by
    cases rest with
    | nil => rfl
    | cons c rest => exact (hrest c rfl).1
  have hnumber : numberOrWord (m ++ rest) = (number (String.ofList m), rest) := by
    simp [numberOrWord, numeral_append_of_all hm, numeral_of_not_number hrest, hnext]
  unfold Spells
  rw [scan_of_startsNumber (startsNumber_append hstarts rest), hnumber]
  rfl

/-- A number with an exponent ends before a dot, too. -/
theorem spells_exponential (h : NumberText cs) (hcs : cs.all isNumberChar = false)
    (hrest : EndsWord rest) : Spells cs [number (String.ofList cs)] rest := by
  have hne : cs.dropWhile isNumberChar ≠ [] := by
    intro hnil
    have hall : cs.takeWhile isNumberChar = cs := by
      simpa [hnil] using List.takeWhile_append_dropWhile (p := isNumberChar) (l := cs)
    rw [← hall, List.all_takeWhile] at hcs
    cases hcs
  have hnumeral : numeral (cs ++ rest) = (cs, rest) := by
    have hends := h.ends
    simp only [numeral] at hends ⊢
    rw [takeWhile_append_of_dropWhile hne, dropWhile_append_of_dropWhile hne,
      exponent_append hne hrest]
    simp only [Prod.mk.injEq] at hends ⊢
    exact ⟨hends.1, by rw [hends.2, List.nil_append]⟩
  have hnext : rest.head?.any isWordChar = false := by
    cases rest with
    | nil => rfl
    | cons c rest => exact (hrest c rfl).1
  have hnumber : numberOrWord (cs ++ rest) = (number (String.ofList cs), rest) := by
    simp [numberOrWord, hnumeral, hnext]
  unfold Spells
  rw [scan_of_startsNumber (startsNumber_append h.starts rest), hnumber]
  rfl

theorem spells_dot (h : startsWithDigit rest = false) : Spells ['.'] [symbol .dot] rest :=
  scan_dot h

/-- No keyword starts as a number does. -/
theorem contains_upper_of_startsNumber {keywords : List String} {w : String}
    (hkeywords : ∀ kw ∈ keywords, startsNumber kw.toList = false)
    (h : startsNumber w.toList = true) : keywords.contains (Text.upper w) = false := by
  have hupper : startsNumber (Text.upper w).toList = true := by
    rw [Text.upper, String.toList_ofList, startsNumber_map_toUpper, h]
  apply Bool.eq_false_iff.mpr
  intro hcontains
  rw [hkeywords _ (List.contains_iff_mem.mp hcontains)] at hupper
  cases hupper

theorem sql_of_startsNumber {w : String} (h : startsNumber w.toList = true) : (word w).sql = w := by
  have hreserved : reservedWords.contains (Text.upper w) = false :=
    contains_upper_of_startsNumber (by decide) h
  have hcommon : commonKeywords.contains (Text.upper w) = false :=
    contains_upper_of_startsNumber (by decide) h
  rw [sql, isReserved, hreserved, hcommon]
  rfl

theorem Scanned.sql_ne_nil (hx : x.Scanned) : x.sql.toList ≠ [] := by
  cases x with
  | word w => exact WordText.ne_nil (wordText_sql hx)
  | number n =>
    intro hnil
    have hstarts := hx.starts
    rw [show n.toList = [] from hnil] at hstarts
    cases hstarts
  | quoted q =>
    simp only [sql, sqlName]
    split
    · next hbare => exact WordText.ne_nil (wordText_of_isBareName hbare)
    · simp
  | str s => simp [sql, sqlString]
  | placeholder => simp [sql]
  | symbol s => exact List.ne_nil_of_length_pos s.text_ne_empty

theorem Scanned.startsWithDigit_append (hx : x.Scanned) (cs : List Char) :
    startsWithDigit (x.sql.toList ++ cs) = startsWithDigit x.sql.toList :=
  startsWithDigit_append_of_ne_nil hx.sql_ne_nil _

/-- Only numbers and words that start as one are printed with a digit first. -/
theorem Scanned.starts_of_startsWithDigit (hx : x.Scanned)
    (h : startsWithDigit x.sql.toList = true) :
    (∃ n, x = number n) ∨ ∃ w, x = word w ∧ startsWithDigit w.toList = true := by
  by_cases hapart : Apart (symbol .dot) x
  · have hfalse : startsWithDigit (x.sql.toList ++ []) = false := hx.startsWithDigit_sql hapart
    rw [List.append_nil, h] at hfalse
    cases hfalse
  · cases x with
    | number n => exact .inl ⟨n, rfl⟩
    | word w => exact .inr ⟨w, rfl, by simpa [Apart] using hapart⟩
    | _ => exact absurd trivial hapart

theorem ofWord_sql (w : String) : Ending.ofWord (word w).sql = Ending.ofWord w := by
  simp only [sql]
  split
  · simp [Ending.ofWord, Text.upper, numeral_map_toUpper]
  · rfl

theorem ofWord_of_startsWithDigit {w : String} (hw : WordText w.toList)
    (h : startsWithDigit w.toList = true) : Ending.ofWord w = .closed := by
  unfold Ending.ofWord
  generalize w.toList = cs at hw h
  cases hw with
  | plain _ hd =>
    rw [startsWithDigit, List.head?_cons, Option.any_some, hd] at h
    cases h
  | numeric _ hne => exact if_neg hne

theorem sql_reread_word (w : String) : (Token.word w).reread.sql = (Token.word w).sql := by
  by_cases h : (isReserved w || commonKeywords.contains (Text.upper w)) = true
  · simp only [isReserved] at h
    simp only [reread, sql, isReserved, upper_upper, h, if_true]
  · have hsql : (Token.word w).sql = w := if_neg h
    simp only [reread, hsql]

theorem sql_reread_eq_iff (t : Token) : t.reread.sql = t.sql ↔ t.isRecased = false := by
  cases t with
  | word w => exact iff_of_true (sql_reread_word w) rfl
  | quoted q =>
    cases hbare : isBareName q with
    | true =>
      simp [isRecased, reread, ofName, sql, sqlName, hbare, not_isReserved_of_isBareName hbare]
    | false => simp [isRecased, reread, ofName, hbare]
  | _ => exact iff_of_true rfl rfl

theorem length_sql_reread (t : Token) : t.reread.sql.toList.length = t.sql.toList.length := by
  cases t with
  | word w => rw [sql_reread_word]
  | quoted q =>
    simp only [reread, ofName]
    split
    · next hbare =>
      simp only [sql, sqlName, if_pos hbare]
      split
      · simp [Text.upper]
      · rfl
    · rfl
  | _ => rfl

/-- No blank comes or goes with the quotes or the capitals of two neighbours. -/
theorem Kept.joined_eq {t t' u u' : Token} (ht : Kept t t') (hu : Kept u u') :
    joined t' u' = joined t u := by
  calc joined t' u'
    _ = joined t u' := by
      cases ht with
      | same => rfl
      | capitals | bare =>
        cases u' with
        | symbol s => cases s <;> rfl
        | _ => rfl
    _ = joined t u := by
      cases hu with
      | same => rfl
      | capitals | bare =>
        cases t with
        | symbol s => cases s <;> rfl
        | _ => rfl

theorem opens_reread (t : Token) : t.reread.opens = t.opens := by
  cases t with
  | quoted q =>
    simp only [reread, ofName]
    split <;> rfl
  | _ => rfl

theorem Ending.ofToken?_of_ne (h : ∀ n, x ≠ number n) : Ending.ofToken? x =
    if x.isRecased then none else some (if x.opens then .opening else .closed) := by
  cases x with
  | number n => exact absurd rfl (h n)
  | _ => rfl

/-- A number, or a word that starts as one. -/
def IsNumeral : Token → Prop
  | number _ => True
  | word w => startsNumber w.toList = true
  | _ => False

/-- A token that may become a part of a number. -/
def IsDotOrNumeral (t : Token) : Prop := t = symbol .dot ∨ t.IsNumeral

theorem isNumeral_numberOrWord (h : startsNumber cs = true) : (numberOrWord cs).1.IsNumeral := by
  unfold numberOrWord
  simp only []
  split
  · simpa [IsNumeral] using startsNumber_numeral h _
  · trivial

theorem exists_numeral_of_scan (h : startsNumber cs = true) (hscan : scan cs = .ok us) :
    ∃ y vs, us = y :: vs ∧ y.IsNumeral := by
  obtain ⟨vs, rfl⟩ := eq_cons_of_startsNumber h hscan
  exact ⟨_, vs, rfl, isNumeral_numberOrWord h⟩

theorem joined_of_isNumeral (h : y.IsNumeral) (u : Token) : joined u y = u.opens := by
  cases y with
  | word _ | number _ =>
    cases u with
    | symbol s => cases s <;> rfl
    | _ => rfl
  | _ => cases h

theorem reread_of_opens (h : t.opens = true) : t.reread = t := by
  cases t with
  | word _ | quoted _ => cases h
  | _ => rfl

/-- A name, quoted or not. -/
def isNamed : Token → Bool
  | word _ | quoted _ => true
  | _ => false

theorem opens_of_isNamed (h : t.isNamed = true) : t.opens = false := by
  cases t with
  | word _ | quoted _ => rfl
  | _ => cases h

theorem joined_of_isNamed (ht : t.isNamed = true) (hu : u.isNamed = true) (x : Token) :
    joined t x = joined u x := by
  cases t with
  | word _ | quoted _ =>
    cases u with
    | word _ | quoted _ =>
      cases x with
      | symbol s => cases s <;> rfl
      | _ => rfl
    | _ => cases hu
  | _ => cases ht

theorem joined_of_opens (h : t.opens = true) (u : Token) : joined t u = true := by
  unfold opens at h
  split at h
  case h_4 => cases h
  all_goals
    cases u with
    | symbol s => cases s <;> rfl
    | _ => rfl

theorem joined_number (n k : String) (x : Token) :
    joined (.number n) x = joined (.number k) x := by
  cases x with
  | symbol s => cases s <;> rfl
  | _ => rfl

theorem joined_dot (t : Token) : joined t (symbol .dot) = true := by
  cases t <;> rfl

theorem toList_sqlAfter_nil (t : Token) : (sqlAfter t []).toList = [] := by
  rw [sqlAfter, String.toList_empty]

theorem toList_sqlAfter (t x : Token) (xs : List Token) : (sqlAfter t (x :: xs)).toList =
    (if joined t x then [] else [' ']) ++ (x.sql.toList ++ (sqlAfter x xs).toList) := by
  rw [sqlAfter]
  split <;> simp

theorem toList_sqlAfter_dot (t : Token) (xs : List Token) :
    (sqlAfter t (symbol .dot :: xs)).toList = '.' :: (sqlAfter (symbol .dot) xs).toList := by
  simp [toList_sqlAfter, joined_dot, sql, Symbol.text]

theorem toList_sqlAfter_of_opens (h : t.opens = true) :
    (sqlAfter t (x :: xs)).toList = x.sql.toList ++ (sqlAfter x xs).toList := by
  simp [toList_sqlAfter, joined_of_opens h]

theorem breaks_sqlAfter (ht : t.opens = false) : Breaks (sqlAfter t ts).toList := by
  cases ts with
  | nil => exact nofun
  | cons u us =>
    rw [toList_sqlAfter]
    cases hjoined : joined t u with
    | true => exact breaks_of_joined ht hjoined
    | false =>
      rintro c ⟨⟩
      decide

theorem precedes_sqlAfter_of_ne (hdot : t ≠ symbol .dot) (hnumber : ∀ n, t ≠ .number n) :
    t.Precedes (sqlAfter t ts).toList :=
  ⟨breaks_sqlAfter, fun h => absurd h hdot, fun n h => absurd h (hnumber n)⟩

/-- What the text of some tokens starts with. A dot or a number may become one with what follows. -/
theorem Scanned.first_cases (hx : x.Scanned)
    (hscan : scan (x.sql.toList ++ (sqlAfter x xs).toList) = .ok us) :
    (∃ vs, us = x.reread :: vs ∧ scan (sqlAfter x xs).toList = .ok vs) ∨
      x.IsDotOrNumeral ∧ ∃ y vs, us = y :: vs ∧ y.IsNumeral := by
  by_cases hnumber : ∃ n, x = .number n
  · obtain ⟨n, rfl⟩ := hnumber
    obtain ⟨y, vs, hus, hy⟩ := exists_numeral_of_scan (startsNumber_append hx.starts _) hscan
    exact .inr ⟨.inr trivial, y, vs, hus, hy⟩
  by_cases hdot : x = symbol .dot
  · subst hdot
    cases hdigit : startsWithDigit (sqlAfter (symbol .dot) xs).toList with
    | false =>
      obtain ⟨vs, hvs, hus⟩ := (spells_dot hdigit).rest_of_ok hscan
      exact .inl ⟨vs, hus, hvs⟩
    | true =>
      have hstarts : startsNumber ('.' :: (sqlAfter (symbol .dot) xs).toList) = true := by
        simp [startsNumber, hdigit]
      obtain ⟨y, vs, hus, hy⟩ := exists_numeral_of_scan hstarts hscan
      exact .inr ⟨.inl rfl, y, vs, hus, hy⟩
  · have hprecedes : x.Precedes (sqlAfter x xs).toList :=
      precedes_sqlAfter_of_ne hdot fun n hn => hnumber ⟨n, hn⟩
    obtain ⟨vs, hvs, hus⟩ := (hx.spells hprecedes).rest_of_ok hscan
    exact .inl ⟨vs, hus, hvs⟩

/-- The first token of a text is joined to what is in front of it as the one that was printed. -/
theorem Scanned.exists_first (hx : x.Scanned) (hdot : x ≠ symbol .dot)
    (hscan : scan (x.sql.toList ++ (sqlAfter x xs).toList) = .ok us) :
    ∃ y vs, us = y :: vs ∧ ∀ u, joined u y = joined u x := by
  rcases hx.first_cases hscan with ⟨vs, hus, -⟩ | ⟨hnumeral, y, vs, hus, hy⟩
  · exact ⟨x.reread, vs, hus, fun u => Kept.same.joined_eq (kept_reread x)⟩
  · refine ⟨y, vs, hus, fun u => ?_⟩
    rw [joined_of_isNumeral hy, joined_of_isNumeral (hnumeral.resolve_left hdot)]

theorem Scanned.joined_first (hx : x.Scanned) (hdot : x ≠ symbol .dot)
    (hscan : scan (x.sql.toList ++ (sqlAfter x xs).toList) = .ok (y :: us)) (u : Token) :
    joined u y = joined u x := by
  obtain ⟨y', vs, heq, hy⟩ := hx.exists_first hdot hscan
  rw [(List.cons.inj heq).1, hy]

end ShardedSql.Sql.Token
