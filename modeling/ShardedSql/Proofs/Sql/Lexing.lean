import ShardedSql.Proofs.Sql.Runs
import ShardedSql.Proofs.Sql.Scanned
import ShardedSql.Sql.Expr.Print

namespace ShardedSql.Sql.Token

open Text (isBlank isWordChar isNameStart)

variable {c : Char} {cs rest : List Char} {t : Token}

theorem scan_of_first {t : Option Token} (h : first c cs = .ok (t, rest)) :
    scan (c :: cs) = (scan rest).map (t.toList ++ ·) := by
  rw [scan]
  split
  · next e he =>
    rw [h] at he
    cases he
  · next t' rest' he =>
    rw [h] at he
    cases he
    cases scan rest <;> rfl

theorem scan_token_of_first (h : first c cs = .ok (some t, rest)) :
    scan (c :: cs) = (scan rest).map (t :: ·) := scan_of_first h

theorem scan_blank (h : isBlank c = true) : scan (c :: cs) = scan cs := by
  have hfirst : first c cs = .ok (none, cs) := by rw [first, if_pos h]
  rw [scan_of_first hfirst]
  cases scan cs <;> rfl

theorem scan_space : scan (' ' :: cs) = scan cs := scan_blank (by decide)

theorem ne_of_isWordChar {d : Char} (h : isWordChar c = true) (hd : isWordChar d = false) :
    c ≠ d := by
  rintro rfl
  rw [h] at hd
  cases hd

theorem first_of_isWordChar (hc : isWordChar c = true) (hd : c.isDigit = false) :
    first c cs = .ok (some (word (String.ofList (c :: cs.takeWhile isWordChar))),
      cs.dropWhile isWordChar) := by
  have hne : ∀ {d : Char}, isWordChar d = false → c ≠ d := ne_of_isWordChar hc
  have hhash : c ≠ '#' := hne (by decide)
  have hminus : c ≠ '-' := hne (by decide)
  have hslash : c ≠ '/' := hne (by decide)
  have hquote : c ≠ '\x27' := hne (by decide)
  have hquotes : c ≠ '\x22' := hne (by decide)
  have hback : c ≠ backquote := hne (by decide)
  have hdot : c ≠ '.' := hne (by decide)
  simp [first, Text.isBlank_of_isWordChar hc, hhash, hminus, hslash, hquote, hquotes, hback, hdot,
    hd, hc]

theorem first_of_startsNumber (h : startsNumber (c :: cs) = true) :
    first c cs = .ok (some (numberOrWord (c :: cs)).1, (numberOrWord (c :: cs)).2) := by
  simp only [startsNumber, Bool.or_eq_true, Bool.and_eq_true, beq_iff_eq] at h
  have hnumber : c.isDigit = true ∨ c = '.' ∧ startsWithDigit cs = true := h
  have hsimple : isBlank c = false ∧ c ≠ '#' ∧ c ≠ '-' ∧ c ≠ '/' ∧ c ≠ '\x27' ∧ c ≠ '\x22' ∧
      c ≠ backquote := by
    rcases h with hc | ⟨rfl, -⟩
    · have hword := Text.isWordChar_of_isDigit hc
      have hne : ∀ {d : Char}, isWordChar d = false → c ≠ d := ne_of_isWordChar hword
      exact ⟨Text.isBlank_of_isWordChar hword, hne (by decide), hne (by decide), hne (by decide),
        hne (by decide), hne (by decide), hne (by decide)⟩
    · decide
  obtain ⟨hblank, hhash, hminus, hslash, hquote, hquotes, hback⟩ := hsimple
  simp [first, hblank, hhash, hminus, hslash, hquote, hquotes, hback, hnumber]

theorem startsNumber_append (h : startsNumber cs = true) (rest : List Char) :
    startsNumber (cs ++ rest) = true := by
  cases cs with
  | nil => cases h
  | cons c cs =>
    simp only [startsNumber, List.cons_append, Bool.or_eq_true, Bool.and_eq_true] at h ⊢
    refine h.imp_right fun hpoint => ⟨hpoint.1, ?_⟩
    have hdigit := hpoint.2
    cases cs with
    | nil => cases hdigit
    | cons d cs => exact hdigit

theorem scan_of_startsNumber (h : startsNumber cs = true) :
    scan cs = (scan (numberOrWord cs).2).map ((numberOrWord cs).1 :: ·) := by
  cases cs with
  | nil => cases h
  | cons c cs => exact scan_token_of_first (first_of_startsNumber h)

theorem eq_cons_of_startsNumber (h : startsNumber cs = true) {ts : List Token}
    (hscan : scan cs = .ok ts) : ∃ us, ts = (numberOrWord cs).1 :: us := by
  rw [scan_of_startsNumber h] at hscan
  cases hrest : scan (numberOrWord cs).2 with
  | error e =>
    rw [hrest] at hscan
    cases hscan
  | ok us =>
    rw [hrest] at hscan
    cases hscan
    exact ⟨us, rfl⟩

theorem EndsWord.not_isWordChar (h : EndsWord rest) : ∀ c ∈ rest.head?, isWordChar c = false :=
  fun c hc => (h c hc).1

/-- Words of word characters alone, the first of them no digit. -/
def isPlainWord : List Char → Bool
  | [] => false
  | c :: cs => isWordChar c && !c.isDigit && cs.all isWordChar

theorem wordText_of_isPlainWord (h : isPlainWord cs = true) : WordText cs := by
  unfold isPlainWord at h
  split at h
  · cases h
  · simp only [Bool.and_eq_true, Bool.not_eq_true'] at h
    exact .plain h.1.1 h.1.2 fun d hd => List.all_eq_true.mp h.2 d hd

theorem scan_plainWord (h : isPlainWord cs = true)
    (hrest : ∀ c ∈ rest.head?, isWordChar c = false) :
    scan (cs ++ rest) = (scan rest).map (word (String.ofList cs) :: ·) := by
  unfold isPlainWord at h
  split at h
  · cases h
  · next c cs =>
    simp only [Bool.and_eq_true, Bool.not_eq_true', List.all_eq_true] at h
    rw [List.cons_append, scan_token_of_first (first_of_isWordChar h.1.1 h.1.2),
      takeWhile_append_of_head_of_all h.2 hrest, dropWhile_append_of_head_of_all h.2 hrest]

theorem scan_word (h : WordText cs) (hrest : EndsWord rest) :
    scan (cs ++ rest) = (scan rest).map (word (String.ofList cs) :: ·) := by
  cases h with
  | @plain c cs hc hd hcs =>
    have hplain : isPlainWord (c :: cs) = true := by
      simp [isPlainWord, hc, hd, List.all_eq_true.mpr hcs]
    exact scan_plainWord hplain hrest.not_isWordChar
  | numeric hstarts hne hcs =>
    have hnumeral := numeral_append hrest fun hnil => absurd hnil hne
    have hword : numberOrWord (cs ++ rest) = (word (String.ofList cs), rest) := by
      have hnext : ((numeral cs).2 ++ rest).head?.any isWordChar = true := by
        obtain ⟨d, ds, hds⟩ := List.exists_cons_of_ne_nil hne
        simp only [hds, List.cons_append, List.head?_cons, Option.any_some]
        exact hcs d (by simp [hds])
      unfold numberOrWord
      simp only [hnumeral, hnext, if_true]
      rw [takeWhile_append_of_head_of_all hcs hrest.not_isWordChar,
        dropWhile_append_of_head_of_all hcs hrest.not_isWordChar, numeral_split]
    rw [scan_of_startsNumber (startsNumber_append hstarts rest), hword]

/-- What follows a number, or a word that starts as one, changes nothing about it. -/
theorem numberOrWord_append (hrest : EndsWord rest) (hdot : rest.head? ≠ some '.') :
    numberOrWord (cs ++ rest) = ((numberOrWord cs).1, (numberOrWord cs).2 ++ rest) := by
  have hnumeral : numeral (cs ++ rest) = _ := numeral_append hrest fun _ => hdot
  have hword := hrest.not_isWordChar
  have hnext : ((numeral cs).2 ++ rest).head?.any isWordChar =
      (numeral cs).2.head?.any isWordChar := by
    cases (numeral cs).2 with
    | nil =>
      cases rest with
      | nil => rfl
      | cons d rest => simpa using hword d rfl
    | cons d ds => rfl
  unfold numberOrWord
  simp only [hnumeral, hnext, takeWhile_append_of_head hword, dropWhile_append_of_head hword]
  split <;> rfl

theorem scan_number (h : NumberText cs) (hrest : EndsWord rest) (hdot : rest.head? ≠ some '.') :
    scan (cs ++ rest) = (scan rest).map (number (String.ofList cs) :: ·) := by
  have hnumber : numberOrWord cs = (number (String.ofList cs), []) := by
    simp [numberOrWord, h.ends]
  rw [scan_of_startsNumber (startsNumber_append h.starts rest),
    numberOrWord_append hrest hdot, hnumber]
  rfl

theorem nameBody_of_ne (h : c ≠ backquote) :
    nameBody (c :: cs) = (nameBody cs).map fun r => (c :: r.1, r.2) := by
  rw [nameBody.eq_def]
  exact if_neg h

theorem stringBody_of_ne {quote : Char} (hslash : c ≠ '\\') (hquote : c ≠ quote) :
    stringBody quote (c :: cs) = (stringBody quote cs).map fun r => (c :: r.1, r.2) := by
  rw [stringBody.eq_def]
  exact (if_neg hslash).trans (if_neg hquote)

/-- Doubled backquotes in a quoted name stand for one each. -/
theorem nameBody_doubleBackquotes (cs : List Char) (hrest : rest.head? ≠ some backquote) :
    nameBody (doubleBackquotes cs ++ backquote :: rest) = some (cs, rest) := by
  induction cs with
  | nil =>
    cases rest with
    | nil => rfl
    | cons d rest =>
      have hd : d ≠ backquote := fun hd => hrest (by rw [hd]; rfl)
      simp [doubleBackquotes, nameBody, hd]
  | cons c cs ih =>
    by_cases hc : c = backquote
    · simp [doubleBackquotes, nameBody, hc, ih]
    · rw [doubleBackquotes, if_neg hc, List.cons_append, nameBody_of_ne hc, ih]
      rfl

theorem escapeChar_cases (c : Char) : (escapeChar c = [c] ∧ c ≠ '\\' ∧ c ≠ '\x27') ∨
    ∃ d, escapeChar c = ['\\', d] ∧ unescape d = c := by
  unfold escapeChar
  split
  · exact .inr ⟨'\\', rfl, rfl⟩
  · exact .inr ⟨'\x27', rfl, rfl⟩
  · exact .inr ⟨'n', rfl, rfl⟩
  · exact .inr ⟨'r', rfl, rfl⟩
  · exact .inr ⟨'t', rfl, rfl⟩
  · exact .inr ⟨'0', rfl, rfl⟩
  · exact .inr ⟨'Z', rfl, rfl⟩
  · next hslash hquote _ _ _ _ _ => exact .inl ⟨rfl, hslash, hquote⟩

/-- Escaped characters in a string stand for themselves. -/
theorem stringBody_escape (cs : List Char) (hrest : rest.head? ≠ some '\x27') :
    stringBody '\x27' (cs.flatMap escapeChar ++ '\x27' :: rest) = some (cs, rest) := by
  induction cs with
  | nil =>
    cases rest with
    | nil => rfl
    | cons d rest =>
      have hd : d ≠ '\x27' := fun hd => hrest (by rw [hd]; rfl)
      simp [stringBody, hd]
  | cons c cs ih =>
    rw [List.flatMap_cons, List.append_assoc]
    rcases escapeChar_cases c with ⟨hc, hslash, hquote⟩ | ⟨d, hd, hc⟩
    · rw [hc, List.singleton_append, stringBody_of_ne hslash hquote, ih]
      rfl
    · rw [hd, List.cons_append, List.singleton_append]
      simp only [stringBody, if_true, ih, Option.map_some, hc]

theorem scan_sqlString (s : String) (hrest : rest.head? ≠ some '\x27') :
    scan ((sqlString s).toList ++ rest) = (scan rest).map (str s :: ·) := by
  have hbody := stringBody_escape s.toList hrest
  have hfirst : first '\x27' (s.toList.flatMap escapeChar ++ '\x27' :: rest) =
      .ok (some (str s), rest) := by
    have hblank : isBlank '\x27' = false := by decide
    simp [first, hblank, hbody]
  rw [sqlString, String.toList_ofList]
  simp only [List.cons_append, List.append_assoc, List.nil_append]
  exact scan_token_of_first hfirst

/-- The token that a printed name reads as. -/
def ofName (n : String) : Token := if isBareName n then word n else quoted n

theorem part?_ofName (n : String) : (ofName n).part? = some n := by
  unfold ofName
  split <;> rfl

theorem not_isReserved_of_isBareName {n : String} (h : isBareName n = true) :
    isReserved n = false := by
  unfold isBareName at h
  split at h
  · cases h
  · simp only [Bool.and_eq_true, Bool.not_eq_true'] at h
    exact h.2

theorem name?_ofName (n : String) : (ofName n).name? = some n := by
  unfold ofName
  split
  · next h => simp [name?, not_isReserved_of_isBareName h]
  · rfl

theorem run_name_ofName (n : String) (rest : List Token) :
    TokenParser.name.run (ofName n :: rest) = .ok (n, rest) :=
  TokenParser.run_name_eq_ok.mpr ⟨ofName n, name?_ofName n, rfl⟩

theorem isDigit_of_isNameStart (h : isNameStart c = true) : c.isDigit = false := by
  cases hd : c.isDigit with
  | false => rfl
  | true =>
    have hdigits : ∀ n ∈ List.range' 48 10, isNameStart (Char.ofNat n) = false := by decide
    simp only [Char.isDigit, Bool.and_eq_true, decide_eq_true_eq] at hd
    have hlow : 48 ≤ c.toNat := UInt32.le_iff_toNat_le.mp hd.1
    have hhigh : c.toNat ≤ 57 := UInt32.le_iff_toNat_le.mp hd.2
    have hc := hdigits c.toNat (by simp only [List.mem_range'_1]; omega)
    rw [Char.ofNat_toNat, h] at hc
    cases hc

theorem isPlainWord_of_isBareName {n : String} (h : isBareName n = true) :
    isPlainWord n.toList = true := by
  unfold isBareName at h
  split at h
  · cases h
  · next c cs hn =>
    simp only [Bool.and_eq_true] at h
    simp [hn, isPlainWord, Text.isWordChar_of_isNameStart h.1.1, isDigit_of_isNameStart h.1.1,
      h.1.2]

theorem wordText_of_isBareName {n : String} (h : isBareName n = true) : WordText n.toList :=
  wordText_of_isPlainWord (isPlainWord_of_isBareName h)

theorem startsWithDigit_sqlName (n : String) (rest : List Char) :
    startsWithDigit ((sqlName n).toList ++ rest) = false := by
  unfold sqlName
  split
  · next h =>
    unfold isBareName at h
    split at h
    · cases h
    · next c cs hn =>
      simp only [Bool.and_eq_true] at h
      rw [hn]
      exact isDigit_of_isNameStart h.1.1
  · rw [String.toList_ofList]
    rfl

theorem scan_sqlName (n : String) (hrest : ∀ c ∈ rest.head?, isWordChar c = false)
    (hback : rest.head? ≠ some backquote) :
    scan ((sqlName n).toList ++ rest) = (scan rest).map (ofName n :: ·) := by
  unfold sqlName ofName
  split
  · next h =>
    rw [scan_plainWord (isPlainWord_of_isBareName h) hrest, String.ofList_toList]
  · have hfirst : first backquote (doubleBackquotes n.toList ++ backquote :: rest) =
        .ok (some (quoted n), rest) := by
      have hblank : isBlank backquote = false := by decide
      have hchar : backquote ≠ '#' ∧ backquote ≠ '-' ∧ backquote ≠ '/' ∧ backquote ≠ '\x27' ∧
          backquote ≠ '\x22' := by decide
      simp [first, hblank, hchar, nameBody_doubleBackquotes n.toList hback]
    rw [String.toList_ofList]
    simp only [List.cons_append, List.append_assoc, List.nil_append]
    exact scan_token_of_first hfirst

theorem scan_keyword {kw : String} (h : isPlainWord kw.toList = true) (hrest : EndsWord rest) :
    scan (kw.toList ++ rest) = (scan rest).map (word kw :: ·) := by
  rw [scan_plainWord h hrest.not_isWordChar, String.ofList_toList]

theorem endsWord_space : EndsWord (' ' :: rest) := by
  rintro c ⟨⟩
  decide

theorem endsWord_leftParen : EndsWord ('(' :: rest) := by
  rintro c ⟨⟩
  decide

theorem endsWord_dot : EndsWord ('.' :: rest) := by
  rintro c ⟨⟩
  decide

theorem scan_leftParen : scan ('(' :: cs) = (scan cs).map (symbol .leftParen :: ·) :=
  scan_token_of_first rfl

theorem scan_rightParen : scan (')' :: cs) = (scan cs).map (symbol .rightParen :: ·) :=
  scan_token_of_first rfl

theorem scan_comma : scan (',' :: cs) = (scan cs).map (symbol .comma :: ·) :=
  scan_token_of_first rfl

theorem scan_star : scan ('*' :: cs) = (scan cs).map (symbol .star :: ·) :=
  scan_token_of_first rfl

theorem scan_atSign : scan ('@' :: cs) = (scan cs).map (symbol .atSign :: ·) :=
  scan_token_of_first rfl

theorem scan_questionMark : scan ('?' :: cs) = (scan cs).map (placeholder :: ·) :=
  scan_token_of_first rfl

theorem scan_dot (h : startsWithDigit cs = false) :
    scan ('.' :: cs) = (scan cs).map (symbol .dot :: ·) := by
  apply scan_token_of_first
  have hblank : isBlank '.' = false ∧ isWordChar '.' = false := by decide
  simp [first, hblank, backquote, h, Symbol.atFront?]

theorem scan_minus (h : cs.head? ≠ some '-') :
    scan ('-' :: cs) = (scan cs).map (symbol .minus :: ·) := by
  apply scan_token_of_first
  have hblank : isBlank '-' = false ∧ isWordChar '-' = false := by decide
  simp [first, hblank, backquote, h, Symbol.atFront?]

theorem dropWhile_line (h : '\n' ∉ cs) : cs.dropWhile (· ≠ '\n') = [] := by
  have hall : ∀ c ∈ cs, decide (c ≠ '\n') = true := by
    intro c hc
    have hne : c ≠ '\n' := by
      rintro rfl
      exact h hc
    simpa using hne
  have hdrop : (cs ++ []).dropWhile (· ≠ '\n') = [] := dropWhile_append_of_head_of_all hall nofun
  simpa using hdrop

/-- Two minus signs start a comment, which goes to the end of the line. -/
theorem scan_doubleMinus (h : '\n' ∉ cs) : scan ('-' :: '-' :: cs) = .ok [] := by
  have hline : '\n' ∉ '-' :: cs := by
    rintro (_ | ⟨_, hc⟩)
    exact h hc
  have hfirst : first '-' ('-' :: cs) = .ok (none, ('-' :: cs).dropWhile (· ≠ '\n')) := by
    have hblank : isBlank '-' = false := by decide
    simp [first, hblank]
  rw [dropWhile_line hline] at hfirst
  rw [scan_of_first hfirst, scan]
  rfl

end ShardedSql.Sql.Token
