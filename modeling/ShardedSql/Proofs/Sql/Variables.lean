import ShardedSql.Proofs.Sql.Spelling

namespace ShardedSql.Sql

open Text (isBlank isWordChar)
open Token (EndsWord WordText backquote nameBody scan startsWithDigit)

/-- Words with dots between them, which read as what they are: no word behind a dot starts with a
digit, since the dot would be a part of a number. -/
inductive BareParts : List Char → List Token → Prop
  | single {w : String} (h : WordText w.toList) : BareParts w.toList [.word w]
  | dotted {w : String} {cs : List Char} {us : List Token} (h : WordText w.toList)
      (hcs : BareParts cs us) (hdigit : startsWithDigit cs = false) :
      BareParts (w.toList ++ '.' :: cs) (.word w :: .symbol .dot :: us)

/-- Whether the name of a variable reads as the variable: it is made of bare words. -/
def ReadableVar (name : String) : Prop :=
  ∃ cs us, BareParts cs us ∧ (name.toList = '@' :: cs ∨ name.toList = '@' :: '@' :: cs)

theorem startsWithDigit_append_of_ne_nil {cs : List Char} (h : cs ≠ []) (rest : List Char) :
    startsWithDigit (cs ++ rest) = startsWithDigit cs := by
  cases cs with
  | nil => exact absurd rfl h
  | cons c cs => rfl

theorem WordText.ne_nil {cs : List Char} (h : WordText cs) : cs ≠ [] := by
  cases h with
  | plain => simp
  | numeric hstarts =>
    rintro rfl
    cases hstarts

namespace BareParts

variable {cs rest : List Char} {us : List Token}

theorem ne_nil (h : BareParts cs us) : cs ≠ [] := by
  cases h with
  | single h => exact WordText.ne_nil h
  | dotted => simp

theorem spells (h : BareParts cs us) (hrest : EndsWord rest) : Spells cs us rest := by
  induction h with
  | @single w h =>
    have hword := Token.scan_word h hrest
    rwa [String.ofList_toList] at hword
  | @dotted w cs us h hcs hdigit ih =>
    have hdot : Spells ['.'] [.symbol .dot] (cs ++ rest) := by
      apply Token.scan_dot
      exact (startsWithDigit_append_of_ne_nil hcs.ne_nil rest).trans hdigit
    have hends : EndsWord ('.' :: (cs ++ rest)) := Token.endsWord_dot
    have hword := Token.scan_word h hends
    rw [String.ofList_toList] at hword
    have hspells : Spells w.toList [.word w] (['.'] ++ cs ++ rest) := hword
    exact hspells.append (hdot.append ih)

theorem varTokens (h : BareParts cs us) {m : String} {vs : List Token} (hm : VarTokens m vs) :
    VarTokens (m ++ "." ++ String.ofList cs) (vs ++ .symbol .dot :: us) := by
  induction h generalizing m vs with
  | @single w h =>
    rw [String.ofList_toList]
    exact .dotted hm rfl
  | @dotted w cs us h hcs hdigit ih =>
    have hword : VarTokens (m ++ "." ++ w) (vs ++ [.symbol .dot, .word w]) := .dotted hm rfl
    have hall := ih hword
    have hname : m ++ "." ++ w ++ "." ++ String.ofList cs =
        m ++ "." ++ String.ofList (w.toList ++ '.' :: cs) := by
      apply String.toList_injective
      simp
    rw [hname] at hall
    simpa using hall

end BareParts

/-- A readable variable is derived from the tokens that it is spelled with. -/
theorem ReadableVar.spells {n : String} (h : ReadableVar n) :
    ∃ us, VarTokens n us ∧
      ∀ {rest : List Char}, EndsWord rest → Spells n.toList (.symbol .atSign :: us) rest := by
  obtain ⟨cs, us, hparts, hname⟩ := h
  have hsign : ∀ {rest : List Char}, Spells ['@'] [.symbol .atSign] rest := Token.scan_atSign
  have hderive : ∀ {sign : String} {v : List Token},
      (∀ w, VarTokens (sign ++ w) (v ++ [.word w])) →
      VarTokens (sign ++ String.ofList cs) (v ++ us) := by
    intro sign v hword
    cases hparts with
    | @single w _ =>
      rw [String.ofList_toList]
      exact hword w
    | @dotted w ds us _ hds _ =>
      have hall := hds.varTokens (hword w)
      have htext : sign ++ w ++ "." ++ String.ofList ds =
          sign ++ String.ofList (w.toList ++ '.' :: ds) := by
        apply String.toList_injective
        simp
      rw [htext] at hall
      simpa using hall
  rcases hname with hname | hname
  · have htext : n = "@" ++ String.ofList cs := by
      apply String.toList_injective
      simp [hname]
    refine ⟨us, ?_, fun hrest => ?_⟩
    · rw [htext]
      exact hderive (v := []) fun w => .single rfl
    · rw [hname]
      exact hsign.append (hparts.spells hrest)
  · have htext : n = "@@" ++ String.ofList cs := by
      apply String.toList_injective
      simp [hname]
    refine ⟨.symbol .atSign :: us, ?_, fun hrest => ?_⟩
    · rw [htext]
      exact hderive (v := [.symbol .atSign]) fun w => .double rfl
    · rw [hname]
      exact hsign.append (hsign.append (hparts.spells hrest))

/-- A text of one line without the start of a comment that may go over several. -/
structure Tame (cs : List Char) : Prop where
  line : '\n' ∉ cs
  uncommented : ¬['/', '*'] <:+: cs

theorem Tame.of_append {cs ds : List Char} (h : Tame (cs ++ ds)) : Tame ds :=
  ⟨fun hline => h.line (List.mem_append_right cs hline),
    fun hopen => h.uncommented (hopen.trans (List.suffix_append cs ds).isInfix)⟩

namespace Token

variable {c : Char} {cs rest : List Char}

theorem numberOrWord_cases {t : Token} (h : numberOrWord cs = (t, rest)) :
    (∃ w, t = word w) ∨ ∃ n, t = number n := by
  unfold numberOrWord at h
  simp only [] at h
  split at h <;> cases h
  · exact .inl ⟨_, rfl⟩
  · exact .inr ⟨_, rfl⟩

theorem first_eq_quoted {q : String} (h : first c cs = .ok (some (quoted q), rest)) :
    c = backquote ∧ nameBody cs = some (q.toList, rest) := by
  cases front_of_first h with
  | name hc hbody => exact ⟨hc, by rw [hbody, String.toList_ofList]⟩
  | number _ hfound =>
    rcases numberOrWord_cases hfound with ⟨w, hw⟩ | ⟨n, hn⟩
    · cases hw
    · cases hn

/-- In a tame text only blanks, and comments up to the end of it, hold no token. -/
theorem first_eq_none (htame : Tame (c :: cs)) (h : first c cs = .ok (none, rest)) :
    (isBlank c = true ∧ rest = cs) ∨ rest = [] := by
  cases front_of_first h with
  | blank hblank => exact .inl ⟨hblank, rfl⟩
  | line =>
    exact .inr (dropWhile_line fun hline => htame.line (List.mem_cons_of_mem _ hline))
  | comment hopen =>
    obtain ⟨rfl, hstar⟩ := hopen
    obtain ⟨ds, rfl⟩ := List.head?_eq_some_iff.mp hstar
    exact absurd (List.prefix_append ['/', '*'] ds).isInfix htame.uncommented

theorem scan_ne_symbol (h : startsNumber cs = true) (s : Symbol) (ts : List Token) :
    scan cs ≠ .ok (symbol s :: ts) := by
  intro hscan
  obtain ⟨us, heq⟩ := eq_cons_of_startsNumber h hscan
  have hhead : (numberOrWord cs).1 = symbol s := (List.cons.inj heq).1.symm
  rcases numberOrWord_cases (Prod.ext hhead rfl) with ⟨w, hw⟩ | ⟨n, hn⟩
  · cases hw
  · cases hn

/-- A quoted name at the front of a tame text stands behind blanks alone. -/
theorem scan_eq_quoted {q : String} {ts : List Token} (htame : Tame cs)
    (h : scan cs = .ok (quoted q :: ts)) :
    ∃ blanks ds rest, cs = blanks ++ backquote :: ds ∧ (∀ c ∈ blanks, isBlank c = true) ∧
      nameBody ds = some (q.toList, rest) := by
  fun_induction scan cs generalizing ts with
  | case1 => cases h
  | case2 => cases h
  | case3 => cases h
  | case4 c cs found rest hfirst ts' hscan ih =>
    cases found with
    | some t =>
      cases h
      obtain ⟨rfl, hbody⟩ := first_eq_quoted hfirst
      exact ⟨[], cs, rest, rfl, by simp, hbody⟩
    | none =>
      cases h
      rcases first_eq_none htame hfirst with ⟨hblank, rfl⟩ | rfl
      · have hrest : Tame rest := (show Tame ([c] ++ rest) from htame).of_append
        obtain ⟨blanks, ds, rest', rfl, hblanks, hbody⟩ := ih hrest hscan
        refine ⟨c :: blanks, ds, rest', rfl, ?_, hbody⟩
        rintro b (_ | ⟨_, hb⟩)
        · exact hblank
        · exact hblanks b hb
      · rw [scan] at hscan
        cases hscan

end Token

/-- How many blanks and backquotes a text starts with. -/
def thinLength (cs : List Char) : Nat := (cs.takeWhile isThin).length

theorem thinLength_cons_of_thin {c : Char} (h : isThin c = true) (cs : List Char) :
    thinLength (c :: cs) = thinLength cs + 1 := by simp [thinLength, h]

theorem thinLength_cons_of_not {c : Char} (h : isThin c = false) (cs : List Char) :
    thinLength (c :: cs) = 0 := by simp [thinLength, h]

theorem thinLength_append_le (cs ds : List Char) :
    thinLength (cs ++ ds) ≤ thinLength cs + thinLength ds := by
  induction cs with
  | nil => simp [thinLength]
  | cons c cs ih =>
    rw [List.cons_append]
    cases hc : isThin c with
    | true =>
      rw [thinLength_cons_of_thin hc, thinLength_cons_of_thin hc]
      omega
    | false =>
      rw [thinLength_cons_of_not hc]
      exact Nat.zero_le _

theorem thinLength_append_of_mem {cs : List Char} {c : Char} (hc : c ∈ cs) (h : isThin c = false)
    (ds : List Char) : thinLength (cs ++ ds) = thinLength cs := by
  induction cs with
  | nil => cases hc
  | cons d cs ih =>
    rw [List.cons_append]
    cases hd : isThin d with
    | true =>
      have hmem : c ∈ cs := by
        rcases List.mem_cons.mp hc with rfl | hmem
        · rw [h] at hd
          cases hd
        · exact hmem
      rw [thinLength_cons_of_thin hd, thinLength_cons_of_thin hd, ih hmem]
    | false => rw [thinLength_cons_of_not hd, thinLength_cons_of_not hd]

theorem thinLength_blanks_append {blanks : List Char} (h : ∀ c ∈ blanks, isBlank c = true)
    (ds : List Char) : thinLength (blanks ++ backquote :: ds) = blanks.length + 1 + thinLength ds := by
  induction blanks with
  | nil =>
    rw [List.nil_append, thinLength_cons_of_thin (by decide)]
    simp only [List.length_nil]
    omega
  | cons c blanks ih =>
    have hc : isThin c = true := by simp [isThin, h c (by simp)]
    rw [List.cons_append, thinLength_cons_of_thin hc, ih fun d hd => h d (by simp [hd]),
      List.length_cons]
    omega

/-- A quoted name starts with no more blanks and backquotes than its text between the quotes, and
with fewer if it has nothing else. -/
theorem thinLength_nameBody {ds body rest : List Char} (h : nameBody ds = some (body, rest)) :
    thinLength body < thinLength ds ∨
      (thinLength body ≤ thinLength ds ∧ ∃ c ∈ body, isThin c = false) := by
  have hback : isThin backquote = true := by decide
  fun_induction nameBody ds generalizing body with
  | case1 => cases h
  | case2 =>
    cases h
    left
    rw [thinLength_cons_of_thin hback]
    exact Nat.succ_pos _
  | case3 rest' ih =>
    obtain ⟨r, hr, hmap⟩ := Option.map_eq_some_iff.mp h
    cases hmap
    rw [thinLength_cons_of_thin hback, thinLength_cons_of_thin hback, thinLength_cons_of_thin hback]
    rcases ih hr with hlt | ⟨hle, c, hc, hthin⟩
    · left
      omega
    · right
      exact ⟨by omega, c, List.mem_cons_of_mem _ hc, hthin⟩
  | case4 d rest' hd =>
    cases h
    left
    rw [thinLength_cons_of_thin hback]
    exact Nat.succ_pos _
  | case5 c rest' hc ih =>
    obtain ⟨r, hr, hmap⟩ := Option.map_eq_some_iff.mp h
    cases hmap
    cases hthin : isThin c with
    | true =>
      rw [thinLength_cons_of_thin hthin, thinLength_cons_of_thin hthin]
      rcases ih hr with hlt | ⟨hle, d, hd, hdthin⟩
      · left
        omega
      · right
        exact ⟨by omega, d, List.mem_cons_of_mem _ hd, hdthin⟩
    | false =>
      right
      rw [thinLength_cons_of_not hthin]
      exact ⟨Nat.zero_le _, c, by simp, hthin⟩

/-- No text that starts with a name reads as that name in quotes: the quotes would be a part of the
name too, doubled, and so on. -/
theorem scan_ne_quoted {q : String} {tail : List Char} (htame : Tame (q.toList ++ tail))
    (htail : thinLength tail ≤ 1) (ts : List Token) :
    scan (q.toList ++ tail) ≠ .ok (.quoted q :: ts) := by
  intro h
  obtain ⟨blanks, ds, rest, htext, hblanks, hbody⟩ := Token.scan_eq_quoted htame h
  have hlength := thinLength_blanks_append hblanks ds
  rw [← htext] at hlength
  rcases thinLength_nameBody hbody with hlt | ⟨hle, c, hc, hthin⟩
  · have := thinLength_append_le q.toList tail
    omega
  · rw [thinLength_append_of_mem hc hthin] at hlength
    omega

/-- The names and dots that the grammar reads as a variable, and the text that they make. -/
inductive Parts : List Char → List Token → Prop
  | single {t : Token} {n : String} (h : t.part? = some n) : Parts n.toList [t]
  | dotted {t : Token} {n : String} {cs : List Char} {us : List Token} (h : t.part? = some n)
      (hcs : Parts cs us) : Parts (n.toList ++ '.' :: cs) (t :: .symbol .dot :: us)

namespace Parts

variable {cs rest : List Char} {us : List Token}

theorem concat (h : Parts cs us) {t : Token} {n : String} (ht : t.part? = some n) :
    Parts (cs ++ '.' :: n.toList) (us ++ [.symbol .dot, t]) := by
  induction h with
  | single h => exact .dotted h (.single ht)
  | dotted h _ ih =>
    have hall := Parts.dotted h ih
    simpa using hall

theorem of_varTokens {n : String} (h : VarTokens n us) :
    ∃ cs vs, Parts cs vs ∧ ((n.toList = '@' :: cs ∧ us = vs) ∨
      (n.toList = '@' :: '@' :: cs ∧ us = .symbol .atSign :: vs)) := by
  induction h with
  | single ht => exact ⟨_, _, .single ht, .inl ⟨by simp, rfl⟩⟩
  | double ht => exact ⟨_, _, .single ht, .inr ⟨by simp, rfl⟩⟩
  | @dotted t m n us hm ht ih =>
    obtain ⟨cs, vs, hparts, hname⟩ := ih
    refine ⟨cs ++ '.' :: n.toList, vs ++ [.symbol .dot, t], hparts.concat ht, ?_⟩
    rcases hname with ⟨hname, rfl⟩ | ⟨hname, rfl⟩
    · exact .inl ⟨by simp [hname], rfl⟩
    · exact .inr ⟨by simp [hname], rfl⟩

/-- A word that is read at the front of its own text ends where the text does. -/
theorem scan_word {t : Token} {n : String} (ht : t.part? = some n) {ts : List Token}
    (htame : Tame (n.toList ++ rest)) (hthin : thinLength rest ≤ 1) (hrest : EndsWord rest)
    (h : scan (n.toList ++ rest) = .ok (t :: ts)) :
    t = .word n ∧ WordText n.toList ∧ scan rest = .ok ts := by
  cases t with
  | word w =>
    cases ht
    have hw : WordText n.toList := Token.scanned_of_mem_scan h (.word n) (by simp)
    have hspells : Spells n.toList [.word n] rest := by
      have hscan := Token.scan_word hw hrest
      rwa [String.ofList_toList] at hscan
    obtain ⟨ws, hws, hts⟩ := hspells.rest_of_ok h
    cases hts
    exact ⟨rfl, hw, hws⟩
  | quoted q =>
    cases ht
    exact absurd h (scan_ne_quoted htame hthin ts)
  | _ => cases ht

theorem bare (h : Parts cs us) {a : List Token} (htame : Tame (cs ++ rest)) (hrest : Follows rest)
    (hscan : scan (cs ++ rest) = .ok (us ++ a)) : BareParts cs us ∧ scan rest = .ok a := by
  induction h with
  | single ht =>
    obtain ⟨rfl, hword, htail⟩ := scan_word ht htame hrest.thin hrest.endsWord hscan
    exact ⟨.single hword, htail⟩
  | @dotted t n cs us ht hcs ih =>
    simp only [List.append_assoc, List.cons_append] at htame hscan
    have hthin : thinLength ('.' :: (cs ++ rest)) ≤ 1 := by
      rw [thinLength_cons_of_not (by decide)]
      exact Nat.zero_le _
    obtain ⟨rfl, hword, htail⟩ := scan_word ht htame hthin Token.endsWord_dot hscan
    have hdigits : startsWithDigit (cs ++ rest) = startsWithDigit cs :=
      Token.startsWithDigit_append hrest.endsWord
    cases hdigit : startsWithDigit cs with
    | true =>
      rw [hdigit] at hdigits
      have hnumber : Token.startsNumber ('.' :: (cs ++ rest)) = true := by
        simp [Token.startsNumber, hdigits]
      exact absurd htail (Token.scan_ne_symbol hnumber .dot _)
    | false =>
      rw [hdigit] at hdigits
      have hdot : Spells ['.'] [.symbol .dot] (cs ++ rest) := Token.scan_dot hdigits
      obtain ⟨ws, hws, hts⟩ := hdot.rest_of_ok htail
      cases hts
      have hright : Tame (cs ++ rest) :=
        (show Tame ((n.toList ++ ['.']) ++ (cs ++ rest)) by simpa using htame).of_append
      obtain ⟨hbare, hrest'⟩ := ih hright hws
      exact ⟨.dotted hword hbare hdigit, hrest'⟩

end Parts

/-- A variable that is read from the text of its own name is readable, and what follows the name is
read behind it. -/
theorem readableVar_of_scan {n : String} {us a : List Token} {rest : List Char}
    (h : VarTokens n us) (htame : Tame (n.toList ++ rest)) (hrest : Follows rest)
    (hscan : scan (n.toList ++ rest) = .ok (.symbol .atSign :: us ++ a)) :
    ReadableVar n ∧ scan rest = .ok a := by
  have hsign : ∀ {c : List Char}, Spells ['@'] [.symbol .atSign] c := Token.scan_atSign
  obtain ⟨cs, vs, hparts, ⟨hname, rfl⟩ | ⟨hname, rfl⟩⟩ := Parts.of_varTokens h
  · rw [hname] at hscan htame
    obtain ⟨ws, hws, hts⟩ := (hsign (c := cs ++ rest)).rest_of_ok hscan
    cases hts
    have hright : Tame (cs ++ rest) := (show Tame (['@'] ++ (cs ++ rest)) from htame).of_append
    obtain ⟨hbare, hafter⟩ := hparts.bare hright hrest hws
    exact ⟨⟨cs, us, hbare, .inl hname⟩, hafter⟩
  · rw [hname] at hscan htame
    obtain ⟨ws, hws, hts⟩ := (hsign (c := '@' :: (cs ++ rest))).rest_of_ok hscan
    cases hts
    obtain ⟨ws, hws, hts⟩ := (hsign (c := cs ++ rest)).rest_of_ok hws
    cases hts
    have hright : Tame (cs ++ rest) :=
      (show Tame (['@', '@'] ++ (cs ++ rest)) from htame).of_append
    obtain ⟨hbare, hafter⟩ := hparts.bare hright hrest hws
    exact ⟨⟨cs, vs, hbare, .inr hname⟩, hafter⟩

end ShardedSql.Sql
