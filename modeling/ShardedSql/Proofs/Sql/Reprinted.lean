import ShardedSql.Proofs.Sql.Endings

namespace ShardedSql.Sql.Token

open Text (isWordChar)

variable {cs rest m : List Char} {t u x y : Token} {us xs ts : List Token} {n k : Nat} {p q : Prop}

/-- A text is read as at most so many tokens. Printed again they are that text exactly if `p`. -/
def Reads (cs : List Char) (n : Nat) (p : Prop) : Prop :=
  ∃ us, scan cs = .ok us ∧ us.length ≤ n ∧ ((sqlList us).toList = cs ↔ p)

/-- The same of a text that stands behind a token. -/
def ReadsBehind (u : Token) (cs : List Char) (n : Nat) (p : Prop) : Prop :=
  ∃ us, scan cs = .ok us ∧ us.length ≤ n ∧ ((sqlAfter u us).toList = cs ↔ p)

theorem Reads.mono (h : Reads cs n p) (hk : n ≤ k) : Reads cs k p :=
  let ⟨us, hscan, hn, hp⟩ := h
  ⟨us, hscan, Nat.le_trans hn hk, hp⟩

theorem Reads.of_spells (h : Spells cs [y] rest) (hlength : y.sql.toList.length = cs.length)
    (hrest : ReadsBehind y rest n p) : Reads (cs ++ rest) (n + 1) (y.sql.toList = cs ∧ p) := by
  obtain ⟨us, hscan, hn, hp⟩ := hrest
  refine ⟨y :: us, h.ok hscan, Nat.succ_le_succ hn, ?_⟩
  rw [sqlList, String.toList_append, ← hp]
  exact ⟨fun heq => List.append_inj heq hlength, fun heq => by rw [heq.1, heq.2]⟩

theorem Reads.of_spells_same (h : Spells cs [y] rest) (hsql : y.sql.toList = cs)
    (hrest : ReadsBehind y rest n p) : Reads (cs ++ rest) (n + 1) p := by
  have hreads := Reads.of_spells h (by rw [hsql]) hrest
  simpa only [hsql, true_and] using hreads

theorem ReadsBehind.of_joined (h : Reads cs n p)
    (hjoined : ∀ y us, scan cs = .ok (y :: us) → joined u y = true) : ReadsBehind u cs n p := by
  obtain ⟨us, hscan, hn, hp⟩ := h
  refine ⟨us, hscan, hn, ?_⟩
  cases us with
  | nil => exact hp
  | cons y us => simpa [sqlAfter, sqlList, hjoined y us hscan] using hp

/-- What stands behind a token without a blank gets one if it is not joined to the token. -/
theorem ReadsBehind.of_apart (h : Reads cs n q) (hblank : cs.head? ≠ some ' ') (hne : cs ≠ [])
    (hapart : ∀ y us, scan cs = .ok (y :: us) → joined u y = false) (hp : ¬p) :
    ReadsBehind u cs n p := by
  obtain ⟨us, hscan, hn, -⟩ := h
  refine ⟨us, hscan, hn, iff_of_false ?_ hp⟩
  cases us with
  | nil => simpa [sqlAfter] using hne.symm
  | cons y us =>
    simp only [sqlAfter, hapart y us hscan]
    rintro rfl
    simp at hblank

theorem ReadsBehind.of_space (h : Reads cs n p)
    (hspaced : ∃ y us, scan cs = .ok (y :: us) ∧ joined u y = false) :
    ReadsBehind u (' ' :: cs) n p := by
  obtain ⟨us, hscan, hn, hp⟩ := h
  obtain ⟨y, vs, hscan', hjoined⟩ := hspaced
  obtain rfl : us = y :: vs := Except.ok.inj (hscan.symm.trans hscan')
  refine ⟨y :: vs, scan_space.trans hscan, hn, ?_⟩
  rw [← hp]
  simp [sqlAfter, sqlList, hjoined]

/-- Blanks stay behind a token that takes them as another one does. -/
theorem ReadsBehind.of_reads (hx : x.Scanned) (hdot : x ≠ symbol .dot)
    (hjoined : joined t x = joined u x)
    (h : Reads (x.sql.toList ++ (sqlAfter x xs).toList) n p) :
    ReadsBehind u (sqlAfter t (x :: xs)).toList n p := by
  rw [toList_sqlAfter, hjoined]
  cases hu : joined u x with
  | true =>
    exact .of_joined h fun y us hscan => (hx.joined_first hdot hscan u).trans hu
  | false =>
    refine .of_space h ?_
    obtain ⟨us, hscan, -⟩ := h
    obtain ⟨y, vs, rfl, hy⟩ := hx.exists_first hdot hscan
    exact ⟨y, vs, hscan, by rw [hy, hu]⟩

/-- The text of some tokens is read behind any ending, and stays the same exactly if they settle. -/
structure Determined (ts : List Token) : Prop where
  behind : ∀ {t u}, u.opens = false → (∀ x, joined t x = joined u x) →
    ReadsBehind u (sqlAfter t ts).toList ts.length (Ending.closed.settles ts)
  power : ∀ {t n}, t.isNamed = true →
    ReadsBehind (number n) (sqlAfter t ts).toList ts.length (Ending.power.settles ts)
  opening : ∀ {t}, t.opens = true →
    ReadsBehind t (sqlAfter t ts).toList ts.length (Ending.opening.settles ts)
  dot : Reads ('.' :: (sqlAfter (symbol .dot) ts).toList) (ts.length + 1)
    (Ending.opening.settles ts)
  loose : ∀ {u}, u.opens = false →
    ReadsBehind u ('.' :: (sqlAfter (symbol .dot) ts).toList) (ts.length + 1)
      (Ending.loose.settles ts)
  digits : ∀ {n m}, m.all isNumberChar = true → startsNumber m = true →
    Reads (m ++ (sqlAfter (.number n) ts).toList) (ts.length + 1) (Ending.digits.settles ts)
  point : ∀ {m}, m.all isNumberChar = true → startsNumber m = true →
    Reads (m ++ (sqlAfter (symbol .dot) ts).toList) (ts.length + 1) (Ending.point.settles ts)

theorem readsBehind_nil : ReadsBehind u [] n True :=
  ⟨[], by rw [scan], by simp, by simp [sqlAfter]⟩

theorem determined_nil : Determined [] := by
  have hdot : scan ['.'] = .ok [symbol .dot] := by
    rw [scan_dot rfl, scan]
    rfl
  have hdigits : ∀ {m : List Char}, m.all isNumberChar = true → startsNumber m = true →
      Reads (m ++ []) 1 True := fun hm hstarts =>
    .of_spells_same (spells_digits hm hstarts (by simp)) (by simp [sql]) readsBehind_nil
  constructor <;> simp only [toList_sqlAfter_nil, Ending.settles, List.length_nil]
  · exact fun _ _ => readsBehind_nil
  · exact fun _ => readsBehind_nil
  · exact fun _ => readsBehind_nil
  · exact ⟨_, hdot, by simp, by simp [sqlList, sqlAfter, sql, Symbol.text]⟩
  · exact fun _ => ⟨_, hdot, by simp, by simp [sqlAfter, sql, Symbol.text, joined_dot]⟩
  · exact hdigits
  · exact hdigits

namespace Determined

/-- A number at the end of digits and points. -/
theorem number (h : Determined xs) {n : String} (hn : NumberText n.toList)
    (hm : m.all isNumberChar = true) (hstarts : startsNumber (m ++ n.toList) = true) :
    Reads (m ++ (n.toList ++ (sqlAfter (.number n) xs).toList)) (xs.length + 1)
      ((Ending.ofNumber n).settles xs) := by
  rw [← List.append_assoc]
  unfold Ending.ofNumber
  cases hall : n.toList.all isNumberChar with
  | true => exact h.digits (by simp [hm, hall]) hstarts
  | false =>
    have hends : numeral (m ++ n.toList) = (m ++ n.toList, []) := by
      rw [numeral_append_of_all hm, hn.ends]
    have hrest : EndsWord (sqlAfter (.number n) xs).toList := (breaks_sqlAfter rfl).endsWord
    exact .of_spells_same (spells_exponential ⟨hstarts, hends⟩ (by simp [hall]) hrest)
      (by simp [sql]) (h.behind rfl (joined_number _ _))

/-- A name at the end of digits and points. -/
theorem name (h : Determined xs) (ht : t.isNamed = true) (hv : WordText t.sql.toList)
    (hm : m.all isNumberChar = true) (hstarts : startsNumber (m ++ t.sql.toList) = true) :
    Reads (m ++ (t.sql.toList ++ (sqlAfter t xs).toList)) (xs.length + 1)
      ((Ending.ofWord t.sql).settles xs) := by
  rw [Ending.ofWord]
  generalize t.sql.toList = v at hv hstarts
  have hopens : t.opens = false := opens_of_isNamed ht
  have hends := (breaks_sqlAfter hopens : Breaks (sqlAfter t xs).toList).endsWord
  have hnumeral := numeral_append_of_all hm v
  have hsplit := numeral_split v
  rw [← List.append_assoc]
  split
  · next hnil =>
    rw [hnil, List.append_nil] at hsplit
    have htext : NumberText (m ++ v) := ⟨hstarts, by rw [hnumeral, hsplit, hnil]⟩
    have hall : (m ++ v).all isNumberChar = false := by
      cases hv with
      | plain hc hd =>
        have hdot := ne_of_isWordChar hc (show isWordChar '.' = false by decide)
        simp [isNumberChar, hd, hdot]
      | numeric _ hne => exact absurd hnil hne
    exact .of_spells_same (spells_exponential htext hall hends) (by simp [sql]) (h.power ht)
  · next hne =>
    have hwords : ∀ d ∈ (numeral v).2, isWordChar d = true := by
      cases hv with
      | @plain c ds hc _ hcs =>
        intro d hd
        have hmem : d ∈ c :: ds := hsplit ▸ List.mem_append_right _ hd
        rcases List.mem_cons.mp hmem with rfl | hmem
        · exact hc
        · exact hcs d hmem
      | numeric _ _ hcs => exact hcs
    have htext : WordText (m ++ v) := .numeric hstarts (by rwa [hnumeral]) (by rwa [hnumeral])
    have hspells : Spells (m ++ v) [.word (String.ofList (m ++ v))] (sqlAfter t xs).toList := by
      have hword := Spells.word (w := String.ofList (m ++ v)) (by simpa using htext) hends
      simpa using hword
    refine .of_spells_same hspells ?_ (h.behind rfl fun x => joined_of_isNamed ht rfl x)
    rw [sql_of_startsNumber (by simpa using hstarts), String.toList_ofList]

/-- A token that does not belong to what is in front of it. -/
theorem alone (h : Determined xs) (hx : x.Scanned) :
    Reads (x.sql.toList ++ (sqlAfter x xs).toList) (xs.length + 1)
      ((Ending.ofToken? x).any (·.settles xs)) := by
  by_cases hdot : x = symbol .dot
  · subst hdot
    exact h.dot
  by_cases hnumber : ∃ n, x = .number n
  · obtain ⟨n, rfl⟩ := hnumber
    exact h.number (m := []) hx rfl hx.starts
  have hne : ∀ n, x ≠ .number n := fun n hn => hnumber ⟨n, hn⟩
  have hrest : ReadsBehind x.reread (sqlAfter x xs).toList xs.length
      ((if x.opens then Ending.opening else Ending.closed).settles xs) := by
    cases hopens : x.opens with
    | true =>
      rw [reread_of_opens hopens]
      exact h.opening hopens
    | false =>
      refine h.behind (by rw [opens_reread, hopens]) fun y => ?_
      exact ((kept_reread x).joined_eq .same).symm
  have hreads := Reads.of_spells (hx.spells (precedes_sqlAfter_of_ne hdot hne))
    (length_sql_reread x) hrest
  have hsettled : (x.reread.sql.toList = x.sql.toList ∧
      (if x.opens then Ending.opening else Ending.closed).settles xs = true) ↔
        (Ending.ofToken? x).any (·.settles xs) = true := by
    rw [String.toList_inj, sql_reread_eq_iff, Ending.ofToken?_of_ne hne]
    cases x.isRecased <;> simp
  rwa [hsettled] at hreads

theorem opening_cons (h : Determined xs) (hx : x.Scanned) (ht : t.opens = true) :
    ReadsBehind t (sqlAfter t (x :: xs)).toList (xs.length + 1)
      (Ending.opening.settles (x :: xs)) := by
  rw [toList_sqlAfter_of_opens ht]
  exact .of_joined (h.alone hx) fun y _ _ => joined_of_opens ht y

theorem digits_cons (h : Determined xs) (hx : x.Scanned) (hm : m.all isNumberChar = true)
    (hstarts : startsNumber m = true) (k : String) :
    Reads (m ++ (sqlAfter (.number k) (x :: xs)).toList) (xs.length + 2)
      (Ending.digits.settles (x :: xs)) := by
  by_cases hdot : x = symbol .dot
  · subst hdot
    have hpoint := h.point (m := m ++ ['.']) (by simp [hm, isNumberChar])
      (startsNumber_append hstarts _)
    rw [toList_sqlAfter_dot]
    simpa using hpoint.mono (Nat.le_succ _)
  · have hrest : ∀ c ∈ (sqlAfter (.number k) (x :: xs)).toList.head?,
        isWordChar c = false ∧ c ≠ '.' := by
      rw [toList_sqlAfter]
      cases x with
      | symbol s =>
        cases s with
        | dot => exact absurd rfl hdot
        | _ =>
          rintro c ⟨⟩
          decide
      | _ =>
        rintro c ⟨⟩
        decide
    have hsettled : Ending.digits.settles (x :: xs) = (Ending.ofToken? x).any (·.settles xs) := by
      simp [Ending.settles, Ending.next?, hdot]
    rw [hsettled]
    exact .of_spells_same (spells_digits hm hstarts hrest) (by simp [sql])
      (.of_reads hx hdot (joined_number _ _ x) (h.alone hx))

theorem behind_cons (h : Determined xs) (hx : x.Scanned) (hu : u.opens = false)
    (hjoined : ∀ y, joined t y = joined u y) :
    ReadsBehind u (sqlAfter t (x :: xs)).toList (xs.length + 1)
      (Ending.closed.settles (x :: xs)) := by
  by_cases hdot : x = symbol .dot
  · subst hdot
    rw [toList_sqlAfter_dot]
    simpa using h.loose hu
  · have hsettled : Ending.closed.settles (x :: xs) = (Ending.ofToken? x).any (·.settles xs) := by
      simp [Ending.settles, Ending.next?, hdot]
    rw [hsettled]
    exact .of_reads hx hdot (hjoined x) (h.alone hx)

theorem power_cons (h : Determined xs) (hx : x.Scanned) (ht : t.isNamed = true) (k : String) :
    ReadsBehind (.number k) (sqlAfter t (x :: xs)).toList (xs.length + 1)
      (Ending.power.settles (x :: xs)) := by
  by_cases hdot : x = symbol .dot
  · subst hdot
    rw [toList_sqlAfter_dot]
    simpa using h.loose (u := .number k) rfl
  by_cases hparen : x = symbol .leftParen
  · subst hparen
    have hjoined : joined t (symbol .leftParen) = true := by
      cases t with
      | word _ | quoted _ => rfl
      | _ => cases ht
    rw [toList_sqlAfter, hjoined]
    exact .of_apart (h.alone hx) (by rintro ⟨⟩) (by rintro ⟨⟩)
      (fun y us hscan => hx.joined_first hdot hscan (.number k)) (by rintro ⟨⟩)
  · have hjoined : joined t x = joined (.number k) x := by
      cases t with
      | word _ | quoted _ =>
        cases x with
        | symbol s =>
          cases s with
          | leftParen => exact absurd rfl hparen
          | _ => rfl
        | _ => rfl
      | _ => cases ht
    have hsettled : Ending.power.settles (x :: xs) = (Ending.ofToken? x).any (·.settles xs) := by
      simp [Ending.settles, Ending.next?, hdot, hparen]
    rw [hsettled]
    exact .of_reads hx hdot hjoined (h.alone hx)

theorem dot_cons (h : Determined xs) (hx : x.Scanned) :
    Reads ('.' :: (sqlAfter (symbol .dot) (x :: xs)).toList) (xs.length + 2)
      (Ending.opening.settles (x :: xs)) := by
  have hopening := h.opening_cons hx (t := symbol .dot) rfl
  cases hdigit : startsWithDigit (sqlAfter (symbol .dot) (x :: xs)).toList with
  | false => exact .of_spells_same (spells_dot hdigit) rfl hopening
  | true =>
    rw [toList_sqlAfter_of_opens rfl] at hdigit ⊢
    refine Reads.mono ?_ (Nat.le_succ _)
    rw [hx.startsWithDigit_append] at hdigit
    rcases hx.starts_of_startsWithDigit hdigit with ⟨n, rfl⟩ | ⟨w, rfl, hfirst⟩
    · exact h.number (m := ['.']) hx rfl (by simpa [startsNumber] using hdigit)
    · have hword := h.name (t := .word w) (m := ['.']) rfl (wordText_sql hx) rfl
        (by simpa [startsNumber] using hdigit)
      rwa [ofWord_sql, ofWord_of_startsWithDigit hx hfirst, List.singleton_append] at hword

theorem loose_cons (h : Determined xs) (hx : x.Scanned) (hu : u.opens = false) :
    ReadsBehind u ('.' :: (sqlAfter (symbol .dot) (x :: xs)).toList) (xs.length + 2)
      (Ending.loose.settles (x :: xs)) := by
  have hdot := h.dot_cons hx
  have hsame := hx.startsWithDigit_append (sqlAfter x xs).toList
  rw [← toList_sqlAfter_of_opens (t := symbol .dot) rfl] at hsame
  cases hdigit : startsWithDigit x.sql.toList with
  | false =>
    have hsettled : Ending.loose.settles (x :: xs) = Ending.opening.settles (x :: xs) := by
      simp [Ending.settles, Ending.next?, hdigit]
    rw [hsettled]
    refine .of_joined hdot fun y us hscan => ?_
    obtain ⟨vs, -, heq⟩ := (spells_dot (hsame.trans hdigit)).rest_of_ok hscan
    rw [(List.cons.inj heq).1, joined_dot]
  | true =>
    refine .of_apart hdot (by simp) (by simp) (fun y us hscan => ?_)
      (by simp [Ending.settles, Ending.next?, hdigit])
    have hstarts : startsNumber ('.' :: (sqlAfter (symbol .dot) (x :: xs)).toList) = true := by
      simp [startsNumber, hsame, hdigit]
    obtain ⟨y', vs, heq, hy⟩ := exists_numeral_of_scan hstarts hscan
    rw [(List.cons.inj heq).1, joined_of_isNumeral hy, hu]

/-- A sign or a quote behind a number ends it, and gets a blank unless it is joined to it. -/
theorem sign (h : Determined xs) (hx : x.Scanned) (hdot : x ≠ symbol .dot)
    (hm : m.all isNumberChar = true) (hstarts : startsNumber m = true)
    (hhead : ∀ c ∈ (x.sql.toList ++ (sqlAfter x xs).toList).head?,
      isWordChar c = false ∧ c ≠ '.' ∧ c ≠ ' ') :
    Reads (m ++ (x.sql.toList ++ (sqlAfter x xs).toList)) (xs.length + 2)
      (joined (.number (String.ofList m)) x = true ∧ (Ending.ofToken? x).any (·.settles xs)) := by
  have hspells : Spells m [.number (String.ofList m)] (x.sql.toList ++ (sqlAfter x xs).toList) :=
    spells_digits hm hstarts fun c hc => ⟨(hhead c hc).1, (hhead c hc).2.1⟩
  refine .of_spells_same hspells (by simp [sql]) ?_
  cases hjoined : joined (.number (String.ofList m)) x with
  | true =>
    simp only [true_and]
    exact .of_joined (h.alone hx) fun y us hscan => (hx.joined_first hdot hscan _).trans hjoined
  | false =>
    refine .of_apart (h.alone hx) (fun hblank => (hhead _ hblank).2.2 rfl) ?_
      (fun y us hscan => (hx.joined_first hdot hscan _).trans hjoined) (by simp)
    simp [hx.sql_ne_nil]

theorem point_cons (h : Determined xs) (hx : x.Scanned) (hm : m.all isNumberChar = true)
    (hstarts : startsNumber m = true) :
    Reads (m ++ (sqlAfter (symbol .dot) (x :: xs)).toList) (xs.length + 2)
      (Ending.point.settles (x :: xs)) := by
  rw [toList_sqlAfter_of_opens rfl]
  cases x with
  | number n => exact (h.number hx hm (startsNumber_append hstarts _)).mono (Nat.le_succ _)
  | word w =>
    have hname := h.name rfl (wordText_sql hx) hm (startsNumber_append hstarts _)
    rw [ofWord_sql] at hname
    exact hname.mono (Nat.le_succ _)
  | quoted q =>
    cases hbare : isBareName q with
    | true =>
      have hsql : (quoted q).sql = q := if_pos hbare
      have hname := h.name (t := quoted q) rfl (by rw [hsql]; exact wordText_of_isBareName hbare) hm
        (startsNumber_append hstarts _)
      simp only [Ending.settles, Ending.next?, hbare]
      rw [hsql] at hname ⊢
      exact hname.mono (Nat.le_succ _)
    | false =>
      have hsign := h.sign hx (by simp) hm hstarts (by
        rw [sql, sqlName, hbare, if_neg Bool.false_ne_true, String.toList_ofList]
        rintro c ⟨⟩
        decide)
      simpa [Ending.settles, Ending.next?, hbare, joined] using hsign
  | str s =>
    have hsign := h.sign hx (by simp) hm hstarts (by
      simp only [sql, sqlString, String.toList_ofList]
      rintro c ⟨⟩
      decide)
    simpa [Ending.settles, Ending.next?, joined] using hsign
  | placeholder =>
    have hsign := h.sign hx (by simp) hm hstarts (by
      rintro c ⟨⟩
      decide)
    simpa [Ending.settles, Ending.next?, joined] using hsign
  | symbol s =>
    by_cases hdot : s = .dot
    · subst hdot
      have hpoint := h.point (m := m ++ ['.']) (by simp [hm, isNumberChar])
        (startsNumber_append hstarts _)
      rw [sql, show Symbol.dot.text.toList = ['.'] by decide]
      simpa using hpoint.mono (Nat.le_succ _)
    · have hsign := h.sign hx (by simpa using hdot) hm hstarts (by
        cases s with
        | dot => exact absurd rfl hdot
        | _ =>
          rintro c ⟨⟩
          decide)
      cases s with
      | dot => exact absurd rfl hdot
      | comma | rightParen | semicolon =>
        simpa [Ending.settles, Ending.next?, Ending.ofToken?, isRecased, opens, joined] using hsign
      | _ => simpa [Ending.settles, Ending.next?, joined] using hsign

theorem cons (h : Determined xs) (hx : x.Scanned) : Determined (x :: xs) where
  behind hu hjoined := h.behind_cons hx hu hjoined
  power ht := h.power_cons hx ht _
  opening ht := h.opening_cons hx ht
  dot := h.dot_cons hx
  loose hu := h.loose_cons hx hu
  digits hm hstarts := h.digits_cons hx hm hstarts _
  point hm hstarts := h.point_cons hx hm hstarts

end Determined

theorem determined (hts : ∀ t ∈ ts, t.Scanned) : Determined ts := by
  induction ts with
  | nil => exact determined_nil
  | cons t ts ih =>
    exact (ih fun u hu => hts u (List.mem_cons_of_mem t hu)).cons (hts t List.mem_cons_self)

/-- The text of any tokens of the lexer is read, as at most so many tokens. It is also the text of
these exactly if the tokens settle. -/
theorem reads_sqlList (hts : ∀ t ∈ ts, t.Scanned) :
    Reads (sqlList ts).toList ts.length (Ending.opening.settles ts) := by
  cases ts with
  | nil => exact ⟨[], by simp [sqlList, scan], by simp, by simp [sqlList, Ending.settles]⟩
  | cons t ts =>
    rw [sqlList, String.toList_append]
    have hrest : Determined ts := determined fun u hu => hts u (List.mem_cons_of_mem t hu)
    exact hrest.alone (hts t List.mem_cons_self)

/-- A dot in front of digits belongs to the number before it. Otherwise the digits get a blank. -/
example : Ending.opening.settles [.number "1", symbol .dot, .number "5"] = true ∧
    Ending.opening.settles [.word "t", symbol .dot, .number "5"] = false := by
  decide +kernel

end ShardedSql.Sql.Token
