import ShardedSql.Proofs.Sql.LeadingWord
import Mathlib.Data.List.Basic

namespace ShardedSql.Sql

open TokenParser (OpensWith)
open Text (isNameStart isWordChar)
open Token (WordText startsWithDigit)

/-- A name of a variable without its sign or its two signs. -/
def withoutSigns : List Char → List Char
  | '@' :: '@' :: cs => cs
  | '@' :: cs => cs
  | cs => cs

/-- The texts that the dots in the name of a variable are between. -/
def varParts (name : String) : List (List Char) := (withoutSigns name.toList).splitOn '.'

/-- Whether a text is made like a bare name, which may be reserved here. -/
def isNameText : List Char → Bool
  | [] => false
  | c :: cs => isNameStart c && cs.all isWordChar

/-- Words that are keywords where an expression, or a list of them, may stand as well. -/
def contextWords : List String := ["SELECT", "DISTINCT", "NOT"]

/-- Whether the lexer gives the token for some text. -/
def Token.IsGiven (t : Token) : Prop :=
  ∃ (text : String) (ts : List Token), Token.ofString? text = .ok ts ∧ t ∈ ts

theorem Token.IsGiven.scanned {t : Token} (h : t.IsGiven) : t.Scanned := by
  obtain ⟨text, ts, hts, ht⟩ := h
  exact Token.scanned_of_mem_scan hts t ht

namespace Expr

mutual

/-- An expression and all that it is made of. -/
def parts : Expr → List Expr
  | not e => not e :: e.parts
  | negate e => negate e :: e.parts
  | binary l op r => binary l op r :: (l.parts ++ r.parts)
  | inList e items n => inList e items n :: (e.parts ++ partsEach items)
  | between e low high n => between e low high n :: (e.parts ++ low.parts ++ high.parts)
  | isNull e n => isNull e n :: e.parts
  | like e p n => like e p n :: (e.parts ++ p.parts)
  | call f args d => call f args d :: partsEach args
  | paren e => paren e :: e.parts
  | e => [e]

def partsEach : List Expr → List Expr
  | [] => []
  | e :: es => e.parts ++ partsEach es

end

theorem partsEach_eq_flatMap (es : List Expr) : partsEach es = es.flatMap parts := by
  induction es with
  | nil => rfl
  | cons e es ih => rw [partsEach, List.flatMap_cons, ih]

theorem mem_parts_self (e : Expr) : e ∈ e.parts := by
  cases e <;> simp [parts]

/-- Whether the head of an expression is told by its text: no sign is in front of a sign, a variable
is made of bare names, and a function is not called like a keyword that may stand in its place. -/
def isClearHead : Expr → Bool
  | negate (negate _) => false
  | var name => (varParts name).all isNameText
  | call f _ _ => !contextWords.contains (Text.upper f)
  | _ => true

/-- Whether the text of an expression tells all of it. -/
def Clear (e : Expr) : Prop := ∀ x ∈ e.parts, x.isClearHead = true

instance (e : Expr) : Decidable e.Clear := inferInstanceAs (Decidable (∀ x ∈ e.parts, _))

theorem Clear.mono {e e' : Expr} (h : e.Clear) (hparts : ∀ x ∈ e'.parts, x ∈ e.parts) :
    e'.Clear := fun x hx => h x (hparts x hx)

theorem Clear.head {e : Expr} (h : e.Clear) : e.isClearHead = true := h e e.mem_parts_self

theorem Clear.each {e : Expr} {es : List Expr} (h : e.Clear)
    (hparts : ∀ x ∈ partsEach es, x ∈ e.parts) : ∀ e' ∈ es, e'.Clear := by
  intro e' he'
  refine h.mono fun x hx => hparts x ?_
  rw [partsEach_eq_flatMap]
  exact List.mem_flatMap.mpr ⟨e', he', hx⟩

end Expr

theorem wordText_of_isNameText {cs : List Char} (h : isNameText cs = true) :
    WordText cs ∧ startsWithDigit cs = false := by
  cases cs with
  | nil => cases h
  | cons c cs =>
    simp only [isNameText, Bool.and_eq_true] at h
    have hdigit := Token.isDigit_of_isNameStart h.1
    exact ⟨.plain (Text.isWordChar_of_isNameStart h.1) hdigit (List.all_eq_true.mp h.2), hdigit⟩

/-- Bare names with dots between them read as words and dots. -/
theorem bareParts_intercalate {ps : List (List Char)} (hne : ps ≠ [])
    (hps : ∀ p ∈ ps, isNameText p = true) :
    (∃ us, BareParts (['.'].intercalate ps) us) ∧
      startsWithDigit (['.'].intercalate ps) = false := by
  induction ps with
  | nil => exact absurd rfl hne
  | cons p ps ih =>
    obtain ⟨hword, hdigit⟩ := wordText_of_isNameText (hps p (by simp))
    have hparts : WordText (String.ofList p).toList := by simpa using hword
    cases ps with
    | nil =>
      have hsingle := BareParts.single hparts
      rw [String.toList_ofList] at hsingle
      rw [List.intercalate_singleton]
      exact ⟨⟨_, hsingle⟩, hdigit⟩
    | cons q ps =>
      obtain ⟨⟨us, hus⟩, htail⟩ := ih (by simp) fun q hq => hps q (by simp [hq])
      have hdotted := BareParts.dotted hparts hus htail
      rw [String.toList_ofList] at hdotted
      rw [List.intercalate_cons_cons, List.append_assoc]
      refine ⟨⟨_, hdotted⟩, ?_⟩
      rw [startsWithDigit_append_of_ne_nil (WordText.ne_nil hword)]
      exact hdigit

theorem readableVar_of_varParts {n : String} (hat : n.toList.head? = some '@')
    (hparts : ∀ p ∈ varParts n, isNameText p = true) : ReadableVar n := by
  obtain ⟨⟨us, hus⟩, -⟩ := bareParts_intercalate (List.splitOn_ne_nil _ _) hparts
  rw [List.intercalate_splitOn] at hus
  refine ⟨_, us, hus, ?_⟩
  obtain ⟨cs, hcs⟩ := List.head?_eq_some_iff.mp hat
  rw [hcs]
  cases cs with
  | nil => exact .inl rfl
  | cons c cs =>
    by_cases hc : c = '@'
    · subst hc
      exact .inr rfl
    · left
      simp [withoutSigns, hc]

/-- Whether a text starts with something else than a minus. -/
def OpensUnsigned (cs : List Char) : Prop := ∃ c ds, cs = c :: ds ∧ c ≠ '-'

theorem OpensUnsigned.append {cs : List Char} (h : OpensUnsigned cs) (ds : List Char) :
    OpensUnsigned (cs ++ ds) := by
  obtain ⟨c, es, rfl, hc⟩ := h
  exact ⟨c, es ++ ds, rfl, hc⟩

theorem OpensUnsigned.head_ne {cs : List Char} (h : OpensUnsigned cs) : cs.head? ≠ some '-' := by
  obtain ⟨c, ds, rfl, hc⟩ := h
  simpa using hc

theorem opensUnsigned_of_startsNumber {cs : List Char} (h : Token.startsNumber cs = true) :
    OpensUnsigned cs := by
  cases cs with
  | nil => cases h
  | cons c cs =>
    refine ⟨c, cs, rfl, ?_⟩
    rintro rfl
    cases h

theorem opensUnsigned_of_wordText {cs : List Char} (h : WordText cs) : OpensUnsigned cs := by
  cases h with
  | @plain c cs hc => exact ⟨c, cs, rfl, Token.ne_of_isWordChar hc (by decide)⟩
  | numeric hstarts => exact opensUnsigned_of_startsNumber hstarts

theorem opensUnsigned_sqlName (n : String) : OpensUnsigned (sqlName n).toList := by
  unfold sqlName
  split
  · next h => exact opensUnsigned_of_wordText (Token.wordText_of_isBareName h)
  · rw [String.toList_ofList]
    exact ⟨Token.backquote, _, rfl, by decide⟩

theorem opensUnsigned_literal {l : Literal} (h : (Expr.literal l).Lexed) :
    OpensUnsigned l.sql.toList := by
  cases h with
  | null => exact ⟨'N', _, rfl, by decide⟩
  | boolean b => cases b <;> exact ⟨_, _, rfl, by decide⟩
  | integer hi => exact opensUnsigned_of_startsNumber (numberText_decimal hi).starts
  | number hn => exact opensUnsigned_of_startsNumber hn.starts
  | text s =>
    rw [Literal.sql, sqlString, String.toList_ofList]
    exact ⟨'\x27', _, rfl, by decide⟩

theorem opensUnsigned_call {f : String} {args : List Expr} {d : Bool}
    (h : (Expr.call f args d).Lexed) : OpensUnsigned (Expr.call f args d).sql.toList := by
  cases h with
  | call hf =>
  simp only [Expr.sql, String.toList_append, List.append_assoc]
  exact (opensUnsigned_of_wordText hf.upper).append _

theorem exists_ofNumber (n : String) : ∃ l, Expr.ofNumber n = .literal l := by
  unfold Expr.ofNumber
  split <;> exact ⟨_, rfl⟩

/-- An expression that binds as closely as a sign has a minus in front only as its sign. -/
theorem Derives.opensUnsigned {k : Nat} {r : Rank} {e : Expr} {u : List Token}
    (h : Derives k r e u) (hr : Rank.signed.level ≤ r.level) (hl : e.Lexed)
    (hsign : ∀ x, e ≠ .negate x) : OpensUnsigned e.sql.toList := by
  induction h with
  | column => exact opensUnsigned_sqlName _
  | qualified =>
    simp only [Expr.sql, ColumnName.sql, sqlQualified, String.toList_append, List.append_assoc]
    exact (opensUnsigned_sqlName _).append _
  | word | text => exact opensUnsigned_literal hl
  | @number k n e he =>
    obtain ⟨l, rfl⟩ : ∃ l, e = .literal l := he ▸ exists_ofNumber n
    exact opensUnsigned_literal hl
  | placeholder => exact ⟨'?', _, rfl, by decide⟩
  | var hn =>
    obtain ⟨cs, hcs⟩ := List.head?_eq_some_iff.mp hn.head
    exact ⟨'@', cs, hcs, by decide⟩
  | callStar | callNone | call => exact opensUnsigned_call hl
  | paren =>
    simp only [Expr.sql, String.toList_append, List.append_assoc]
    exact ⟨'(', _, rfl, by decide⟩
  | negate => exact absurd rfl (hsign _)
  | plus _ ih => exact ih hr hl hsign
  | @chain k r _ _ _ _ _ _ _ _ ht =>
    cases r with
    | signed | primary => cases ht
    | _ => exact absurd hr (by decide)
  | comparison | isNull | inList | between | like | not => exact absurd hr (by decide)
  | tighter hs _ _ ih =>
    have hlevel := Rank.level_above hs
    exact ih (by omega) hl hsign

/-- What is known of an expression of a layer whose text is read again. -/
structure Expr.Leads (r : Rank) (e : Expr) : Prop where
  readable : e.Readable
  nonempty : e.tokens ≠ []
  leading : ∀ kw ∈ contextWords, OpensWith kw e.tokens →
    kw = "NOT" ∧ r.level ≤ 3 ∧ e.IsCondition

theorem reserved_of_mem_contextWords :
    ∀ kw ∈ contextWords, reservedWords.contains kw = true := by decide

theorem isKeyword_literal (l : Literal) :
    ∀ kw ∈ contextWords, l.token.isKeyword kw = false := by
  cases l with
  | null => decide
  | boolean b => cases b <;> decide
  | integer | number | text => exact fun _ _ => rfl

namespace Expr.Leads

variable {r s : Rank} {e : Expr}

theorem standsAlone (h : e.Leads r) : e.StandsAlone := by
  by_cases hnot : OpensWith "NOT" e.tokens
  · exact .inl (h.leading "NOT" (by decide) hnot).2.2
  · exact .inr hnot

theorem not_opensWith (h : e.Leads r) {kw : String} (hkw : kw ∈ contextWords) (hne : kw ≠ "NOT") :
    ¬OpensWith kw e.tokens :=
  fun hopens => hne (h.leading kw hkw hopens).1

/-- An expression that starts with a token of its own. -/
theorem of_head {t : Token} {us : List Token} (hr : e.Readable) (htokens : e.tokens = t :: us)
    (ht : ∀ kw ∈ contextWords, t.isKeyword kw = false) : e.Leads r where
  readable := hr
  nonempty := by simp [htokens]
  leading kw hkw hopens := by
    rw [htokens, TokenParser.opensWith_cons, ht kw hkw] at hopens
    cases hopens

/-- An expression that starts with its left operand. -/
theorem of_left {l : Expr} (h : l.Leads s) (hr : e.Readable) (htokens : l.tokens <+: e.tokens)
    (hcond : s.level ≤ 3 → r.level ≤ 3 ∧ e.IsCondition) : e.Leads r := by
  obtain ⟨us, hus⟩ := htokens
  refine ⟨hr, ?_, fun kw hkw hopens => ?_⟩
  · simp [← hus, h.nonempty]
  · rw [← hus, TokenParser.opensWith_append h.nonempty] at hopens
    obtain ⟨hnot, hs, -⟩ := h.leading kw hkw hopens
    exact ⟨hnot, hcond hs⟩

theorem literal (l : Literal) : (Expr.literal l).Leads r :=
  of_head trivial rfl (isKeyword_literal l)

theorem name (q : Option String) (n : String) : (Expr.column ⟨q, n⟩).Leads r := by
  have hname : ∃ m us, nameTokens q n = .ofName m :: us := by
    cases q <;> exact ⟨_, _, rfl⟩
  obtain ⟨m, us, hus⟩ := hname
  refine of_head trivial hus fun kw hkw => ?_
  exact isKeyword_of_name? (Token.name?_ofName m) (reserved_of_mem_contextWords kw hkw)

theorem call {f : String} {args : List Expr} {d : Bool} (hc : (Expr.call f args d).Clear)
    (hr : (Expr.call f args d).Readable) : (Expr.call f args d).Leads r := by
  have hf : Text.upper f ∉ contextWords := by simpa [isClearHead] using hc.head
  refine of_head hr rfl fun kw hkw => ?_
  have hne : Text.upper f ≠ kw := by
    rintro rfl
    exact hf hkw
  simpa [Token.isKeyword, upper_upper] using hne

theorem each {es : List Expr} (h : ∀ e ∈ es, e.Leads r) : ReadableEach es :=
  (readableEach_iff es).mpr fun e he => ⟨(h e he).readable, (h e he).standsAlone⟩

theorem not_opensWith_each {es : List Expr} (h : ∀ e ∈ es, e.Leads r) {kw : String}
    (hkw : kw ∈ contextWords) (hne : kw ≠ "NOT") :
    ¬OpensWith kw (commaTokens (tokensEach es)) := by
  cases es with
  | nil => exact TokenParser.not_opensWith_nil kw
  | cons e es =>
    have he := h e (by simp)
    rw [tokensEach, commaTokens_cons, TokenParser.opensWith_append he.nonempty]
    exact he.not_opensWith hkw hne

end Expr.Leads

/-- A clear expression is read again: the words that could be taken for keywords stand nowhere in
front. -/
theorem Derives.leads {k : Nat} {r : Rank} {e : Expr} {u : List Token} (h : Derives k r e u)
    (hl : e.Lexed) (hc : e.Clear) : e.Leads r := by
  induction h with
  | column => exact .name none _
  | qualified => exact .name (some _) _
  | word | text => exact .literal _
  | @number k n e he =>
    obtain ⟨l, rfl⟩ : ∃ l, e = .literal l := he ▸ exists_ofNumber n
    exact .literal l
  | placeholder => exact .of_head trivial rfl fun _ _ => rfl
  | @var k n us hn =>
    have hread : ReadableVar n :=
      readableVar_of_varParts hn.head (List.all_eq_true.mp hc.head)
    obtain ⟨vs, hvs, -⟩ := hread.varTokens
    exact .of_head hread hvs fun _ _ => rfl
  | @callStar k w d us hw hd =>
    have hstar : ∀ e ∈ [Expr.star], e.Leads .disjunction := by
      simp only [List.mem_singleton, forall_eq]
      exact .of_head trivial rfl fun _ _ => rfl
    exact .call hc
      ⟨Expr.Leads.each hstar, fun _ => Expr.Leads.not_opensWith_each hstar (by decide) (by decide)⟩
  | @callNone k w d us hw hd =>
    exact .call hc
      ⟨trivial, fun _ => TokenParser.not_opensWith_nil _⟩
  | @call k w d us ps hw hd hne hps hpos ih =>
    cases hl with
    | call hf hargs =>
    have hclear : ∀ e ∈ ps.map (·.1), e.Clear := hc.each fun x hx => by simp [Expr.parts, hx]
    have hall : ∀ e ∈ ps.map (·.1), e.Leads .disjunction := List.forall_mem_map.mpr fun p hp =>
      ih p hp (hargs _ (List.mem_map_of_mem hp)) (hclear _ (List.mem_map_of_mem hp))
    exact .call hc
      ⟨Expr.Leads.each hall, fun _ => Expr.Leads.not_opensWith_each hall (by decide) (by decide)⟩
  | @paren k e u h hpos ih =>
    cases hl with
    | paren hl =>
    have he := ih hl (hc.mono fun x hx => by simp [Expr.parts, hx])
    exact .of_head ⟨he.readable, he.standsAlone, he.not_opensWith (by decide) (by decide)⟩ rfl
      fun _ _ => rfl
  | @negate k e u h ih =>
    cases hl with
    | negate hl =>
    have he := ih hl (hc.mono fun x hx => by simp [Expr.parts, hx])
    have hsign : ∀ x, e ≠ .negate x := by
      rintro x rfl
      cases hc.head
    exact .of_head ⟨he.readable, (h.opensUnsigned (Nat.le_refl _) hl hsign).head_ne⟩ rfl
      fun _ _ => rfl
  | plus _ ih => exact ih hl hc
  | @chain k r s l e op t u v hs ht _ _ ihl ihe =>
    cases hl with
    | binary hleft hright =>
    have hl := ihl hleft (hc.mono fun x hx => by simp [Expr.parts, hx])
    have he := ihe hright (hc.mono fun x hx => by simp [Expr.parts, hx])
    refine .of_left hl ⟨hl.readable, he.readable, fun _ => ⟨hl.standsAlone, he.standsAlone⟩⟩
      (List.prefix_append ..) ?_
    intro hr
    exact ⟨hr, (chainOp_token ht).2.mp hr⟩
  | comparison ht _ _ ihl ihe =>
    cases hl with
    | binary hleft hright =>
    have hl := ihl hleft (hc.mono fun x hx => by simp [Expr.parts, hx])
    have he := ihe hright (hc.mono fun x hx => by simp [Expr.parts, hx])
    exact .of_left hl ⟨hl.readable, he.readable, fun _ => ⟨hl.standsAlone, he.standsAlone⟩⟩
      (List.prefix_append ..) fun hr => absurd hr (by decide)
  | isNull _ _ _ _ ih =>
    cases hl with
    | isNull hl =>
    have he := ih hl (hc.mono fun x hx => by simp [Expr.parts, hx])
    refine .of_left he he.readable ?_ fun hr => absurd hr (by decide)
    simp only [Expr.tokens, List.append_assoc]
    exact List.prefix_append _ _
  | @inList k e n t u us ps ht hn hne h hps hpos ih ihps =>
    cases hl with
    | inList hl hitems =>
    have he := ih hl (hc.mono fun x hx => by simp [Expr.parts, hx])
    have hclear : ∀ e ∈ ps.map (·.1), e.Clear := hc.each fun x hx => by simp [Expr.parts, hx]
    have hall : ∀ e ∈ ps.map (·.1), e.Leads .disjunction := List.forall_mem_map.mpr fun p hp =>
      ihps p hp (hitems _ (List.mem_map_of_mem hp)) (hclear _ (List.mem_map_of_mem hp))
    refine .of_left he ⟨he.readable, Expr.Leads.each hall,
      Expr.Leads.not_opensWith_each hall (by decide) (by decide)⟩ ?_ fun hr => absurd hr (by decide)
    simp only [Expr.tokens, List.append_assoc]
    exact List.prefix_append _ _
  | between _ _ _ _ _ _ ih ihlow ihhigh =>
    cases hl with
    | between hl hlow hhigh =>
    have he := ih hl (hc.mono fun x hx => by simp [Expr.parts, hx])
    have hlow := ihlow hlow (hc.mono fun x hx => by simp [Expr.parts, hx])
    have hhigh := ihhigh hhigh (hc.mono fun x hx => by simp [Expr.parts, hx])
    refine .of_left he ⟨he.readable, hlow.readable, hhigh.readable⟩ ?_
      fun hr => absurd hr (by decide)
    simp only [Expr.tokens, List.append_assoc]
    exact List.prefix_append _ _
  | like _ _ _ _ ih ihp =>
    cases hl with
    | like hl hp =>
    have he := ih hl (hc.mono fun x hx => by simp [Expr.parts, hx])
    have hp := ihp hp (hc.mono fun x hx => by simp [Expr.parts, hx])
    refine .of_left he ⟨he.readable, hp.readable⟩ ?_ fun hr => absurd hr (by decide)
    simp only [Expr.tokens, List.append_assoc]
    exact List.prefix_append _ _
  | @not k e t u ht h ih =>
    cases hl with
    | not hl =>
    have he := ih hl (hc.mono fun x hx => by simp [Expr.parts, hx])
    refine ⟨⟨he.readable, he.standsAlone⟩, by simp [Expr.tokens], fun kw hkw hopens => ?_⟩
    have hword : (Token.word "NOT").isKeyword kw = true := by simpa [Expr.tokens] using hopens
    have hkw : Text.upper "NOT" = kw := by simpa [Token.isKeyword] using hword
    exact ⟨hkw.symm.trans (by decide), by decide, trivial⟩
  | @tighter k r s e u hs h hpos ih =>
    have hlevel := Rank.level_above hs
    have he := ih hl hc
    refine ⟨he.readable, he.nonempty, fun kw hkw hopens => ?_⟩
    obtain ⟨hnot, hs, hcond⟩ := he.leading kw hkw hopens
    exact ⟨hnot, by omega, hcond⟩

/-- The text of a clear expression that was read is read as that expression again, up to the
capitals of function names: nothing binds in another way. -/
theorem expr_reread (levels : Nat) (ts rest : List Token) (e : Expr) (hts : ∀ t ∈ ts, t.IsGiven)
    (hparse : (Expr.parse levels).run ts = .ok (e, rest)) (hclear : e.Clear) :
    ∃ us, Token.ofString? e.sql = .ok us ∧ (Expr.parse levels).run us = .ok (e.normal, []) := by
  cases levels with
  | zero => cases hparse
  | succ k =>
    obtain ⟨u, rfl, hu⟩ := sound_parse k hparse
    have hscanned : ∀ t ∈ u, t.Scanned := fun t ht => (hts t (by simp [ht])).scanned
    have hwritten : e.Written k := .of_derives hu hscanned
    have hleads := hu.leads hwritten.lexed hclear
    have hderives := hwritten.derives ⟨hleads.readable, hleads.standsAlone⟩
    have hspells := hwritten.lexed.spells hleads.readable Follows.nil
    have hscan := hspells.ok (show Token.scan [] = .ok [] by rw [Token.scan])
    rw [List.append_nil, List.append_nil] at hscan
    refine ⟨e.tokens, hscan, ?_⟩
    have hrun := hderives.run_parse (show Stops .disjunction [] by simp)
    rwa [List.append_nil] at hrun

def notInTokens : List Token :=
  [.word "not", .word "a", .symbol .minus, .symbol .minus, .word "b", .word "in",
    .symbol .leftParen, .number "1", .symbol .comma, .word "max", .symbol .leftParen,
    .word "distinct", .word "c", .symbol .rightParen, .symbol .rightParen, .word "and",
    .symbol .atSign, .word "s", .symbol .dot, .word "t", .word "limit", .number "1"]

/-- `NOT a - -b IN (1, max(DISTINCT c)) AND @s.t`. -/
def notIn : Expr :=
  .binary
    (.not (.inList (.binary (.column ⟨none, "a"⟩) .minus (.negate (.column ⟨none, "b"⟩)))
      [.literal (.integer 1), .call "max" [.column ⟨none, "c"⟩] true] false))
    .and (.var "@s.t")

theorem notIn_reread :
    (Expr.parse 4).run notInTokens = .ok (notIn, [.word "limit", .number "1"]) ∧
    notIn.sql = "NOT a - -b IN (1, MAX(DISTINCT c)) AND @s.t" ∧
    ∃ us, Token.ofString? notIn.sql = .ok us ∧ (Expr.parse 4).run us = .ok (notIn.normal, []) := by
  have hscan : Token.ofString? "not a - -b in (1, max(distinct c)) and @s.t limit 1" =
      .ok notInTokens := by decide +kernel
  have hparse : (Expr.parse 4).run notInTokens = .ok (notIn, [.word "limit", .number "1"]) := by
    decide +kernel
  refine ⟨hparse, rfl, ?_⟩
  exact expr_reread 4 notInTokens _ notIn (fun t ht => ⟨_, _, hscan, ht⟩) hparse (by decide +kernel)

end ShardedSql.Sql
