import ShardedSql.Proofs.Sql.Rederived
import ShardedSql.Proofs.Sql.Spelled

namespace ShardedSql.Sql

open Text (isBlank isWordChar)
open Token (EndsWord NumberText WordText backquote isPlainWord scan)
open TokenParser (OpensWith)

/-- How things of a kind are printed: their texts and tokens, the form that they are read back in,
what is known of those that are printed, and when they are readable. -/
structure Phrase (α : Type) where
  sql : α → String
  tokens : α → List Token
  normal : α → α
  Fit : α → Prop
  Readable : α → Prop

/-- Whether a thing that is read from tokens stands for each thing that is printed with them: where
the text of one reads as these tokens, they are its own, what makes it readable holds, and what
follows the text is read behind them. -/
def Phrase.Echo {α : Type} (F : Phrase α) (Before : List Char → Prop) (x : α) (u : List Token) :
    Prop :=
  ∀ ⦃y : α⦄ ⦃rest : List Char⦄ ⦃a : List Token⦄, F.Fit y → F.normal y = x → Before rest →
    Tame ((F.sql y).toList ++ rest) → scan ((F.sql y).toList ++ rest) = .ok (u ++ a) →
    F.Readable y ∧ u = F.tokens y ∧ scan rest = .ok a

theorem Phrase.Echo.list {α : Type} {F : Phrase α} {Before : List Char → Prop}
    (hcomma : ∀ cs, Before (',' :: cs)) {ps : List (α × List Token)}
    (h : ∀ p ∈ ps, F.Echo Before p.1 p.2) {ys : List α} (hfit : ∀ y ∈ ys, F.Fit y)
    (hys : ys.map F.normal = ps.map (·.1)) {rest : List Char} {a : List Token}
    (hrest : Before rest) (htame : Tame ((commaSeparated (ys.map F.sql)).toList ++ rest))
    (hscan : scan ((commaSeparated (ys.map F.sql)).toList ++ rest) =
      .ok (commaTokens (ps.map (·.2)) ++ a)) :
    (∀ y ∈ ys, F.Readable y) ∧ ps.map (·.2) = ys.map F.tokens ∧ scan rest = .ok a := by
  induction ys generalizing ps with
  | nil =>
    obtain rfl : ps = [] := by simpa using hys.symm
    exact ⟨nofun, rfl, by simpa [commaSeparated, commaTokens] using hscan⟩
  | cons y ys ih =>
    cases ps with
    | nil => cases hys
    | cons p ps =>
      rw [List.map_cons, List.map_cons, List.cons.injEq] at hys
      have hp := h p (by simp)
      cases ys with
      | nil =>
        obtain rfl : ps = [] := by simpa using hys.2.symm
        obtain ⟨hread, hu, hafter⟩ := hp (hfit y (by simp)) hys.1 hrest
          (by simpa [commaSeparated, String.toList_intercalate] using htame)
          (by simpa [commaSeparated, commaTokens, String.toList_intercalate] using hscan)
        exact ⟨by simpa using hread, by simpa using hu, hafter⟩
      | cons z zs =>
        cases ps with
        | nil => exact absurd hys.2 (by simp)
        | cons q qs =>
          have htext : (commaSeparated ((y :: z :: zs).map F.sql)).toList ++ rest =
              (F.sql y).toList ++ ([',', ' '] ++
                ((commaSeparated ((z :: zs).map F.sql)).toList ++ rest)) := by
            simp [commaSeparated, String.toList_intercalate]
          rw [htext] at hscan htame
          have hsplit : commaTokens ((p :: q :: qs).map (·.2)) ++ a =
              p.2 ++ ([.symbol .comma] ++ (commaTokens ((q :: qs).map (·.2)) ++ a)) := by
            simp [commaTokens]
          rw [hsplit] at hscan
          obtain ⟨hread, hu, hafter⟩ := hp (hfit y (by simp)) hys.1 (hcomma _) htame hscan
          obtain ⟨ws, hws, hcomma⟩ := Spells.comma_space.rest_of_ok hafter
          have hws' := List.append_cancel_left hcomma
          subst hws'
          have htame' : Tame ((commaSeparated ((z :: zs).map F.sql)).toList ++ rest) :=
            htame.of_append.of_append
          obtain ⟨hreads, hus, hend⟩ := ih (fun p hp => h p (by simp [hp]))
            (fun y hy => hfit y (by simp [hy])) hys.2 htame' hws
          refine ⟨?_, ?_, hend⟩
          · rintro x (_ | ⟨_, hx⟩)
            · exact hread
            · exact hreads x hx
          · show p.2 :: (q :: qs).map (·.2) = F.tokens y :: (z :: zs).map F.tokens
            rw [hu, hus]

theorem Flag.eq_of_append {kw : String} {b : Bool} {us xs ys : List Token} (h : Flag kw b us)
    (heq : us ++ xs = flagTokens b kw ++ ys) : us = flagTokens b kw ∧ xs = ys := by
  cases h with
  | on =>
    cases heq
    exact ⟨rfl, rfl⟩
  | off => exact ⟨rfl, heq⟩

theorem Token.first_eq_symbol {c : Char} {cs rest : List Char} {s : Symbol}
    (h : first c cs = .ok (some (symbol s), rest)) : c :: cs = s.text.toList ++ rest := by
  cases front_of_first h with
  | number _ hfound =>
    rcases numberOrWord_cases hfound with ⟨w, hw⟩ | ⟨n, hn⟩
    · cases hw
    · cases hn
  | symbol hfront => exact Symbol.atFront?_eq hfront

/-- Whether a text starts with a character that is neither a blank nor a plus. -/
def OpensPlain (cs : List Char) : Prop := ∃ c ds, cs = c :: ds ∧ isBlank c = false ∧ c ≠ '+'

theorem OpensPlain.append {cs : List Char} (h : OpensPlain cs) (ds : List Char) :
    OpensPlain (cs ++ ds) := by
  obtain ⟨c, cs, rfl, hblank, hplus⟩ := h
  exact ⟨c, cs ++ ds, rfl, hblank, hplus⟩

theorem OpensPlain.scan_ne_plus {cs : List Char} (h : OpensPlain cs) (htame : Tame cs)
    (ts : List Token) : scan cs ≠ .ok (.symbol .plus :: ts) := by
  obtain ⟨c, cs, rfl, hblank, hplus⟩ := h
  intro hscan
  rw [scan] at hscan
  split at hscan
  · cases hscan
  · next found rest hfirst =>
    split at hscan
    · cases hscan
    · next ws hrest =>
      cases found with
      | none =>
        rcases Token.first_eq_none htame hfirst with ⟨hblank', -⟩ | rfl
        · rw [hblank] at hblank'
          cases hblank'
        · rw [scan] at hrest
          cases hrest
          cases hscan
      | some t =>
        cases hscan
        exact hplus (List.cons.inj (Token.first_eq_symbol hfirst)).1

theorem opensPlain_of_startsNumber {cs : List Char} (h : Token.startsNumber cs = true) :
    OpensPlain cs := by
  cases cs with
  | nil => cases h
  | cons c cs =>
    simp only [Token.startsNumber, Bool.or_eq_true, Bool.and_eq_true, beq_iff_eq] at h
    rcases h with hc | ⟨rfl, -⟩
    · have hword := Text.isWordChar_of_isDigit hc
      exact ⟨c, cs, rfl, Text.isBlank_of_isWordChar hword, Token.ne_of_isWordChar hword (by decide)⟩
    · exact ⟨'.', cs, rfl, by decide, by decide⟩

theorem opensPlain_of_wordText {cs : List Char} (h : WordText cs) : OpensPlain cs := by
  cases h with
  | @plain c cs hc =>
    exact ⟨c, cs, rfl, Text.isBlank_of_isWordChar hc, Token.ne_of_isWordChar hc (by decide)⟩
  | numeric hstarts => exact opensPlain_of_startsNumber hstarts

theorem opensPlain_sqlName (n : String) : OpensPlain (sqlName n).toList := by
  unfold sqlName
  split
  · next h => exact opensPlain_of_wordText (Token.wordText_of_isBareName h)
  · rw [String.toList_ofList]
    exact ⟨backquote, _, rfl, by decide, by decide⟩

theorem opensPlain_sqlQualified (q : Option String) (n : String) :
    OpensPlain (sqlQualified q n).toList := by
  cases q with
  | none => exact opensPlain_sqlName n
  | some q =>
    simp only [sqlQualified, String.toList_append, List.append_assoc]
    exact (opensPlain_sqlName q).append _

/-- No expression is printed with a plus in front. -/
theorem Expr.Lexed.opensPlain {e : Expr} (h : e.Lexed) : OpensPlain e.sql.toList := by
  induction h with
  | column c => exact opensPlain_sqlQualified c.table c.name
  | null => exact ⟨'N', _, rfl, by decide, by decide⟩
  | boolean b => cases b <;> exact ⟨_, _, rfl, by decide, by decide⟩
  | integer hi => exact opensPlain_of_startsNumber (numberText_decimal hi).starts
  | number hn => exact opensPlain_of_startsNumber hn.starts
  | text s =>
    simp only [Expr.sql, Literal.sql, sqlString, String.toList_ofList]
    exact ⟨'\x27', _, rfl, by decide, by decide⟩
  | placeholder => exact ⟨'?', _, rfl, by decide, by decide⟩
  | var h =>
    obtain ⟨cs, hcs⟩ := List.head?_eq_some_iff.mp h
    exact ⟨'@', cs, hcs, by decide, by decide⟩
  | star => exact ⟨'*', _, rfl, by decide, by decide⟩
  | not => simp only [Expr.sql, String.toList_append]; exact ⟨'N', _, rfl, by decide, by decide⟩
  | negate => simp only [Expr.sql, String.toList_append]; exact ⟨'-', _, rfl, by decide, by decide⟩
  | paren =>
    simp only [Expr.sql, String.toList_append, List.append_assoc]
    exact ⟨'(', _, rfl, by decide, by decide⟩
  | binary _ _ ih | inList _ _ ih | between _ _ _ ih | isNull _ ih | like _ _ ih =>
    simp only [Expr.sql, String.toList_append, List.append_assoc]
    exact ih.append _
  | call hf =>
    simp only [Expr.sql, String.toList_append, List.append_assoc]
    exact (opensPlain_of_wordText hf.upper).append _

/-- Expressions of scanned words and numbers. -/
def lexedPhrase : Phrase Expr where
  sql := Expr.sql
  tokens := Expr.tokens
  normal := Expr.normal
  Fit := Expr.Lexed
  Readable e := e.Readable ∧ e.StandsAlone

/-- Whether an expression of a layer stands, with the tokens it was read from, for each expression
that is printed as it: the tokens are those of the printed one, and that is readable. -/
def Echoes (r : Rank) (x : Expr) (v : List Token) : Prop :=
  ∀ ⦃e : Expr⦄ ⦃rest : List Char⦄ ⦃a : List Token⦄, e.Lexed → e.normal = x → Follows rest →
    Tame (e.sql.toList ++ rest) → scan (e.sql.toList ++ rest) = .ok (v ++ a) →
    (e.Readable ∧ (r.level ≤ 3 → e.StandsAlone)) ∧ v = e.tokens ∧ scan rest = .ok a

namespace Echoes

variable {r s : Rank} {x y : Expr} {t : Token} {u v us : List Token} {ps : List (Expr × List Token)}

/-- An expression that binds tighter than the conditions need not stand alone. -/
theorem of_level (hr : 3 < r.level)
    (h : ∀ ⦃e : Expr⦄ ⦃rest : List Char⦄ ⦃a : List Token⦄, e.Lexed → e.normal = x → Follows rest →
      Tame (e.sql.toList ++ rest) → scan (e.sql.toList ++ rest) = .ok (v ++ a) →
      e.Readable ∧ v = e.tokens ∧ scan rest = .ok a) : Echoes r x v := by
  intro e rest a hl he hrest htame hscan
  obtain ⟨hread, hv, hafter⟩ := h hl he hrest htame hscan
  exact ⟨⟨hread, fun hcondition => absurd hcondition (by omega)⟩, hv, hafter⟩

theorem phrase (h : Echoes .disjunction x v) : lexedPhrase.Echo Follows x v := by
  intro e rest a hl he hrest htame hscan
  obtain ⟨⟨hread, halone⟩, hv, hafter⟩ := h hl he hrest htame hscan
  exact ⟨⟨hread, halone (by decide)⟩, hv, hafter⟩

theorem name {q : Option String} {n : String} (hv : v.length = (nameTokens q n).length) :
    Echoes .primary (.column ⟨q, n⟩) v := by
  refine of_level (by decide) ?_
  intro e rest a _ he hrest _ hscan
  cases e <;> simp only [Expr.normal, reduceCtorEq] at he
  cases he
  obtain ⟨ws, hws, heq⟩ := (Spells.names q n hrest).rest_of_ok hscan
  obtain ⟨rfl, rfl⟩ := List.append_inj heq hv
  exact ⟨trivial, rfl, hws⟩

theorem literal {l : Literal} : Echoes .primary (.literal l) [t] := by
  refine of_level (by decide) ?_
  intro e rest a hl he hrest _ hscan
  cases e <;> simp only [Expr.normal, reduceCtorEq] at he
  obtain ⟨ws, hws, heq⟩ := (Spells.literal hl hrest).rest_of_ok hscan
  obtain ⟨ht, rfl⟩ := List.cons.inj heq
  exact ⟨trivial, by rw [ht]; rfl, hws⟩

theorem placeholder : Echoes .primary .placeholder [.placeholder] := by
  refine of_level (by decide) ?_
  intro e rest a _ he _ _ hscan
  cases e <;> simp only [Expr.normal, reduceCtorEq] at he
  have hmark : Spells Expr.placeholder.sql.toList [.placeholder] rest := Token.scan_questionMark
  obtain ⟨ws, hws, heq⟩ := hmark.rest_of_ok hscan
  cases heq
  exact ⟨trivial, rfl, hws⟩

theorem var {n : String} (hn : VarTokens n us) :
    Echoes .primary (.var n) (.symbol .atSign :: us) := by
  refine of_level (by decide) ?_
  intro e rest a _ he hrest htame hscan
  cases e <;> simp only [Expr.normal, reduceCtorEq] at he
  cases he
  obtain ⟨hread, hafter⟩ := readableVar_of_scan hn htame hrest hscan
  obtain ⟨vs, -, -, hspells⟩ := hread.varTokens
  obtain ⟨ws, hws, heq⟩ := (hspells hrest.endsWord).rest_of_ok hscan
  rw [hafter] at hws
  cases hws
  exact ⟨hread, List.append_cancel_right heq, hafter⟩

/-- A call whose arguments are printed in one way only. -/
theorem call_fixed {w : String} {d : Bool} {args : List Expr} (hd : Flag "DISTINCT" d us)
    (hargs : ∀ as : List Expr, as.map Expr.normal = args → as = args)
    (hread : ∀ f, (Expr.call f args d).Readable) :
    Echoes .primary (.call w args d) (.word w :: .symbol .leftParen :: us ++
      commaTokens (Expr.tokensEach args) ++ [.symbol .rightParen]) := by
  refine of_level (by decide) ?_
  intro e rest a hl he hrest htame hscan
  cases e <;> simp only [Expr.normal, reduceCtorEq] at he
  next f as d' =>
  rw [Expr.call.injEq, Expr.normalEach_eq_map] at he
  obtain ⟨rfl, has, rfl⟩ := he
  obtain rfl := hargs as has
  obtain ⟨ws, hws, heq⟩ := (hl.spells (hread f) hrest).rest_of_ok hscan
  simp only [Expr.tokens, List.append_assoc, List.cons_append, List.nil_append, List.cons.injEq,
    true_and] at heq ⊢
  obtain ⟨rfl, htail⟩ := hd.eq_of_append heq
  have hend := List.append_cancel_left htail
  cases hend
  exact ⟨hread f, rfl, hws⟩

theorem callStar {w : String} {d : Bool} (hd : Flag "DISTINCT" d us) :
    Echoes .primary (.call w [.star] d)
      (.word w :: .symbol .leftParen :: us ++ [.symbol .star, .symbol .rightParen]) := by
  have hargs : ∀ as : List Expr, as.map Expr.normal = [.star] → as = [.star] := by
    intro as has
    obtain ⟨arg, rfl, harg⟩ := List.map_eq_singleton_iff.mp has
    cases arg <;> simp only [Expr.normal, reduceCtorEq] at harg
    rfl
  have hread : ∀ f, (Expr.call f [.star] d).Readable := by
    intro f
    refine ⟨⟨⟨trivial, .inr ?_⟩, trivial⟩, fun _ => ?_⟩ <;> decide
  simpa [Expr.tokensEach, Expr.tokens, commaTokens] using call_fixed (w := w) hd hargs hread

theorem callNone {w : String} {d : Bool} (hd : Flag "DISTINCT" d us) :
    Echoes .primary (.call w [] d)
      (.word w :: .symbol .leftParen :: us ++ [.symbol .rightParen]) := by
  have hread : ∀ f, (Expr.call f [] d).Readable := fun _ => ⟨trivial, fun _ => by decide⟩
  simpa [Expr.tokensEach, commaTokens] using
    call_fixed (w := w) hd (fun _ => List.map_eq_nil_iff.mp) hread

/-- A list of expressions in front of the parenthesis that closes it. -/
theorem enclosed (hps : ∀ p ∈ ps, Echoes .disjunction p.1 p.2) {es : List Expr}
    (hl : ∀ e ∈ es, e.Lexed) (hes : es.map Expr.normal = ps.map (·.1)) {rest : List Char}
    {a : List Token} (htame : Tame ((commaSeparated (es.map Expr.sql)).toList ++ ')' :: rest))
    (hscan : scan ((commaSeparated (es.map Expr.sql)).toList ++ ')' :: rest) =
      .ok (commaTokens (ps.map (·.2)) ++ .symbol .rightParen :: a)) :
    Expr.ReadableEach es ∧ ps.map (·.2) = Expr.tokensEach es ∧ scan rest = .ok a := by
  obtain ⟨hread, htokens, hclose⟩ := Phrase.Echo.list (F := lexedPhrase) (fun _ => .comma)
    (fun p hp => (hps p hp).phrase) hl hes .rightParen htame hscan
  obtain ⟨ws, hafter, heq⟩ := Spells.rightParen.rest_of_ok hclose
  cases heq
  exact ⟨(Expr.readableEach_iff es).mpr hread,
    htokens.trans (Expr.tokensEach_eq_map es).symm, hafter⟩

theorem call {w : String} {d : Bool} (hd : Flag "DISTINCT" d us)
    (hpos : d = false → ¬OpensWith "DISTINCT" (commaTokens (ps.map (·.2))))
    (hps : ∀ p ∈ ps, Echoes .disjunction p.1 p.2) :
    Echoes .primary (.call w (ps.map (·.1)) d) (.word w :: .symbol .leftParen :: us ++
      commaTokens (ps.map (·.2)) ++ [.symbol .rightParen]) := by
  refine of_level (by decide) ?_
  intro e rest a hl he hrest htame hscan
  cases e <;> simp only [Expr.normal, reduceCtorEq] at he
  next f args d' =>
  rw [Expr.call.injEq, Expr.normalEach_eq_map] at he
  obtain ⟨rfl, hargs, rfl⟩ := he
  cases hl with
  | call hf hlargs =>
  rw [Expr.toList_sql_call] at htame hscan
  simp only [List.cons_append, List.append_assoc, List.nil_append] at hscan
  obtain ⟨ws, hws, heq⟩ := (Spells.word hf.upper Token.endsWord_leftParen).rest_of_ok hscan
  cases heq
  obtain ⟨ws, hws', heq⟩ := Spells.leftParen.rest_of_ok hws
  cases heq
  obtain ⟨ws, hargsScan, heq⟩ :=
    (Spells.flag_space (by decide : isPlainWord "DISTINCT".toList = true)
      (by decide : "DISTINCT ".toList = "DISTINCT".toList ++ [' ']) d').rest_of_ok hws'
  obtain ⟨rfl, rfl⟩ := hd.eq_of_append heq
  obtain ⟨hread, hu, hafter⟩ :=
    enclosed hps hlargs hargs htame.of_append.of_append.of_append hargsScan
  rw [hu] at hpos ⊢
  exact ⟨⟨hread, hpos⟩, rfl, hafter⟩

theorem paren (hpos : ¬OpensWith "SELECT" u) (h : Echoes .disjunction x u) :
    Echoes .primary (.paren x) (.symbol .leftParen :: u ++ [.symbol .rightParen]) := by
  refine of_level (by decide) ?_
  intro e rest a hl he hrest htame hscan
  cases e <;> simp only [Expr.normal, reduceCtorEq] at he
  next e =>
  cases he
  cases hl with
  | paren hl =>
  rw [Expr.toList_sql_paren] at htame hscan
  simp only [List.cons_append, List.append_assoc] at hscan
  obtain ⟨ws, hws, heq⟩ := Spells.leftParen.rest_of_ok hscan
  cases heq
  obtain ⟨⟨hread, halone⟩, rfl, hclose⟩ := h hl rfl .rightParen htame.of_append hws
  obtain ⟨ws, hafter, heq⟩ := Spells.rightParen.rest_of_ok hclose
  cases heq
  exact ⟨⟨hread, halone (by decide), hpos⟩, rfl, hafter⟩

theorem negate (h : Echoes .signed x u) : Echoes .signed (.negate x) (.symbol .minus :: u) := by
  refine of_level (by decide) ?_
  intro e rest a hl he hrest htame hscan
  cases e <;> simp only [Expr.normal, reduceCtorEq] at he
  next e =>
  cases he
  cases hl with
  | negate hl =>
  rw [Expr.toList_sql_negate] at htame hscan
  -- Two signs in a row would open a line comment, which reads as nothing.
  by_cases hminus : e.sql.toList.head? = some '-'
  · obtain ⟨cs, hcs⟩ := List.head?_eq_some_iff.mp hminus
    rw [hcs, List.cons_append] at hscan htame
    have hline : '\n' ∉ cs ++ rest := fun hmem =>
      htame.line (List.mem_cons_of_mem _ (List.mem_cons_of_mem _ hmem))
    rw [Token.scan_doubleMinus hline] at hscan
    cases hscan
  · have hhead : (e.sql.toList ++ rest).head? ≠ some '-' := by
      obtain ⟨c, cs, hcs, -, -⟩ := hl.opensPlain
      rw [hcs] at hminus ⊢
      exact hminus
    have hsign : Spells ['-'] [.symbol .minus] (e.sql.toList ++ rest) := Token.scan_minus hhead
    obtain ⟨ws, hws, heq⟩ := hsign.rest_of_ok hscan
    cases heq
    have hright : Tame (e.sql.toList ++ rest) :=
      (show Tame (['-'] ++ (e.sql.toList ++ rest)) from htame).of_append
    obtain ⟨⟨hread, -⟩, rfl, hafter⟩ := h hl rfl hrest hright hws
    exact ⟨⟨hread, hminus⟩, rfl, hafter⟩

theorem plus : Echoes r x (.symbol .plus :: u) := by
  intro e rest a hl _ _ htame hscan
  exact absurd hscan ((hl.opensPlain.append rest).scan_ne_plus htame _)

/-- The parts of an expression with an operator between them. -/
theorem operands (hx : Echoes r x u) (hy : Echoes s y v) {l e : Expr} {op : BinaryOp}
    {rest : List Char} {a : List Token} (hl : l.Lexed) (he : e.Lexed) (hlx : l.normal = x)
    (hey : e.normal = y) (hrest : Follows rest)
    (htame : Tame ((Expr.binary l op e).sql.toList ++ rest))
    (hscan : scan ((Expr.binary l op e).sql.toList ++ rest) = .ok (u ++ t :: v ++ a)) :
    (l.Readable ∧ (r.level ≤ 3 → l.StandsAlone)) ∧ (e.Readable ∧ (s.level ≤ 3 → e.StandsAlone)) ∧
      u ++ t :: v = (Expr.binary l op e).tokens ∧ scan rest = .ok a := by
  have hfollows : Follows ((" " ++ op.sql ++ " ").toList ++ (e.sql.toList ++ rest)) := by
    cases op <;> exact .space (by decide)
  rw [Expr.toList_sql_binary] at htame hscan
  rw [List.append_assoc, List.cons_append] at hscan
  obtain ⟨hleft, rfl, hop⟩ := hx hl hlx hfollows htame hscan
  obtain ⟨ws, hws, heq⟩ := (Spells.op op).rest_of_ok hop
  cases heq
  obtain ⟨hright, rfl, hend⟩ := hy he hey hrest htame.of_append.of_append hws
  exact ⟨hleft, hright, rfl, hend⟩

theorem chain {op : BinaryOp} (hs : r.above = some s) (ht : r.chainOp? t = some op)
    (hx : Echoes r x u) (hy : Echoes s y v) : Echoes r (.binary x op y) (u ++ t :: v) := by
  intro e rest a hl he hrest htame hscan
  cases e <;> simp only [Expr.normal, reduceCtorEq] at he
  cases he
  cases hl with
  | binary hleft hright =>
  have hop := (chainOp_token ht).2
  obtain ⟨⟨hreadl, halonel⟩, ⟨hreadr, haloner⟩, hu, hafter⟩ :=
    operands hx hy hleft hright rfl rfl hrest htame hscan
  refine ⟨⟨⟨hreadl, hreadr, fun hlogical => ?_⟩, fun hr => .inl (hop.mp hr)⟩, hu, hafter⟩
  have hr := hop.mpr hlogical
  refine ⟨halonel hr, haloner ?_⟩
  cases r <;> first | cases ht | (cases hs; decide) | exact absurd hr (by decide)

theorem comparison {op : BinaryOp} (ht : Expr.comparisonOp? t = some op) (hx : Echoes .sum x u)
    (hy : Echoes .sum y v) : Echoes .comparison (.binary x op y) (u ++ t :: v) := by
  refine of_level (by decide) ?_
  intro e rest a hl he hrest htame hscan
  cases e <;> simp only [Expr.normal, reduceCtorEq] at he
  cases he
  cases hl with
  | binary hleft hright =>
  obtain ⟨⟨hreadl, -⟩, ⟨hreadr, -⟩, hu, hafter⟩ :=
    operands hx hy hleft hright rfl rfl hrest htame hscan
  exact ⟨⟨hreadl, hreadr, fun hlogical => absurd hlogical (comparisonOp_token ht).2⟩, hu, hafter⟩

theorem isNull {n : Bool} {t' : Token} (hn : Flag "NOT" n us) (h : Echoes .sum x u) :
    Echoes .comparison (.isNull x n) (u ++ t :: us ++ [t']) := by
  refine of_level (by decide) ?_
  intro e rest a hl he hrest htame hscan
  cases e <;> simp only [Expr.normal, reduceCtorEq] at he
  next e n' =>
  cases he
  cases hl with
  | isNull hl =>
  rw [Expr.toList_sql_isNull] at htame hscan
  simp only [List.append_assoc, List.cons_append, List.nil_append] at hscan
  obtain ⟨⟨hread, -⟩, rfl, his⟩ := h hl rfl (.space (by decide)) htame hscan
  have hnull : Follows (" NULL".toList ++ rest) := .space (by decide)
  obtain ⟨ws, hws, heq⟩ := (Spells.space_keyword (by decide : isPlainWord "IS".toList = true)
    (Follows.not n hnull).endsWord).rest_of_ok his
  cases heq
  obtain ⟨ws, hws', heq⟩ := (Spells.not n hnull.endsWord).rest_of_ok hws
  obtain ⟨rfl, rfl⟩ := hn.eq_of_append heq
  obtain ⟨ws, hafter, heq⟩ := (Spells.space_keyword (by decide : isPlainWord "NULL".toList = true)
    hrest.endsWord).rest_of_ok hws'
  cases heq
  exact ⟨hread, by simp [Expr.tokens], hafter⟩

/-- The operand in front of a test that NOT may turn round. -/
theorem tested {n : Bool} (hn : Flag "NOT" n us) (h : Echoes .sum x u) {e : Expr} (hl : e.Lexed)
    (he : e.normal = x) {rest : List Char} {a : List Token} (hrest : Follows rest)
    (htame : Tame (e.sql.toList ++ ((sqlFlag n " NOT").toList ++ rest)))
    (hscan : scan (e.sql.toList ++ ((sqlFlag n " NOT").toList ++ rest)) = .ok (u ++ (us ++ a))) :
    e.Readable ∧ u = e.tokens ∧ us = flagTokens n "NOT" ∧ scan rest = .ok a := by
  obtain ⟨⟨hread, -⟩, hu, hnot⟩ := h hl he (.not n hrest) htame hscan
  obtain ⟨ws, hws, heq⟩ := (Spells.not n hrest.endsWord).rest_of_ok hnot
  obtain ⟨hus, rfl⟩ := hn.eq_of_append heq
  exact ⟨hread, hu, hus, hws⟩

theorem inList {n : Bool} (hn : Flag "NOT" n us)
    (hpos : ¬OpensWith "SELECT" (commaTokens (ps.map (·.2)))) (h : Echoes .sum x u)
    (hps : ∀ p ∈ ps, Echoes .disjunction p.1 p.2) :
    Echoes .comparison (.inList x (ps.map (·.1)) n) (u ++ us ++ t :: .symbol .leftParen ::
      commaTokens (ps.map (·.2)) ++ [.symbol .rightParen]) := by
  refine of_level (by decide) ?_
  intro e rest a hl he hrest htame hscan
  cases e <;> simp only [Expr.normal, reduceCtorEq] at he
  next e items n' =>
  rw [Expr.inList.injEq, Expr.normalEach_eq_map] at he
  obtain ⟨rfl, hitems, rfl⟩ := he
  cases hl with
  | inList hl hlitems =>
  rw [Expr.toList_sql_inList] at htame hscan
  simp only [List.append_assoc, List.cons_append, List.nil_append] at hscan
  obtain ⟨hread, rfl, rfl, hin⟩ := tested hn h hl rfl (.space (by decide)) htame hscan
  obtain ⟨ws, hitemsScan, heq⟩ := Spells.in_paren.rest_of_ok hin
  cases heq
  obtain ⟨hreads, hu, hafter⟩ :=
    enclosed hps hlitems hitems htame.of_append.of_append.of_append hitemsScan
  rw [hu] at hpos ⊢
  exact ⟨⟨hread, hreads, hpos⟩, by simp [Expr.tokens], hafter⟩

theorem between {low high : Expr} {n : Bool} {t' : Token} {w : List Token} (hn : Flag "NOT" n us)
    (h : Echoes .sum x u) (hlow : Echoes .sum low v) (hhigh : Echoes .sum high w) :
    Echoes .comparison (.between x low high n) (u ++ us ++ t :: v ++ t' :: w) := by
  refine of_level (by decide) ?_
  intro e rest a hl he hrest htame hscan
  cases e <;> simp only [Expr.normal, reduceCtorEq] at he
  next e elow ehigh n' =>
  cases he
  cases hl with
  | between hl hllow hlhigh =>
  rw [Expr.toList_sql_between] at htame hscan
  simp only [List.append_assoc, List.cons_append] at hscan
  obtain ⟨hread, rfl, rfl, hbetween⟩ := tested hn h hl rfl (.space (by decide)) htame hscan
  obtain ⟨ws, hlowScan, heq⟩ :=
    (Spells.spaced (by decide : isPlainWord "BETWEEN".toList = true)).rest_of_ok hbetween
  cases heq
  have htame' := htame.of_append.of_append.of_append
  obtain ⟨⟨hreadlow, -⟩, rfl, hand⟩ := hlow hllow rfl (.space (by decide)) htame' hlowScan
  obtain ⟨ws, hhighScan, heq⟩ :=
    (Spells.spaced (by decide : isPlainWord "AND".toList = true)).rest_of_ok hand
  cases heq
  obtain ⟨⟨hreadhigh, -⟩, rfl, hafter⟩ :=
    hhigh hlhigh rfl hrest htame'.of_append.of_append hhighScan
  exact ⟨⟨hread, hreadlow, hreadhigh⟩, by simp [Expr.tokens], hafter⟩

theorem like {n : Bool} (hn : Flag "NOT" n us) (h : Echoes .sum x u) (hp : Echoes .sum y v) :
    Echoes .comparison (.like x y n) (u ++ us ++ t :: v) := by
  refine of_level (by decide) ?_
  intro e rest a hl he hrest htame hscan
  cases e <;> simp only [Expr.normal, reduceCtorEq] at he
  next e pattern n' =>
  cases he
  cases hl with
  | like hl hlp =>
  rw [Expr.toList_sql_like] at htame hscan
  simp only [List.append_assoc, List.cons_append] at hscan
  obtain ⟨hread, rfl, rfl, hlike⟩ := tested hn h hl rfl (.space (by decide)) htame hscan
  obtain ⟨ws, hpatternScan, heq⟩ :=
    (Spells.spaced (by decide : isPlainWord "LIKE".toList = true)).rest_of_ok hlike
  cases heq
  obtain ⟨⟨hreadp, -⟩, rfl, hafter⟩ :=
    hp hlp rfl hrest htame.of_append.of_append.of_append hpatternScan
  exact ⟨⟨hread, hreadp⟩, by simp [Expr.tokens], hafter⟩

theorem not (h : Echoes .negation x u) : Echoes .negation (.not x) (t :: u) := by
  intro e rest a hl he hrest htame hscan
  cases e <;> simp only [Expr.normal, reduceCtorEq] at he
  next e =>
  cases he
  cases hl with
  | not hl =>
  rw [Expr.toList_sql_not] at htame hscan
  obtain ⟨ws, hws, heq⟩ :=
    (Spells.keyword_space (by decide : isPlainWord "NOT".toList = true)).rest_of_ok hscan
  cases heq
  obtain ⟨⟨hread, halone⟩, rfl, hafter⟩ := h hl rfl hrest htame.of_append hws
  exact ⟨⟨⟨hread, halone (by decide)⟩, fun _ => .inl trivial⟩, rfl, hafter⟩

theorem tighter (hs : r.above = some s) (hpos : r = .negation → ¬OpensWith "NOT" u)
    (h : Echoes s x u) : Echoes r x u := by
  intro e rest a hl he hrest htame hscan
  obtain ⟨⟨hread, halone⟩, rfl, hafter⟩ := h hl he hrest htame hscan
  refine ⟨⟨hread, fun hr => ?_⟩, rfl, hafter⟩
  by_cases hnegation : r = .negation
  · exact .inr (hpos hnegation)
  · apply halone
    cases r <;> first | (cases hs; decide) | exact absurd rfl hnegation | exact absurd hr (by decide)

end Echoes

/-- What is read of a printed expression, if it is the expression itself, is its tokens, and the
expression is readable. -/
theorem Derives.echo {k : Nat} {r : Rank} {x : Expr} {v : List Token} (h : Derives k r x v) :
    Echoes r x v := by
  induction h with
  | column | qualified => exact .name rfl
  | word | text => exact .literal
  | @number k n x hx =>
    rw [hx]
    unfold Expr.ofNumber
    split <;> exact .literal
  | placeholder => exact .placeholder
  | var hn => exact .var hn
  | callStar _ hd => exact .callStar hd
  | callNone _ hd => exact .callNone hd
  | call _ hd _ _ hpos ih => exact .call hd hpos ih
  | paren _ hpos ih => exact .paren hpos ih
  | negate _ ih => exact .negate ih
  | plus => exact .plus
  | chain hs ht _ _ ihl ihe => exact .chain hs ht ihl ihe
  | comparison ht _ _ ihl ihe => exact .comparison ht ihl ihe
  | isNull _ _ hn _ ih => exact .isNull hn ih
  | inList _ hn _ _ _ hpos ih ihps => exact .inList hn hpos ih ihps
  | between _ _ hn _ _ _ ih ihlow ihhigh => exact .between hn ih ihlow ihhigh
  | like _ hn _ _ ih ihp => exact .like hn ih ihp
  | not _ _ ih => exact .not ih
  | tighter hs _ hpos ih => exact .tighter hs hpos ih

end ShardedSql.Sql
