import ShardedSql.Proofs.Sql.Clauses

namespace ShardedSql.Sql

open TokenParser
open Token (isPlainWord scan)

/-- The symbols that an expression starts with. -/
theorem Derives.head_symbol {k : Nat} {r : Rank} {e : Expr} {u : List Token}
    (h : Derives k r e u) {s : Symbol} (hs : u.head? = some (.symbol s)) :
    s = .atSign ∨ s = .leftParen ∨ s = .minus ∨ s = .plus := by
  have hleft : ∀ {l vs : List Token}, l ≠ [] → (l ++ vs).head? = some (.symbol s) →
      l.head? = some (.symbol s) := by
    intro l vs hne hhead
    cases l with
    | nil => exact absurd rfl hne
    | cons t l => exact hhead
  induction h with
  | column ht | qualified ht =>
    exact absurd (Option.some.inj hs).symm (ne_of_part? (part?_of_name? ht) s)
  | word | number | text | placeholder | callStar | callNone | call => cases hs
  | var => exact .inl (by cases hs; rfl)
  | paren => exact .inr (.inl (by cases hs; rfl))
  | negate => exact .inr (.inr (.inl (by cases hs; rfl)))
  | plus => exact .inr (.inr (.inr (by cases hs; rfl)))
  | chain _ _ hl _ ih | comparison _ hl _ ih => exact ih (hleft hl.ne_nil hs)
  | isNull _ _ _ h ih | like _ _ h _ ih =>
    rw [List.append_assoc] at hs
    exact ih (hleft h.ne_nil hs)
  | inList _ _ _ h _ _ ih | between _ _ _ h _ _ ih =>
    simp only [List.append_assoc] at hs
    exact ih (hleft h.ne_nil hs)
  | not ht => exact absurd (Option.some.inj hs).symm (ne_of_isKeyword ht s)
  | tighter _ _ _ ih => exact ih hs

theorem ne_dot_of_strength {t : Token} (h : t.strength < 8) : t ≠ .symbol .dot := by
  rintro rfl
  exact absurd h (by decide)

/-- No expression is read like all columns of a table. -/
theorem Derives.not_tableStar {k : Nat} {r : Rank} {e : Expr} {u : List Token}
    (h : Derives k r e u) {rest : List Token} (hrest : rest.head? ≠ some (.symbol .dot)) {t : Token}
    {n : String} (ht : t.part? = some n) (ts : List Token) :
    u ++ rest ≠ t :: .symbol .dot :: .symbol .star :: ts := by
  have hsingle : ∀ {t' : Token} {rest : List Token}, rest.head? ≠ some (.symbol .dot) →
      t' :: rest ≠ t :: .symbol .dot :: .symbol .star :: ts := by
    rintro t' rest hrest heq
    rw [(List.cons.inj heq).2] at hrest
    exact hrest rfl
  have hop : ∀ {t : Token}, t ≠ .symbol .dot → ∀ ws : List Token,
      (t :: ws).head? ≠ some (.symbol .dot) := by
    rintro t hne ws ⟨⟩
    exact hne rfl
  have hflag : ∀ {kw : String} {b : Bool} {us ws : List Token} {t : Token}, Flag kw b us →
      .symbol .dot ≠ t → (us ++ t :: ws).head? ≠ some (.symbol .dot) := by
    intro kw b us ws t hflag ht
    cases hflag with
    | on ht' => exact hop (ne_of_isKeyword ht' _).symm _
    | off => exact hop ht.symm _
  intro heq
  induction h generalizing rest with
  | column | word | number | text | placeholder => exact hsingle hrest heq
  | qualified ht' ht'' =>
    obtain ⟨-, htail⟩ := List.cons.inj heq
    obtain ⟨-, htail⟩ := List.cons.inj htail
    exact ne_of_part? ht'' .star (List.cons.inj htail).1.symm
  | var | paren | negate | plus =>
    obtain ⟨rfl, -⟩ := List.cons.inj heq
    cases ht
  | callStar | callNone | call =>
    simp only [List.cons_append] at heq
    obtain ⟨-, htail⟩ := List.cons.inj heq
    cases (List.cons.inj htail).1
  | @chain k r s l e op t' u v _ ht' _ _ ihl =>
    rw [List.append_assoc] at heq
    refine ihl (hop (ne_dot_of_strength ?_) _) heq
    rw [strength_of_chainOp ht']
    cases r <;> first | decide | cases ht'
  | comparison ht' _ _ ihl =>
    rw [List.append_assoc] at heq
    exact ihl (hop (ne_dot_of_strength (strength_of_comparisonOp ht' ▸ by decide)) _) heq
  | isNull ht' _ _ _ ih =>
    simp only [List.append_assoc, List.cons_append] at heq
    exact ih (hop (ne_of_isKeyword ht' _).symm _) heq
  | inList ht' hn _ _ _ _ ih | between ht' _ hn _ _ _ ih | like ht' hn _ _ ih =>
    simp only [List.append_assoc, List.cons_append] at heq
    exact ih (hflag hn (ne_of_isKeyword ht' _)) heq
  | @not k e t' u ht' h ih =>
    obtain ⟨-, htail⟩ := List.cons.inj heq
    have hhead : u.head? = some (.symbol .dot) := by
      obtain ⟨t'', u, rfl⟩ := List.exists_cons_of_ne_nil h.ne_nil
      exact congrArg some (List.cons.inj htail).1
    simpa using h.head_symbol hhead
  | tighter _ _ _ ih => exact ih hrest heq

namespace SelectItem

def tokens : SelectItem → List Token
  | star => [.symbol .star]
  | tableStar t => [.ofName t, .symbol .dot, .symbol .star]
  | expr e a => e.tokens ++ aliasTokens a

def normal : SelectItem → SelectItem
  | star => star
  | tableStar t => tableStar t
  | expr e a => expr e.normal a

def Legible : SelectItem → Prop
  | star | tableStar _ => True
  | expr e _ => e.Legible

def Written (k : Nat) : SelectItem → Prop
  | star | tableStar _ => True
  | expr e _ => e.Written k

end SelectItem

def selectItemPhrase (k : Nat) : Phrase SelectItem where
  sql := SelectItem.sql
  tokens := SelectItem.tokens
  normal := SelectItem.normal
  Fit := SelectItem.Written k
  Readable := SelectItem.Legible

theorem run_selectItem_tableStar {t : Token} {n : String} (ht : t.part? = some n) (levels : Nat)
    (ts : List Token) :
    (SelectItem.parse levels).run (t :: .symbol .dot :: .symbol .star :: ts) =
      .ok (.tableStar n, ts) := by
  unfold SelectItem.parse
  cases t with
  | word w | quoted w =>
    cases ht
    rw [run_bind_of_ok (run_takesSymbol_of_ne (by simp))]
    rfl
  | _ => cases ht

theorem run_selectItem_expr {ts : List Token} (hstar : ts.head? ≠ some (.symbol .star))
    (htable : ∀ (t : Token) (n : String) (us : List Token), t.part? = some n →
      ts ≠ t :: .symbol .dot :: .symbol .star :: us) (levels : Nat) :
    (SelectItem.parse levels).run ts =
      (do return SelectItem.expr (← Expr.parse levels) (← aliasName?)).run ts := by
  unfold SelectItem.parse
  rw [run_bind_of_ok (run_takesSymbol_of_ne hstar)]
  simp only [Bool.false_eq_true, if_false, run_ahead_bind]
  have hfront : ∀ {us : List Token}, ts.take 3 = us → ts = us ++ ts.drop 3 := by
    rintro us rfl
    exact (List.take_append_drop 3 ts).symm
  split
  · next t htake => exact absurd (hfront htake) (htable (.word t) t _ rfl)
  · next t htake => exact absurd (hfront htake) (htable (.quoted t) t _ rfl)
  · rfl

/-- What starts like an expression is read as one, with its alias. -/
theorem Derives.run_selectItem {k : Nat} {r : Rank} {e : Expr} {u : List Token}
    (h : Derives k r e u) {ws : List Token} (hws : ws.head? ≠ some (.symbol .dot)) (levels : Nat) :
    (SelectItem.parse levels).run (u ++ ws) =
      (do return SelectItem.expr (← Expr.parse levels) (← aliasName?)).run (u ++ ws) := by
  apply run_selectItem_expr
  · obtain ⟨t, us, hus⟩ := List.exists_cons_of_ne_nil h.ne_nil
    rw [hus]
    rintro ⟨⟩
    exact absurd (h.head_symbol (s := .star) (by rw [hus]; rfl)) (by decide)
  · intro t n us ht
    exact h.not_tableStar hws ht us

theorem run_exprItem_eq_ok {levels : Nat} {ts mid : List Token} {x : SelectItem} :
    (do return SelectItem.expr (← Expr.parse levels) (← aliasName?)).run ts = .ok (x, mid) ↔
      ∃ e a, x = .expr e a ∧
        (do return (← Expr.parse levels, ← aliasName?)).run ts = .ok ((e, a), mid) := by
  simp only [run_bind_eq_ok]
  constructor
  · rintro ⟨e, ts₁, he, a, ts₂, ha, hpure⟩
    cases hpure
    exact ⟨e, a, rfl, e, ts₁, he, a, mid, ha, rfl⟩
  · rintro ⟨e, a, rfl, e', ts₁, he, a', ts₂, ha, hpure⟩
    cases hpure
    exact ⟨e, ts₁, he, a, mid, ha, rfl⟩

theorem selectItem_cases {levels : Nat} {ts mid : List Token} {x : SelectItem}
    (hrun : (SelectItem.parse levels).run ts = .ok (x, mid)) :
    (ts = .symbol .star :: mid ∧ x = .star) ∨
      (∃ t n, t.part? = some n ∧ ts = t :: .symbol .dot :: .symbol .star :: mid ∧
        x = .tableStar n) ∨
      ∃ e a, x = .expr e a ∧
        (do return (← Expr.parse levels, ← aliasName?)).run ts = .ok ((e, a), mid) := by
  by_cases hstar : ts.head? = some (.symbol .star)
  · obtain ⟨ts, rfl⟩ := List.head?_eq_some_iff.mp hstar
    cases hrun
    exact .inl ⟨rfl, rfl⟩
  by_cases htable : ∃ (t : Token) (n : String) (us : List Token), t.part? = some n ∧
      ts = t :: .symbol .dot :: .symbol .star :: us
  · obtain ⟨t, n, us, ht, rfl⟩ := htable
    rw [run_selectItem_tableStar ht] at hrun
    cases hrun
    exact .inr (.inl ⟨t, n, ht, rfl, rfl⟩)
  · rw [run_selectItem_expr hstar fun t n us ht hts => htable ⟨t, n, us, ht, hts⟩] at hrun
    exact .inr (.inr (run_exprItem_eq_ok.mp hrun))

theorem Spells.tableStar (n : String) (rest : List Char) :
    Spells (sqlName n ++ ".*").toList [.ofName n, .symbol .dot, .symbol .star] rest := by
  have hdot : Spells ['.'] [.symbol .dot] (['*'] ++ rest) := Token.scan_dot rfl
  have hall := (Spells.name n Token.endsWord_dot (by simp [Token.backquote])).append
    (hdot.append Spells.star)
  simpa using hall

theorem exprItem_faithful (k : Nat) {T : List Token} (hT : ∀ t ∈ T, t.strength = 0)
    (hnoAlias : NoAlias T) : ((exprPhrase k).seq aliasPhrase).Faithful
      (do return (← Expr.parse (k + 1), ← aliasName?)) T :=
  (expr_faithful k (T := .word "AS" :: T) (by simpa using ⟨by decide, hT⟩)).seq
    (alias_faithful hnoAlias) (alias_opens T)

theorem selectItem_faithful (k : Nat) {T : List Token} (hT : ∀ t ∈ T, t.strength = 0)
    (hnoAlias : NoAlias T) : (selectItemPhrase k).Faithful (SelectItem.parse (k + 1)) T where
  spells {y rest} hfit hread hrest := by
    cases y with
    | star =>
      show Spells "*".toList [.symbol .star] rest
      exact Spells.star
    | tableStar n => exact .tableStar n rest
    | expr e a =>
      exact (exprItem_faithful k hT hnoAlias).spells (y := (e, a)) ⟨hfit, trivial⟩ ⟨hread, trivial⟩
        hrest
  plain {y} hfit hread := by
    cases y with
    | star => simp [selectItemPhrase, SelectItem.tokens]
    | tableStar n => simpa [selectItemPhrase, SelectItem.tokens] using ofName_ne_symbol n _
    | expr e a =>
      exact (exprItem_faithful k hT hnoAlias).plain (y := (e, a)) ⟨hfit, trivial⟩ ⟨hread, trivial⟩
  reads {y ws} hfit hread hws := by
    cases y with
    | star => rfl
    | tableStar n => exact run_selectItem_tableStar (Token.part?_ofName n) _ ws
    | expr e a =>
      have hafter : (aliasTokens a ++ ws).head? ≠ some (.symbol .dot) := by
        cases a with
        | none => exact hws.head_ne fun hmem => absurd (hT _ hmem) (by decide)
        | some a => simp [aliasTokens]
      have hitem := (hfit.derives hread).run_selectItem hafter (k + 1)
      simp only [selectItemPhrase, SelectItem.tokens, List.append_assoc]
      refine hitem.trans (run_exprItem_eq_ok.mpr ⟨e.normal, a, rfl, ?_⟩)
      rw [← List.append_assoc]
      exact (exprItem_faithful k hT hnoAlias).reads (y := (e, a)) ⟨hfit, trivial⟩ ⟨hread, trivial⟩
        hws
  sound := by
    intro ts x mid hrun
    rcases selectItem_cases hrun with ⟨rfl, rfl⟩ | ⟨t, n, ht, rfl, rfl⟩ | ⟨e, a, rfl, hea⟩
    · refine ⟨[.symbol .star], rfl, fun _ => trivial, ?_⟩
      intro y rest a hfit hy hrest htame hscan
      cases y <;> cases hy
      have hstar : Spells "*".toList [.symbol .star] rest := Spells.star
      obtain ⟨ws, hend, heq⟩ := hstar.rest_of_ok hscan
      cases heq
      exact ⟨trivial, rfl, hend⟩
    · refine ⟨[t, .symbol .dot, .symbol .star], rfl, fun _ => trivial, ?_⟩
      intro y rest a hfit hy hrest htame hscan
      cases y <;> cases hy
      obtain ⟨ws, hend, heq⟩ := (Spells.tableStar n rest).rest_of_ok hscan
      cases heq
      exact ⟨trivial, rfl, hend⟩
    · obtain ⟨u, rfl, hfit, hecho⟩ := (exprItem_faithful k hT hnoAlias).sound hea
      refine ⟨u, rfl, fun hscanned => (hfit hscanned).1, ?_⟩
      intro y rest b hfity hy hrest htame hscan
      obtain ⟨e, rfl, rfl⟩ : ∃ e', y = .expr e' a ∧ e = e'.normal := by
        cases y <;> cases hy
        exact ⟨_, rfl, rfl⟩
      obtain ⟨hread, hu, hend⟩ := hecho (y := (e, a)) ⟨hfity, trivial⟩ rfl hrest htame hscan
      exact ⟨hread.1, hu, hend⟩

def OrderItem.tokens (o : OrderItem) : List Token :=
  o.expr.tokens ++ flagTokens o.descending "DESC"

def OrderItem.normal (o : OrderItem) : OrderItem := { o with expr := o.expr.normal }

def orderItemPhrase (k : Nat) : Phrase OrderItem where
  sql := OrderItem.sql
  tokens := OrderItem.tokens
  normal := OrderItem.normal
  Fit o := o.expr.Written k
  Readable o := o.expr.Legible

def directionPhrase : Phrase Bool where
  sql b := sqlFlag b " DESC"
  tokens b := flagTokens b "DESC"
  normal := id
  Fit _ := True
  Readable _ := True

def direction : TokenParser Bool := do
  if ← takesWord "DESC" then return true
  let _ ← takesWord "ASC"
  return false

theorem direction_opens (T : List Token) : directionPhrase.Opens (.word "DESC" :: T) T where
  text {b rest} _ hrest := by
    cases b with
    | true =>
      have hspells : Spells (' ' :: "DESC".toList) [.word "DESC"] rest :=
        Spells.space_keyword (by decide) hrest.follows.endsWord
      exact .of_spells hspells List.mem_cons_self (.space (by decide))
    | false => exact hrest.mono fun _ ht => List.mem_cons_of_mem _ ht
  tokens {b ws} _ _ hws := by
    cases b with
    | true => exact .cons List.mem_cons_self _
    | false => exact hws.mono fun _ ht => List.mem_cons_of_mem _ ht

theorem direction_faithful {T : List Token} (hdesc : ∀ t ∈ T, t.isKeyword "DESC" = false)
    (hasc : ∀ t ∈ T, t.isKeyword "ASC" = false) : directionPhrase.Faithful direction T := by
  apply Phrase.Faithful.of_spelled
  · intro b rest _ hrest
    exact Spells.flag (by decide : isPlainWord "DESC".toList = true) rfl b hrest.follows.endsWord
  · rintro (_ | _) - <;> simp [directionPhrase, flagTokens]
  · rintro (_ | _) ws - hws
    · unfold direction
      simp only [directionPhrase, flagTokens, Bool.false_eq_true, if_false, List.nil_append]
      rw [run_bind_of_ok (run_takesWord_of_not_opens (hws.not_opensWith hdesc))]
      simp only [Bool.false_eq_true, if_false]
      rw [run_bind_of_ok (run_takesWord_of_not_opens (hws.not_opensWith hasc))]
      rfl
    · exact run_bind_of_ok (run_takesWord_of_opens ((opensWith_cons _ _ _).mpr (by decide)))
  · exact fun _ => trivial
  · intro ts b mid hrun
    unfold direction at hrun
    obtain ⟨desc, ts₁, hword, h₁⟩ := run_bind_eq_ok.mp hrun
    rcases run_takesWord_eq_ok.mp hword with ⟨rfl, t, -, rfl⟩ | ⟨rfl, -, rfl⟩
    · cases h₁
      refine ⟨[t], rfl, trivial, ?_⟩
      rintro _ vs ws - rfl - heq
      rw [(head_eq heq).1]
      rfl
    · obtain ⟨asc, ts₂, hword, hpure⟩ := run_bind_eq_ok.mp h₁
      cases hpure
      rcases run_takesWord_eq_ok.mp hword with ⟨rfl, t, ht, rfl⟩ | ⟨rfl, -, rfl⟩
      · refine ⟨[t], rfl, trivial, ?_⟩
        rintro _ vs ws - rfl hws heq
        have hfalse := hasc t (hws t (by rw [← show [t] ++ vs = ws from heq]; rfl))
        rw [ht] at hfalse
        cases hfalse
      · refine ⟨[], rfl, trivial, ?_⟩
        rintro _ vs ws - rfl - -
        rfl

theorem orderItem_faithful (k : Nat) {T : List Token} (hT : ∀ t ∈ T, t.strength = 0)
    (hdesc : ∀ t ∈ T, t.isKeyword "DESC" = false) (hasc : ∀ t ∈ T, t.isKeyword "ASC" = false) :
    (orderItemPhrase k).Faithful (OrderItem.parse (k + 1)) T := by
  have hparts : (orderItemPhrase k).Faithful _ T :=
    ((expr_faithful k (T := .word "DESC" :: T) (by simpa using ⟨by decide, hT⟩)).seq
      (direction_faithful hdesc hasc) (direction_opens T)).via
      (f := fun o : OrderItem => (o.expr, o.descending)) (g := fun o => ⟨o.1, o.2⟩)
      { fit := by simp [orderItemPhrase, Phrase.seq, exprPhrase, directionPhrase]
        readable := by simp [orderItemPhrase, Phrase.seq, exprPhrase, directionPhrase] }
  have hparser : OrderItem.parse (k + 1) = do
      let e ← Expr.parse (k + 1)
      let d ← direction
      return ⟨e, d⟩ := by
    unfold OrderItem.parse direction
    refine congrArg _ (funext fun e => ?_)
    rw [then_assoc]
    refine congrArg _ (funext fun b => ?_)
    cases b with
    | true => rfl
    | false => simp only [Bool.false_eq_true, if_false, then_assoc, pure_then]
  rw [hparser]
  simpa only [then_assoc, pure_then] using hparts

def Assignment.normal (a : Assignment) : Assignment := { a with value := a.value.normal }

def assignmentPhrase (k : Nat) : Phrase Assignment where
  sql := Assignment.sql
  tokens a := nameTokens a.column.table a.column.name ++ .symbol .equal :: a.value.tokens
  normal := Assignment.normal
  Fit a := a.value.Written k
  Readable a := a.value.Legible

theorem Marks.equal : Marks " = ".toList [.symbol .equal] (needsSymbol .equal) where
  spells _ := Spells.space.append (Spells.symbol_space .equal)
  plain := by simp
  reads _ := run_needsSymbol_cons _
  sound := by
    intro ts _ mid hrun
    exact ⟨[.symbol .equal], run_needsSymbol_eq_ok.mp hrun, rfl⟩

theorem assignment_faithful (k : Nat) {T : List Token} (hT : ∀ t ∈ T, t.strength = 0) :
    (assignmentPhrase k).Faithful (Assignment.parse (k + 1)) T := by
  have hvalue := (expr_faithful k hT).after Marks.equal
  have hopens : ((exprPhrase k).after " = " [.symbol .equal]).Opens [.symbol .equal] T :=
    Phrase.after_opens Marks.equal fun _ => .space (by decide)
  have hparts : (assignmentPhrase k).Faithful _ T :=
    ((columnName_faithful (by decide)).seq hvalue hopens).via
      (f := fun a : Assignment => (a.column, a.value)) (g := fun a => ⟨a.1, a.2⟩)
      { sql := by simp [assignmentPhrase, Phrase.seq, Phrase.after, columnNamePhrase, exprPhrase,
          Assignment.sql, String.append_assoc]
        fit := by simp [assignmentPhrase, Phrase.seq, Phrase.after, columnNamePhrase, exprPhrase]
        readable := by
          simp [assignmentPhrase, Phrase.seq, Phrase.after, columnNamePhrase, exprPhrase] }
  unfold Assignment.parse
  simpa only [then_assoc, pure_then] using hparts

end ShardedSql.Sql
