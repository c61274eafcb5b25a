import ShardedSql.Proofs.Sql.Statements

namespace ShardedSql.Sql

namespace TokenParser

variable {α β σ : Type} {m n : Nat}

/-- Whether a parser answers as another one, unless it gives up on deep nesting with so many tokens
ahead. -/
def Agrees (n : Nat) (p q : TokenParser α) : Prop :=
  ∀ ts : List Token, p.run ts = q.run ts ∨ p.run ts = .error (.parse .tooDeep) ∧ n ≤ ts.length

namespace Agrees

theorem refl (n : Nat) (p : TokenParser α) : Agrees n p p := fun _ => .inl rfl

theorem trans {p q r : TokenParser α} (h : Agrees n p q) (h' : Agrees m q r) (hnm : n ≤ m) :
    Agrees n p r := by
  intro ts
  rcases h ts with heq | hdeep
  · rcases h' ts with heq' | ⟨hdeep, hlength⟩
    · exact .inl (heq.trans heq')
    · exact .inr ⟨heq.trans hdeep, Nat.le_trans hnm hlength⟩
  · exact .inr hdeep

theorem of_refuse (q : TokenParser α) : Agrees 0 (refuse .tooDeep) q :=
  fun _ => .inr ⟨rfl, Nat.zero_le _⟩

theorem bind {p q : TokenParser α} {f g : α → TokenParser β} (h : Agrees n p q)
    (hfg : ∀ a, Agrees n (f a) (g a)) : Agrees n (p >>= f) (q >>= g) := by
  intro ts
  rcases h ts with heq | ⟨hdeep, hlength⟩
  · rw [run_bind, run_bind, ← heq]
    cases hrun : p.run ts with
    | error e => exact .inl rfl
    | ok r =>
      rcases hfg r.1 r.2 with heq' | ⟨hdeep, hlength⟩
      · exact .inl heq'
      · exact .inr ⟨hdeep, Nat.le_trans hlength (p.shrinks hrun)⟩
  · refine .inr ⟨?_, hlength⟩
    rw [run_bind, hdeep]

theorem same (p : TokenParser α) {f g : α → TokenParser β} (h : ∀ a, Agrees n (f a) (g a)) :
    Agrees n (p >>= f) (p >>= g) := (refl n p).bind h

/-- Behind a token there is one level less to go on. -/
theorem behind {p : TokenParser α} {f g : α → TokenParser β}
    (hp : ∀ {ts rest : List Token} {a : α}, p.run ts = .ok (a, rest) → rest.length < ts.length)
    (hfg : ∀ a, Agrees n (f a) (g a)) : Agrees (n + 1) (p >>= f) (p >>= g) := by
  intro ts
  rw [run_bind, run_bind]
  cases hrun : p.run ts with
  | error e => exact .inl rfl
  | ok r =>
    rcases hfg r.1 r.2 with heq | ⟨hdeep, hlength⟩
    · exact .inl heq
    · exact .inr ⟨hdeep, Nat.lt_of_le_of_lt hlength (hp hrun)⟩

theorem behind_symbol {s : Symbol} {f g : Unit → TokenParser β} (h : Agrees n (f ()) (g ())) :
    Agrees (n + 1) (needsSymbol s >>= f) (needsSymbol s >>= g) := by
  refine behind ?_ fun _ => h
  intro ts rest u hrun
  simp [run_needsSymbol_eq_ok.mp hrun]

theorem ite {c : Prop} [Decidable c] {p p' q q' : TokenParser α} (h : Agrees n p q)
    (h' : Agrees n p' q') : Agrees n (if c then p else p') (if c then q else q') := by
  split
  · exact h
  · exact h'

/-- Behind an operator that is read there is one level less to go on. -/
theorem takes {test : Token → Bool} {p p' q q' : TokenParser α} (h : Agrees n p q)
    (h' : Agrees (n + 1) p' q') :
    Agrees (n + 1) (do if ← takes test then p else p') (do if ← takes test then q else q') := by
  intro ts
  simp only [run_bind, run_takes]
  by_cases htest : ts.head?.any test = true
  · simp only [htest, if_true]
    cases ts with
    | nil => cases htest
    | cons t ts =>
      rcases h ts with heq | ⟨hdeep, hlength⟩
      · exact .inl heq
      · exact .inr ⟨hdeep, Nat.succ_le_succ hlength⟩
  · simp only [htest]
    exact h' ts

theorem loop {sign : Token → Option σ} {step step' : α → σ → TokenParser α}
    (h : ∀ a s, Agrees n (step a s) (step' a s)) (a : α) :
    Agrees n (TokenParser.loop sign step a) (TokenParser.loop sign step' a) := by
  intro ts
  rw [run_loop, run_loop]
  fun_induction loopRun sign step a ts with
  | case1 a => exact .inl (by rw [loopRun])
  | case2 a t ts hs => exact .inl (by rw [loopRun, hs])
  | case3 a t ts s hs e hrun =>
    rcases h a s ts with heq | ⟨hdeep, hlength⟩
    · left
      rw [loopRun, hs]
      simp only []
      split
      · next h' => rw [← heq, hrun] at h'; cases h'; rfl
      · next h' => rw [← heq, hrun] at h'; cases h'
    · rw [hrun] at hdeep
      exact .inr ⟨hdeep, Nat.le_succ_of_le hlength⟩
  | case4 a t ts s hs a' mid hrun ih =>
    have hstep : (step' a s).run ts = .ok (a', mid) := by
      rcases h a s ts with heq | ⟨hdeep, -⟩
      · exact heq.symm.trans hrun
      · rw [hrun] at hdeep
        cases hdeep
    rw [loopRun_of_some hs hstep]
    have := (step a s).shrinks hrun
    rcases ih with heq | ⟨hdeep, hlength⟩
    · exact .inl heq
    · exact .inr ⟨hdeep, by simp; omega⟩

theorem list {p q : TokenParser α} (h : Agrees n p q) :
    Agrees n (TokenParser.list p) (TokenParser.list q) := by
  unfold TokenParser.list
  exact h.bind fun a => .loop (fun items _ => h.bind fun _ => .refl _ _) _

theorem after? {p q : TokenParser α} (h : Agrees n p q) (kw : String) :
    Agrees n (TokenParser.after? kw p) (TokenParser.after? kw q) := by
  unfold TokenParser.after?
  exact same _ fun _ => .ite (h.bind fun _ => .refl _ _) (.refl _ _)

theorem listAfter {p q : TokenParser α} (h : Agrees n p q) (first second : String) :
    Agrees n (TokenParser.listAfter first second p) (TokenParser.listAfter first second q) := by
  unfold TokenParser.listAfter
  exact same _ fun _ => .ite (same _ fun _ => h.list) (.refl _ _)

theorem chain {p q : TokenParser Expr} (h : Agrees n p q) (op? : Token → Option BinaryOp) :
    Agrees n (Expr.parseChain op? p) (Expr.parseChain op? q) := by
  unfold Expr.parseChain
  exact h.bind fun first => .loop (fun _ _ => h.bind fun _ => .refl _ _) first

/-- What is read with fewer levels is read with more. -/
theorem ok {p q : TokenParser α} (h : Agrees n p q) {ts rest : List Token} {a : α}
    (hrun : p.run ts = .ok (a, rest)) : q.run ts = .ok (a, rest) := by
  rcases h ts with heq | ⟨hdeep, -⟩
  · exact heq.symm.trans hrun
  · rw [hrun] at hdeep
    cases hdeep

end Agrees

end TokenParser

open TokenParser

/-- That the parsers of nested expressions agree with others. -/
structure Nested.Agrees (n : Nat) (deeper deeper' : Nested) : Prop where
  expr : TokenParser.Agrees n deeper.expr deeper'.expr
  negated : TokenParser.Agrees n deeper.negated deeper'.negated
  signed : TokenParser.Agrees n deeper.signed deeper'.signed

namespace Nested.Agrees

variable {n : Nat} {deeper deeper' : Nested}

theorem parseCall (h : deeper.Agrees n deeper') (f : String) :
    TokenParser.Agrees (n + 1) (Expr.parseCall deeper f) (Expr.parseCall deeper' f) := by
  unfold Expr.parseCall
  refine .behind_symbol ?_
  refine TokenParser.Agrees.same _ fun distinct => ?_
  refine TokenParser.Agrees.same _ fun star => ?_
  refine TokenParser.Agrees.same _ fun closed => ?_
  exact .ite (.refl _ _) (.ite (.refl _ _) (h.expr.list.bind fun _ => .refl _ _))

theorem parseWord (h : deeper.Agrees n deeper') (w : String) :
    TokenParser.Agrees (n + 1) (Expr.parseWord deeper w) (Expr.parseWord deeper' w) := by
  unfold Expr.parseWord
  refine .ite (.refl _ _) (.ite (.refl _ _) (.ite (.refl _ _) ?_))
  refine TokenParser.Agrees.same _ fun paren => ?_
  exact .ite (h.parseCall w) (.refl _ _)

/-- An expression in parentheses, behind the first of them. -/
theorem parseParen (h : deeper.Agrees n deeper') :
    TokenParser.Agrees n (Expr.parseParen deeper) (Expr.parseParen deeper') := by
  unfold Expr.parseParen
  refine TokenParser.Agrees.same _ fun select => ?_
  refine .ite (.refl _ _) ?_
  exact h.expr.bind fun _ => .refl _ _

theorem parsePrimary (h : deeper.Agrees n deeper') :
    TokenParser.Agrees (n + 1) (Expr.parsePrimary deeper) (Expr.parsePrimary deeper') := by
  intro ts
  unfold Expr.parsePrimary
  rw [run_next_bind, run_next_bind]
  cases ts with
  | nil => exact .inl rfl
  | cons t ts =>
    -- only an opening parenthesis leads to a deeper expression, and it is read
    cases t with
    | word w =>
      rcases h.parseWord w ts with heq | ⟨hdeep, hlength⟩
      · exact .inl heq
      · exact .inr ⟨hdeep, Nat.le_succ_of_le hlength⟩
    | symbol s =>
      cases s with
      | leftParen =>
        rcases h.parseParen ts with heq | ⟨hdeep, hlength⟩
        · exact .inl heq
        · exact .inr ⟨hdeep, Nat.succ_le_succ hlength⟩
      | _ => exact .inl rfl
    | _ => exact .inl rfl

theorem parseSigned (h : deeper.Agrees n deeper') :
    TokenParser.Agrees (n + 1) (Expr.parseSigned deeper) (Expr.parseSigned deeper') :=
  .takes (h.signed.bind fun _ => .refl _ _) (.takes h.signed h.parsePrimary)

theorem parseProduct (h : deeper.Agrees n deeper') :
    TokenParser.Agrees (n + 1) (Expr.parseProduct deeper) (Expr.parseProduct deeper') :=
  h.parseSigned.chain Expr.productOp?

theorem parseSum (h : deeper.Agrees n deeper') :
    TokenParser.Agrees (n + 1) (Expr.parseSum deeper) (Expr.parseSum deeper') :=
  h.parseProduct.chain Expr.sumOp?

theorem parseInList (h : deeper.Agrees n deeper') (left : Expr) (negated : Bool) :
    TokenParser.Agrees (n + 1) (Expr.parseInList deeper left negated)
      (Expr.parseInList deeper' left negated) := by
  unfold Expr.parseInList
  refine .behind_symbol ?_
  refine TokenParser.Agrees.same _ fun select => ?_
  refine .ite (.refl _ _) ?_
  exact h.expr.list.bind fun _ => .refl _ _

theorem parseBetween (h : deeper.Agrees n deeper') (left : Expr) (negated : Bool) :
    TokenParser.Agrees (n + 1) (Expr.parseBetween deeper left negated)
      (Expr.parseBetween deeper' left negated) := by
  unfold Expr.parseBetween
  refine h.parseSum.bind fun low => ?_
  refine TokenParser.Agrees.same _ fun _ => ?_
  exact h.parseSum.bind fun _ => .refl _ _

theorem parseTest (h : deeper.Agrees n deeper') (left : Expr) :
    TokenParser.Agrees (n + 1) (Expr.parseTest deeper left) (Expr.parseTest deeper' left) := by
  unfold Expr.parseTest
  refine TokenParser.Agrees.same _ fun isNull => ?_
  refine .ite (.refl _ _) ?_
  refine TokenParser.Agrees.same _ fun negated => ?_
  refine TokenParser.Agrees.same _ fun isIn => ?_
  refine .ite (h.parseInList left negated) ?_
  refine TokenParser.Agrees.same _ fun isBetween => ?_
  refine .ite (h.parseBetween left negated) ?_
  refine TokenParser.Agrees.same _ fun isLike => ?_
  refine .ite (h.parseSum.bind fun _ => .refl _ _) ?_
  refine TokenParser.Agrees.same _ fun ts => ?_
  split
  · refine TokenParser.Agrees.same _ fun _ => ?_
    exact h.parseSum.bind fun _ => .refl _ _
  · exact .refl _ _

theorem parseNegation (h : deeper.Agrees n deeper') :
    TokenParser.Agrees (n + 1) (Expr.parseNegation deeper) (Expr.parseNegation deeper') :=
  .takes (h.negated.bind fun _ => .refl _ _) (h.parseSum.bind h.parseTest)

theorem parseDisjunction (h : deeper.Agrees n deeper') :
    TokenParser.Agrees (n + 1) (Expr.parseDisjunction deeper) (Expr.parseDisjunction deeper') :=
  (h.parseNegation.chain Expr.andOp?).chain Expr.orOp?

end Nested.Agrees

/-- The readers of nested expressions agree with those for one level more. -/
theorem agrees_nestedWithin (levels : Nat) :
    (Expr.nestedWithin levels).Agrees levels (Expr.nestedWithin (levels + 1)) := by
  induction levels with
  | zero => exact ⟨.of_refuse _, .of_refuse _, .of_refuse _⟩
  | succ levels ih => exact ⟨ih.parseDisjunction, ih.parseNegation, ih.parseSigned⟩

theorem Expr.agrees_parse (levels : Nat) :
    Agrees levels (Expr.parse levels) (Expr.parse (levels + 1)) := (agrees_nestedWithin levels).expr

section Statements

variable (levels : Nat)

theorem Join.agrees_parse (kind : JoinKind) (complete : Bool) :
    Agrees levels (Join.parse levels kind complete) (Join.parse (levels + 1) kind complete) := by
  have hbody : Agrees levels (do
      let table ← TableRef.parse
      let on ← TokenParser.after? "ON" (Expr.parse levels)
      if on.isNone then
        if ← seesWord "USING" then fail (.unsupported .joinUsing)
      return (⟨kind, table, on⟩ : Join)) (do
      let table ← TableRef.parse
      let on ← TokenParser.after? "ON" (Expr.parse (levels + 1))
      if on.isNone then
        if ← seesWord "USING" then fail (.unsupported .joinUsing)
      return (⟨kind, table, on⟩ : Join)) :=
    .same _ fun _ => ((Expr.agrees_parse levels).after? "ON").bind fun _ => .refl _ _
  have hword := Agrees.same (needsWord "JOIN") fun _ => hbody
  unfold Join.parse
  exact .ite hbody (.ite (.same _ fun _ => hword) hword)

theorem SelectItem.agrees_parse :
    Agrees levels (SelectItem.parse levels) (SelectItem.parse (levels + 1)) := by
  unfold SelectItem.parse
  refine .same _ fun star => .ite (.refl _ _) (.same _ fun ts => ?_)
  split
  · exact .refl _ _
  · exact .refl _ _
  · exact (Expr.agrees_parse levels).bind fun _ => .refl _ _

theorem OrderItem.agrees_parse :
    Agrees levels (OrderItem.parse levels) (OrderItem.parse (levels + 1)) :=
  (Expr.agrees_parse levels).bind fun _ => .refl _ _

theorem Assignment.agrees_parse :
    Agrees levels (Assignment.parse levels) (Assignment.parse (levels + 1)) :=
  .same _ fun _ => .same _ fun _ => (Expr.agrees_parse levels).bind fun _ => .refl _ _

theorem Select.agrees_parseFrom :
    Agrees levels (Select.parseFrom levels) (Select.parseFrom (levels + 1)) := by
  unfold Select.parseFrom
  refine .same _ fun _ => .ite (.refl _ _) (.same _ fun _ => .ite (.refl _ _) (.same _ fun _ => ?_))
  refine Agrees.bind (.loop (fun joins k => ?_) []) fun _ => .refl _ _
  exact (Join.agrees_parse levels k.1 k.2).bind fun _ => .refl _ _

theorem Select.agrees_parse : Agrees levels (Select.parse levels) (Select.parse (levels + 1)) := by
  have hexpr := Expr.agrees_parse levels
  have hselection : Agrees levels (Select.parseSelection levels)
      (Select.parseSelection (levels + 1)) := by
    have hitems := (SelectItem.agrees_parse levels).list
    unfold Select.parseSelection
    exact .same _ fun _ => .ite (hitems.bind fun _ => .refl _ _)
      (.same _ fun _ => hitems.bind fun _ => .refl _ _)
  rw [Select.parse_eq levels, Select.parse_eq (levels + 1)]
  refine .same _ fun _ => hselection.bind fun _ => ?_
  refine (Select.agrees_parseFrom levels).bind fun _ => ?_
  refine (hexpr.after? "WHERE").bind fun _ => ?_
  refine (hexpr.listAfter "GROUP" "BY").bind fun _ => ?_
  refine (hexpr.after? "HAVING").bind fun _ => ?_
  exact ((OrderItem.agrees_parse levels).listAfter "ORDER" "BY").bind fun _ => .refl _ _

theorem Insert.agrees_parseRow :
    Agrees levels (Insert.parseRow levels) (Insert.parseRow (levels + 1)) := by
  have hvalue : Agrees levels (Insert.parseValue levels) (Insert.parseValue (levels + 1)) :=
    .same _ fun _ => .ite (.refl _ _) (Expr.agrees_parse levels)
  unfold Insert.parseRow
  refine .same _ fun _ => .same _ fun _ => .ite (.refl _ _) ?_
  exact hvalue.list.bind fun _ => .refl _ _

theorem Insert.agrees_parseContent :
    Agrees levels (Insert.parseContent levels) (Insert.parseContent (levels + 1)) := by
  have hassignments := (Assignment.agrees_parse levels).list
  have hvalues (columns : List String) : Agrees levels (do
      Insert.needsValues
      return (columns, ← TokenParser.list (Insert.parseRow levels))) (do
      Insert.needsValues
      return (columns, ← TokenParser.list (Insert.parseRow (levels + 1)))) :=
    .same _ fun _ => (Insert.agrees_parseRow levels).list.bind fun _ => .refl _ _
  rw [Insert.parseContent_eq levels, Insert.parseContent_eq (levels + 1)]
  refine .same _ fun _ => .ite (hassignments.bind fun _ => .refl _ _) ?_
  refine .same _ fun columns => .same _ fun _ => ?_
  exact .ite (.same _ fun _ => hvalues columns) (hvalues columns)

theorem Insert.agrees_parse : Agrees levels (Insert.parse levels) (Insert.parse (levels + 1)) := by
  have hassignments := (Assignment.agrees_parse levels).list
  have hduplicate : Agrees levels (Insert.parseOnDuplicate levels)
      (Insert.parseOnDuplicate (levels + 1)) := by
    unfold Insert.parseOnDuplicate
    refine .same _ fun _ => .ite ?_ (.refl _ _)
    exact .same _ fun _ => .same _ fun _ => .same _ fun _ => hassignments
  rw [Insert.parse_eq levels, Insert.parse_eq (levels + 1)]
  refine .same _ fun _ => .same _ fun _ => ?_
  exact (Insert.agrees_parseContent levels).bind fun _ => hduplicate.bind fun _ => .refl _ _

theorem Update.agrees_parse : Agrees levels (Update.parse levels) (Update.parse (levels + 1)) := by
  have hexpr := Expr.agrees_parse levels
  have hrest (table : TableRef) : Agrees levels (do
      needsWord "SET"
      let assignments ← TokenParser.list (Assignment.parse levels)
      let condition ← TokenParser.after? "WHERE" (Expr.parse levels)
      let limit ← TokenParser.after? "LIMIT" unsigned
      return (⟨table, assignments, condition, limit⟩ : Update)) (do
      needsWord "SET"
      let assignments ← TokenParser.list (Assignment.parse (levels + 1))
      let condition ← TokenParser.after? "WHERE" (Expr.parse (levels + 1))
      let limit ← TokenParser.after? "LIMIT" unsigned
      return (⟨table, assignments, condition, limit⟩ : Update)) :=
    .same _ fun _ => (Assignment.agrees_parse levels).list.bind fun _ =>
      (hexpr.after? "WHERE").bind fun _ => .refl _ _
  rw [Update.parse_eq levels, Update.parse_eq (levels + 1)]
  refine .same _ fun table => .same _ fun _ => .same _ fun _ => ?_
  exact .ite (.same _ fun _ => hrest table) (hrest table)

theorem Delete.agrees_parse : Agrees levels (Delete.parse levels) (Delete.parse (levels + 1)) :=
  .same _ fun _ => .same _ fun _ => .same _ fun _ =>
    ((Expr.agrees_parse levels).after? "WHERE").bind fun _ => .refl _ _

theorem Statement.agrees_parseDirect (word : String) :
    Agrees levels (parseDirect levels word) (parseDirect (levels + 1) word) := by
  unfold parseDirect
  split
  · exact (Select.agrees_parse levels).bind fun _ => .refl _ _
  · exact (Insert.agrees_parse levels).bind fun _ => .refl _ _
  · exact (Insert.agrees_parse levels).bind fun _ => .refl _ _
  · exact (Update.agrees_parse levels).bind fun _ => .refl _ _
  · exact (Delete.agrees_parse levels).bind fun _ => .refl _ _
  · exact .refl _ _

end Statements

namespace Statement

/-- A statement is read as with one level more, unless it is nested too deep for this many. -/
theorem agrees_parseWithin (levels : Nat) :
    Agrees levels (parseWithin levels) (parseWithin (levels + 1)) := by
  induction levels with
  | zero =>
    rw [parseWithin, parseWithin]
    refine .same _ fun ts => ?_
    split
    · exact .refl _ _
    · exact .ite (.ite (.same _ fun _ => .of_refuse _) (.refl _ _)) (agrees_parseDirect 0 _)
    · exact .refl _ _
  | succ levels ih =>
    intro ts
    rw [parseWithin, parseWithin, run_ahead_bind, run_ahead_bind]
    split
    · exact .inl rfl
    · next w rest =>
      -- EXPLAIN is read before the level that it takes
      have hexplain : (do return explain (← parseWithin levels)).Agrees levels
          (do return explain (← parseWithin (levels + 1))) := ih.bind fun _ => .refl _ _
      split
      · split
        · rcases hexplain rest with heq | ⟨hdeep, hlength⟩
          · exact .inl heq
          · exact .inr ⟨hdeep, Nat.succ_le_succ hlength⟩
        · exact .inl rfl
      · exact agrees_parseDirect (levels + 1) w (.word w :: rest)
    · exact .inl rfl

theorem agrees_parseWithin_of_le {m n : Nat} (h : m ≤ n) :
    Agrees m (parseWithin m) (parseWithin n) := by
  induction h with
  | refl => exact .refl _ _
  | step hle ih => exact ih.trans (agrees_parseWithin _) hle

/-- EXPLAIN takes a word and a level. -/
theorem run_parseWithin_eq_explain {levels : Nat} {ts rest : List Token} {inner : Statement}
    (h : (parseWithin levels).run ts = .ok (explain inner, rest)) :
    ∃ m t us, levels = m + 1 ∧ ts = t :: us ∧ (parseWithin m).run us = .ok (inner, rest) := by
  unfold parseWithin at h
  simp only [run_ahead_bind] at h
  split at h
  · cases h
  · next w us =>
    split at h
    · split at h
      · simp only [run_skip_bind] at h
        cases levels with
        | zero => cases h
        | succ levels =>
          obtain ⟨inner', ts₁, hinner, hpure⟩ := run_bind_eq_ok.mp h
          cases hpure
          exact ⟨levels, .word w, us, rfl, rfl, hinner⟩
      · cases h
    · unfold parseDirect at h
      split at h
      all_goals
        obtain ⟨x, ts₁, hx, hpure⟩ := run_bind_eq_ok.mp h
        cases hpure
  · cases h

/-- The statement inside all EXPLAINs. -/
def innermost : Statement → Statement
  | explain inner => inner.innermost
  | stmt => stmt

theorem written_innermost_of_run {stmt : Statement} {levels : Nat} {ts rest : List Token}
    (hlevels : levels ≤ maxLevels) (hts : ∀ t ∈ ts, t.Scanned)
    (h : (parseWithin levels).run ts = .ok (stmt, rest)) :
    stmt.innermost.Written ∨ ∃ tokens, stmt.innermost = other tokens := by
  induction stmt generalizing levels ts with
  | explain inner ih =>
    obtain ⟨m, t, us, rfl, rfl, hinner⟩ := run_parseWithin_eq_explain h
    exact ih (Nat.le_of_succ_le hlevels) (fun t ht => hts t (List.mem_cons_of_mem _ ht)) hinner
  | other tokens => exact .inr ⟨tokens, rfl⟩
  | select | insert | update | delete =>
    have hmost := (agrees_parseWithin_of_le hlevels).ok h
    rcases written_of_run hts hmost with hwritten | ⟨inner, ⟨⟩⟩ | ⟨tokens, ⟨⟩⟩
    exact .inl hwritten

/-- What a text says inside its EXPLAINs is written, unless it is not taken apart. -/
theorem written_innermost_of_ofString? {text : String} {stmt : Statement}
    (h : ofString? text = .ok stmt) :
    stmt.innermost.Written ∨ ∃ tokens, stmt.innermost = other tokens := by
  obtain ⟨ts, semicolons, hscan, hrun⟩ := ofString?_eq_ok h
  refine written_innermost_of_run (Nat.le_refl maxLevels) (fun t ht => ?_) hrun
  exact Token.scanned_of_mem_scan hscan t (List.mem_append_left _ ht)

end Statement

end ShardedSql.Sql
