import ShardedSql.Sql.Statement.Parse

namespace ShardedSql.Sql

/-- The name that a token behind a dot gives. -/
def Token.part? : Token → Option String
  | word w => some w
  | quoted q => some q
  | _ => none

namespace TokenParser

variable {α β σ : Type} {ts rest : List Token}

/-- Whether a list of tokens starts with a keyword. -/
def OpensWith (kw : String) (ts : List Token) : Prop := ts.head?.any (·.isKeyword kw) = true

instance (kw : String) (ts : List Token) : Decidable (OpensWith kw ts) :=
  inferInstanceAs (Decidable (_ = true))

@[simp] theorem not_opensWith_nil (kw : String) : ¬OpensWith kw [] := by simp [OpensWith]

@[simp] theorem opensWith_cons (kw : String) (t : Token) (ts : List Token) :
    OpensWith kw (t :: ts) ↔ t.isKeyword kw = true := by simp [OpensWith]

theorem opensWith_append {kw : String} {us : List Token} (h : us ≠ []) (ts : List Token) :
    OpensWith kw (us ++ ts) ↔ OpensWith kw us := by
  cases us with
  | nil => exact absurd rfl h
  | cons u us => simp

@[simp] theorem run_pure (a : α) : (pure a : TokenParser α).run ts = .ok (a, ts) := rfl

theorem run_bind (p : TokenParser α) (f : α → TokenParser β) :
    (p >>= f).run ts = match p.run ts with
      | .error e => .error e
      | .ok (a, rest) => (f a).run rest := rfl

theorem ext {p q : TokenParser α} (h : ∀ ts, p.run ts = q.run ts) : p = q := by
  obtain ⟨run, shrinks⟩ := p
  obtain ⟨run', shrinks'⟩ := q
  obtain rfl : run = run' := funext h
  rfl

theorem pure_then (a : α) (f : α → TokenParser β) : pure a >>= f = f a := rfl

theorem then_assoc {γ : Type} (p : TokenParser α) (f : α → TokenParser β) (g : β → TokenParser γ) :
    p >>= f >>= g = p >>= fun a => f a >>= g := by
  refine ext fun ts => ?_
  rw [run_bind, run_bind, run_bind]
  cases p.run ts <;> rfl

theorem ite_then (b : Bool) (p q : TokenParser α) (f : α → TokenParser β) :
    (if b then p else q) >>= f = if b then p >>= f else q >>= f := by
  cases b <;> rfl

theorem then_pure (p : TokenParser α) : p >>= pure = p := by
  refine ext fun ts => ?_
  rw [run_bind]
  cases p.run ts <;> rfl

theorem run_bind_of_ok {p : TokenParser α} {f : α → TokenParser β} {a : α}
    (h : p.run ts = .ok (a, rest)) : (p >>= f).run ts = (f a).run rest := by
  rw [run_bind, h]

@[simp] theorem run_bind_eq_ok {p : TokenParser α} {f : α → TokenParser β} {b : β} :
    (p >>= f).run ts = .ok (b, rest) ↔
      ∃ a mid, p.run ts = .ok (a, mid) ∧ (f a).run mid = .ok (b, rest) := by
  rw [run_bind]
  cases p.run ts with
  | error e => simp
  | ok r =>
    constructor
    · exact fun h => ⟨r.1, r.2, rfl, h⟩
    · rintro ⟨a, mid, ⟨⟩, h⟩
      exact h

@[simp] theorem run_ite {c : Prop} [Decidable c] (p q : TokenParser α) :
    (if c then p else q).run ts = if c then p.run ts else q.run ts := by
  split <;> rfl

@[simp] theorem run_fail (e : Error) : (fail e : TokenParser α).run ts = .error e := rfl

@[simp] theorem run_refuse (e : ParseError) :
    (refuse e : TokenParser α).run ts = .error (.parse e) := rfl

@[simp] theorem run_missing (what : String) :
    (missing what : TokenParser α).run ts = .error (.parse (.expected what ts.head?)) := rfl

@[simp] theorem run_ahead : ahead.run ts = .ok (ts, ts) := rfl

@[simp] theorem run_next : next.run ts = .ok (ts.head?, ts.tail) := rfl

@[simp] theorem run_skip (n : Nat) : (skip n).run ts = .ok ((), ts.drop n) := rfl

@[simp] theorem run_sees (n : Nat) (test : Token → Bool) :
    (sees n test).run ts = .ok (ts[n]?.any test, ts) := rfl

@[simp] theorem run_pure_bind (a : α) (f : α → TokenParser β) :
    (pure a >>= f).run ts = (f a).run ts := rfl

@[simp] theorem run_ahead_bind (f : List Token → TokenParser β) :
    (ahead >>= f).run ts = (f ts).run ts := rfl

@[simp] theorem run_next_bind (f : Option Token → TokenParser β) :
    (next >>= f).run ts = (f ts.head?).run ts.tail := rfl

@[simp] theorem run_skip_bind (n : Nat) (f : Unit → TokenParser β) :
    (skip n >>= f).run ts = (f ()).run (ts.drop n) := rfl

@[simp] theorem run_sees_bind (n : Nat) (test : Token → Bool) (f : Bool → TokenParser β) :
    (sees n test >>= f).run ts = (f (ts[n]?.any test)).run ts := rfl

@[simp] theorem run_takes (test : Token → Bool) :
    (takes test).run ts =
      if ts.head?.any test then .ok (true, ts.tail) else .ok (false, ts) := by
  unfold takes
  rw [run_bind_of_ok (run_sees 0 test), ← List.head?_eq_getElem?, run_ite]
  cases ts <;> rfl

theorem run_takesWord (kw : String) :
    (takesWord kw).run ts = if OpensWith kw ts then .ok (true, ts.tail) else .ok (false, ts) :=
  run_takes _

theorem run_takesWord_of_opens {kw : String} (h : OpensWith kw ts) :
    (takesWord kw).run ts = .ok (true, ts.tail) := by
  rw [run_takesWord, if_pos h]

theorem run_takesWord_of_not_opens {kw : String} (h : ¬OpensWith kw ts) :
    (takesWord kw).run ts = .ok (false, ts) := by
  rw [run_takesWord, if_neg h]

theorem isKeyword_unique {t : Token} {kw kw' : String} (h : t.isKeyword kw = true)
    (h' : t.isKeyword kw' = true) : kw = kw' := by
  cases t with
  | word w => exact (eq_of_beq h).symm.trans (eq_of_beq h')
  | _ => cases h

theorem not_opensWith_of_isKeyword {t : Token} {kw kw' : String} (h : t.isKeyword kw = true)
    (hne : kw ≠ kw') (ts : List Token) : ¬OpensWith kw' (t :: ts) := by
  rw [opensWith_cons]
  exact fun h' => hne (isKeyword_unique h h')

/-- A keyword that is taken stands at the front; one that is not does not. -/
theorem run_takesWord_eq_ok {kw : String} {b : Bool} {mid : List Token} :
    (takesWord kw).run ts = .ok (b, mid) ↔
      (b = true ∧ ∃ t, t.isKeyword kw = true ∧ ts = t :: mid) ∨
        (b = false ∧ ¬OpensWith kw ts ∧ ts = mid) := by
  by_cases h : OpensWith kw ts
  · rw [run_takesWord_of_opens h]
    cases ts with
    | nil => exact absurd h (not_opensWith_nil kw)
    | cons t ts =>
      constructor
      · rintro ⟨⟩
        exact .inl ⟨rfl, t, (opensWith_cons kw t ts).mp h, rfl⟩
      · rintro (⟨rfl, t', _, ⟨⟩⟩ | ⟨_, hn, _⟩)
        · rfl
        · exact absurd h hn
  · rw [run_takesWord_of_not_opens h]
    constructor
    · rintro ⟨⟩
      exact .inr ⟨rfl, h, rfl⟩
    · rintro (⟨_, t, ht, rfl⟩ | ⟨rfl, _, rfl⟩)
      · exact absurd ((opensWith_cons kw t mid).mpr ht) h
      · rfl

theorem run_takesSymbol_eq_ok {s : Symbol} {b : Bool} {mid : List Token} :
    (takesSymbol s).run ts = .ok (b, mid) ↔
      (b = true ∧ ts = .symbol s :: mid) ∨
        (b = false ∧ ts.head? ≠ some (.symbol s) ∧ ts = mid) := by
  unfold takesSymbol
  rw [run_takes]
  cases ts with
  | nil => cases b <;> simp
  | cons t ts =>
    by_cases h : t = .symbol s <;> cases b <;> simp [Token.isSymbol, h]

@[simp] theorem run_needsWord_eq_ok {kw : String} {u : Unit} :
    (needsWord kw).run ts = .ok (u, rest) ↔ ∃ t, t.isKeyword kw = true ∧ ts = t :: rest := by
  unfold needsWord
  simp only [run_bind_eq_ok, run_takesWord_eq_ok]
  constructor
  · rintro ⟨b, mid, (⟨rfl, t, ht, rfl⟩ | ⟨rfl, h, rfl⟩), hrun⟩
    · simp only [if_true, run_pure] at hrun
      cases hrun
      exact ⟨t, ht, rfl⟩
    · simp at hrun
  · rintro ⟨t, ht, rfl⟩
    exact ⟨true, rest, .inl ⟨rfl, t, ht, rfl⟩, rfl⟩

@[simp] theorem run_needsSymbol_eq_ok {s : Symbol} {u : Unit} :
    (needsSymbol s).run ts = .ok (u, rest) ↔ ts = .symbol s :: rest := by
  unfold needsSymbol
  simp only [run_bind_eq_ok, run_takesSymbol_eq_ok]
  constructor
  · rintro ⟨b, mid, (⟨rfl, rfl⟩ | ⟨rfl, h, rfl⟩), hrun⟩
    · simp only [if_true, run_pure] at hrun
      cases hrun
      rfl
    · simp at hrun
  · rintro rfl
    exact ⟨true, rest, .inl ⟨rfl, rfl⟩, rfl⟩

theorem run_seesWord_bind (kw : String) (f : Bool → TokenParser β) :
    (seesWord kw >>= f).run ts = (f (decide (OpensWith kw ts))).run ts := by
  have h : ts[0]?.any (·.isKeyword kw) = decide (OpensWith kw ts) := by
    cases ts <;> simp
  rw [← h]
  rfl

theorem run_seesSymbol_bind (s : Symbol) (f : Bool → TokenParser β) :
    (seesSymbol s >>= f).run ts = (f (decide (ts.head? = some (.symbol s)))).run ts := by
  have h : ts[0]?.any (·.isSymbol s) = decide (ts.head? = some (.symbol s)) := by
    cases ts <;> simp [Token.isSymbol, Bool.beq_eq_decide_eq]
  rw [← h]
  rfl

/-- What is read where something is refused is read where that is not there. -/
theorem run_unless_eq_ok {b : Bool} {e : Error} {p : TokenParser α} {x : α} :
    (do
      if b then fail e
      p : TokenParser α).run ts = .ok (x, rest) ↔ b = false ∧ p.run ts = .ok (x, rest) := by
  cases b <;> simp

theorem run_unless_word_eq_ok {kw : String} {e : Error} {p : TokenParser α} {x : α} :
    (do
      if ← seesWord kw then fail e
      p : TokenParser α).run ts = .ok (x, rest) ↔ ¬OpensWith kw ts ∧ p.run ts = .ok (x, rest) := by
  rw [run_seesWord_bind, run_unless_eq_ok, decide_eq_false_iff_not]

theorem run_unless_symbol_eq_ok {s : Symbol} {e : Error} {p : TokenParser α} {x : α} :
    (do
      if ← seesSymbol s then fail e
      p : TokenParser α).run ts = .ok (x, rest) ↔
      ts.head? ≠ some (.symbol s) ∧ p.run ts = .ok (x, rest) := by
  rw [run_seesSymbol_bind, run_unless_eq_ok, decide_eq_false_iff_not]

theorem run_takesSymbol_cons (s : Symbol) :
    (takesSymbol s).run (.symbol s :: ts) = .ok (true, ts) :=
  run_takesSymbol_eq_ok.mpr (.inl ⟨rfl, rfl⟩)

theorem run_takesSymbol_of_ne {s : Symbol} (h : ts.head? ≠ some (.symbol s)) :
    (takesSymbol s).run ts = .ok (false, ts) :=
  run_takesSymbol_eq_ok.mpr (.inr ⟨rfl, h, rfl⟩)

theorem run_needsSymbol_cons (s : Symbol) :
    (needsSymbol s).run (.symbol s :: ts) = .ok ((), ts) := run_needsSymbol_eq_ok.mpr rfl

theorem run_needsWord_cons {kw : String} {t : Token} (h : t.isKeyword kw = true) :
    (needsWord kw).run (t :: ts) = .ok ((), ts) := run_needsWord_eq_ok.mpr ⟨t, h, rfl⟩

theorem exists_head_eq {P : Token → Prop} {t : Token} :
    (∃ t', P t' ∧ t :: ts = t' :: rest) ↔ P t ∧ ts = rest := by
  constructor
  · rintro ⟨_, h, ⟨⟩⟩
    exact ⟨h, rfl⟩
  · rintro ⟨h, rfl⟩
    exact ⟨t, h, rfl⟩

theorem run_nameAfterDot_eq_ok {n : String} :
    nameAfterDot.run ts = .ok (n, rest) ↔ ∃ t, t.part? = some n ∧ ts = t :: rest := by
  unfold nameAfterDot
  cases ts with
  | nil => simp
  | cons t ts =>
    rw [exists_head_eq]
    cases t <;> simp [Token.part?]

theorem run_name_eq_ok {n : String} :
    name.run ts = .ok (n, rest) ↔ ∃ t, t.name? = some n ∧ ts = t :: rest := by
  unfold name
  cases ts with
  | nil => simp
  | cons t ts =>
    rw [exists_head_eq]
    cases h : t.name? <;> simp [h]

theorem loopRun_of_some {sign : Token → Option σ} {step : α → σ → TokenParser α} {a a' : α} {s : σ}
    {t : Token} (hs : sign t = some s) (h : (step a s).run ts = .ok (a', rest)) :
    loopRun sign step a (t :: ts) = loopRun sign step a' rest := by
  rw [loopRun, hs]
  simp only []
  split
  · next h' =>
    rw [h] at h'
    cases h'
  · next h' =>
    rw [h] at h'
    cases h'
    rfl

theorem loopRun_of_none {sign : Token → Option σ} {step : α → σ → TokenParser α} {a : α}
    (h : ∀ t ∈ ts.head?, sign t = none) : loopRun sign step a ts = .ok (a, ts) := by
  cases ts with
  | nil => rw [loopRun]
  | cons t ts => rw [loopRun, h t rfl]

theorem run_loop (sign : Token → Option σ) (step : α → σ → TokenParser α) (a : α) :
    (loop sign step a).run ts = loopRun sign step a ts := rfl

/-- Whether a list of tokens starts with a test that NOT may stand before. -/
def OpensTest (ts : List Token) : Prop :=
  OpensWith "IN" ts ∨ OpensWith "BETWEEN" ts ∨ OpensWith "LIKE" ts

/-- NOT is read as a part of a test if a test follows it. -/
theorem run_takesNegation_eq_ok {n : Bool} :
    Expr.takesNegation.run ts = .ok (n, rest) ↔
      (n = true ∧ OpensTest rest ∧ ∃ t, t.isKeyword "NOT" = true ∧ ts = t :: rest) ∨
        (n = false ∧ (OpensWith "NOT" ts → ¬OpensTest ts.tail) ∧ ts = rest) := by
  unfold Expr.takesNegation
  rw [run_seesWord_bind, run_sees_bind]
  cases ts with
  | nil =>
    simp only [not_opensWith_nil, decide_false, Bool.false_and, Bool.false_eq_true, if_false,
      run_pure]
    constructor
    · rintro ⟨⟩
      exact .inr ⟨rfl, nofun, rfl⟩
    · rintro (⟨-, -, t', -, ⟨⟩⟩ | ⟨rfl, -, rfl⟩)
      rfl
  | cons t ts =>
    have htest : (t :: ts)[1]?.any (fun t => t.isKeyword "IN" || t.isKeyword "BETWEEN" ||
        t.isKeyword "LIKE") = true ↔ OpensTest ts := by
      cases ts <;> simp [OpensTest, or_assoc]
    by_cases hnot : t.isKeyword "NOT" = true
    · by_cases h : OpensTest ts
      · simp only [opensWith_cons, hnot, decide_true, htest.mpr h, Bool.and_self, if_true,
          run_skip_bind, List.drop_succ_cons, List.drop_zero, run_pure, List.tail_cons]
        constructor
        · rintro ⟨⟩
          exact .inl ⟨rfl, h, t, hnot, rfl⟩
        · rintro (⟨rfl, -, t', -, ⟨⟩⟩ | ⟨-, hn, -⟩)
          · rfl
          · exact absurd h (hn trivial)
      · rw [Bool.eq_false_iff.mpr (mt htest.mp h)]
        simp only [Bool.and_false, Bool.false_eq_true, if_false, run_pure, List.tail_cons]
        constructor
        · rintro ⟨⟩
          exact .inr ⟨rfl, fun _ => h, rfl⟩
        · rintro (⟨-, h', t', -, ⟨⟩⟩ | ⟨rfl, -, rfl⟩)
          · exact absurd h' h
          · rfl
    · simp only [opensWith_cons, hnot, decide_false, Bool.false_and, Bool.false_eq_true, if_false,
        run_pure]
      constructor
      · rintro ⟨⟩
        exact .inr ⟨rfl, fun h => absurd h (by simp), rfl⟩
      · rintro (⟨-, -, t', ht', ⟨⟩⟩ | ⟨rfl, -, rfl⟩)
        · exact absurd ht' hnot
        · rfl

end TokenParser

end ShardedSql.Sql
