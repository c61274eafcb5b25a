import ShardedSql.Proofs.Sql.Grammar

namespace ShardedSql.Sql

open TokenParser

/-- Whatever a parser reads, it is something that the read tokens may be read as. -/
def Sound {α : Type} (p : TokenParser α) (D : α → List Token → Prop) : Prop :=
  ∀ ⦃ts : List Token⦄ ⦃a : α⦄ ⦃rest : List Token⦄, p.run ts = .ok (a, rest) →
    ∃ u, ts = u ++ rest ∧ D a u

namespace Sound

variable {α β σ : Type}

theorem mono {p : TokenParser α} {D E : α → List Token → Prop} (h : Sound p D)
    (hDE : ∀ a u, D a u → E a u) : Sound p E := by
  intro ts a rest hrun
  obtain ⟨u, hu, hD⟩ := h hrun
  exact ⟨u, hu, hDE a u hD⟩

/-- What every round of a loop keeps up holds for the loop. -/
theorem loopRun {sign : Token → Option σ} {step : α → σ → TokenParser α}
    {I : α → List Token → Prop} (hstep : ∀ {a : α} {s : σ} {t : Token} {u : List Token},
      sign t = some s → I a u → Sound (step a s) fun a' v => I a' (u ++ t :: v))
    {ts rest : List Token} {a b : α} {u : List Token}
    (h : TokenParser.loopRun sign step a ts = .ok (b, rest)) (ha : I a u) :
    ∃ v, ts = v ++ rest ∧ I b (u ++ v) := by
  fun_induction TokenParser.loopRun sign step a ts generalizing u with
  | case1 a =>
    cases h
    exact ⟨[], rfl, by simpa using ha⟩
  | case2 a t ts hs =>
    cases h
    exact ⟨[], rfl, by simpa using ha⟩
  | case3 => cases h
  | case4 a t ts s hs a' mid hrun ih =>
    obtain ⟨v, rfl, hv⟩ := hstep hs ha hrun
    obtain ⟨w, rfl, hw⟩ := ih h hv
    exact ⟨t :: v ++ w, by simp, by simpa using hw⟩

theorem list {item : TokenParser α} {D : α → List Token → Prop} (h : Sound item D) :
    Sound (TokenParser.list item) fun xs u => ∃ ps : List (α × List Token), ps ≠ [] ∧
      xs = ps.map (·.1) ∧ u = commaTokens (ps.map (·.2)) ∧ ∀ p ∈ ps, D p.1 p.2 := by
  intro ts xs rest hrun
  unfold TokenParser.list at hrun
  obtain ⟨x, mid, hx, hloop⟩ := run_bind_eq_ok.mp hrun
  obtain ⟨u, rfl, hu⟩ := h hx
  have hfirst : ∃ ps : List (α × List Token), ps ≠ [] ∧ [x] = ps.map (·.1) ∧
      u = commaTokens (ps.map (·.2)) ∧ ∀ p ∈ ps, D p.1 p.2 :=
    ⟨[(x, u)], by simp, rfl, rfl, by simpa using hu⟩
  have hstep : ∀ {items : List α} {s : Unit} {t : Token} {w : List Token}, commaSign t = some s →
      (∃ ps : List (α × List Token), ps ≠ [] ∧ items = ps.map (·.1) ∧
        w = commaTokens (ps.map (·.2)) ∧ ∀ p ∈ ps, D p.1 p.2) →
      Sound (do return items ++ [← item]) fun items' v => ∃ ps : List (α × List Token), ps ≠ [] ∧
        items' = ps.map (·.1) ∧ w ++ t :: v = commaTokens (ps.map (·.2)) ∧
          ∀ p ∈ ps, D p.1 p.2 := by
    intro items _ t w ht hI ts' items' rest' hrun
    obtain ⟨ps, hne, rfl, rfl, hps⟩ := hI
    have hcomma : t = .symbol .comma := by
      unfold commaSign at ht
      split at ht
      · next hc => simpa [Token.isSymbol] using hc
      · cases ht
    obtain ⟨y, mid', hy, hpure⟩ := run_bind_eq_ok.mp hrun
    cases hpure
    obtain ⟨v, rfl, hv⟩ := h hy
    refine ⟨v, rfl, ps ++ [(y, v)], by simp, by simp, ?_, ?_⟩
    · rw [List.map_append, List.map_singleton, commaTokens_concat (by simpa using hne), hcomma]
    · intro p hp
      rcases List.mem_append.mp hp with hp | hp
      · exact hps p hp
      · obtain rfl := List.mem_singleton.mp hp
        exact hv
  obtain ⟨v, rfl, hv⟩ := Sound.loopRun (I := fun xs u => ∃ ps : List (α × List Token), ps ≠ [] ∧
    xs = ps.map (·.1) ∧ u = commaTokens (ps.map (·.2)) ∧ ∀ p ∈ ps, D p.1 p.2) hstep hloop hfirst
  exact ⟨u ++ v, by simp, hv⟩

end Sound

/-- What the parsers of nested expressions read, where so many levels are left. -/
structure SoundWithin (deeper : Nested) (k : Nat) : Prop where
  expr : Sound deeper.expr fun e u => ∃ j, k = j + 1 ∧ Derives j .disjunction e u
  negated : Sound deeper.negated fun e u => ∃ j, k = j + 1 ∧ Derives j .negation e u
  signed : Sound deeper.signed fun e u => ∃ j, k = j + 1 ∧ Derives j .signed e u

namespace SoundWithin

variable {deeper : Nested} {k : Nat}

theorem flag {kw : String} : Sound (takesWord kw) fun b u => Flag kw b u := by
  intro ts b rest hrun
  rcases run_takesWord_eq_ok.mp hrun with ⟨rfl, t, ht, rfl⟩ | ⟨rfl, -, rfl⟩
  · exact ⟨[t], rfl, .on ht⟩
  · exact ⟨[], rfl, .off⟩

theorem exprs (h : SoundWithin deeper k) : Sound (TokenParser.list deeper.expr) fun es u =>
    ∃ (j : Nat) (ps : List (Expr × List Token)), k = j + 1 ∧ ps ≠ [] ∧ es = ps.map (·.1) ∧
      u = commaTokens (ps.map (·.2)) ∧ ∀ p ∈ ps, Derives j .disjunction p.1 p.2 := by
  refine h.expr.list.mono ?_
  rintro es u ⟨ps, hne, rfl, rfl, hps⟩
  obtain ⟨p, ps, rfl⟩ := List.exists_cons_of_ne_nil hne
  obtain ⟨j, rfl, -⟩ := hps p (by simp)
  refine ⟨j, p :: ps, rfl, hne, rfl, rfl, fun q hq => ?_⟩
  obtain ⟨i, hi, hq⟩ := hps q hq
  cases hi
  exact hq

theorem parseCall (h : SoundWithin deeper k) {w : String} (hw : literalWord? w = none) :
    Sound (Expr.parseCall deeper w) fun e u => Derives k .primary e (.word w :: u) := by
  intro ts e rest hrun
  unfold Expr.parseCall at hrun
  obtain ⟨_, mid, hopen, h₁⟩ := run_bind_eq_ok.mp hrun
  obtain ⟨d, mid₂, hd, h₂⟩ := run_bind_eq_ok.mp h₁
  obtain ⟨star, mid₃, hstar, h₃⟩ := run_bind_eq_ok.mp h₂
  have hpos : d = false → ¬OpensWith "DISTINCT" mid₂ := by
    rintro rfl
    rcases run_takesWord_eq_ok.mp hd with ⟨⟨⟩, _⟩ | ⟨-, hn, rfl⟩
    exact hn
  obtain rfl := run_needsSymbol_eq_ok.mp hopen
  obtain ⟨us, rfl, hflag⟩ := flag hd
  rcases run_takesSymbol_eq_ok.mp hstar with ⟨rfl, rfl⟩ | ⟨rfl, -, rfl⟩
  · simp only [if_true, run_seesSymbol_bind, run_pure_bind] at h₃
    obtain ⟨_, _, hclose, hpure⟩ := run_bind_eq_ok.mp h₃
    obtain rfl := run_needsSymbol_eq_ok.mp hclose
    cases hpure
    exact ⟨.symbol .leftParen :: us ++ [.symbol .star, .symbol .rightParen], by simp,
      .callStar hw hflag⟩
  · simp only [Bool.false_eq_true, if_false, run_seesSymbol_bind] at h₃
    by_cases hclosed : mid₂.head? = some (.symbol .rightParen)
    · simp only [hclosed, decide_true, if_true, run_pure_bind] at h₃
      obtain ⟨_, _, hclose, hpure⟩ := run_bind_eq_ok.mp h₃
      obtain rfl := run_needsSymbol_eq_ok.mp hclose
      cases hpure
      exact ⟨.symbol .leftParen :: us ++ [.symbol .rightParen], by simp, .callNone hw hflag⟩
    · simp only [hclosed, decide_false, Bool.false_eq_true, if_false] at h₃
      obtain ⟨args, mid₄, hargs, h₄⟩ := run_bind_eq_ok.mp h₃
      obtain ⟨_, _, hclose, hpure⟩ := run_bind_eq_ok.mp h₄
      obtain rfl := run_needsSymbol_eq_ok.mp hclose
      cases hpure
      obtain ⟨u, rfl, j, ps, rfl, hne, rfl, rfl, hps⟩ := h.exprs hargs
      have hargs := Derives.commaTokens_ne_nil hne hps
      have hcall := Derives.call hw hflag hne hps fun hd' => by
        have hn := hpos hd'
        rwa [opensWith_append hargs] at hn
      exact ⟨.symbol .leftParen :: us ++ commaTokens (ps.map (·.2)) ++ [.symbol .rightParen],
        by simp, by simpa using hcall⟩

theorem parseVar : Sound Expr.parseVar fun e u => Derives k .primary e (.symbol .atSign :: u) := by
  intro ts e rest hrun
  unfold Expr.parseVar at hrun
  obtain ⟨double, mid, hsign, h₁⟩ := run_bind_eq_ok.mp hrun
  obtain ⟨first, mid₂, hfirst, h₂⟩ := run_bind_eq_ok.mp h₁
  obtain ⟨n, mid₃, hloop, hpure⟩ := run_bind_eq_ok.mp h₂
  cases hpure
  obtain ⟨t, ht, rfl⟩ := run_nameAfterDot_eq_ok.mp hfirst
  have hstart : ∃ u, ts = u ++ mid₂ ∧
      VarTokens ((if double = true then "@@" else "@") ++ first) u := by
    rcases run_takesSymbol_eq_ok.mp hsign with ⟨rfl, rfl⟩ | ⟨rfl, -, rfl⟩
    · exact ⟨[.symbol .atSign, t], rfl, .double ht⟩
    · exact ⟨[t], rfl, .single ht⟩
  have hstep : ∀ {n : String} {s : Unit} {t : Token} {u : List Token}, Expr.dotSign t = some s →
      VarTokens n u → Sound (do return n ++ "." ++ (← nameAfterDot))
        fun m v => VarTokens m (u ++ t :: v) := by
    intro n _ t u ht hn ts' m rest' hrun
    obtain ⟨part, mid, hpart, hpure⟩ := run_bind_eq_ok.mp hrun
    cases hpure
    obtain ⟨t', ht', rfl⟩ := run_nameAfterDot_eq_ok.mp hpart
    have hdot : t = .symbol .dot := by
      unfold Expr.dotSign at ht
      split at ht
      · next hc => simpa [Token.isSymbol] using hc
      · cases ht
    subst hdot
    exact ⟨[t'], rfl, .dotted hn ht'⟩
  obtain ⟨u, rfl, hu⟩ := hstart
  obtain ⟨v, rfl, hv⟩ := Sound.loopRun (I := VarTokens) hstep hloop hu
  exact ⟨u ++ v, by simp, .var hv⟩

theorem parseColumn {t : Token} {first : String} (ht : t.name? = some first) :
    Sound (Expr.parseColumn first) fun e u => Derives k .primary e (t :: u) := by
  intro ts e rest hrun
  unfold Expr.parseColumn at hrun
  obtain ⟨dot, mid, hdot, h₁⟩ := run_bind_eq_ok.mp hrun
  rcases run_takesSymbol_eq_ok.mp hdot with ⟨rfl, rfl⟩ | ⟨rfl, -, rfl⟩
  · obtain ⟨n, mid₂, hn, hpure⟩ := run_bind_eq_ok.mp h₁
    cases hpure
    obtain ⟨t', ht', rfl⟩ := run_nameAfterDot_eq_ok.mp hn
    exact ⟨[.symbol .dot, t'], rfl, .qualified ht ht'⟩
  · cases h₁
    exact ⟨[], rfl, .column ht⟩

theorem parseWord (h : SoundWithin deeper k) (w : String) :
    Sound (Expr.parseWord deeper w) fun e u => Derives k .primary e (.word w :: u) := by
  intro ts e rest hrun
  unfold Expr.parseWord at hrun
  simp only [] at hrun
  by_cases hnull : Text.upper w = "NULL"
  · simp only [hnull, if_true] at hrun
    cases hrun
    exact ⟨[], rfl, .word (by simp [literalWord?, hnull])⟩
  by_cases htrue : Text.upper w = "TRUE"
  · simp only [htrue] at hrun
    cases hrun
    exact ⟨[], rfl, .word (by simp [literalWord?, htrue])⟩
  by_cases hfalse : Text.upper w = "FALSE"
  · simp only [hfalse] at hrun
    cases hrun
    exact ⟨[], rfl, .word (by simp [literalWord?, hfalse])⟩
  have hw : literalWord? w = none := by simp [literalWord?, hnull, htrue, hfalse]
  simp only [hnull, htrue, hfalse, if_false, run_seesSymbol_bind] at hrun
  by_cases hparen : ts.head? = some (.symbol .leftParen)
  · simp only [hparen, decide_true, if_true] at hrun
    exact h.parseCall hw hrun
  · simp only [hparen, decide_false, Bool.false_eq_true, if_false] at hrun
    by_cases hres : isReserved w = true
    · simp only [hres, if_true] at hrun
      cases hrun
    · have hname : (Token.word w).name? = some w := by simp [Token.name?, hres]
      simp only [hres] at hrun
      exact parseColumn hname hrun

theorem parseParen (h : SoundWithin deeper k) : Sound (Expr.parseParen deeper) fun e u =>
    Derives k .primary e (.symbol .leftParen :: u) := by
  intro ts e rest hrun
  unfold Expr.parseParen at hrun
  obtain ⟨hs, hrun⟩ := run_unless_word_eq_ok.mp hrun
  obtain ⟨inner, mid, hinner, h₁⟩ := run_bind_eq_ok.mp hrun
  obtain ⟨_, _, hclose, hpure⟩ := run_bind_eq_ok.mp h₁
  obtain rfl := run_needsSymbol_eq_ok.mp hclose
  cases hpure
  obtain ⟨u, rfl, j, rfl, hu⟩ := h.expr hinner
  rw [opensWith_append hu.ne_nil] at hs
  exact ⟨u ++ [.symbol .rightParen], by simp, by simpa using Derives.paren hu hs⟩

theorem parsePrimary (h : SoundWithin deeper k) :
    Sound (Expr.parsePrimary deeper) fun e u => Derives k .primary e u := by
  intro ts e rest hrun
  unfold Expr.parsePrimary at hrun
  rw [run_next_bind] at hrun
  cases ts with
  | nil => cases hrun
  | cons t ts =>
    have hcons : ∀ {D : Expr → List Token → Prop}, (∃ u, ts = u ++ rest ∧ D e (t :: u)) →
        ∃ u, t :: ts = u ++ rest ∧ D e u := by
      rintro D ⟨u, rfl, hu⟩
      exact ⟨t :: u, rfl, hu⟩
    apply hcons
    cases t with
    | number n =>
      cases hrun
      exact ⟨[], rfl, .number rfl⟩
    | str s =>
      cases hrun
      exact ⟨[], rfl, .text⟩
    | placeholder =>
      cases hrun
      exact ⟨[], rfl, .placeholder⟩
    | word w => exact h.parseWord w hrun
    | quoted q => exact parseColumn rfl hrun
    | symbol s =>
      cases s with
      | leftParen => exact h.parseParen hrun
      | atSign => exact parseVar hrun
      | _ => cases hrun

theorem parseSigned (h : SoundWithin deeper k) :
    Sound (Expr.parseSigned deeper) fun e u => Derives k .signed e u := by
  intro ts e rest hrun
  unfold Expr.parseSigned at hrun
  obtain ⟨minus, mid, hminus, h₁⟩ := run_bind_eq_ok.mp hrun
  rcases run_takesSymbol_eq_ok.mp hminus with ⟨rfl, rfl⟩ | ⟨rfl, -, rfl⟩
  · obtain ⟨x, mid₂, hx, hpure⟩ := run_bind_eq_ok.mp h₁
    cases hpure
    obtain ⟨u, rfl, j, rfl, hu⟩ := h.signed hx
    exact ⟨.symbol .minus :: u, rfl, .negate hu⟩
  · obtain ⟨plus, mid₂, hplus, h₂⟩ := run_bind_eq_ok.mp h₁
    rcases run_takesSymbol_eq_ok.mp hplus with ⟨rfl, rfl⟩ | ⟨rfl, -, rfl⟩
    · obtain ⟨u, rfl, j, rfl, hu⟩ := h.signed h₂
      exact ⟨.symbol .plus :: u, rfl, .plus hu⟩
    · obtain ⟨u, rfl, hu⟩ := h.parsePrimary h₂
      exact ⟨u, rfl, .tighter rfl hu nofun⟩

/-- A chain of operands of the next layer. -/
theorem parseChain {r s : Rank} (hs : r.above = some s) (hr : r ≠ .negation) {op? : Token → Option BinaryOp}
    (hop : r.chainOp? = op?) {operand : TokenParser Expr}
    (h : Sound operand fun e u => Derives k s e u) :
    Sound (Expr.parseChain op? operand) fun e u => Derives k r e u := by
  subst hop
  intro ts e rest hrun
  unfold Expr.parseChain at hrun
  obtain ⟨first, mid, hfirst, hloop⟩ := run_bind_eq_ok.mp hrun
  obtain ⟨u, rfl, hu⟩ := h hfirst
  have hstep : ∀ {l : Expr} {op : BinaryOp} {t : Token} {u : List Token}, r.chainOp? t = some op →
      Derives k r l u → Sound (do return Expr.binary l op (← operand))
        fun e v => Derives k r e (u ++ t :: v) := by
    intro l op t u ht hl ts' e' rest' hrun
    obtain ⟨x, mid, hx, hpure⟩ := run_bind_eq_ok.mp hrun
    cases hpure
    obtain ⟨v, rfl, hv⟩ := h hx
    exact ⟨v, rfl, .chain hs ht hl hv⟩
  obtain ⟨v, rfl, hv⟩ := Sound.loopRun (I := fun e u => Derives k r e u) hstep hloop
    (.tighter hs hu fun he => absurd he hr)
  exact ⟨u ++ v, by simp, hv⟩

theorem parseProduct (h : SoundWithin deeper k) :
    Sound (Expr.parseProduct deeper) fun e u => Derives k .product e u :=
  parseChain (r := .product) rfl (by decide) rfl h.parseSigned

theorem parseSum (h : SoundWithin deeper k) :
    Sound (Expr.parseSum deeper) fun e u => Derives k .sum e u :=
  parseChain (r := .sum) rfl (by decide) rfl h.parseProduct

theorem parseInList (h : SoundWithin deeper k) {e : Expr} {n : Bool} {t : Token}
    {u us : List Token} (ht : t.isKeyword "IN" = true) (hn : Flag "NOT" n us)
    (he : Derives k .sum e u) : Sound (Expr.parseInList deeper e n)
      fun e' v => Derives k .comparison e' (u ++ us ++ t :: v) := by
  intro ts e' rest hrun
  unfold Expr.parseInList at hrun
  obtain ⟨_, mid, hopen, h₁⟩ := run_bind_eq_ok.mp hrun
  obtain rfl := run_needsSymbol_eq_ok.mp hopen
  obtain ⟨hs, h₁⟩ := run_unless_word_eq_ok.mp h₁
  obtain ⟨items, mid₂, hitems, h₂⟩ := run_bind_eq_ok.mp h₁
  obtain ⟨_, _, hclose, hpure⟩ := run_bind_eq_ok.mp h₂
  obtain rfl := run_needsSymbol_eq_ok.mp hclose
  cases hpure
  obtain ⟨v, rfl, j, ps, rfl, hne, rfl, rfl, hps⟩ := h.exprs hitems
  rw [opensWith_append (Derives.commaTokens_ne_nil hne hps)] at hs
  have hin := Derives.inList ht hn hne he hps hs
  exact ⟨.symbol .leftParen :: commaTokens (ps.map (·.2)) ++ [.symbol .rightParen], by simp,
    by simpa using hin⟩

theorem parseBetween (h : SoundWithin deeper k) {e : Expr} {n : Bool} {t : Token}
    {u us : List Token} (ht : t.isKeyword "BETWEEN" = true) (hn : Flag "NOT" n us)
    (he : Derives k .sum e u) : Sound (Expr.parseBetween deeper e n)
      fun e' v => Derives k .comparison e' (u ++ us ++ t :: v) := by
  intro ts e' rest hrun
  unfold Expr.parseBetween at hrun
  obtain ⟨low, mid, hlow, h₁⟩ := run_bind_eq_ok.mp hrun
  obtain ⟨_, mid₂, hand, h₂⟩ := run_bind_eq_ok.mp h₁
  obtain ⟨high, mid₃, hhigh, hpure⟩ := run_bind_eq_ok.mp h₂
  cases hpure
  obtain ⟨v, rfl, hv⟩ := h.parseSum hlow
  obtain ⟨t', ht', rfl⟩ := run_needsWord_eq_ok.mp hand
  obtain ⟨w, rfl, hw⟩ := h.parseSum hhigh
  exact ⟨v ++ t' :: w, by simp, by simpa using Derives.between ht ht' hn he hv hw⟩

/-- What follows the left side of a comparison. -/
theorem parseTest (h : SoundWithin deeper k) {e : Expr} {u : List Token} (he : Derives k .sum e u) :
    Sound (Expr.parseTest deeper e) fun e' v => Derives k .comparison e' (u ++ v) := by
  intro ts e' rest hrun
  unfold Expr.parseTest at hrun
  obtain ⟨is, mid, his, h₁⟩ := run_bind_eq_ok.mp hrun
  rcases run_takesWord_eq_ok.mp his with ⟨rfl, t, ht, rfl⟩ | ⟨rfl, -, rfl⟩
  · obtain ⟨n, mid₂, hn, h₂⟩ := run_bind_eq_ok.mp h₁
    obtain ⟨_, mid₃, hnull, hpure⟩ := run_bind_eq_ok.mp h₂
    cases hpure
    obtain ⟨us, rfl, hflag⟩ := flag hn
    obtain ⟨t', ht', rfl⟩ := run_needsWord_eq_ok.mp hnull
    exact ⟨t :: us ++ [t'], by simp, by simpa using Derives.isNull ht ht' hflag he⟩
  · simp only [Bool.false_eq_true, if_false] at h₁
    obtain ⟨n, mid₂, hn, h₂⟩ := run_bind_eq_ok.mp h₁
    have hus : ∃ us, ts = us ++ mid₂ ∧ Flag "NOT" n us ∧ (OpensTest mid₂ ∨ us = []) := by
      rcases run_takesNegation_eq_ok.mp hn with ⟨rfl, htest, t, ht, rfl⟩ | ⟨rfl, -, rfl⟩
      · exact ⟨[t], rfl, .on ht, .inl htest⟩
      · exact ⟨[], rfl, .off, .inr rfl⟩
    obtain ⟨us, rfl, hflag, hempty⟩ := hus
    have hlift : ∀ {t : Token} {mid : List Token}, (∃ v, mid = v ++ rest ∧
        Derives k .comparison e' (u ++ us ++ t :: v)) →
        ∃ v, us ++ t :: mid = v ++ rest ∧ Derives k .comparison e' (u ++ v) := by
      rintro t _ ⟨v, rfl, hv⟩
      exact ⟨us ++ t :: v, by simp, by simpa using hv⟩
    obtain ⟨isIn, mid₃, hin, h₃⟩ := run_bind_eq_ok.mp h₂
    rcases run_takesWord_eq_ok.mp hin with ⟨rfl, t, ht, rfl⟩ | ⟨rfl, hnotIn, rfl⟩
    · exact hlift (h.parseInList ht hflag he h₃)
    obtain ⟨isBetween, mid₄, hbetween, h₄⟩ := run_bind_eq_ok.mp h₃
    rcases run_takesWord_eq_ok.mp hbetween with ⟨rfl, t, ht, rfl⟩ | ⟨rfl, hnotBetween, rfl⟩
    · exact hlift (h.parseBetween ht hflag he h₄)
    obtain ⟨isLike, mid₅, hlike, h₅⟩ := run_bind_eq_ok.mp h₄
    rcases run_takesWord_eq_ok.mp hlike with ⟨rfl, t, ht, rfl⟩ | ⟨rfl, hnotLike, rfl⟩
    · obtain ⟨p, mid₆, hp, hpure⟩ := run_bind_eq_ok.mp h₅
      cases hpure
      obtain ⟨v, rfl, hv⟩ := h.parseSum hp
      exact hlift ⟨v, rfl, .like ht hflag he hv⟩
    have hnone : us = [] := by
      rcases hempty with (hw | hw | hw) | hw
      · exact absurd hw hnotIn
      · exact absurd hw hnotBetween
      · exact absurd hw hnotLike
      · exact hw
    subst hnone
    simp only [Bool.false_eq_true, if_false, run_ahead_bind] at h₅
    cases hop : mid₂.head?.bind Expr.comparisonOp? with
    | none =>
      rw [hop] at h₅
      cases h₅
      exact ⟨[], rfl, by simpa using Derives.tighter (r := .comparison) rfl he nofun⟩
    | some op =>
      rw [hop] at h₅
      obtain ⟨t, ht, hop⟩ := Option.bind_eq_some_iff.mp hop
      obtain ⟨mid₆, rfl⟩ := List.head?_eq_some_iff.mp ht
      simp only [run_skip_bind, List.drop_succ_cons, List.drop_zero] at h₅
      obtain ⟨x, mid₇, hx, hpure⟩ := run_bind_eq_ok.mp h₅
      cases hpure
      obtain ⟨v, rfl, hv⟩ := h.parseSum hx
      exact ⟨t :: v, rfl, .comparison hop he hv⟩

theorem parseComparison (h : SoundWithin deeper k) :
    Sound (Expr.parseComparison deeper) fun e u => Derives k .comparison e u := by
  intro ts e rest hrun
  unfold Expr.parseComparison at hrun
  obtain ⟨left, mid, hleft, htest⟩ := run_bind_eq_ok.mp hrun
  obtain ⟨u, rfl, hu⟩ := h.parseSum hleft
  obtain ⟨v, rfl, hv⟩ := h.parseTest hu htest
  exact ⟨u ++ v, by simp, hv⟩

theorem parseNegation (h : SoundWithin deeper k) :
    Sound (Expr.parseNegation deeper) fun e u => Derives k .negation e u := by
  intro ts e rest hrun
  unfold Expr.parseNegation at hrun
  obtain ⟨isNot, mid, hnot, h₁⟩ := run_bind_eq_ok.mp hrun
  rcases run_takesWord_eq_ok.mp hnot with ⟨rfl, t, ht, rfl⟩ | ⟨rfl, hn, rfl⟩
  · obtain ⟨x, mid₂, hx, hpure⟩ := run_bind_eq_ok.mp h₁
    cases hpure
    obtain ⟨u, rfl, j, rfl, hu⟩ := h.negated hx
    exact ⟨t :: u, rfl, .not ht hu⟩
  · obtain ⟨u, rfl, hu⟩ := h.parseComparison h₁
    rw [opensWith_append hu.ne_nil] at hn
    exact ⟨u, rfl, .tighter rfl hu fun _ => hn⟩

theorem parseConjunction (h : SoundWithin deeper k) :
    Sound (Expr.parseConjunction deeper) fun e u => Derives k .conjunction e u :=
  parseChain (r := .conjunction) rfl (by decide) rfl h.parseNegation

theorem parseDisjunction (h : SoundWithin deeper k) :
    Sound (Expr.parseDisjunction deeper) fun e u => Derives k .disjunction e u :=
  parseChain (r := .disjunction) rfl (by decide) rfl h.parseConjunction

end SoundWithin

theorem soundWithin_nestedWithin (k : Nat) : SoundWithin (Expr.nestedWithin k) k := by
  induction k with
  | zero => exact ⟨nofun, nofun, nofun⟩
  | succ k ih =>
    refine ⟨?_, ?_, ?_⟩
    · exact ih.parseDisjunction.mono fun e u hu => ⟨k, rfl, hu⟩
    · exact ih.parseNegation.mono fun e u hu => ⟨k, rfl, hu⟩
    · exact ih.parseSigned.mono fun e u hu => ⟨k, rfl, hu⟩

/-- What the parser reads is derived by the grammar. -/
theorem sound_parse (levels : Nat) : Sound (Expr.parse (levels + 1)) fun e u =>
    Derives levels .disjunction e u := by
  refine (soundWithin_nestedWithin (levels + 1)).expr.mono ?_
  rintro e u ⟨j, ⟨⟩, hu⟩
  exact hu

end ShardedSql.Sql
