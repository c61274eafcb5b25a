import ShardedSql.Proofs.Sql.Grammar

namespace ShardedSql.Sql

open TokenParser

/-- The highest layer in which a token can carry an expression on, 0 if it cannot. -/
def wordStrength : String → Nat
  | "OR" => 1
  | "AND" => 2
  | "IS" | "NOT" | "IN" | "BETWEEN" | "LIKE" => 4
  | "MOD" => 6
  | _ => 0

def Symbol.strength : Symbol → Nat
  | nullSafeEqual | lessGreater | bangEqual | lessEqual | greaterEqual | equal | less | greater => 4
  | plus | minus => 5
  | star | slash | percent => 6
  | leftParen | dot => 8
  | _ => 0

def Token.strength : Token → Nat
  | word w => wordStrength (Text.upper w)
  | symbol s => s.strength
  | _ => 0

/-- Whether an expression of a layer ends in front of these tokens. -/
def Stops (r : Rank) (ts : List Token) : Prop := ∀ t ∈ ts.head?, t.strength < r.level

@[simp] theorem stops_nil (r : Rank) : Stops r [] := by simp [Stops]

@[simp] theorem stops_cons (r : Rank) (t : Token) (ts : List Token) :
    Stops r (t :: ts) ↔ t.strength < r.level := by simp [Stops]

theorem strength_of_isKeyword {t : Token} {kw : String} (h : t.isKeyword kw = true) :
    t.strength = wordStrength kw := by
  cases t with
  | word w =>
    have hw : Text.upper w = kw := eq_of_beq h
    simp only [Token.strength, hw]
  | _ => cases h

theorem strength_of_chainOp {r : Rank} {t : Token} {op : BinaryOp} (h : r.chainOp? t = some op) :
    t.strength = r.level := by
  cases r with
  | disjunction =>
    simp only [Rank.chainOp?, Expr.orOp?] at h
    split at h
    · next hkw => exact strength_of_isKeyword hkw
    · cases h
  | conjunction =>
    simp only [Rank.chainOp?, Expr.andOp?] at h
    split at h
    · next hkw => exact strength_of_isKeyword hkw
    · cases h
  | sum =>
    simp only [Rank.chainOp?, Expr.sumOp?] at h
    split at h <;> first | rfl | cases h
  | product =>
    simp only [Rank.chainOp?, Expr.productOp?] at h
    split at h
    · rfl
    · rfl
    · rfl
    · split at h
      · next hkw => exact strength_of_isKeyword hkw
      · cases h
  | _ => cases h

theorem strength_of_comparisonOp {t : Token} {op : BinaryOp} (h : Expr.comparisonOp? t = some op) :
    t.strength = 4 := by
  unfold Expr.comparisonOp? at h
  split at h <;> first | rfl | cases h

namespace Stops

variable {r s : Rank} {ts : List Token}

theorem above (h : Stops r ts) (hs : r.above = some s) : Stops s ts := by
  intro t ht
  have := h t ht
  have := Rank.level_above hs
  omega

theorem of_strength_zero {t : Token} (h : t.strength = 0) (ts : List Token) : Stops r (t :: ts) := by
  rw [stops_cons, h]
  cases r <;> decide

theorem chainOp (h : Stops r ts) : ∀ t ∈ ts.head?, r.chainOp? t = none := by
  intro t ht
  cases hop : r.chainOp? t with
  | none => rfl
  | some op =>
    have := strength_of_chainOp hop
    have := h t ht
    omega

theorem not_opensWith (h : Stops r ts) {kw : String} (hkw : r.level ≤ wordStrength kw) :
    ¬OpensWith kw ts := by
  cases ts with
  | nil => exact not_opensWith_nil kw
  | cons t ts =>
    rw [opensWith_cons]
    intro ht
    have := strength_of_isKeyword ht
    have := (stops_cons r t ts).mp h
    omega

theorem head_ne (h : Stops r ts) {s : Symbol} (hs : r.level ≤ s.strength) :
    ts.head? ≠ some (.symbol s) := by
  intro hhead
  have hlt := h _ hhead
  simp only [Token.strength] at hlt
  omega

theorem comparisonOp (h : Stops .comparison ts) : ts.head?.bind Expr.comparisonOp? = none := by
  cases ts with
  | nil => rfl
  | cons t ts =>
    cases hop : Expr.comparisonOp? t with
    | none => exact hop
    | some op =>
      have := strength_of_comparisonOp hop
      have := (stops_cons _ t ts).mp h
      simp only [Rank.level] at this
      omega

end Stops

theorem run_takesWord_of_flag {kw : String} {b : Bool} {us : List Token} (h : Flag kw b us)
    {rest : List Token} (hrest : b = false → ¬OpensWith kw rest) :
    (takesWord kw).run (us ++ rest) = .ok (b, rest) := by
  cases h with
  | on ht => exact run_takesWord_of_opens ((opensWith_cons _ _ _).mpr ht)
  | off => exact run_takesWord_of_not_opens (hrest rfl)

theorem not_opensWith_not_of_opensTest {ts : List Token} (h : OpensTest ts) : ¬OpensWith "NOT" ts := by
  cases ts with
  | nil => simp
  | cons t ts =>
    rcases h with h | h | h
    · exact not_opensWith_of_isKeyword ((opensWith_cons _ _ _).mp h) (by decide) ts
    · exact not_opensWith_of_isKeyword ((opensWith_cons _ _ _).mp h) (by decide) ts
    · exact not_opensWith_of_isKeyword ((opensWith_cons _ _ _).mp h) (by decide) ts

theorem run_takesNegation_of_flag {b : Bool} {us : List Token} (h : Flag "NOT" b us)
    {rest : List Token} (hrest : OpensTest rest) :
    Expr.takesNegation.run (us ++ rest) = .ok (b, rest) := by
  apply run_takesNegation_eq_ok.mpr
  cases h with
  | on ht => exact .inl ⟨rfl, hrest, _, ht, rfl⟩
  | off => exact .inr ⟨rfl, fun h => absurd h (not_opensWith_not_of_opensTest hrest), rfl⟩

/-- A list of items is read where each item is and none of them goes on over a comma. -/
theorem run_list {α : Type} {item : TokenParser α} (Ends : List Token → Prop)
    {ps : List (α × List Token)} (hne : ps ≠ [])
    (hitem : ∀ p ∈ ps, ∀ rest, Ends rest → item.run (p.2 ++ rest) = .ok (p.1, rest))
    (hcomma : ∀ ts, Ends (.symbol .comma :: ts)) {rest : List Token} (hrest : Ends rest)
    (hend : rest.head? ≠ some (.symbol .comma)) :
    (TokenParser.list item).run (commaTokens (ps.map (·.2)) ++ rest) =
      .ok (ps.map (·.1), rest) := by
  obtain ⟨p, ps, rfl⟩ := List.exists_cons_of_ne_nil hne
  have hends : ∀ qs : List (α × List Token),
      Ends ((qs.map (·.2)).flatMap (fun v => .symbol .comma :: v) ++ rest) := by
    intro qs
    cases qs with
    | nil => exact hrest
    | cons q qs => exact hcomma _
  have hloop (qs : List (α × List Token)) (hqs : ∀ q ∈ qs, q ∈ ps) (items : List α) :
      loopRun commaSign (fun items _ => do return items ++ [← item]) items
        ((qs.map (·.2)).flatMap (fun v => .symbol .comma :: v) ++ rest) =
          .ok (items ++ qs.map (·.1), rest) := by
    induction qs generalizing items with
    | nil =>
      rw [List.map_nil, List.flatMap_nil, List.nil_append, loopRun_of_none]
      · simp
      · intro t ht
        have hne : t ≠ .symbol .comma := by
          rintro rfl
          exact hend ht
        simp [commaSign, Token.isSymbol, hne]
    | cons q qs ih =>
      have hq := hitem q (by simp [hqs q]) _ (hends qs)
      have hstep : (do return items ++ [← item] : TokenParser (List α)).run
          (q.2 ++ ((qs.map (·.2)).flatMap (fun v => .symbol .comma :: v) ++ rest)) =
            .ok (items ++ [q.1], (qs.map (·.2)).flatMap (fun v => .symbol .comma :: v) ++ rest) := by
        rw [run_bind_of_ok hq]
        rfl
      rw [List.map_cons, List.flatMap_cons, List.cons_append, List.cons_append, List.append_assoc,
        loopRun_of_some (s := ()) rfl hstep, ih fun r hr => hqs r (by simp [hr])]
      simp
  unfold TokenParser.list
  rw [List.map_cons, commaTokens_cons, List.append_assoc,
    run_bind_of_ok (hitem p (by simp) _ (hends ps))]
  exact hloop ps (fun _ h => h) [p.1]

/-- The parser of a layer. -/
def Rank.parser (deeper : Nested) : Rank → TokenParser Expr
  | disjunction => Expr.parseDisjunction deeper
  | conjunction => Expr.parseConjunction deeper
  | negation => Expr.parseNegation deeper
  | comparison => Expr.parseComparison deeper
  | sum => Expr.parseSum deeper
  | product => Expr.parseProduct deeper
  | signed => Expr.parseSigned deeper
  | primary => Expr.parsePrimary deeper

/-- Whether the operands of a layer form chains. -/
def Rank.IsChain : Rank → Prop
  | disjunction | conjunction | sum | product => True
  | _ => False

theorem Rank.parser_of_isChain {r s : Rank} (hr : r.IsChain) (hs : r.above = some s)
    (deeper : Nested) : r.parser deeper = Expr.parseChain r.chainOp? (s.parser deeper) := by
  cases r <;> first | cases hs; rfl | cases hr

theorem Rank.isChain_of_chainOp {r : Rank} {t : Token} {op : BinaryOp}
    (h : r.chainOp? t = some op) : r.IsChain := by
  cases r <;> trivial

/-- What it takes for the parser of a layer to read an expression from its tokens. Where the layer
is a chain, the loop over the operators goes on with the expression on its left. -/
structure Reads (k : Nat) (r : Rank) (e : Expr) (u : List Token) : Prop where
  ends : ∀ {rest : List Token}, Stops r rest →
    (r.parser (Expr.nestedWithin k)).run (u ++ rest) = .ok (e, rest)
  continues : ∀ {s : Rank} {rest : List Token}, r.IsChain → r.above = some s → Stops s rest →
    (r.parser (Expr.nestedWithin k)).run (u ++ rest) =
      loopRun r.chainOp?
        (fun left op => do return .binary left op (← s.parser (Expr.nestedWithin k))) e rest

namespace Reads

variable {k : Nat} {r s : Rank} {e : Expr} {u : List Token}

theorem of_not_isChain (hr : ¬r.IsChain) (h : ∀ {rest : List Token}, Stops r rest →
    (r.parser (Expr.nestedWithin k)).run (u ++ rest) = .ok (e, rest)) : Reads k r e u :=
  ⟨h, fun hchain => absurd hchain hr⟩

theorem of_isChain (hs : r.above = some s) (h : ∀ {rest : List Token}, Stops s rest →
    (r.parser (Expr.nestedWithin k)).run (u ++ rest) = loopRun r.chainOp?
      (fun left op => do return .binary left op (← s.parser (Expr.nestedWithin k))) e rest) :
    Reads k r e u := by
  refine ⟨fun hrest => ?_, fun _ hs' hrest => ?_⟩
  · rw [h (hrest.above hs), loopRun_of_none hrest.chainOp]
  · cases hs.symm.trans hs'
    exact h hrest

/-- A chain of one operand. -/
theorem chain_operand (hr : r.IsChain) (hs : r.above = some s) (h : Reads k s e u) :
    Reads k r e u := by
  refine of_isChain hs fun hrest => ?_
  rw [Rank.parser_of_isChain hr hs]
  unfold Expr.parseChain
  rw [run_bind_of_ok (h.ends hrest)]
  rfl

theorem chain {l : Expr} {op : BinaryOp} {t : Token} {v : List Token} (hs : r.above = some s)
    (ht : r.chainOp? t = some op) (hl : Reads k r l u) (he : Reads k s e v) :
    Reads k r (.binary l op e) (u ++ t :: v) := by
  have hr := Rank.isChain_of_chainOp ht
  refine of_isChain hs fun {rest} hrest => ?_
  have hstops : Stops s (t :: (v ++ rest)) := by
    rw [stops_cons, strength_of_chainOp ht, Rank.level_above hs]
    exact Nat.lt_succ_self _
  have hstep : (do return Expr.binary l op (← s.parser (Expr.nestedWithin k)) :
      TokenParser Expr).run (v ++ rest) = .ok (.binary l op e, rest) := by
    rw [run_bind_of_ok (he.ends hrest)]
    rfl
  rw [List.append_assoc, List.cons_append, hl.continues hr hs hstops, loopRun_of_some ht hstep]

end Reads

/-- The parsers of nested expressions, where a level of nesting is left. -/
theorem nestedWithin_succ (k : Nat) : Expr.nestedWithin (k + 1) =
    ⟨Rank.disjunction.parser (Expr.nestedWithin k), Rank.negation.parser (Expr.nestedWithin k),
      Rank.signed.parser (Expr.nestedWithin k)⟩ := rfl

theorem part?_of_name? {t : Token} {n : String} (h : t.name? = some n) : t.part? = some n := by
  cases t with
  | word w =>
    simp only [Token.name?] at h
    split at h
    · cases h
    · exact h
  | quoted q => exact h
  | _ => cases h

theorem literalWord?_of_name? {w n : String} (h : (Token.word w).name? = some n) :
    literalWord? w = none := by
  have hres : isReserved w = false := by
    simp only [Token.name?] at h
    split at h
    · cases h
    · next hn => simpa using hn
  unfold literalWord?
  rw [if_neg, if_neg, if_neg]
  all_goals
    intro hw
    rw [isReserved, hw] at hres
    exact absurd hres (by decide)

theorem run_parseColumn {k : Nat} {t : Token} {n : String} (ht : t.name? = some n)
    {rest : List Token} (hparen : rest.head? ≠ some (.symbol .leftParen)) :
    (Expr.parsePrimary (Expr.nestedWithin k)).run (t :: rest) =
      (Expr.parseColumn n).run rest := by
  unfold Expr.parsePrimary
  rw [run_next_bind]
  cases t with
  | word w =>
    have hword := literalWord?_of_name? ht
    have hres : isReserved w = false ∧ w = n := by
      simp only [Token.name?] at ht
      split at ht
      · cases ht
      · next hn => exact ⟨by simpa using hn, by simpa using ht⟩
    obtain ⟨hres, rfl⟩ := hres
    simp only [literalWord?] at hword
    split at hword
    · cases hword
    split at hword
    · cases hword
    split at hword
    · cases hword
    next hnull htrue hfalse =>
    simp only [List.head?_cons, List.tail_cons, Expr.parseWord, hnull, htrue, hfalse, if_false,
      run_seesSymbol_bind, hparen, decide_false, Bool.false_eq_true, hres]
  | quoted q =>
    cases ht
    rfl
  | _ => cases ht

theorem run_parseCall {k : Nat} {w : String} (hw : literalWord? w = none) (rest : List Token) :
    (Expr.parsePrimary (Expr.nestedWithin k)).run (.word w :: .symbol .leftParen :: rest) =
      (Expr.parseCall (Expr.nestedWithin k) w).run (.symbol .leftParen :: rest) := by
  unfold Expr.parsePrimary
  rw [run_next_bind]
  simp only [literalWord?] at hw
  split at hw
  · cases hw
  split at hw
  · cases hw
  split at hw
  · cases hw
  next hnull htrue hfalse =>
  simp only [List.head?_cons, List.tail_cons, Expr.parseWord, hnull, htrue, hfalse, if_false,
    run_seesSymbol_bind, decide_true, if_true]

theorem run_parseLiteralWord {k : Nat} {w : String} {l : Literal} (hw : literalWord? w = some l)
    (rest : List Token) :
    (Expr.parsePrimary (Expr.nestedWithin k)).run (.word w :: rest) = .ok (.literal l, rest) := by
  unfold Expr.parsePrimary
  rw [run_next_bind]
  simp only [literalWord?] at hw
  split at hw
  · next h =>
    cases hw
    simp [Expr.parseWord, h]
  split at hw
  · next h =>
    cases hw
    simp [Expr.parseWord, h]
  split at hw
  · next h =>
    cases hw
    simp [Expr.parseWord, h]
  · cases hw

/-- What is read of a variable goes on with the parts that follow a dot. -/
theorem run_parseVar_loop {n : String} {us : List Token} (h : VarTokens n us) (rest : List Token) :
    Expr.parseVar.run (us ++ rest) =
      match loopRun Expr.dotSign (fun n _ => do return n ++ "." ++ (← nameAfterDot)) n rest with
      | .error e => .error e
      | .ok (m, rest) => .ok (.var m, rest) := by
  induction h generalizing rest with
  | @single t n ht =>
    have hsign : (takesSymbol .atSign).run (t :: rest) = .ok (false, t :: rest) := by
      apply run_takesSymbol_of_ne
      rintro ⟨⟩
      cases ht
    have hname : nameAfterDot.run (t :: rest) = .ok (n, rest) :=
      run_nameAfterDot_eq_ok.mpr ⟨t, ht, rfl⟩
    unfold Expr.parseVar
    rw [List.singleton_append, run_bind_of_ok hsign, run_bind_of_ok hname, run_bind]
    simp only [Bool.false_eq_true, if_false, run_pure, run_loop]
    cases loopRun Expr.dotSign _ ("@" ++ n) rest <;> rfl
  | @double t n ht =>
    have hname : nameAfterDot.run (t :: rest) = .ok (n, rest) :=
      run_nameAfterDot_eq_ok.mpr ⟨t, ht, rfl⟩
    unfold Expr.parseVar
    rw [List.cons_append, run_bind_of_ok (run_takesSymbol_cons _), List.singleton_append,
      run_bind_of_ok hname, run_bind]
    simp only [if_true, run_pure, run_loop]
    cases loopRun Expr.dotSign _ ("@@" ++ n) rest <;> rfl
  | @dotted t m n us hm ht ih =>
    have hstep : (do return m ++ "." ++ (← nameAfterDot) : TokenParser String).run (t :: rest) =
        .ok (m ++ "." ++ n, rest) := by
      rw [run_bind_of_ok (run_nameAfterDot_eq_ok.mpr ⟨t, ht, rfl⟩)]
      rfl
    rw [List.append_assoc, ih, List.cons_append, List.singleton_append,
      loopRun_of_some (s := ()) rfl hstep]

theorem run_parseVar {k : Nat} {n : String} {us : List Token} (h : VarTokens n us)
    {rest : List Token} (hdot : rest.head? ≠ some (.symbol .dot)) :
    (Expr.parsePrimary (Expr.nestedWithin k)).run (.symbol .atSign :: us ++ rest) =
      .ok (.var n, rest) := by
  unfold Expr.parsePrimary
  rw [List.cons_append, run_next_bind]
  refine (run_parseVar_loop h rest).trans ?_
  rw [loopRun_of_none]
  intro t ht
  have hne : t ≠ .symbol .dot := by
    rintro rfl
    exact hdot ht
  simp [Expr.dotSign, Token.isSymbol, hne]

/-- A nested list of expressions is read up to the parenthesis behind it. -/
theorem run_exprs {k : Nat} {ps : List (Expr × List Token)} (hne : ps ≠ [])
    (hps : ∀ p ∈ ps, Reads k .disjunction p.1 p.2) (rest : List Token) :
    (TokenParser.list (Expr.nestedWithin (k + 1)).expr).run
      (commaTokens (ps.map (·.2)) ++ .symbol .rightParen :: rest) =
        .ok (ps.map (·.1), .symbol .rightParen :: rest) := by
  apply run_list (Stops .disjunction) hne
  · intro p hp rest hrest
    exact (hps p hp).ends hrest
  · exact fun ts => Stops.of_strength_zero rfl ts
  · exact Stops.of_strength_zero rfl rest
  · simp

namespace Derives

variable {k : Nat}

/-- No expression starts with a star or with a closing parenthesis. -/
theorem head_ne_symbol {r : Rank} {e : Expr} {u : List Token} (h : Derives k r e u) {s : Symbol}
    (hs : s = .star ∨ s = .rightParen) : u.head? ≠ some (.symbol s) := by
  have hname : ∀ {t : Token} {n : String}, t.name? = some n → t ≠ .symbol s := by
    rintro t n ht rfl
    cases ht
  have happend : ∀ {u v : List Token}, u ≠ [] → u.head? ≠ some (.symbol s) →
      (u ++ v).head? ≠ some (.symbol s) := by
    intro u v hu hne
    obtain ⟨t, u, rfl⟩ := List.exists_cons_of_ne_nil hu
    exact hne
  induction h with
  | column ht | qualified ht => simpa using hname ht
  | word | number | text | placeholder | callStar | callNone | call => simp
  | var | paren | negate | plus => rcases hs with rfl | rfl <;> simp
  | chain _ _ hl _ ih | comparison _ hl _ ih => exact happend hl.ne_nil ih
  | isNull _ _ _ h ih | inList _ _ _ h _ _ ih | between _ _ _ h _ _ ih | like _ _ h _ ih =>
    simp only [List.append_assoc]
    exact happend h.ne_nil ih
  | @not k e t u ht h ih =>
    cases t <;> first | cases ht | simp
  | tighter _ _ _ ih => exact ih

theorem head_commaTokens_ne_symbol {ps : List (Expr × List Token)} (hne : ps ≠ [])
    (h : ∀ p ∈ ps, Derives k .disjunction p.1 p.2) {s : Symbol}
    (hs : s = .star ∨ s = .rightParen) (rest : List Token) :
    (commaTokens (ps.map (·.2)) ++ rest).head? ≠ some (.symbol s) := by
  obtain ⟨p, ps, rfl⟩ := List.exists_cons_of_ne_nil hne
  have hp := h p (by simp)
  rw [List.map_cons, commaTokens_cons]
  obtain ⟨t, u, hu⟩ := List.exists_cons_of_ne_nil hp.ne_nil
  have hhead := hp.head_ne_symbol hs
  rw [hu] at hhead ⊢
  exact hhead

end Derives

namespace Reads

variable {k : Nat} {w : String} {d : Bool} {us : List Token}

theorem callStar (hw : literalWord? w = none) (hd : Flag "DISTINCT" d us) :
    Reads k .primary (.call w [.star] d)
      (.word w :: .symbol .leftParen :: us ++ [.symbol .star, .symbol .rightParen]) := by
  refine of_not_isChain id fun {rest} _ => ?_
  have hstar : ¬OpensWith "DISTINCT" (.symbol .star :: .symbol .rightParen :: rest) := by
    simp [Token.isKeyword]
  have hflag := run_takesWord_of_flag hd fun _ => hstar
  simp only [Rank.parser, List.cons_append, List.append_assoc, List.nil_append]
  rw [run_parseCall hw]
  unfold Expr.parseCall
  rw [run_bind_of_ok (run_needsSymbol_cons _), run_bind_of_ok hflag,
    run_bind_of_ok (run_takesSymbol_cons _), run_seesSymbol_bind]
  simp only [if_true, run_pure_bind]
  rw [run_bind_of_ok (run_needsSymbol_cons _)]
  rfl

theorem callNone (hw : literalWord? w = none) (hd : Flag "DISTINCT" d us) :
    Reads k .primary (.call w [] d)
      (.word w :: .symbol .leftParen :: us ++ [.symbol .rightParen]) := by
  refine of_not_isChain id fun {rest} _ => ?_
  have hclose : ¬OpensWith "DISTINCT" (.symbol .rightParen :: rest) := by simp [Token.isKeyword]
  have hflag := run_takesWord_of_flag hd fun _ => hclose
  simp only [Rank.parser, List.cons_append, List.append_assoc, List.nil_append]
  rw [run_parseCall hw]
  unfold Expr.parseCall
  rw [run_bind_of_ok (run_needsSymbol_cons _), run_bind_of_ok hflag,
    run_bind_of_ok (run_takesSymbol_of_ne (by simp)), run_seesSymbol_bind]
  simp only [Bool.false_eq_true, if_false, List.head?_cons, decide_true, if_true, run_pure_bind]
  rw [run_bind_of_ok (run_needsSymbol_cons _)]
  rfl

theorem call {ps : List (Expr × List Token)} (hw : literalWord? w = none)
    (hd : Flag "DISTINCT" d us) (hne : ps ≠ [])
    (hders : ∀ p ∈ ps, Derives k .disjunction p.1 p.2)
    (hps : ∀ p ∈ ps, Reads k .disjunction p.1 p.2)
    (hpos : d = false → ¬OpensWith "DISTINCT" (commaTokens (ps.map (·.2)))) :
    Reads (k + 1) .primary (.call w (ps.map (·.1)) d)
      (.word w :: .symbol .leftParen :: us ++ commaTokens (ps.map (·.2))
        ++ [.symbol .rightParen]) := by
  refine of_not_isChain id fun {rest} _ => ?_
  have hargs : d = false →
      ¬OpensWith "DISTINCT" (commaTokens (ps.map (·.2)) ++ .symbol .rightParen :: rest) := by
    intro hd'
    rw [opensWith_append (Derives.commaTokens_ne_nil hne hders)]
    exact hpos hd'
  have hflag := run_takesWord_of_flag hd hargs
  have hstar := Derives.head_commaTokens_ne_symbol hne hders (.inl rfl) (.symbol .rightParen :: rest)
  have hclose := Derives.head_commaTokens_ne_symbol hne hders (.inr rfl) (.symbol .rightParen :: rest)
  simp only [Rank.parser, List.cons_append, List.append_assoc, List.nil_append]
  rw [run_parseCall hw]
  unfold Expr.parseCall
  rw [run_bind_of_ok (run_needsSymbol_cons _), run_bind_of_ok hflag,
    run_bind_of_ok (run_takesSymbol_of_ne hstar), run_seesSymbol_bind]
  simp only [Bool.false_eq_true, if_false, hclose, decide_false]
  rw [run_bind_of_ok (run_exprs hne hps rest), run_bind_of_ok (run_needsSymbol_cons _)]
  rfl

theorem paren {e : Expr} {u : List Token} (hder : Derives k .disjunction e u)
    (h : Reads k .disjunction e u) (hpos : ¬OpensWith "SELECT" u) :
    Reads (k + 1) .primary (.paren e) (.symbol .leftParen :: u ++ [.symbol .rightParen]) := by
  refine of_not_isChain id fun {rest} _ => ?_
  have hstops : Stops .disjunction (.symbol .rightParen :: rest) := Stops.of_strength_zero rfl rest
  have hinner := h.ends hstops
  have hselect : ¬OpensWith "SELECT" (u ++ .symbol .rightParen :: rest) := by
    rwa [opensWith_append hder.ne_nil]
  simp only [Rank.parser, List.cons_append, List.append_assoc, List.nil_append]
  unfold Expr.parsePrimary
  rw [run_next_bind]
  simp only [List.head?_cons, List.tail_cons]
  unfold Expr.parseParen
  refine run_unless_word_eq_ok.mpr ⟨hselect, ?_⟩
  rw [nestedWithin_succ, run_bind_of_ok hinner, run_bind_of_ok (run_needsSymbol_cons _)]
  rfl

theorem negate {e : Expr} {u : List Token} (h : Reads k .signed e u) :
    Reads (k + 1) .signed (.negate e) (.symbol .minus :: u) := by
  refine of_not_isChain id fun {rest} hrest => ?_
  simp only [Rank.parser, List.cons_append]
  unfold Expr.parseSigned
  rw [run_bind_of_ok (run_takesSymbol_cons _), nestedWithin_succ]
  simp only [if_true]
  rw [run_bind_of_ok (h.ends hrest)]
  rfl

theorem plus {e : Expr} {u : List Token} (h : Reads k .signed e u) :
    Reads (k + 1) .signed e (.symbol .plus :: u) := by
  refine of_not_isChain id fun {rest} hrest => ?_
  simp only [Rank.parser, List.cons_append]
  unfold Expr.parseSigned
  rw [run_bind_of_ok (run_takesSymbol_of_ne (by simp))]
  simp only [Bool.false_eq_true, if_false]
  rw [run_bind_of_ok (run_takesSymbol_cons _), nestedWithin_succ]
  simp only [if_true]
  exact h.ends hrest

theorem column {t : Token} {n : String} (ht : t.name? = some n) :
    Reads k .primary (.column ⟨none, n⟩) [t] := by
  refine of_not_isChain id fun {rest} hrest => ?_
  have hparen := hrest.head_ne (s := .leftParen) (Nat.le_refl _)
  have hdot := hrest.head_ne (s := .dot) (Nat.le_refl _)
  refine (run_parseColumn ht hparen).trans ?_
  unfold Expr.parseColumn
  rw [run_bind_of_ok (run_takesSymbol_of_ne hdot)]
  rfl

theorem qualified {t t' : Token} {q n : String} (ht : t.name? = some q) (ht' : t'.part? = some n) :
    Reads k .primary (.column ⟨some q, n⟩) [t, .symbol .dot, t'] := by
  refine of_not_isChain id fun {rest} _ => ?_
  have hname : nameAfterDot.run (t' :: rest) = .ok (n, rest) :=
    run_nameAfterDot_eq_ok.mpr ⟨t', ht', rfl⟩
  refine (run_parseColumn ht (by simp)).trans ?_
  unfold Expr.parseColumn
  refine (run_bind_of_ok (run_takesSymbol_cons _)).trans ?_
  simp only [if_true]
  exact run_bind_of_ok hname

theorem word {l : Literal} (hw : literalWord? w = some l) :
    Reads k .primary (.literal l) [.word w] :=
  of_not_isChain id fun {rest} _ => run_parseLiteralWord hw rest

theorem var {n : String} (h : VarTokens n us) : Reads k .primary (.var n) (.symbol .atSign :: us) :=
  of_not_isChain id fun hrest => run_parseVar h (hrest.head_ne (Nat.le_refl _))

/-- An operand that has no sign in front. -/
theorem signed {e : Expr} {u : List Token} (h : Reads k .primary e u) (hne : u ≠ [])
    (hminus : u.head? ≠ some (.symbol .minus)) (hplus : u.head? ≠ some (.symbol .plus)) :
    Reads k .signed e u := by
  refine of_not_isChain id fun {rest} hrest => ?_
  have hhead : (u ++ rest).head? = u.head? := by
    obtain ⟨t, u, rfl⟩ := List.exists_cons_of_ne_nil hne
    rfl
  have hends := h.ends (hrest.above rfl)
  simp only [Rank.parser] at hends ⊢
  unfold Expr.parseSigned
  rw [run_bind_of_ok (run_takesSymbol_of_ne (by rwa [hhead]))]
  simp only [Bool.false_eq_true, if_false]
  rw [run_bind_of_ok (run_takesSymbol_of_ne (by rwa [hhead]))]
  simpa using hends

end Reads

/-- Nothing is read where no test and no comparison follows. -/
theorem run_parseTest_of_stops {k : Nat} {e : Expr} {rest : List Token}
    (h : Stops .comparison rest) :
    (Expr.parseTest (Expr.nestedWithin k) e).run rest = .ok (e, rest) := by
  have hnegation : Expr.takesNegation.run rest = .ok (false, rest) := by
    apply run_takesNegation_eq_ok.mpr
    exact .inr ⟨rfl, fun hnot => absurd hnot (h.not_opensWith (by decide)), rfl⟩
  unfold Expr.parseTest
  rw [run_bind_of_ok (run_takesWord_of_not_opens (h.not_opensWith (by decide)))]
  simp only [Bool.false_eq_true, if_false]
  rw [run_bind_of_ok hnegation,
    run_bind_of_ok (run_takesWord_of_not_opens (h.not_opensWith (by decide)))]
  simp only [Bool.false_eq_true, if_false]
  rw [run_bind_of_ok (run_takesWord_of_not_opens (h.not_opensWith (by decide)))]
  simp only [Bool.false_eq_true, if_false]
  rw [run_bind_of_ok (run_takesWord_of_not_opens (h.not_opensWith (by decide)))]
  simp only [Bool.false_eq_true, if_false, run_ahead_bind, h.comparisonOp]
  rfl

namespace Flag

variable {kw : String} {b : Bool} {us ts : List Token}

theorem not_opensWith (h : Flag kw b us) {kw' : String} (hne : kw ≠ kw') (hts : ¬OpensWith kw' ts) :
    ¬OpensWith kw' (us ++ ts) := by
  cases h with
  | on ht => exact not_opensWith_of_isKeyword ht hne ts
  | off => exact hts

theorem stops (h : Flag kw b us) {r : Rank} (hkw : wordStrength kw < r.level) (hts : Stops r ts) :
    Stops r (us ++ ts) := by
  cases h with
  | on ht =>
    apply (stops_cons _ _ _).mpr
    rwa [strength_of_isKeyword ht]
  | off => exact hts

end Flag

namespace Reads

variable {k : Nat} {e : Expr} {n : Bool} {t : Token} {u us v : List Token}

/-- The left side of a comparison ends where its test starts. -/
theorem run_comparison (h : Reads k .sum e u) {ts : List Token} (hts : Stops .sum ts) :
    (Rank.comparison.parser (Expr.nestedWithin k)).run (u ++ ts) =
      (Expr.parseTest (Expr.nestedWithin k) e).run ts := by
  simp only [Rank.parser]
  unfold Expr.parseComparison
  exact run_bind_of_ok (h.ends hts)

theorem comparison_operand (h : Reads k .sum e u) : Reads k .comparison e u := by
  refine of_not_isChain id fun hrest => ?_
  rw [h.run_comparison (hrest.above rfl), run_parseTest_of_stops hrest]

theorem isNull {t' : Token} (ht : t.isKeyword "IS" = true) (ht' : t'.isKeyword "NULL" = true)
    (hn : Flag "NOT" n us) (h : Reads k .sum e u) :
    Reads k .comparison (.isNull e n) (u ++ t :: us ++ [t']) := by
  refine of_not_isChain id fun {rest} _ => ?_
  have hstops : Stops .sum (t :: (us ++ t' :: rest)) := by
    rw [stops_cons, strength_of_isKeyword ht]
    decide
  have hflag := run_takesWord_of_flag hn fun _ =>
    not_opensWith_of_isKeyword ht' (by decide : "NULL" ≠ "NOT") rest
  simp only [List.append_assoc, List.cons_append, List.nil_append]
  rw [h.run_comparison hstops]
  unfold Expr.parseTest
  rw [run_bind_of_ok (run_takesWord_of_opens ((opensWith_cons _ _ _).mpr ht))]
  simp only [if_true, List.tail_cons]
  rw [run_bind_of_ok hflag, run_bind_of_ok (run_needsWord_cons ht')]
  rfl

/-- In front of a test, NOT is a part of the test. -/
theorem run_test (h : Reads k .sum e u) (hn : Flag "NOT" n us) {kw : String}
    (ht : t.isKeyword kw = true) (hkw : kw = "IN" ∨ kw = "BETWEEN" ∨ kw = "LIKE")
    (ts : List Token) :
    (Rank.comparison.parser (Expr.nestedWithin k)).run (u ++ us ++ t :: ts) =
      (do
        if ← takesWord "IN" then Expr.parseInList (Expr.nestedWithin k) e n
        else if ← takesWord "BETWEEN" then Expr.parseBetween (Expr.nestedWithin k) e n
        else if ← takesWord "LIKE" then
          return .like e (← Expr.parseSum (Expr.nestedWithin k)) n
        else
          match (← ahead).head?.bind Expr.comparisonOp? with
          | some op => skip 1; return .binary e op (← Expr.parseSum (Expr.nestedWithin k))
          | none => return e : TokenParser Expr).run (t :: ts) := by
  have hstrength : wordStrength kw = 4 ∧ kw ≠ "IS" := by
    rcases hkw with rfl | rfl | rfl <;> decide
  have hstops : Stops .sum (us ++ t :: ts) := by
    apply hn.stops (by decide)
    rw [stops_cons, strength_of_isKeyword ht, hstrength.1]
    decide
  have htest : OpensTest (t :: ts) := by
    simp only [OpensTest, opensWith_cons]
    rcases hkw with rfl | rfl | rfl <;> simp [ht]
  have his : ¬OpensWith "IS" (us ++ t :: ts) :=
    hn.not_opensWith (by decide) (not_opensWith_of_isKeyword ht hstrength.2 ts)
  rw [List.append_assoc, h.run_comparison hstops]
  unfold Expr.parseTest
  rw [run_bind_of_ok (run_takesWord_of_not_opens his)]
  simp only [Bool.false_eq_true, if_false]
  exact run_bind_of_ok (run_takesNegation_of_flag hn htest)

theorem inList {ps : List (Expr × List Token)} (ht : t.isKeyword "IN" = true)
    (hn : Flag "NOT" n us) (hne : ps ≠ []) (h : Reads (k + 1) .sum e u)
    (hders : ∀ p ∈ ps, Derives k .disjunction p.1 p.2)
    (hps : ∀ p ∈ ps, Reads k .disjunction p.1 p.2)
    (hpos : ¬OpensWith "SELECT" (commaTokens (ps.map (·.2)))) :
    Reads (k + 1) .comparison (.inList e (ps.map (·.1)) n)
      (u ++ us ++ t :: .symbol .leftParen :: commaTokens (ps.map (·.2))
        ++ [.symbol .rightParen]) := by
  refine of_not_isChain id fun {rest} _ => ?_
  have hselect : ¬OpensWith "SELECT" (commaTokens (ps.map (·.2)) ++ .symbol .rightParen :: rest) := by
    rwa [opensWith_append (Derives.commaTokens_ne_nil hne hders)]
  have htest := h.run_test hn ht (.inl rfl)
    (.symbol .leftParen :: (commaTokens (ps.map (·.2)) ++ .symbol .rightParen :: rest))
  have hin : OpensWith "IN" (t :: .symbol .leftParen ::
      (commaTokens (ps.map (·.2)) ++ .symbol .rightParen :: rest)) := (opensWith_cons _ _ _).mpr ht
  simp only [List.append_assoc, List.cons_append, List.nil_append] at htest ⊢
  rw [htest, run_bind_of_ok (run_takesWord_of_opens hin)]
  simp only [if_true, List.tail_cons]
  unfold Expr.parseInList
  rw [run_bind_of_ok (run_needsSymbol_cons _)]
  refine run_unless_word_eq_ok.mpr ⟨hselect, ?_⟩
  rw [run_bind_of_ok (run_exprs hne hps rest), run_bind_of_ok (run_needsSymbol_cons _)]
  rfl

theorem between {t' : Token} {low high : Expr} {w : List Token} (ht : t.isKeyword "BETWEEN" = true)
    (ht' : t'.isKeyword "AND" = true) (hn : Flag "NOT" n us) (h : Reads k .sum e u)
    (hlow : Reads k .sum low v) (hhigh : Reads k .sum high w) :
    Reads k .comparison (.between e low high n) (u ++ us ++ t :: v ++ t' :: w) := by
  refine of_not_isChain id fun {rest} hrest => ?_
  have hand : Stops .sum (t' :: (w ++ rest)) := by
    rw [stops_cons, strength_of_isKeyword ht']
    decide
  have hrunLow := hlow.ends hand
  have hrunHigh := hhigh.ends (hrest.above rfl)
  have htest := h.run_test hn ht (.inr (.inl rfl)) (v ++ t' :: (w ++ rest))
  have hin : ¬OpensWith "IN" (t :: (v ++ t' :: (w ++ rest))) :=
    not_opensWith_of_isKeyword ht (by decide) _
  have hbetween : OpensWith "BETWEEN" (t :: (v ++ t' :: (w ++ rest))) :=
    (opensWith_cons _ _ _).mpr ht
  simp only [Rank.parser] at hrunLow hrunHigh
  simp only [List.append_assoc, List.cons_append] at htest ⊢
  rw [htest, run_bind_of_ok (run_takesWord_of_not_opens hin)]
  simp only [Bool.false_eq_true, if_false]
  rw [run_bind_of_ok (run_takesWord_of_opens hbetween)]
  simp only [if_true, List.tail_cons]
  unfold Expr.parseBetween
  rw [run_bind_of_ok hrunLow, run_bind_of_ok (run_needsWord_cons ht'), run_bind_of_ok hrunHigh]
  rfl

theorem like {pattern : Expr} (ht : t.isKeyword "LIKE" = true) (hn : Flag "NOT" n us)
    (h : Reads k .sum e u) (hp : Reads k .sum pattern v) :
    Reads k .comparison (.like e pattern n) (u ++ us ++ t :: v) := by
  refine of_not_isChain id fun {rest} hrest => ?_
  have hrun := hp.ends (hrest.above rfl)
  have htest := h.run_test hn ht (.inr (.inr rfl)) (v ++ rest)
  have hin : ¬OpensWith "IN" (t :: (v ++ rest)) := not_opensWith_of_isKeyword ht (by decide) _
  have hbetween : ¬OpensWith "BETWEEN" (t :: (v ++ rest)) :=
    not_opensWith_of_isKeyword ht (by decide) _
  have hlike : OpensWith "LIKE" (t :: (v ++ rest)) := (opensWith_cons _ _ _).mpr ht
  simp only [Rank.parser] at hrun
  simp only [List.append_assoc, List.cons_append] at htest ⊢
  rw [htest, run_bind_of_ok (run_takesWord_of_not_opens hin)]
  simp only [Bool.false_eq_true, if_false]
  rw [run_bind_of_ok (run_takesWord_of_not_opens hbetween)]
  simp only [Bool.false_eq_true, if_false]
  rw [run_bind_of_ok (run_takesWord_of_opens hlike)]
  simp only [if_true, List.tail_cons]
  rw [run_bind_of_ok hrun]
  rfl

theorem comparison {l : Expr} {op : BinaryOp} (ht : Expr.comparisonOp? t = some op)
    (hl : Reads k .sum l u) (he : Reads k .sum e v) :
    Reads k .comparison (.binary l op e) (u ++ t :: v) := by
  refine of_not_isChain id fun {rest} hrest => ?_
  have hword : ∀ kw, ¬OpensWith kw (t :: (v ++ rest)) := by
    intro kw hkw
    cases t with
    | symbol s => simp [Token.isKeyword] at hkw
    | _ => cases ht
  have hstops : Stops .sum (t :: (v ++ rest)) := by
    rw [stops_cons, strength_of_comparisonOp ht]
    decide
  have hnegation : Expr.takesNegation.run (t :: (v ++ rest)) = .ok (false, t :: (v ++ rest)) := by
    apply run_takesNegation_eq_ok.mpr
    exact .inr ⟨rfl, fun hnot => absurd hnot (hword _), rfl⟩
  have hrun := he.ends (hrest.above rfl)
  simp only [Rank.parser] at hrun
  rw [List.append_assoc, List.cons_append, hl.run_comparison hstops]
  unfold Expr.parseTest
  rw [run_bind_of_ok (run_takesWord_of_not_opens (hword _))]
  simp only [Bool.false_eq_true, if_false]
  rw [run_bind_of_ok hnegation, run_bind_of_ok (run_takesWord_of_not_opens (hword _))]
  simp only [Bool.false_eq_true, if_false]
  rw [run_bind_of_ok (run_takesWord_of_not_opens (hword _))]
  simp only [Bool.false_eq_true, if_false]
  rw [run_bind_of_ok (run_takesWord_of_not_opens (hword _))]
  simp only [Bool.false_eq_true, if_false, run_ahead_bind, List.head?_cons, Option.bind_some, ht,
    run_skip_bind, List.drop_succ_cons, List.drop_zero]
  rw [run_bind_of_ok hrun]
  rfl

theorem not (ht : t.isKeyword "NOT" = true) (h : Reads k .negation e u) :
    Reads (k + 1) .negation (.not e) (t :: u) := by
  refine of_not_isChain id fun {rest} hrest => ?_
  simp only [Rank.parser, List.cons_append]
  unfold Expr.parseNegation
  rw [run_bind_of_ok (run_takesWord_of_opens ((opensWith_cons _ _ _).mpr ht)), nestedWithin_succ]
  have hrun := h.ends hrest
  simp only [if_true, List.tail_cons]
  rw [run_bind_of_ok hrun]
  rfl

theorem negation_operand (h : Reads k .comparison e u) (hne : u ≠ [])
    (hpos : ¬OpensWith "NOT" u) : Reads k .negation e u := by
  refine of_not_isChain id fun {rest} hrest => ?_
  have hnot : ¬OpensWith "NOT" (u ++ rest) := by rwa [opensWith_append hne]
  have hends := h.ends (hrest.above rfl)
  simp only [Rank.parser] at hends ⊢
  unfold Expr.parseNegation
  rw [run_bind_of_ok (run_takesWord_of_not_opens hnot)]
  simpa using hends

end Reads

namespace Derives

variable {k : Nat} {r : Rank} {e : Expr} {u : List Token}

theorem head_ne_sign (h : Derives k .primary e u) {s : Symbol} (hs : s = .minus ∨ s = .plus) :
    u.head? ≠ some (.symbol s) := by
  have hname : ∀ {t : Token} {n : String}, t.name? = some n → t ≠ .symbol s := by
    rintro t n ht rfl
    cases ht
  cases h with
  | column ht | qualified ht => simpa using hname ht
  | chain _ ht => cases ht
  | tighter hs' => cases hs'
  | var | paren => rcases hs with rfl | rfl <;> simp
  | _ => simp

/-- The parser reads what the grammar derives. -/
theorem reads (h : Derives k r e u) : Reads k r e u := by
  induction h with
  | column ht => exact .column ht
  | qualified ht ht' => exact .qualified ht ht'
  | word hw => exact .word hw
  | number he => exact Reads.of_not_isChain id fun _ => he ▸ rfl
  | text => exact Reads.of_not_isChain id fun _ => rfl
  | placeholder => exact Reads.of_not_isChain id fun _ => rfl
  | var hn => exact .var hn
  | callStar hw hd => exact .callStar hw hd
  | callNone hw hd => exact .callNone hw hd
  | call hw hd hne hps hpos ih => exact .call hw hd hne hps ih hpos
  | paren h hpos ih => exact .paren h ih hpos
  | negate _ ih => exact .negate ih
  | plus _ ih => exact .plus ih
  | chain hs ht _ _ ihl ihe => exact .chain hs ht ihl ihe
  | comparison ht _ _ ihl ihe => exact .comparison ht ihl ihe
  | isNull ht ht' hn _ ih => exact .isNull ht ht' hn ih
  | inList ht hn hne _ hps hpos ih ihps => exact .inList ht hn hne ih hps ihps hpos
  | between ht ht' hn _ _ _ ih ihlow ihhigh => exact .between ht ht' hn ih ihlow ihhigh
  | like ht hn _ _ ih ihp => exact .like ht hn ih ihp
  | not ht _ ih => exact .not ht ih
  | @tighter k r s e u hs h hpos ih =>
    cases r with
    | disjunction | conjunction | sum | product => exact .chain_operand trivial hs ih
    | negation =>
      cases hs
      exact ih.negation_operand h.ne_nil (hpos rfl)
    | comparison =>
      cases hs
      exact ih.comparison_operand
    | signed =>
      cases hs
      exact ih.signed h.ne_nil (h.head_ne_sign (.inl rfl)) (h.head_ne_sign (.inr rfl))
    | primary => cases hs

/-- A whole expression is read up to a token that cannot carry it on. -/
theorem run_parse (h : Derives k .disjunction e u) {rest : List Token}
    (hrest : Stops .disjunction rest) : (Expr.parse (k + 1)).run (u ++ rest) = .ok (e, rest) :=
  h.reads.ends hrest

end Derives

end ShardedSql.Sql
