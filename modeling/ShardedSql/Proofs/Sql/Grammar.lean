import ShardedSql.Proofs.Sql.Runs

namespace ShardedSql.Sql

open TokenParser (OpensWith)

/-- The layers of an expression, from the one whose operators bind least. -/
inductive Rank where
  | disjunction | conjunction | negation | comparison | sum | product | signed | primary
  deriving DecidableEq, Repr

namespace Rank

def above : Rank → Option Rank
  | disjunction => some conjunction
  | conjunction => some negation
  | negation => some comparison
  | comparison => some sum
  | sum => some product
  | product => some signed
  | signed => some primary
  | primary => none

def level : Rank → Nat
  | disjunction => 1
  | conjunction => 2
  | negation => 3
  | comparison => 4
  | sum => 5
  | product => 6
  | signed => 7
  | primary => 8

theorem level_above {r s : Rank} (h : r.above = some s) : s.level = r.level + 1 := by
  cases r <;> cases h <;> rfl

/-- The operators of the layers that are chains of operands. -/
def chainOp? : Rank → Token → Option BinaryOp
  | disjunction => Expr.orOp?
  | conjunction => Expr.andOp?
  | sum => Expr.sumOp?
  | product => Expr.productOp?
  | _ => fun _ => none

end Rank

/-- The literal that a word stands for. -/
def literalWord? (w : String) : Option Literal :=
  if Text.upper w = "NULL" then some .null
  else if Text.upper w = "TRUE" then some (.boolean true)
  else if Text.upper w = "FALSE" then some (.boolean false)
  else none

/-- Lists of tokens with commas between them. -/
def commaTokens : List (List Token) → List Token
  | [] => []
  | [u] => u
  | u :: us => u ++ .symbol .comma :: commaTokens us

theorem commaTokens_concat {us : List (List Token)} (h : us ≠ []) (v : List Token) :
    commaTokens (us ++ [v]) = commaTokens us ++ .symbol .comma :: v := by
  induction us with
  | nil => exact absurd rfl h
  | cons u us ih =>
    cases us with
    | nil => rfl
    | cons u' us =>
      have hrest := ih (by simp)
      simp only [List.cons_append, commaTokens, List.append_assoc] at hrest ⊢
      rw [hrest]

theorem commaTokens_cons (u : List Token) (us : List (List Token)) :
    commaTokens (u :: us) = u ++ us.flatMap fun v => .symbol .comma :: v := by
  induction us generalizing u with
  | nil => simp [commaTokens]
  | cons v us ih => simp [commaTokens, ih v]

theorem commaTokens_ne_nil {us : List (List Token)} (h : us ≠ []) (hall : ∀ u ∈ us, u ≠ []) :
    commaTokens us ≠ [] := by
  match us with
  | [] => exact absurd rfl h
  | [u] => exact hall u (by simp)
  | u :: v :: us => simp [commaTokens]

/-- The tokens of a keyword that may be left out. -/
inductive Flag (kw : String) : Bool → List Token → Prop
  | on {t : Token} (h : t.isKeyword kw = true) : Flag kw true [t]
  | off : Flag kw false []

/-- A variable and its tokens from behind the first sign on. -/
inductive VarTokens : String → List Token → Prop
  | single {t : Token} {n : String} (h : t.part? = some n) : VarTokens ("@" ++ n) [t]
  | double {t : Token} {n : String} (h : t.part? = some n) :
      VarTokens ("@@" ++ n) [.symbol .atSign, t]
  | dotted {t : Token} {m n : String} {us : List Token} (hm : VarTokens m us)
      (h : t.part? = some n) : VarTokens (m ++ "." ++ n) (us ++ [.symbol .dot, t])

/-- The expressions that a list of tokens may be read as, where so many levels of nesting are left.
Some words are keywords in some places: NOT where a condition starts, SELECT behind a parenthesis,
DISTINCT in front of arguments. -/
inductive Derives : Nat → Rank → Expr → List Token → Prop
  | column {k : Nat} {t : Token} {n : String} (h : t.name? = some n) :
      Derives k .primary (.column ⟨none, n⟩) [t]
  | qualified {k : Nat} {t t' : Token} {q n : String} (h : t.name? = some q)
      (h' : t'.part? = some n) :
      Derives k .primary (.column ⟨some q, n⟩) [t, .symbol .dot, t']
  | word {k : Nat} {w : String} {l : Literal} (h : literalWord? w = some l) :
      Derives k .primary (.literal l) [.word w]
  | number {k : Nat} {n : String} {e : Expr} (h : e = Expr.ofNumber n) :
      Derives k .primary e [.number n]
  | text {k : Nat} {s : String} : Derives k .primary (.literal (.text s)) [.str s]
  | placeholder {k : Nat} : Derives k .primary .placeholder [.placeholder]
  | var {k : Nat} {n : String} {us : List Token} (h : VarTokens n us) :
      Derives k .primary (.var n) (.symbol .atSign :: us)
  | callStar {k : Nat} {w : String} {d : Bool} {us : List Token} (hw : literalWord? w = none)
      (hd : Flag "DISTINCT" d us) : Derives k .primary (.call w [.star] d)
        (.word w :: .symbol .leftParen :: us ++ [.symbol .star, .symbol .rightParen])
  | callNone {k : Nat} {w : String} {d : Bool} {us : List Token} (hw : literalWord? w = none)
      (hd : Flag "DISTINCT" d us) : Derives k .primary (.call w [] d)
        (.word w :: .symbol .leftParen :: us ++ [.symbol .rightParen])
  | call {k : Nat} {w : String} {d : Bool} {us : List Token} {ps : List (Expr × List Token)}
      (hw : literalWord? w = none) (hd : Flag "DISTINCT" d us) (hne : ps ≠ [])
      (hps : ∀ p ∈ ps, Derives k .disjunction p.1 p.2)
      (hpos : d = false → ¬OpensWith "DISTINCT" (commaTokens (ps.map (·.2)))) :
      Derives (k + 1) .primary (.call w (ps.map (·.1)) d)
        (.word w :: .symbol .leftParen :: us ++ commaTokens (ps.map (·.2))
          ++ [.symbol .rightParen])
  | paren {k : Nat} {e : Expr} {u : List Token} (h : Derives k .disjunction e u)
      (hpos : ¬OpensWith "SELECT" u) :
      Derives (k + 1) .primary (.paren e) (.symbol .leftParen :: u ++ [.symbol .rightParen])
  | negate {k : Nat} {e : Expr} {u : List Token} (h : Derives k .signed e u) :
      Derives (k + 1) .signed (.negate e) (.symbol .minus :: u)
  | plus {k : Nat} {e : Expr} {u : List Token} (h : Derives k .signed e u) :
      Derives (k + 1) .signed e (.symbol .plus :: u)
  | chain {k : Nat} {r s : Rank} {l e : Expr} {op : BinaryOp} {t : Token} {u v : List Token}
      (hs : r.above = some s) (ht : r.chainOp? t = some op) (hl : Derives k r l u)
      (he : Derives k s e v) : Derives k r (.binary l op e) (u ++ t :: v)
  | comparison {k : Nat} {l e : Expr} {op : BinaryOp} {t : Token} {u v : List Token}
      (ht : Expr.comparisonOp? t = some op) (hl : Derives k .sum l u) (he : Derives k .sum e v) :
      Derives k .comparison (.binary l op e) (u ++ t :: v)
  | isNull {k : Nat} {e : Expr} {n : Bool} {t t' : Token} {u us : List Token}
      (ht : t.isKeyword "IS" = true) (ht' : t'.isKeyword "NULL" = true) (hn : Flag "NOT" n us)
      (h : Derives k .sum e u) : Derives k .comparison (.isNull e n) (u ++ t :: us ++ [t'])
  | inList {k : Nat} {e : Expr} {n : Bool} {t : Token} {u us : List Token}
      {ps : List (Expr × List Token)} (ht : t.isKeyword "IN" = true) (hn : Flag "NOT" n us)
      (hne : ps ≠ []) (h : Derives (k + 1) .sum e u)
      (hps : ∀ p ∈ ps, Derives k .disjunction p.1 p.2)
      (hpos : ¬OpensWith "SELECT" (commaTokens (ps.map (·.2)))) :
      Derives (k + 1) .comparison (.inList e (ps.map (·.1)) n)
        (u ++ us ++ t :: .symbol .leftParen :: commaTokens (ps.map (·.2)) ++ [.symbol .rightParen])
  | between {k : Nat} {e low high : Expr} {n : Bool} {t t' : Token} {u us v w : List Token}
      (ht : t.isKeyword "BETWEEN" = true) (ht' : t'.isKeyword "AND" = true) (hn : Flag "NOT" n us)
      (h : Derives k .sum e u) (hlow : Derives k .sum low v) (hhigh : Derives k .sum high w) :
      Derives k .comparison (.between e low high n) (u ++ us ++ t :: v ++ t' :: w)
  | like {k : Nat} {e pattern : Expr} {n : Bool} {t : Token} {u us v : List Token}
      (ht : t.isKeyword "LIKE" = true) (hn : Flag "NOT" n us) (h : Derives k .sum e u)
      (hp : Derives k .sum pattern v) :
      Derives k .comparison (.like e pattern n) (u ++ us ++ t :: v)
  | not {k : Nat} {e : Expr} {t : Token} {u : List Token} (ht : t.isKeyword "NOT" = true)
      (h : Derives k .negation e u) : Derives (k + 1) .negation (.not e) (t :: u)
  | tighter {k : Nat} {r s : Rank} {e : Expr} {u : List Token} (hs : r.above = some s)
      (h : Derives k s e u) (hpos : r = .negation → ¬OpensWith "NOT" u) : Derives k r e u

theorem Derives.ne_nil {k : Nat} {r : Rank} {e : Expr} {u : List Token} (h : Derives k r e u) :
    u ≠ [] := by
  induction h with
  | tighter _ _ _ ih => exact ih
  | chain => simp
  | _ => simp

theorem Derives.commaTokens_ne_nil {k : Nat} {r : Rank} {ps : List (Expr × List Token)}
    (hne : ps ≠ []) (h : ∀ p ∈ ps, Derives k r p.1 p.2) : commaTokens (ps.map (·.2)) ≠ [] := by
  apply Sql.commaTokens_ne_nil
  · simpa using hne
  · intro u hu
    obtain ⟨p, hp, rfl⟩ := List.mem_map.mp hu
    exact (h p hp).ne_nil

end ShardedSql.Sql
