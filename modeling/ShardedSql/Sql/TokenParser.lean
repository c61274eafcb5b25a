import ShardedSql.Error

namespace ShardedSql.Sql

/-- A reader of tokens, which answers with what it read and the tokens that are left. -/
structure TokenParser (α : Type) where
  run : List Token → Except Error (α × List Token)
  shrinks : ∀ {ts : List Token} {a : α} {rest : List Token},
    run ts = .ok (a, rest) → rest.length ≤ ts.length

namespace TokenParser

variable {α β : Type}

def result (a : α) : TokenParser α where
  run ts := .ok (a, ts)
  shrinks h := by cases h; exact Nat.le_refl _

def andThen (p : TokenParser α) (f : α → TokenParser β) : TokenParser β where
  run ts :=
    match p.run ts with
    | .error e => .error e
    | .ok (a, rest) => (f a).run rest
  shrinks {ts b rest} h := by
    split at h
    · cases h
    · rename_i a mid hp
      exact Nat.le_trans ((f a).shrinks h) (p.shrinks hp)

instance : Monad TokenParser where
  pure := result
  bind := andThen

def fail (e : Error) : TokenParser α where
  run _ := .error e
  shrinks h := by cases h

def refuse (e : ParseError) : TokenParser α := fail (.parse e)

/-- The tokens ahead, none of them read. -/
def ahead : TokenParser (List Token) where
  run ts := .ok (ts, ts)
  shrinks h := by cases h; exact Nat.le_refl _

/-- The next token, read. -/
def next : TokenParser (Option Token) where
  run ts := .ok (ts.head?, ts.tail)
  shrinks {ts _ _} h := by cases h; simp

def skip (n : Nat) : TokenParser Unit where
  run ts := .ok ((), ts.drop n)
  shrinks {ts _ _} h := by cases h; simp

/-- Whether the token at a distance passes a test. -/
def sees (n : Nat) (test : Token → Bool) : TokenParser Bool := do
  return (← ahead)[n]?.any test

/-- Reads the next token if it passes a test. -/
def takes (test : Token → Bool) : TokenParser Bool := do
  if ← sees 0 test then
    skip 1
    return true
  else
    return false

def takesWord (kw : String) : TokenParser Bool := takes (·.isKeyword kw)

def takesSymbol (s : Symbol) : TokenParser Bool := takes (·.isSymbol s)

def seesWord (kw : String) : TokenParser Bool := sees 0 (·.isKeyword kw)

def seesSymbol (s : Symbol) : TokenParser Bool := sees 0 (·.isSymbol s)

/-- Fails for want of something at the next token. -/
def missing (what : String) : TokenParser α := do
  refuse (.expected what (← ahead).head?)

def needsWord (kw : String) : TokenParser Unit := do
  unless ← takesWord kw do missing kw

def needsSymbol (s : Symbol) : TokenParser Unit := do
  unless ← takesSymbol s do missing s.text

/-- As long as the next token is one that `sign` knows, reads it and goes on with `step`. -/
def loopRun {σ : Type} (sign : Token → Option σ) (step : α → σ → TokenParser α) (a : α) :
    List Token → Except Error (α × List Token)
  | [] => .ok (a, [])
  | t :: ts =>
    match sign t with
    | none => .ok (a, t :: ts)
    | some s =>
      match _h : (step a s).run ts with
      | .error e => .error e
      | .ok (a', rest) => loopRun sign step a' rest
termination_by ts => ts.length
decreasing_by
  have := (step a s).shrinks _h
  simp; omega

theorem length_loopRun {σ : Type} (sign : Token → Option σ) (step : α → σ → TokenParser α) (a : α)
    (ts : List Token) {b : α} {rest : List Token} (h : loopRun sign step a ts = .ok (b, rest)) :
    rest.length ≤ ts.length := by
  fun_induction loopRun sign step a ts with
  | case1 => cases h; simp
  | case2 => cases h; simp
  | case3 => cases h
  | case4 a t ts s _ a' mid hs ih =>
    have h1 := ih h
    have h2 := (step a s).shrinks hs
    simp; omega

def loop {σ : Type} (sign : Token → Option σ) (step : α → σ → TokenParser α) (a : α) : TokenParser α where
  run := loopRun sign step a
  shrinks h := length_loopRun sign step a _ h

def commaSign (t : Token) : Option Unit := if t.isSymbol .comma then some () else none

/-- One item or more, with commas between. -/
def list (item : TokenParser α) : TokenParser (List α) := do
  let first ← item
  loop commaSign (fun items _ => do return items ++ [← item]) [first]

/-- What follows a keyword, if the keyword is there. -/
def after? (kw : String) (p : TokenParser α) : TokenParser (Option α) := do
  if ← takesWord kw then return some (← p) else return none

end TokenParser

end ShardedSql.Sql
