import ShardedSql.Proofs.Sql.Variables
import ShardedSql.Proofs.Text.Decimal

namespace ShardedSql.Sql

open TokenParser (OpensWith)
open Token (EndsWord NumberText WordText scan)

/-- The tokens that a printed name reads as, behind the name of what it belongs to. -/
def nameTokens (qualifier : Option String) (name : String) : List Token :=
  match qualifier with
  | none => [.ofName name]
  | some q => [.ofName q, .symbol .dot, .ofName name]

/-- The tokens of a word that is written only if it applies. -/
def flagTokens (applies : Bool) (word : String) : List Token := if applies then [.word word] else []

def Literal.token : Literal → Token
  | null => .word "NULL"
  | boolean true => .word "TRUE"
  | boolean false => .word "FALSE"
  | integer i => .number (Text.decimal i.toInt)
  | number n => .number n
  | text s => .str s

def BinaryOp.token : BinaryOp → Token
  | equal => .symbol .equal
  | nullSafeEqual => .symbol .nullSafeEqual
  | notEqual => .symbol .bangEqual
  | less => .symbol .less
  | lessEqual => .symbol .lessEqual
  | greater => .symbol .greater
  | greaterEqual => .symbol .greaterEqual
  | and => .word "AND"
  | or => .word "OR"
  | plus => .symbol .plus
  | minus => .symbol .minus
  | times => .symbol .star
  | divide => .symbol .slash
  | modulo => .symbol .percent

def BinaryOp.IsLogical (op : BinaryOp) : Prop := op = .and ∨ op = .or

/-- The tokens that the name of a variable reads as. -/
def varTokens (name : String) : List Token :=
  match Token.ofString? name with
  | .ok ts => ts
  | .error _ => []

/-- A readable variable is spelled with its tokens, which the grammar derives it from. -/
theorem ReadableVar.varTokens {n : String} (h : ReadableVar n) :
    ∃ us, varTokens n = .symbol .atSign :: us ∧ VarTokens n us ∧
      ∀ {rest : List Char}, EndsWord rest → Spells n.toList (varTokens n) rest := by
  obtain ⟨us, hus, hspells⟩ := h.spells
  have hempty : scan ([] : List Char) = .ok [] := by rw [scan]
  have hend : EndsWord [] := by simp [EndsWord]
  have hscan := (hspells hend).ok hempty
  have htokens : Sql.varTokens n = .symbol .atSign :: us := by
    rw [List.append_nil, List.append_nil] at hscan
    simp only [Sql.varTokens, Token.ofString?, hscan]
  rw [htokens]
  exact ⟨us, rfl, hus, hspells⟩

namespace Expr

mutual

/-- The tokens that an expression is printed as. -/
def tokens : Expr → List Token
  | column c => nameTokens c.table c.name
  | literal l => [l.token]
  | placeholder => [.placeholder]
  | var n => varTokens n
  | defaultValue => [.word "DEFAULT"]
  | star => [.symbol .star]
  | not e => .word "NOT" :: e.tokens
  | negate e => .symbol .minus :: e.tokens
  | binary l op r => l.tokens ++ op.token :: r.tokens
  | inList e items n =>
    e.tokens ++ flagTokens n "NOT" ++ .word "IN" :: .symbol .leftParen :: commaTokens (tokensEach items)
      ++ [.symbol .rightParen]
  | between e low high n =>
    e.tokens ++ flagTokens n "NOT" ++ .word "BETWEEN" :: low.tokens ++ .word "AND" :: high.tokens
  | isNull e n => e.tokens ++ .word "IS" :: flagTokens n "NOT" ++ [.word "NULL"]
  | like e p n => e.tokens ++ flagTokens n "NOT" ++ .word "LIKE" :: p.tokens
  | call f args d =>
    .word (Text.upper f) :: .symbol .leftParen :: flagTokens d "DISTINCT"
      ++ commaTokens (tokensEach args) ++ [.symbol .rightParen]
  | paren e => .symbol .leftParen :: e.tokens ++ [.symbol .rightParen]

def tokensEach : List Expr → List (List Token)
  | [] => []
  | e :: es => e.tokens :: tokensEach es

end

theorem tokensEach_eq_map (es : List Expr) : tokensEach es = es.map tokens := by
  induction es with
  | nil => rfl
  | cons e es ih => simp [tokensEach, ih]

mutual

/-- An expression with the names of its functions in capitals. -/
def normal : Expr → Expr
  | column c => column c
  | literal l => literal l
  | placeholder => placeholder
  | var n => var n
  | defaultValue => defaultValue
  | star => star
  | not e => not e.normal
  | negate e => negate e.normal
  | binary l op r => binary l.normal op r.normal
  | inList e items n => inList e.normal (normalEach items) n
  | between e low high n => between e.normal low.normal high.normal n
  | isNull e n => isNull e.normal n
  | like e p n => like e.normal p.normal n
  | call f args d => call (Text.upper f) (normalEach args) d
  | paren e => paren e.normal

def normalEach : List Expr → List Expr
  | [] => []
  | e :: es => e.normal :: normalEach es

end

theorem normalEach_eq_map (es : List Expr) : normalEach es = es.map normal := by
  induction es with
  | nil => rfl
  | cons e es ih => simp [normalEach, ih]

/-- Whether an expression is made by NOT, AND or OR. -/
def IsCondition : Expr → Prop
  | not _ => True
  | binary _ op _ => op.IsLogical
  | _ => False

/-- Where a condition starts, the word NOT is the operator and never the name of a function. -/
def StandsAlone (e : Expr) : Prop := e.IsCondition ∨ ¬OpensWith "NOT" e.tokens

mutual

/-- Whether an expression is read again from its text: no sign is printed in front of a minus, no
function is named like a keyword where the keyword may stand, and variables read as what they are. -/
def Readable : Expr → Prop
  | column _ | literal _ | placeholder | defaultValue | star => True
  | var n => ReadableVar n
  | not e => e.Readable ∧ e.StandsAlone
  | negate e => e.Readable ∧ e.sql.toList.head? ≠ some '-'
  | binary l op r => l.Readable ∧ r.Readable ∧ (op.IsLogical → l.StandsAlone ∧ r.StandsAlone)
  | inList e items _ =>
    e.Readable ∧ ReadableEach items ∧ ¬OpensWith "SELECT" (commaTokens (tokensEach items))
  | between e low high _ => e.Readable ∧ low.Readable ∧ high.Readable
  | isNull e _ => e.Readable
  | like e p _ => e.Readable ∧ p.Readable
  | call _ args d =>
    ReadableEach args ∧ (d = false → ¬OpensWith "DISTINCT" (commaTokens (tokensEach args)))
  | paren e => e.Readable ∧ e.StandsAlone ∧ ¬OpensWith "SELECT" e.tokens

def ReadableEach : List Expr → Prop
  | [] => True
  | e :: es => (e.Readable ∧ e.StandsAlone) ∧ ReadableEach es

end

theorem readableEach_iff (es : List Expr) :
    ReadableEach es ↔ ∀ e ∈ es, e.Readable ∧ e.StandsAlone := by
  induction es with
  | nil => simp [ReadableEach]
  | cons e es ih => simp [ReadableEach, ih]

/-- Whether words and numbers of an expression are such as the lexer gives. -/
inductive Lexed : Expr → Prop
  | column (c : ColumnName) : Lexed (.column c)
  | null : Lexed (.literal .null)
  | boolean (b : Bool) : Lexed (.literal (.boolean b))
  | integer {i : Int64} (h : 0 ≤ i.toInt) : Lexed (.literal (.integer i))
  | number {n : String} (h : NumberText n.toList) (hbig : Text.readInt64? n = none) :
      Lexed (.literal (.number n))
  | text (s : String) : Lexed (.literal (.text s))
  | placeholder : Lexed .placeholder
  | var {n : String} (h : n.toList.head? = some '@') : Lexed (.var n)
  | star : Lexed .star
  | not {e : Expr} (h : Lexed e) : Lexed (.not e)
  | negate {e : Expr} (h : Lexed e) : Lexed (.negate e)
  | binary {l r : Expr} {op : BinaryOp} (hl : Lexed l) (hr : Lexed r) : Lexed (.binary l op r)
  | inList {e : Expr} {items : List Expr} {n : Bool} (h : Lexed e) (hitems : ∀ i ∈ items, Lexed i) :
      Lexed (.inList e items n)
  | between {e low high : Expr} {n : Bool} (h : Lexed e) (hlow : Lexed low) (hhigh : Lexed high) :
      Lexed (.between e low high n)
  | isNull {e : Expr} {n : Bool} (h : Lexed e) : Lexed (.isNull e n)
  | like {e p : Expr} {n : Bool} (h : Lexed e) (hp : Lexed p) : Lexed (.like e p n)
  | call {f : String} {args : List Expr} {d : Bool} (hf : WordText f.toList)
      (hargs : ∀ a ∈ args, Lexed a) : Lexed (.call f args d)
  | paren {e : Expr} (h : Lexed e) : Lexed (.paren e)

/-- Renaming columns keeps the words and numbers. -/
theorem Lexed.mapColumns {e : Expr} (h : Lexed e) (f : ColumnName → ColumnName) :
    Lexed (e.mapColumns f) := by
  induction h with
  | column c => exact .column _
  | null => exact .null
  | boolean b => exact .boolean b
  | integer h => exact .integer h
  | number h hbig => exact .number h hbig
  | text s => exact .text s
  | placeholder => exact .placeholder
  | var h => exact .var h
  | star => exact .star
  | not _ ih => exact .not ih
  | negate _ ih => exact .negate ih
  | binary _ _ ihl ihr => exact .binary ihl ihr
  | inList _ _ ih ihitems =>
    refine .inList ih ?_
    simpa [mapColumnsAll_eq_map] using ihitems
  | between _ _ _ ih ihlow ihhigh => exact .between ih ihlow ihhigh
  | isNull _ ih => exact .isNull ih
  | like _ _ ih ihp => exact .like ih ihp
  | call hf _ ihargs =>
    refine .call hf ?_
    simpa [mapColumnsAll_eq_map] using ihargs
  | paren _ ih => exact .paren ih

end Expr

theorem mem_commaTokens {us : List (List Token)} {u : List Token} (hu : u ∈ us) {t : Token}
    (ht : t ∈ u) : t ∈ commaTokens us := by
  obtain ⟨v, us, rfl⟩ := List.exists_cons_of_ne_nil (List.ne_nil_of_mem hu)
  rw [commaTokens_cons]
  rcases List.mem_cons.mp hu with rfl | hu
  · simp [ht]
  · apply List.mem_append_right
    exact List.mem_flatMap.mpr ⟨u, hu, List.mem_cons_of_mem _ ht⟩

theorem VarTokens.head {n : String} {us : List Token} (h : VarTokens n us) :
    n.toList.head? = some '@' := by
  induction h with
  | single | double => simp
  | dotted _ _ ih =>
    obtain ⟨cs, hcs⟩ := List.head?_eq_some_iff.mp ih
    simp [hcs]

theorem lexed_ofNumber {n : String} (h : NumberText n.toList) : (Expr.ofNumber n).Lexed := by
  unfold Expr.ofNumber
  split
  · next i hi =>
    obtain ⟨x, hx, hi⟩ := Option.bind_eq_some_iff.mp hi
    apply Expr.Lexed.integer
    rw [Text.toInt_toInt64? hi]
    apply Text.readInt?_nonneg hx
    intro hhead
    obtain ⟨cs, hcs⟩ := List.head?_eq_some_iff.mp hhead
    have hstarts := h.starts
    rw [hcs] at hstarts
    cases hstarts
  · next hbig => exact .number h hbig

/-- What the grammar derives from scanned tokens is made of scanned words and numbers. -/
theorem Derives.lexed {k : Nat} {r : Rank} {e : Expr} {u : List Token} (h : Derives k r e u)
    (hu : ∀ t ∈ u, t.Scanned) : e.Lexed := by
  have hitems : ∀ {ps : List (Expr × List Token)},
      (∀ p ∈ ps, (∀ t ∈ p.2, t.Scanned) → p.1.Lexed) →
      (∀ t ∈ commaTokens (ps.map (·.2)), t.Scanned) → ∀ e ∈ ps.map (·.1), e.Lexed := by
    intro ps ih hps e he
    obtain ⟨p, hp, rfl⟩ := List.mem_map.mp he
    exact ih p hp fun t ht => hps t (mem_commaTokens (List.mem_map_of_mem hp) ht)
  induction h with
  | column | qualified => exact .column _
  | @word k w l hw =>
    unfold literalWord? at hw
    split at hw
    · cases hw
      exact .null
    split at hw
    · cases hw
      exact .boolean _
    split at hw
    · cases hw
      exact .boolean _
    · cases hw
  | @number k n e he => exact he ▸ lexed_ofNumber (hu (.number n) (by simp))
  | text => exact .text _
  | placeholder => exact .placeholder
  | var hn => exact .var hn.head
  | callStar hw hd =>
    refine .call (hu (.word _) (by simp)) fun a ha => ?_
    obtain rfl := List.mem_singleton.mp ha
    exact .star
  | callNone hw hd => exact .call (hu (.word _) (by simp)) nofun
  | call hw hd hne hps hpos ih =>
    exact .call (hu (.word _) (by simp)) (hitems ih fun t ht => hu t (by simp [ht]))
  | paren h hpos ih => exact .paren (ih fun t ht => hu t (by simp [ht]))
  | negate _ ih => exact .negate (ih fun t ht => hu t (by simp [ht]))
  | plus _ ih => exact ih fun t ht => hu t (by simp [ht])
  | chain hs ht _ _ ihl ihe | comparison ht _ _ ihl ihe =>
    exact .binary (ihl fun t ht => hu t (by simp [ht])) (ihe fun t ht => hu t (by simp [ht]))
  | isNull ht ht' hn _ ih => exact .isNull (ih fun t ht => hu t (by simp [ht]))
  | inList ht hn hne _ hps hpos ih ihps =>
    exact .inList (ih fun t ht => hu t (by simp [ht])) (hitems ihps fun t ht => hu t (by simp [ht]))
  | between ht ht' hn _ _ _ ih ihlow ihhigh =>
    exact .between (ih fun t ht => hu t (by simp [ht])) (ihlow fun t ht => hu t (by simp [ht]))
      (ihhigh fun t ht => hu t (by simp [ht]))
  | like ht hn _ _ ih ihp =>
    exact .like (ih fun t ht => hu t (by simp [ht])) (ihp fun t ht => hu t (by simp [ht]))
  | not ht _ ih => exact .not (ih fun t ht => hu t (by simp [ht]))
  | tighter hs h hpos ih => exact ih hu

end ShardedSql.Sql
