import ShardedSql.Sql.TokenParser
import ShardedSql.Text.Integer

namespace ShardedSql.Sql

open TokenParser

/-- A bare name that is not reserved, or a quoted one. -/
def Token.name? : Token → Option String
  | word w => if isReserved w then none else some w
  | quoted q => some q
  | _ => none

namespace TokenParser

def name : TokenParser String := do
  match (← ahead).head?.bind Token.name? with
  | some n => skip 1; return n
  | none => missing "identifier"

/-- The name after a dot, which may be a reserved word. -/
def nameAfterDot : TokenParser String := do
  match ← next with
  | some (.word w) => return w
  | some (.quoted q) => return q
  | _ => refuse .noNameAfterDot

/-- What a name belongs to, and the name. -/
def qualifiedName : TokenParser (Option String × String) := do
  let first ← name
  if ← takesSymbol .dot then return (some first, ← nameAfterDot) else return (none, first)

end TokenParser

/-- The readers that stand one level of nesting deeper: an expression, the operand of NOT and the
operand of a sign. -/
structure Nested where
  expr : TokenParser Expr
  negated : TokenParser Expr
  signed : TokenParser Expr

namespace Expr

def ofNumber (text : String) : Expr :=
  match Text.readInt64? text with
  | some i => literal (.integer i)
  | none => literal (.number text)

/-- The arguments of a call, from the opening parenthesis on. -/
def parseCall (deeper : Nested) (f : String) : TokenParser Expr := do
  needsSymbol .leftParen
  let distinct ← takesWord "DISTINCT"
  let args ←
    if ← takesSymbol .star then pure [star]
    else if ← seesSymbol .rightParen then pure []
    else TokenParser.list deeper.expr
  needsSymbol .rightParen
  return call f args distinct

def dotSign (t : Token) : Option Unit := if t.isSymbol .dot then some () else none

/-- A variable, from behind its first sign on. -/
def parseVar : TokenParser Expr := do
  let sign := if ← takesSymbol .atSign then "@@" else "@"
  let first ← nameAfterDot
  let name ← TokenParser.loop dotSign (fun n _ => do return n ++ "." ++ (← nameAfterDot)) (sign ++ first)
  return var name

def parseColumn (first : String) : TokenParser Expr := do
  if ← takesSymbol .dot then return column ⟨some first, ← nameAfterDot⟩
  else return column ⟨none, first⟩

/-- An expression that starts with a word. -/
def parseWord (deeper : Nested) (w : String) : TokenParser Expr := do
  let capitals := Text.upper w
  if capitals = "NULL" then return literal .null
  else if capitals = "TRUE" then return literal (.boolean true)
  else if capitals = "FALSE" then return literal (.boolean false)
  else if ← seesSymbol .leftParen then parseCall deeper w
  else if isReserved w then refuse (.keywordInExpression w)
  else parseColumn w

def parseParen (deeper : Nested) : TokenParser Expr := do
  if ← seesWord "SELECT" then fail (.unsupported .subquery)
  let inner ← deeper.expr
  needsSymbol .rightParen
  return paren inner

def parsePrimary (deeper : Nested) : TokenParser Expr := do
  match ← next with
  | none => refuse .endOfExpression
  | some (.number n) => return ofNumber n
  | some (.str s) => return literal (.text s)
  | some .placeholder => return placeholder
  | some (.symbol .leftParen) => parseParen deeper
  | some (.symbol .atSign) => parseVar
  | some (.word w) => parseWord deeper w
  | some (.quoted q) => parseColumn q
  | some t => refuse (.unexpectedInExpression t)

/-- A sign binds closest; a plus leaves no trace. -/
def parseSigned (deeper : Nested) : TokenParser Expr := do
  if ← takesSymbol .minus then return negate (← deeper.signed)
  else if ← takesSymbol .plus then deeper.signed
  else parsePrimary deeper

def productOp? : Token → Option BinaryOp
  | .symbol .star => some .times
  | .symbol .slash => some .divide
  | .symbol .percent => some .modulo
  | t => if t.isKeyword "MOD" then some .modulo else none

def sumOp? : Token → Option BinaryOp
  | .symbol .plus => some .plus
  | .symbol .minus => some .minus
  | _ => none

def comparisonOp? : Token → Option BinaryOp
  | .symbol .equal => some .equal
  | .symbol .nullSafeEqual => some .nullSafeEqual
  | .symbol .bangEqual | .symbol .lessGreater => some .notEqual
  | .symbol .less => some .less
  | .symbol .lessEqual => some .lessEqual
  | .symbol .greater => some .greater
  | .symbol .greaterEqual => some .greaterEqual
  | _ => none

def andOp? (t : Token) : Option BinaryOp := if t.isKeyword "AND" then some .and else none

def orOp? (t : Token) : Option BinaryOp := if t.isKeyword "OR" then some .or else none

/-- Operands with operators between, which associate to the left. -/
def parseChain (op? : Token → Option BinaryOp) (operand : TokenParser Expr) : TokenParser Expr := do
  let first ← operand
  TokenParser.loop op? (fun left op => do return binary left op (← operand)) first

def parseProduct (deeper : Nested) : TokenParser Expr := parseChain productOp? (parseSigned deeper)

def parseSum (deeper : Nested) : TokenParser Expr := parseChain sumOp? (parseProduct deeper)

/-- The rest of `left IN (...)`, from the opening parenthesis on. -/
def parseInList (deeper : Nested) (left : Expr) (negated : Bool) : TokenParser Expr := do
  needsSymbol .leftParen
  if ← seesWord "SELECT" then fail (.unsupported .subquery)
  let items ← TokenParser.list deeper.expr
  needsSymbol .rightParen
  return inList left items negated

def parseBetween (deeper : Nested) (left : Expr) (negated : Bool) : TokenParser Expr := do
  let low ← parseSum deeper
  needsWord "AND"
  let high ← parseSum deeper
  return between left low high negated

/-- Whether NOT stands before IN, BETWEEN or LIKE. It is read then. -/
def takesNegation : TokenParser Bool := do
  let isNot ← seesWord "NOT"
  let isTest ← sees 1 fun t => t.isKeyword "IN" || t.isKeyword "BETWEEN" || t.isKeyword "LIKE"
  if isNot && isTest then
    skip 1
    return true
  else
    return false

/-- What may follow the left side of a comparison. Comparisons do not chain. -/
def parseTest (deeper : Nested) (left : Expr) : TokenParser Expr := do
  if ← takesWord "IS" then
    let negated ← takesWord "NOT"
    needsWord "NULL"
    return isNull left negated
  let negated ← takesNegation
  if ← takesWord "IN" then parseInList deeper left negated
  else if ← takesWord "BETWEEN" then parseBetween deeper left negated
  else if ← takesWord "LIKE" then return like left (← parseSum deeper) negated
  else
    match (← ahead).head?.bind comparisonOp? with
    | some op => skip 1; return binary left op (← parseSum deeper)
    | none => return left

def parseComparison (deeper : Nested) : TokenParser Expr := do
  parseTest deeper (← parseSum deeper)

def parseNegation (deeper : Nested) : TokenParser Expr := do
  if ← takesWord "NOT" then return not (← deeper.negated) else parseComparison deeper

def parseConjunction (deeper : Nested) : TokenParser Expr := parseChain andOp? (parseNegation deeper)

def parseDisjunction (deeper : Nested) : TokenParser Expr := parseChain orOp? (parseConjunction deeper)

/-- The readers of nested expressions when so many levels are left. -/
def nestedWithin : Nat → Nested
  | 0 => ⟨refuse .tooDeep, refuse .tooDeep, refuse .tooDeep⟩
  | levels + 1 =>
    let deeper := nestedWithin levels
    ⟨parseDisjunction deeper, parseNegation deeper, parseSigned deeper⟩

/-- An expression may be nested so many levels deep. -/
def parse (levels : Nat) : TokenParser Expr := (nestedWithin levels).expr

end Expr

end ShardedSql.Sql
