import ShardedSql.Sql.Expr.Parse
import ShardedSql.Sql.Statement

namespace ShardedSql.Sql

open TokenParser

def TableName.parse : TokenParser TableName := do
  let (schema, name) ← qualifiedName
  return ⟨schema, name⟩

def ColumnName.parse : TokenParser ColumnName := do
  let (table, name) ← qualifiedName
  return ⟨table, name⟩

/-- An alias, which behind AS may also be a reserved word or a string. -/
def TokenParser.aliasName? : TokenParser (Option String) := do
  if ← takesWord "AS" then
    match ← next with
    | some (.word w) => return some w
    | some (.quoted q) => return some q
    | some (.str s) => return some s
    | _ => refuse .noAliasAfterAs
  else
    match (← ahead).head?.bind Token.name? with
    | some n => skip 1; return some n
    | none => return none

def TableRef.parse : TokenParser TableRef := do
  if ← seesSymbol .leftParen then fail (.unsupported .derivedTable)
  let table ← TableName.parse
  return ⟨table, ← aliasName?⟩

def TokenParser.unsigned : TokenParser UInt64 := do
  match ← next with
  | some (.number n) =>
    match Text.readUInt64? n with
    | some k => return k
    | none => refuse (.badLimit n)
  | found => refuse (.expected "number" found)

def Limit.parse : TokenParser Limit := do
  let first ← unsigned
  if ← takesSymbol .comma then return ⟨some first, ← unsigned⟩
  else if ← takesWord "OFFSET" then return ⟨some (← unsigned), first⟩
  else return ⟨none, first⟩

/-- The first word of a join. -/
def JoinKind.ofToken? : Token → Option (JoinKind × Bool)
  | .word w =>
    match Text.upper w with
    | "JOIN" => some (inner, true)
    | "INNER" => some (inner, false)
    | "CROSS" => some (cross, false)
    | "LEFT" => some (left, false)
    | "RIGHT" => some (right, false)
    | _ => none
  | _ => none

/-- The rest of a join whose first word is read, `complete` if that word was JOIN itself. -/
def Join.parse (levels : Nat) (kind : JoinKind) (complete : Bool) : TokenParser Join := do
  unless complete do
    if kind = .left ∨ kind = .right then
      let _ ← takesWord "OUTER"
    needsWord "JOIN"
  let table ← TableRef.parse
  let on ← after? "ON" (Expr.parse levels)
  if on.isNone then
    if ← seesWord "USING" then fail (.unsupported .joinUsing)
  return ⟨kind, table, on⟩

def SelectItem.parse (levels : Nat) : TokenParser SelectItem := do
  if ← takesSymbol .star then return star
  match (← ahead).take 3 with
  | [.word t, .symbol .dot, .symbol .star] | [.quoted t, .symbol .dot, .symbol .star] =>
    skip 3
    return tableStar t
  | _ =>
    let e ← Expr.parse levels
    return expr e (← aliasName?)

def OrderItem.parse (levels : Nat) : TokenParser OrderItem := do
  let e ← Expr.parse levels
  if ← takesWord "DESC" then return ⟨e, true⟩
  let _ ← takesWord "ASC"
  return ⟨e, false⟩

/-- A list behind two keywords, empty if the first of them is not there. -/
def TokenParser.listAfter {α : Type} (first second : String) (item : TokenParser α) : TokenParser (List α) := do
  if ← takesWord first then
    needsWord second
    TokenParser.list item
  else
    return []

/-- The tables and joins of a SELECT, none for FROM DUAL. -/
def Select.parseFrom (levels : Nat) : TokenParser (List TableRef × List Join) := do
  if !(← takesWord "FROM") then return ([], [])
  if ← takesWord "DUAL" then return ([], [])
  let sources ← TokenParser.list TableRef.parse
  let joins ← TokenParser.loop JoinKind.ofToken?
    (fun joins k => do return joins ++ [← Join.parse levels k.1 k.2]) []
  return (sources, joins)

def Select.parse (levels : Nat) : TokenParser Select := do
  needsWord "SELECT"
  let distinct ← takesWord "DISTINCT"
  unless distinct do
    let _ ← takesWord "ALL"
  let items ← TokenParser.list (SelectItem.parse levels)
  let (sources, joins) ← Select.parseFrom levels
  let condition ← after? "WHERE" (Expr.parse levels)
  let groupBy ← listAfter "GROUP" "BY" (Expr.parse levels)
  let having ← after? "HAVING" (Expr.parse levels)
  let orderBy ← listAfter "ORDER" "BY" (OrderItem.parse levels)
  let limit ← after? "LIMIT" Limit.parse
  let forUpdate := (← after? "FOR" (needsWord "UPDATE")).isSome
  if ← seesWord "UNION" then fail (.unsupported .union)
  return { distinct, items, sources, joins, condition, groupBy, having, orderBy, limit, forUpdate }

def Assignment.parse (levels : Nat) : TokenParser Assignment := do
  let column ← ColumnName.parse
  needsSymbol .equal
  return ⟨column, ← Expr.parse levels⟩

def Insert.parseValue (levels : Nat) : TokenParser Expr := do
  if ← takesWord "DEFAULT" then return .defaultValue else Expr.parse levels

def Insert.parseRow (levels : Nat) : TokenParser (List Expr) := do
  needsSymbol .leftParen
  let row ←
    if ← seesSymbol .rightParen then pure [] else TokenParser.list (Insert.parseValue levels)
  needsSymbol .rightParen
  return row

def Insert.parseColumns : TokenParser (List String) := do
  if ← takesSymbol .leftParen then
    let columns ← TokenParser.list name
    needsSymbol .rightParen
    return columns
  else
    return []

/-- The columns and rows of an INSERT, given by VALUES or by one assignment for each column. -/
def Insert.parseContent (levels : Nat) : TokenParser (List String × List (List Expr)) := do
  if ← takesWord "SET" then
    let assignments ← TokenParser.list (Assignment.parse levels)
    return (assignments.map (·.column.name), [assignments.map (·.value)])
  let columns ← Insert.parseColumns
  if ← seesWord "SELECT" then fail (.unsupported .insertSelect)
  unless ← takesWord "VALUES" do
    unless ← takesWord "VALUE" do missing "VALUES"
  return (columns, ← TokenParser.list (Insert.parseRow levels))

def Insert.parseOnDuplicate (levels : Nat) : TokenParser (List Assignment) := do
  if ← takesWord "ON" then
    needsWord "DUPLICATE"
    needsWord "KEY"
    needsWord "UPDATE"
    TokenParser.list (Assignment.parse levels)
  else
    return []

def Insert.parse (levels : Nat) : TokenParser Insert := do
  let replace ← takesWord "REPLACE"
  unless replace do needsWord "INSERT"
  let ignore ← takesWord "IGNORE"
  let _ ← takesWord "INTO"
  let table ← TableName.parse
  let (columns, rows) ← Insert.parseContent levels
  let onDuplicate ← Insert.parseOnDuplicate levels
  return { replace, ignore, table, columns, rows, onDuplicate }

def Update.parse (levels : Nat) : TokenParser Update := do
  needsWord "UPDATE"
  let _ ← takesWord "LOW_PRIORITY"
  let _ ← takesWord "IGNORE"
  let table ← TableRef.parse
  if (← seesSymbol .comma) || (← seesWord "JOIN") then fail (.unsupported .multiTableUpdate)
  needsWord "SET"
  let assignments ← TokenParser.list (Assignment.parse levels)
  let condition ← after? "WHERE" (Expr.parse levels)
  let limit ← after? "LIMIT" unsigned
  return { table, assignments, condition, limit }

def Delete.parse (levels : Nat) : TokenParser Delete := do
  needsWord "DELETE"
  needsWord "FROM"
  let table ← TableName.parse
  let condition ← after? "WHERE" (Expr.parse levels)
  let limit ← after? "LIMIT" unsigned
  return { table, condition, limit }

namespace Statement

/-- Statements that EXPLAIN may wrap. Before anything else it describes a table. -/
def explainable : List String :=
  ["SELECT", "INSERT", "REPLACE", "UPDATE", "DELETE", "EXPLAIN", "DESC", "DESCRIBE", "SHOW", "SET",
   "CREATE", "DROP", "ALTER", "TRUNCATE"]

def isExplainable : Token → Bool
  | .word w => explainable.contains (Text.upper w)
  | _ => false

def isExplain (word : String) : Bool := ["EXPLAIN", "DESC", "DESCRIBE"].contains (Text.upper word)

/-- All tokens that are left. -/
def parseOther : TokenParser Statement := do
  let tokens ← ahead
  skip tokens.length
  return other tokens

/-- A statement that is not an EXPLAIN, by its first word. -/
def parseDirect (levels : Nat) (word : String) : TokenParser Statement := do
  match Text.upper word with
  | "SELECT" => return select (← Select.parse levels)
  | "INSERT" | "REPLACE" => return insert (← Insert.parse levels)
  | "UPDATE" => return update (← Update.parse levels)
  | "DELETE" => return delete (← Delete.parse levels)
  | _ => parseOther

/-- A statement when so many levels of nesting are left. EXPLAIN takes one of them. -/
def parseWithin (levels : Nat) : TokenParser Statement := do
  match ← ahead with
  | .symbol .leftParen :: _ => fail (.unsupported .parenthesizedStatement)
  | .word w :: rest =>
    if isExplain w then
      if rest.head?.any isExplainable then
        skip 1
        match levels with
        | 0 => refuse .tooDeep
        | levels + 1 => return explain (← parseWithin levels)
      else parseOther
    else parseDirect levels w
  | _ => parseOther

def maxLevels : Nat := 64

def dropSemicolons (tokens : List Token) : List Token :=
  (tokens.reverse.dropWhile (·.isSymbol .semicolon)).reverse

/-- Reads a statement that takes all tokens but the semicolons at the end. -/
def ofTokens? (tokens : List Token) : Except Error Statement :=
  match dropSemicolons tokens with
  | [] => .error (.parse .emptyStatement)
  | t :: ts =>
    match (parseWithin maxLevels).run (t :: ts) with
    | .error e => .error e
    | .ok (stmt, []) => .ok stmt
    | .ok (_, t :: _) => .error (.parse (.trailing t))

def ofString? (text : String) : Except Error Statement :=
  match Token.ofString? text with
  | .error e => .error (.parse (.scan e))
  | .ok tokens => ofTokens? tokens

end Statement

end ShardedSql.Sql
