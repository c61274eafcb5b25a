import ShardedSql.Text.Case
import ShardedSql.Text.Quoted

namespace ShardedSql.Sql

inductive Symbol where
  | nullSafeEqual | lessGreater | bangEqual | lessEqual | greaterEqual | equal | less | greater
  | leftParen | rightParen | comma | dot | semicolon
  | plus | minus | star | slash | percent | atSign
  deriving DecidableEq, Repr

def Symbol.text : Symbol → String
  | nullSafeEqual => "<=>"
  | lessGreater => "<>"
  | bangEqual => "!="
  | lessEqual => "<="
  | greaterEqual => ">="
  | equal => "="
  | less => "<"
  | greater => ">"
  | leftParen => "("
  | rightParen => ")"
  | comma => ","
  | dot => "."
  | semicolon => ";"
  | plus => "+"
  | minus => "-"
  | star => "*"
  | slash => "/"
  | percent => "%"
  | atSign => "@"

/-- Words and numbers keep their spelling; quoted names and strings hold what their quotes and
escapes stand for. -/
inductive Token where
  | word (text : String)
  | quoted (name : String)
  | str (text : String)
  | number (text : String)
  | placeholder
  | symbol (s : Symbol)
  deriving DecidableEq, Repr

namespace Token

/-- Whether the token is the keyword `kw`, which is given in capitals. -/
def isKeyword (kw : String) : Token → Bool
  | word w => Text.upper w == kw
  | _ => false

def isSymbol (s : Symbol) (t : Token) : Bool := t == symbol s

/-- A token as error messages name it. -/
def described : Token → String
  | word w => "Word(" ++ Text.quoted w ++ ")"
  | quoted q => "Quoted(" ++ Text.quoted q ++ ")"
  | str s => "Str(" ++ Text.quoted s ++ ")"
  | number n => "Number(" ++ Text.quoted n ++ ")"
  | placeholder => "Placeholder"
  | symbol s => "Symbol(" ++ Text.quoted s.text ++ ")"

end Token

/-- Words that are never a bare name or an alias without AS. -/
def reservedWords : List String :=
  ["ALL", "AND", "AS", "ASC", "BETWEEN", "BY", "CROSS", "DELETE", "DESC", "DISTINCT", "DIV",
   "DUAL", "EXPLAIN", "FALSE", "FOR", "FROM", "GROUP", "HAVING", "IN", "INNER", "INSERT", "INTO",
   "IS", "JOIN", "KEY", "LEFT", "LIKE", "LIMIT", "LOCK", "MOD", "NOT", "NULL", "ON", "OR",
   "ORDER", "OUTER", "REPLACE", "RIGHT", "SELECT", "SET", "TRUE", "UNION", "UPDATE", "USING",
   "VALUES", "WHERE"]

def isReserved (word : String) : Bool := reservedWords.contains (Text.upper word)

end ShardedSql.Sql
