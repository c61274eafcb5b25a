import ShardedSql.Sql.Token
import ShardedSql.Sql.Token.Scan

namespace ShardedSql.Sql

/-- Whether a name can stand bare: it reads as one word and the word is not reserved. -/
def isBareName (name : String) : Bool :=
  match name.toList with
  | [] => false
  | c :: cs => Text.isNameStart c && cs.all Text.isWordChar && !isReserved name

def doubleBackquotes : List Char → List Char
  | [] => []
  | c :: cs =>
    if c = Token.backquote then c :: c :: doubleBackquotes cs else c :: doubleBackquotes cs

/-- A name in SQL, in backquotes where it cannot stand bare. -/
def sqlName (name : String) : String :=
  if isBareName name then name
  else String.ofList (Token.backquote :: doubleBackquotes name.toList ++ [Token.backquote])

/-- A character inside a string literal. -/
def escapeChar : Char → List Char
  | '\\' => ['\\', '\\']
  | '\x27' => ['\\', '\x27']
  | '\n' => ['\\', 'n']
  | '\r' => ['\\', 'r']
  | '\t' => ['\\', 't']
  | '\x00' => ['\\', '0']
  | '\x1a' => ['\\', 'Z']
  | c => [c]

/-- A text as a string literal. -/
def sqlString (s : String) : String :=
  String.ofList ('\x27' :: s.toList.flatMap escapeChar ++ ['\x27'])

/-- Words that are written in capitals in a statement given by its tokens, next to the reserved
ones. -/
def commonKeywords : List String :=
  ["ADD", "ALTER", "AUTO_INCREMENT", "BEGIN", "BIGINT", "CHAR", "CHARACTER", "CHARSET", "COLUMN",
   "COLUMNS", "COMMIT", "CREATE", "DATABASE", "DATABASES", "DEFAULT", "DESCRIBE", "DROP",
   "ENGINE", "ERRORS", "EXISTS", "FULL", "GLOBAL", "GRANTS", "IF", "INDEX", "INT", "INTEGER",
   "NAMES", "PRIMARY", "PROCESSLIST", "ROLLBACK", "SESSION", "SHOW", "START", "STATUS", "TABLE",
   "TABLES", "TEXT", "TO", "TRANSACTION", "TRUNCATE", "UNIQUE", "USE", "VARCHAR", "VARIABLES",
   "WARNINGS"]

namespace Token

def sql : Token → String
  | word w => if isReserved w || commonKeywords.contains (Text.upper w) then Text.upper w else w
  | quoted q => sqlName q
  | str s => sqlString s
  | number n => n
  | placeholder => "?"
  | symbol s => s.text

/-- Whether no blank is written between two neighbouring tokens. -/
def joined (before after : Token) : Bool :=
  match before, after with
  | _, symbol .comma | _, symbol .rightParen | _, symbol .dot | _, symbol .semicolon => true
  | symbol .leftParen, _ | symbol .dot, _ | symbol .atSign, _ => true
  | word _, symbol .leftParen | quoted _, symbol .leftParen => true
  | _, _ => false

/-- The tokens that follow `before`. -/
def sqlAfter (before : Token) : List Token → String
  | [] => ""
  | t :: ts => (if joined before t then "" else " ") ++ t.sql ++ sqlAfter t ts

def sqlList : List Token → String
  | [] => ""
  | t :: ts => t.sql ++ sqlAfter t ts

end Token

end ShardedSql.Sql
