import ShardedSql.Sql.Expr
import ShardedSql.Sql.Token.Print
import ShardedSql.Text.Integer

namespace ShardedSql.Sql

def commaSeparated (items : List String) : String := String.intercalate ", " items

def Literal.sql : Literal → String
  | null => "NULL"
  | boolean true => "TRUE"
  | boolean false => "FALSE"
  | integer i => Text.decimal i.toInt
  | number n => n
  | text s => sqlString s

/-- A name after the name of what it belongs to. -/
def sqlQualified (qualifier : Option String) (name : String) : String :=
  match qualifier with
  | none => sqlName name
  | some q => sqlName q ++ "." ++ sqlName name

def ColumnName.sql (c : ColumnName) : String := sqlQualified c.table c.name

def BinaryOp.sql : BinaryOp → String
  | equal => "="
  | nullSafeEqual => "<=>"
  | notEqual => "!="
  | less => "<"
  | lessEqual => "<="
  | greater => ">"
  | greaterEqual => ">="
  | and => "AND"
  | or => "OR"
  | plus => "+"
  | minus => "-"
  | times => "*"
  | divide => "/"
  | modulo => "%"

/-- A word that is written only if it applies. -/
def sqlFlag (applies : Bool) (word : String) : String := if applies then word else ""

namespace Expr

mutual

def sql : Expr → String
  | column c => c.sql
  | literal l => l.sql
  | placeholder => "?"
  | var n => n
  | defaultValue => "DEFAULT"
  | star => "*"
  | not e => "NOT " ++ e.sql
  | negate e => "-" ++ e.sql
  | binary l op r => l.sql ++ " " ++ op.sql ++ " " ++ r.sql
  | inList e items n => e.sql ++ sqlFlag n " NOT" ++ " IN (" ++ commaSeparated (sqlEach items) ++ ")"
  | between e low high n =>
    e.sql ++ sqlFlag n " NOT" ++ " BETWEEN " ++ low.sql ++ " AND " ++ high.sql
  | isNull e n => e.sql ++ " IS" ++ sqlFlag n " NOT" ++ " NULL"
  | like e p n => e.sql ++ sqlFlag n " NOT" ++ " LIKE " ++ p.sql
  | call f args d =>
    Text.upper f ++ "(" ++ sqlFlag d "DISTINCT " ++ commaSeparated (sqlEach args) ++ ")"
  | paren e => "(" ++ e.sql ++ ")"

def sqlEach : List Expr → List String
  | [] => []
  | e :: es => e.sql :: sqlEach es

end

theorem sqlEach_eq_map (es : List Expr) : sqlEach es = es.map sql := by
  induction es with
  | nil => rfl
  | cons e es ih => simp [sqlEach, ih]

end Expr

end ShardedSql.Sql
