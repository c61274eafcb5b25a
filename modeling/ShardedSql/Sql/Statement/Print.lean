import ShardedSql.Sql.Expr.Print
import ShardedSql.Sql.Statement

namespace ShardedSql.Sql

def TableName.sql (t : TableName) : String := sqlQualified t.schema t.name

def sqlAlias : Option String → String
  | none => ""
  | some a => " AS " ++ sqlName a

def TableRef.sql (t : TableRef) : String := t.table.sql ++ sqlAlias t.aliasName

/-- A clause that is written only if it is there: its keyword, then its content. -/
def sqlClause (keyword : String) : Option String → String
  | none => ""
  | some content => keyword ++ content

def sqlListClause (keyword : String) : List String → String
  | [] => ""
  | items => keyword ++ commaSeparated items

def JoinKind.sql : JoinKind → String
  | inner => " JOIN "
  | left => " LEFT JOIN "
  | right => " RIGHT JOIN "
  | cross => " CROSS JOIN "

def Join.sql (j : Join) : String :=
  j.kind.sql ++ j.table.sql ++ sqlClause " ON " (j.on.map Expr.sql)

def SelectItem.sql : SelectItem → String
  | star => "*"
  | tableStar t => sqlName t ++ ".*"
  | expr e a => e.sql ++ sqlAlias a

def OrderItem.sql (o : OrderItem) : String := o.expr.sql ++ sqlFlag o.descending " DESC"

def sqlUnsigned (n : UInt64) : String := Text.decimal n.toNat

def Limit.sql (l : Limit) : String :=
  match l.offset with
  | none => sqlUnsigned l.count
  | some offset => sqlUnsigned offset ++ ", " ++ sqlUnsigned l.count

def Select.sql (s : Select) : String :=
  "SELECT " ++ sqlFlag s.distinct "DISTINCT " ++ commaSeparated (s.items.map SelectItem.sql)
    ++ sqlListClause " FROM " (s.sources.map TableRef.sql)
    ++ String.join (s.joins.map Join.sql)
    ++ sqlClause " WHERE " (s.condition.map Expr.sql)
    ++ sqlListClause " GROUP BY " (s.groupBy.map Expr.sql)
    ++ sqlClause " HAVING " (s.having.map Expr.sql)
    ++ sqlListClause " ORDER BY " (s.orderBy.map OrderItem.sql)
    ++ sqlClause " LIMIT " (s.limit.map Limit.sql)
    ++ sqlFlag s.forUpdate " FOR UPDATE"

def Assignment.sql (a : Assignment) : String := a.column.sql ++ " = " ++ a.value.sql

def sqlParenthesized (items : List String) : String := "(" ++ commaSeparated items ++ ")"

def sqlColumns : List String → String
  | [] => ""
  | columns => " " ++ sqlParenthesized (columns.map sqlName)

def Insert.sql (i : Insert) : String :=
  (if i.replace then "REPLACE " else "INSERT ") ++ sqlFlag i.ignore "IGNORE "
    ++ "INTO " ++ i.table.sql ++ sqlColumns i.columns
    ++ " VALUES " ++ commaSeparated (i.rows.map fun row => sqlParenthesized (row.map Expr.sql))
    ++ sqlListClause " ON DUPLICATE KEY UPDATE " (i.onDuplicate.map Assignment.sql)

def Update.sql (u : Update) : String :=
  "UPDATE " ++ u.table.sql ++ " SET " ++ commaSeparated (u.assignments.map Assignment.sql)
    ++ sqlClause " WHERE " (u.condition.map Expr.sql)
    ++ sqlClause " LIMIT " (u.limit.map sqlUnsigned)

def Delete.sql (d : Delete) : String :=
  "DELETE FROM " ++ d.table.sql
    ++ sqlClause " WHERE " (d.condition.map Expr.sql)
    ++ sqlClause " LIMIT " (d.limit.map sqlUnsigned)

/-- The canonical text of a statement. -/
def Statement.sql : Statement → String
  | select s => s.sql
  | insert i => i.sql
  | update u => u.sql
  | delete d => d.sql
  | explain inner => "EXPLAIN " ++ inner.sql
  | other tokens => Token.sqlList tokens

end ShardedSql.Sql
