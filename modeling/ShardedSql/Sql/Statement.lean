import ShardedSql.Sql.Expr
import ShardedSql.Sql.Token

namespace ShardedSql.Sql

structure TableName where
  schema : Option String
  name : String
  deriving DecidableEq, Repr

/-- A table as FROM, JOIN or UPDATE names it. -/
structure TableRef where
  table : TableName
  aliasName : Option String
  deriving DecidableEq, Repr

inductive JoinKind where
  | inner | left | right | cross
  deriving DecidableEq, Repr

structure Join where
  kind : JoinKind
  table : TableRef
  on : Option Expr
  deriving DecidableEq, Repr

inductive SelectItem where
  | star
  | tableStar (table : String)
  | expr (e : Expr) (aliasName : Option String)
  deriving DecidableEq, Repr

structure OrderItem where
  expr : Expr
  descending : Bool
  deriving DecidableEq, Repr

structure Limit where
  offset : Option UInt64
  count : UInt64
  deriving DecidableEq, Repr

structure Select where
  distinct : Bool
  items : List SelectItem
  sources : List TableRef
  joins : List Join
  condition : Option Expr
  groupBy : List Expr
  having : Option Expr
  orderBy : List OrderItem
  limit : Option Limit
  forUpdate : Bool
  deriving DecidableEq, Repr

structure Assignment where
  column : ColumnName
  value : Expr
  deriving DecidableEq, Repr

structure Insert where
  replace : Bool
  ignore : Bool
  table : TableName
  columns : List String
  rows : List (List Expr)
  onDuplicate : List Assignment
  deriving DecidableEq, Repr

structure Update where
  table : TableRef
  assignments : List Assignment
  condition : Option Expr
  limit : Option UInt64
  deriving DecidableEq, Repr

structure Delete where
  table : TableName
  condition : Option Expr
  limit : Option UInt64
  deriving DecidableEq, Repr

inductive Statement where
  | select (s : Select)
  | insert (i : Insert)
  | update (u : Update)
  | delete (d : Delete)
  | explain (inner : Statement)
  /-- A statement of any other kind, which is passed on by its tokens. -/
  | other (tokens : List Token)
  deriving DecidableEq, Repr

/-- The table references of a SELECT, those of FROM before those of the joins. -/
def Select.tableRefs (s : Select) : List TableRef := s.sources ++ s.joins.map (·.table)

def Statement.verb : Statement → String
  | select _ => "select"
  | insert i => if i.replace then "replace" else "insert"
  | update _ => "update"
  | delete _ => "delete"
  | explain _ => "explain"
  | other _ => "other"

end ShardedSql.Sql
