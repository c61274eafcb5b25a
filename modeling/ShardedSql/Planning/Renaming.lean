import ShardedSql.Routing.Shard
import ShardedSql.Sql.Statement

namespace ShardedSql.Planning

open Routing (Shard)
open Sql (Assignment ColumnName Delete Expr Join OrderItem Select SelectItem TableName TableRef
  Update)

/-- A logical table and the physical one that stands for it. -/
structure Renaming where
  db : String
  table : String
  physicalDb : String
  physicalTable : String
  deriving DecidableEq, Repr

def Renaming.toShard (db table : String) (s : Shard) : Renaming := ⟨db, table, s.db, s.table⟩

/-- Puts physical names into a statement. A qualifier that is an alias of the statement names the
alias and never a table. -/
structure Renamer where
  defaultDb : String
  renamings : List Renaming
  aliases : List String
  deriving DecidableEq, Repr

namespace Renamer

def find? (r : Renamer) (t : TableName) : Option Renaming :=
  r.renamings.find? fun n =>
    Text.sameName n.table t.name && Text.sameName n.db (t.schema.getD r.defaultDb)

/-- A schema is only renamed where one is written. -/
def tableName (r : Renamer) (t : TableName) : TableName :=
  match r.find? t with
  | some n => ⟨t.schema.map fun _ => n.physicalDb, n.physicalTable⟩
  | none => t

def tableRef (r : Renamer) (t : TableRef) : TableRef := { t with table := r.tableName t.table }

def qualifier (r : Renamer) (q : String) : String :=
  if r.aliases.any fun a => Text.sameName a q then q
  else
    match r.renamings.find? fun n => Text.sameName n.table q with
    | some n => n.physicalTable
    | none => q

def column (r : Renamer) (c : ColumnName) : ColumnName := { c with table := c.table.map r.qualifier }

def expr (r : Renamer) (e : Expr) : Expr := e.mapColumns r.column

def join (r : Renamer) (j : Join) : Join :=
  { j with table := r.tableRef j.table, on := j.on.map r.expr }

def selectItem (r : Renamer) : SelectItem → SelectItem
  | .star => .star
  | .tableStar t => .tableStar (r.qualifier t)
  | .expr e a => .expr (r.expr e) a

def orderItem (r : Renamer) (o : OrderItem) : OrderItem := { o with expr := r.expr o.expr }

def assignment (r : Renamer) (a : Assignment) : Assignment := ⟨r.column a.column, r.expr a.value⟩

end Renamer

def renameSelect (defaultDb : String) (renamings : List Renaming) (s : Select) : Select :=
  let r : Renamer := ⟨defaultDb, renamings, s.tableRefs.filterMap (·.aliasName)⟩
  { s with
    items := s.items.map r.selectItem
    sources := s.sources.map r.tableRef
    joins := s.joins.map r.join
    condition := s.condition.map r.expr
    groupBy := s.groupBy.map r.expr
    having := s.having.map r.expr
    orderBy := s.orderBy.map r.orderItem }

def renameUpdate (defaultDb : String) (renamings : List Renaming) (u : Update) : Update :=
  let r : Renamer := ⟨defaultDb, renamings, u.table.aliasName.toList⟩
  { u with
    table := r.tableRef u.table
    assignments := u.assignments.map r.assignment
    condition := u.condition.map r.expr }

def renameDelete (defaultDb : String) (renamings : List Renaming) (d : Delete) : Delete :=
  let r : Renamer := ⟨defaultDb, renamings, []⟩
  { d with table := r.tableName d.table, condition := d.condition.map r.expr }

end ShardedSql.Planning
