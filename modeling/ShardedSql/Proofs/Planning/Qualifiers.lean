import ShardedSql.Planning.Renaming
import ShardedSql.Planning.Select

namespace ShardedSql.Sql

namespace Expr

mutual

/-- The columns of an expression from left to right. -/
def columns : Expr → List ColumnName
  | column c => [c]
  | literal _ | placeholder | var _ | defaultValue | star => []
  | not e | negate e | paren e | isNull e _ => e.columns
  | binary l _ r => l.columns ++ r.columns
  | inList e items _ => e.columns ++ columnsAll items
  | between e low high _ => e.columns ++ (low.columns ++ high.columns)
  | like e p _ => e.columns ++ p.columns
  | call _ args _ => columnsAll args

def columnsAll : List Expr → List ColumnName
  | [] => []
  | e :: es => e.columns ++ columnsAll es

end

mutual

theorem columns_mapColumns (f : ColumnName → ColumnName) :
    ∀ e : Expr, (e.mapColumns f).columns = e.columns.map f
  | column _ | literal _ | placeholder | var _ | defaultValue | star => rfl
  | not e | negate e | paren e | isNull e _ => by
    simpa only [mapColumns, columns] using columns_mapColumns f e
  | binary l _ r => by
    simp only [mapColumns, columns, columns_mapColumns f l, columns_mapColumns f r, List.map_append]
  | inList e items _ => by
    simp only [mapColumns, columns, columns_mapColumns f e, columnsAll_mapColumnsAll f items,
      List.map_append]
  | between e low high _ => by
    simp only [mapColumns, columns, columns_mapColumns f e, columns_mapColumns f low,
      columns_mapColumns f high, List.map_append]
  | like e p _ => by
    simp only [mapColumns, columns, columns_mapColumns f e, columns_mapColumns f p, List.map_append]
  | call _ args _ => by
    simpa only [mapColumns, columns] using columnsAll_mapColumnsAll f args

theorem columnsAll_mapColumnsAll (f : ColumnName → ColumnName) :
    ∀ es : List Expr, columnsAll (mapColumnsAll f es) = (columnsAll es).map f
  | [] => rfl
  | e :: es => by
    simp only [mapColumnsAll, columnsAll, columns_mapColumns f e, columnsAll_mapColumnsAll f es,
      List.map_append]

end

/-- What stands before the points of columns. -/
def qualifiers (e : Expr) : List String := e.columns.filterMap (·.table)

end Expr

def SelectItem.qualifiers : SelectItem → List String
  | .star => []
  | .tableStar t => [t]
  | .expr e _ => e.qualifiers

/-- All qualifiers of a SELECT, clause by clause. -/
def Select.qualifiers (s : Select) : List String :=
  s.items.flatMap (·.qualifiers) ++ ((s.joins.filterMap (·.on)).flatMap (·.qualifiers) ++
    (s.condition.toList.flatMap (·.qualifiers) ++ (s.groupBy.flatMap (·.qualifiers) ++
      (s.having.toList.flatMap (·.qualifiers) ++ s.orderBy.flatMap (·.expr.qualifiers)))))

/-- The qualifiers of an assignment, on both of its sides. -/
def Assignment.qualifiers (a : Assignment) : List String :=
  a.column.table.toList ++ a.value.qualifiers

def Insert.qualifiers (i : Insert) : List String :=
  i.rows.flatten.flatMap (·.qualifiers) ++ i.onDuplicate.flatMap (·.qualifiers)

def Update.qualifiers (u : Update) : List String :=
  u.assignments.flatMap (·.qualifiers) ++ u.condition.toList.flatMap (·.qualifiers)

def Delete.qualifiers (d : Delete) : List String := d.condition.toList.flatMap (·.qualifiers)

namespace Statement

/-- The qualifiers of a statement that names tables. -/
def qualifiers : Statement → List String
  | select s => s.qualifiers
  | insert i => i.qualifiers
  | update u => u.qualifiers
  | delete d => d.qualifiers
  | explain _ | other _ => []

/-- The table references of a statement. Only a SELECT may have several. -/
def tableRefs : Statement → List TableRef
  | select s => s.tableRefs
  | insert i => [⟨i.table, none⟩]
  | update u => [u.table]
  | delete d => [⟨d.table, none⟩]
  | explain _ | other _ => []

end Statement

end ShardedSql.Sql

namespace ShardedSql.Planning

open Sql (Assignment Delete Expr Limit Select SelectItem Update)

/-- What puts the physical names into a SELECT. -/
def selectRenamer (db : String) (rs : List Renaming) (s : Select) : Renamer :=
  ⟨db, rs, s.tableRefs.filterMap (·.aliasName)⟩

namespace Renamer

variable (r : Renamer)

theorem qualifiers_expr (e : Expr) : (r.expr e).qualifiers = e.qualifiers.map r.qualifier := by
  rw [expr, Expr.qualifiers, Expr.columns_mapColumns, Expr.qualifiers, List.filterMap_map,
    List.map_filterMap]
  rfl

theorem qualifiers_selectItem (i : SelectItem) :
    (r.selectItem i).qualifiers = i.qualifiers.map r.qualifier := by
  cases i with
  | star => rfl
  | tableStar t => rfl
  | expr e a => exact r.qualifiers_expr e

theorem qualifiers_assignment (a : Assignment) :
    (r.assignment a).qualifiers = a.qualifiers.map r.qualifier := by
  have hcolumn : (r.column a.column).table.toList = a.column.table.toList.map r.qualifier := by
    change (a.column.table.map r.qualifier).toList = _
    cases a.column.table <;> rfl
  simp only [Assignment.qualifiers, assignment, r.qualifiers_expr, hcolumn, List.map_append]

theorem flatMap_qualifiers_map {α : Type} {f : α → α} {g : α → List String}
    (h : ∀ a, g (f a) = (g a).map r.qualifier) (as : List α) :
    (as.map f).flatMap g = (as.flatMap g).map r.qualifier := by
  simp only [List.flatMap_map, List.map_flatMap, h]

theorem flatMap_qualifiers_toList (o : Option Expr) : (o.map r.expr).toList.flatMap (·.qualifiers) =
    (o.toList.flatMap (·.qualifiers)).map r.qualifier := by
  cases o with
  | none => rfl
  | some e => simpa using r.qualifiers_expr e

end Renamer

variable (db : String) (rs : List Renaming) (s : Select)

theorem tableRefs_renameSelect :
    (renameSelect db rs s).tableRefs = s.tableRefs.map (selectRenamer db rs s).tableRef := by
  simp [renameSelect, Select.tableRefs, selectRenamer, Renamer.join, Function.comp_def]

/-- Every qualifier of a SELECT is renamed, each in its place. -/
theorem qualifiers_renameSelect :
    (renameSelect db rs s).qualifiers = s.qualifiers.map (selectRenamer db rs s).qualifier := by
  have hon : ((s.joins.map (selectRenamer db rs s).join).filterMap (·.on)) =
      (s.joins.filterMap (·.on)).map (selectRenamer db rs s).expr := by
    rw [List.filterMap_map, List.map_filterMap]
    rfl
  have hexpr := (selectRenamer db rs s).flatMap_qualifiers_map
    (selectRenamer db rs s).qualifiers_expr
  have hoption := (selectRenamer db rs s).flatMap_qualifiers_toList
  change (s.items.map (selectRenamer db rs s).selectItem).flatMap (·.qualifiers) ++
    (((s.joins.map (selectRenamer db rs s).join).filterMap (·.on)).flatMap (·.qualifiers) ++
      ((s.condition.map (selectRenamer db rs s).expr).toList.flatMap (·.qualifiers) ++
        ((s.groupBy.map (selectRenamer db rs s).expr).flatMap (·.qualifiers) ++
          ((s.having.map (selectRenamer db rs s).expr).toList.flatMap (·.qualifiers) ++
            (s.orderBy.map (selectRenamer db rs s).orderItem).flatMap (·.expr.qualifiers))))) = _
  rw [(selectRenamer db rs s).flatMap_qualifiers_map (selectRenamer db rs s).qualifiers_selectItem,
    hon, hoption, hoption, hexpr, hexpr,
    (selectRenamer db rs s).flatMap_qualifiers_map
      fun o => (selectRenamer db rs s).qualifiers_expr o.expr]
  simp only [Select.qualifiers, List.map_append]

theorem qualifiers_renameUpdate (u : Update) : (renameUpdate db rs u).qualifiers =
    u.qualifiers.map (Renamer.mk db rs u.table.aliasName.toList).qualifier := by
  have hassignments := (Renamer.mk db rs u.table.aliasName.toList).flatMap_qualifiers_map
    (Renamer.mk db rs u.table.aliasName.toList).qualifiers_assignment u.assignments
  have hcondition :=
    (Renamer.mk db rs u.table.aliasName.toList).flatMap_qualifiers_toList u.condition
  have hboth := congr (congrArg (· ++ ·) hassignments) hcondition
  exact hboth.trans List.map_append.symm

theorem qualifiers_renameDelete (d : Delete) : (renameDelete db rs d).qualifiers =
    d.qualifiers.map (Renamer.mk db rs []).qualifier :=
  (Renamer.mk db rs []).flatMap_qualifiers_toList d.condition

/-- The SELECT for the shards differs from the one that was issued in its limit only. -/
theorem splitSelect_fst (shards : Nat) : ∃ l, (splitSelect s shards).1 = { s with limit := l } := by
  unfold splitSelect
  split
  · exact ⟨s.limit, rfl⟩
  · split
    · exact ⟨_, rfl⟩
    · exact ⟨s.limit, rfl⟩

theorem tableRefs_splitSelect (shards : Nat) : (splitSelect s shards).1.tableRefs = s.tableRefs := by
  obtain ⟨l, hl⟩ := splitSelect_fst s shards
  rw [hl]
  rfl

theorem qualifiers_splitSelect (shards : Nat) :
    (splitSelect s shards).1.qualifiers = s.qualifiers := by
  obtain ⟨l, hl⟩ := splitSelect_fst s shards
  rw [hl]
  rfl

end ShardedSql.Planning
