import ShardedSql.Proofs.Planning.Qualifiers

namespace ShardedSql

namespace Sql

/-- A column with another qualifier in the place of the one that it has. -/
def ColumnName.mapQualifier (g : String → String) (c : ColumnName) : ColumnName :=
  { c with table := c.table.map g }

/-- An expression with other qualifiers. -/
def Expr.mapQualifiers (g : String → String) (e : Expr) : Expr := e.mapColumns (·.mapQualifier g)

def TableRef.mapTable (f : TableName → TableName) (t : TableRef) : TableRef :=
  { t with table := f t.table }

def SelectItem.mapQualifiers (g : String → String) : SelectItem → SelectItem
  | .star => .star
  | .tableStar t => .tableStar (g t)
  | .expr e a => .expr (e.mapQualifiers g) a

def Join.mapNames (f : TableName → TableName) (g : String → String) (j : Join) : Join :=
  { j with table := j.table.mapTable f, on := j.on.map (·.mapQualifiers g) }

def OrderItem.mapQualifiers (g : String → String) (o : OrderItem) : OrderItem :=
  { o with expr := o.expr.mapQualifiers g }

def Assignment.mapQualifiers (g : String → String) (a : Assignment) : Assignment :=
  ⟨a.column.mapQualifier g, a.value.mapQualifiers g⟩

def Select.mapNames (f : TableName → TableName) (g : String → String) (s : Select) : Select :=
  { s with
    items := s.items.map (·.mapQualifiers g)
    sources := s.sources.map (·.mapTable f)
    joins := s.joins.map (·.mapNames f g)
    condition := s.condition.map (·.mapQualifiers g)
    groupBy := s.groupBy.map (·.mapQualifiers g)
    having := s.having.map (·.mapQualifiers g)
    orderBy := s.orderBy.map (·.mapQualifiers g) }

def Update.mapNames (f : TableName → TableName) (g : String → String) (u : Update) : Update :=
  { u with
    table := u.table.mapTable f
    assignments := u.assignments.map (·.mapQualifiers g)
    condition := u.condition.map (·.mapQualifiers g) }

def Delete.mapNames (f : TableName → TableName) (g : String → String) (d : Delete) : Delete :=
  { d with table := f d.table, condition := d.condition.map (·.mapQualifiers g) }

/-- A SELECT, UPDATE or DELETE with other names of tables and other qualifiers. -/
def Statement.mapNames (f : TableName → TableName) (g : String → String) : Statement → Statement
  | .select s => .select (s.mapNames f g)
  | .update u => .update (u.mapNames f g)
  | .delete d => .delete (d.mapNames f g)
  | stmt => stmt

section

variable (f f' : TableName → TableName) (g g' : String → String)

theorem Expr.mapQualifiers_mapQualifiers (e : Expr) :
    (e.mapQualifiers g).mapQualifiers g' = e.mapQualifiers (g' ∘ g) := by
  unfold mapQualifiers
  rw [mapColumns_mapColumns]
  congr 1
  funext c
  simp [ColumnName.mapQualifier]

theorem SelectItem.mapQualifiers_mapQualifiers (i : SelectItem) :
    (i.mapQualifiers g).mapQualifiers g' = i.mapQualifiers (g' ∘ g) := by
  cases i with
  | star | tableStar t => rfl
  | expr e a => simp [mapQualifiers, e.mapQualifiers_mapQualifiers g g']

theorem Assignment.mapQualifiers_mapQualifiers (a : Assignment) :
    (a.mapQualifiers g).mapQualifiers g' = a.mapQualifiers (g' ∘ g) := by
  simp [mapQualifiers, ColumnName.mapQualifier, Expr.mapQualifiers_mapQualifiers]

theorem Select.mapNames_mapNames (s : Select) :
    (s.mapNames f g).mapNames f' g' = s.mapNames (f' ∘ f) (g' ∘ g) := by
  simp [mapNames, Join.mapNames, OrderItem.mapQualifiers, TableRef.mapTable, Function.comp_def,
    SelectItem.mapQualifiers_mapQualifiers, Expr.mapQualifiers_mapQualifiers]

theorem Update.mapNames_mapNames (u : Update) :
    (u.mapNames f g).mapNames f' g' = u.mapNames (f' ∘ f) (g' ∘ g) := by
  simp [mapNames, TableRef.mapTable, Function.comp_def, Assignment.mapQualifiers_mapQualifiers,
    Expr.mapQualifiers_mapQualifiers]

theorem Delete.mapNames_mapNames (d : Delete) :
    (d.mapNames f g).mapNames f' g' = d.mapNames (f' ∘ f) (g' ∘ g) := by
  simp [mapNames, Function.comp_def, Expr.mapQualifiers_mapQualifiers]

/-- Names that are put in twice are the later ones for the earlier ones. -/
theorem Statement.mapNames_mapNames (stmt : Statement) :
    (stmt.mapNames f g).mapNames f' g' = stmt.mapNames (f' ∘ f) (g' ∘ g) := by
  cases stmt with
  | select s => exact congrArg select (s.mapNames_mapNames f f' g g')
  | update u => exact congrArg update (u.mapNames_mapNames f f' g g')
  | delete d => exact congrArg delete (d.mapNames_mapNames f f' g g')
  | insert _ | explain _ | other _ => rfl

section

variable {f f' : TableName → TableName} {g g' : String → String}

mutual

theorem Expr.mapColumns_congr {f f' : ColumnName → ColumnName} :
    ∀ e : Expr, (∀ c ∈ e.columns, f c = f' c) → e.mapColumns f = e.mapColumns f'
  | column c, h => congrArg column (h c List.mem_cons_self)
  | literal _, _ | placeholder, _ | var _, _ | defaultValue, _ | star, _ => rfl
  | not e, h | negate e, h | paren e, h | isNull e _, h => by
    simp only [mapColumns, mapColumns_congr e h]
  | binary l _ r, h | like l r _, h => by
    obtain ⟨hl, hr⟩ := List.forall_mem_append.mp h
    simp only [mapColumns, mapColumns_congr l hl, mapColumns_congr r hr]
  | inList e items _, h => by
    obtain ⟨he, hitems⟩ := List.forall_mem_append.mp h
    simp only [mapColumns, mapColumns_congr e he, mapColumnsAll_congr items hitems]
  | between e low high _, h => by
    obtain ⟨he, h⟩ := List.forall_mem_append.mp h
    obtain ⟨hlow, hhigh⟩ := List.forall_mem_append.mp h
    simp only [mapColumns, mapColumns_congr e he, mapColumns_congr low hlow,
      mapColumns_congr high hhigh]
  | call _ args _, h => by simp only [mapColumns, mapColumnsAll_congr args h]

theorem Expr.mapColumnsAll_congr {f f' : ColumnName → ColumnName} :
    ∀ es : List Expr, (∀ c ∈ columnsAll es, f c = f' c) → mapColumnsAll f es = mapColumnsAll f' es
  | [], _ => rfl
  | e :: es, h => by
    obtain ⟨he, hes⟩ := List.forall_mem_append.mp h
    simp only [mapColumnsAll, mapColumns_congr e he, mapColumnsAll_congr es hes]

end

theorem ColumnName.mapQualifier_congr {c : ColumnName} (h : ∀ q ∈ c.table, g q = g' q) :
    c.mapQualifier g = c.mapQualifier g' := by
  obtain ⟨_ | q, n⟩ := c
  · rfl
  · simp [mapQualifier, h q rfl]

theorem Expr.mapQualifiers_congr {e : Expr} (h : ∀ q ∈ e.qualifiers, g q = g' q) :
    e.mapQualifiers g = e.mapQualifiers g' :=
  e.mapColumns_congr fun _ hc => ColumnName.mapQualifier_congr fun q hq =>
    h q (List.mem_filterMap.mpr ⟨_, hc, hq⟩)

theorem SelectItem.mapQualifiers_congr {i : SelectItem} (h : ∀ q ∈ i.qualifiers, g q = g' q) :
    i.mapQualifiers g = i.mapQualifiers g' := by
  cases i with
  | star => rfl
  | tableStar t => exact congrArg tableStar (h t List.mem_cons_self)
  | expr e a => exact congrArg (expr · a) (Expr.mapQualifiers_congr h)

theorem OrderItem.mapQualifiers_congr {o : OrderItem} (h : ∀ q ∈ o.expr.qualifiers, g q = g' q) :
    o.mapQualifiers g = o.mapQualifiers g' := by
  rw [mapQualifiers, mapQualifiers, Expr.mapQualifiers_congr h]

theorem Assignment.mapQualifiers_congr {a : Assignment} (h : ∀ q ∈ a.qualifiers, g q = g' q) :
    a.mapQualifiers g = a.mapQualifiers g' := by
  obtain ⟨hcolumn, hvalue⟩ := List.forall_mem_append.mp h
  rw [mapQualifiers, mapQualifiers, Expr.mapQualifiers_congr hvalue,
    ColumnName.mapQualifier_congr fun q hq => hcolumn q (Option.mem_toList.mpr hq)]

theorem TableRef.mapTable_congr {t : TableRef} (h : f t.table = f' t.table) :
    t.mapTable f = t.mapTable f' := by
  rw [mapTable, mapTable, h]

theorem map_mapQualifiers_congr {α : Type} {names : α → List String}
    {put : (String → String) → α → α}
    (hput : ∀ a, (∀ q ∈ names a, g q = g' q) → put g a = put g' a) {as : List α}
    (h : ∀ q ∈ as.flatMap names, g q = g' q) : as.map (put g) = as.map (put g') :=
  List.map_congr_left fun a ha => hput a fun q hq => h q (List.mem_flatMap.mpr ⟨a, ha, hq⟩)

theorem map_mapQualifiers_toList_congr {o : Option Expr}
    (h : ∀ q ∈ o.toList.flatMap (·.qualifiers), g q = g' q) :
    o.map (·.mapQualifiers g) = o.map (·.mapQualifiers g') := by
  cases o with
  | none => rfl
  | some e =>
    exact congrArg some (Expr.mapQualifiers_congr fun q hq => h q (by simpa using hq))

theorem Select.mapNames_congr {s : Select} (hf : ∀ t ∈ s.tableRefs, f t.table = f' t.table)
    (hg : ∀ q ∈ s.qualifiers, g q = g' q) : s.mapNames f g = s.mapNames f' g' := by
  obtain ⟨hsources, hjoined⟩ := List.forall_mem_append.mp hf
  obtain ⟨hitems, hg⟩ := List.forall_mem_append.mp hg
  obtain ⟨hon, hg⟩ := List.forall_mem_append.mp hg
  obtain ⟨hcondition, hg⟩ := List.forall_mem_append.mp hg
  obtain ⟨hgroup, hg⟩ := List.forall_mem_append.mp hg
  obtain ⟨hhaving, horder⟩ := List.forall_mem_append.mp hg
  have hjoins : s.joins.map (·.mapNames f g) = s.joins.map (·.mapNames f' g') := by
    refine List.map_congr_left fun j hj => ?_
    have htable := TableRef.mapTable_congr (hjoined j.table (List.mem_map_of_mem hj))
    have hcondition : j.on.map (·.mapQualifiers g) = j.on.map (·.mapQualifiers g') := by
      refine map_mapQualifiers_toList_congr fun q hq => hon q ?_
      obtain ⟨e, he, hq⟩ := List.mem_flatMap.mp hq
      exact List.mem_flatMap.mpr
        ⟨e, List.mem_filterMap.mpr ⟨j, hj, Option.mem_toList.mp he⟩, hq⟩
    rw [Join.mapNames, Join.mapNames, htable, hcondition]
  unfold mapNames
  congr 1
  · exact map_mapQualifiers_congr (fun _ => SelectItem.mapQualifiers_congr) hitems
  · exact List.map_congr_left fun t ht => TableRef.mapTable_congr (hsources t ht)
  · exact map_mapQualifiers_toList_congr hcondition
  · exact map_mapQualifiers_congr (fun _ => Expr.mapQualifiers_congr) hgroup
  · exact map_mapQualifiers_toList_congr hhaving
  · exact map_mapQualifiers_congr (fun _ => OrderItem.mapQualifiers_congr) horder

theorem Update.mapNames_congr {u : Update} (hf : f u.table.table = f' u.table.table)
    (hg : ∀ q ∈ u.qualifiers, g q = g' q) : u.mapNames f g = u.mapNames f' g' := by
  obtain ⟨hassignments, hcondition⟩ := List.forall_mem_append.mp hg
  rw [mapNames, mapNames, TableRef.mapTable_congr hf,
    map_mapQualifiers_congr (fun _ => Assignment.mapQualifiers_congr) hassignments,
    map_mapQualifiers_toList_congr hcondition]

theorem Delete.mapNames_congr {d : Delete} (hf : f d.table = f' d.table)
    (hg : ∀ q ∈ d.qualifiers, g q = g' q) : d.mapNames f g = d.mapNames f' g' := by
  rw [mapNames, mapNames, hf, map_mapQualifiers_toList_congr hg]

/-- What becomes of a statement depends on what becomes of its own names only. -/
theorem Statement.mapNames_congr {stmt : Statement}
    (hf : ∀ t ∈ stmt.tableRefs, f t.table = f' t.table)
    (hg : ∀ q ∈ stmt.qualifiers, g q = g' q) : stmt.mapNames f g = stmt.mapNames f' g' := by
  cases stmt with
  | select s => exact congrArg select (Select.mapNames_congr hf hg)
  | update u => exact congrArg update (Update.mapNames_congr (hf _ List.mem_cons_self) hg)
  | delete d => exact congrArg delete (Delete.mapNames_congr (hf _ List.mem_cons_self) hg)
  | insert _ | explain _ | other _ => rfl

end

theorem Statement.verb_mapNames (stmt : Statement) : (stmt.mapNames f g).verb = stmt.verb := by
  cases stmt <;> rfl

theorem Select.tableRefs_mapNames (s : Select) :
    (s.mapNames f g).tableRefs = s.tableRefs.map (·.mapTable f) := by
  simp [mapNames, tableRefs, Join.mapNames, Function.comp_def]

theorem Statement.tableRefs_mapNames {stmt : Statement} (h : ∀ i, stmt ≠ .insert i) :
    (stmt.mapNames f g).tableRefs = stmt.tableRefs.map (·.mapTable f) := by
  cases stmt with
  | select s => exact s.tableRefs_mapNames f g
  | insert i => exact absurd rfl (h i)
  | update _ | delete _ | explain _ | other _ => rfl

end

end Sql

namespace Planning

open Result (isStar projects sortKey? sortKeys?)
open Sql (Delete Expr OrderItem Select SelectItem TableName Update)

variable (db : String) (rs : List Renaming)

theorem renameSelect_eq_mapNames (s : Select) : renameSelect db rs s =
    s.mapNames (selectRenamer db rs s).tableName (selectRenamer db rs s).qualifier := by
  have hitems : s.items.map (·.mapQualifiers (selectRenamer db rs s).qualifier) =
      s.items.map (selectRenamer db rs s).selectItem := by
    apply List.map_congr_left
    intro i _
    cases i <;> rfl
  rw [Select.mapNames, hitems]
  rfl

theorem renameUpdate_eq_mapNames (u : Update) : renameUpdate db rs u =
    u.mapNames (Renamer.mk db rs u.table.aliasName.toList).tableName
      (Renamer.mk db rs u.table.aliasName.toList).qualifier := rfl

theorem renameDelete_eq_mapNames (d : Delete) : renameDelete db rs d =
    d.mapNames (Renamer.mk db rs []).tableName (Renamer.mk db rs []).qualifier := rfl

section

variable (f : TableName → TableName) (g : String → String)

theorem projects_mapQualifiers (i : SelectItem) (name : String) :
    projects (i.mapQualifiers g) name = projects i name := by
  cases i with
  | star | tableStar t => rfl
  | expr e a =>
    cases a with
    | some a => rfl
    | none => cases e <;> rfl

theorem isStar_mapQualifiers (i : SelectItem) : isStar (i.mapQualifiers g) = isStar i := by
  cases i <;> rfl

/-- What a SELECT is sorted by does not depend on the names of its tables. -/
theorem sortKeys?_mapNames (s : Select) : sortKeys? (s.mapNames f g) = sortKeys? s := by
  have hkey : ∀ o : OrderItem, sortKey? (s.items.map (·.mapQualifiers g)) (o.mapQualifiers g) =
      sortKey? s.items o := by
    intro o
    have hstar : (s.items.map (·.mapQualifiers g)).any isStar = s.items.any isStar := by
      rw [List.any_map]
      congr 1
      funext i
      exact isStar_mapQualifiers g i
    have hprojects : ∀ name, (s.items.map (·.mapQualifiers g)).any (projects · name) =
        s.items.any (projects · name) := by
      intro name
      rw [List.any_map]
      congr 1
      funext i
      exact projects_mapQualifiers g i name
    obtain ⟨e, descending⟩ := o
    cases e with
    | literal l =>
      cases l with
      | integer n =>
        simp only [sortKey?, OrderItem.mapQualifiers, Expr.mapQualifiers, Expr.mapColumns, hstar,
          List.length_map]
      | _ => rfl
    | column c =>
      have hname : (c.mapQualifier g).name = c.name := rfl
      simp only [sortKey?, OrderItem.mapQualifiers, Expr.mapQualifiers, Expr.mapColumns, hstar, hname,
        hprojects]
    | _ => rfl
  unfold sortKeys?
  rw [Select.mapNames]
  dsimp only
  rw [List.mapM_map]
  congr 1
  funext o
  exact hkey o

theorem splitSelect_mapNames (s : Select) (n : Nat) :
    (splitSelect (s.mapNames f g) n).1 = (splitSelect s n).1.mapNames f g := by
  unfold splitSelect
  rw [sortKeys?_mapNames]
  split
  · rfl
  · cases sortKeys? s <;> rfl

end

end Planning

end ShardedSql
