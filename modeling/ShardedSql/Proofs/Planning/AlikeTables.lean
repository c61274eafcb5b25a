import ShardedSql.Proofs.Lists
import ShardedSql.Proofs.Planning.Emissions
import ShardedSql.Proofs.Planning.NameMaps

namespace ShardedSql

namespace Sql

/-- A name of a table in small letters. -/
def TableName.lowered (t : TableName) : TableName := ⟨t.schema.map Text.lower, Text.lower t.name⟩

/-- A statement with its names of databases and tables and its qualifiers in small letters. -/
def Statement.lowered (stmt : Statement) : Statement := stmt.mapNames TableName.lowered Text.lower

end Sql

namespace Planning

open Routing (Rule RuleTable Shard)
open Sql (ColumnName Delete Expr Select Statement TableName TableRef Update)

variable {db : String}

theorem literalValue?_mapColumns (f : ColumnName → ColumnName) :
    ∀ e : Expr, literalValue? (e.mapColumns f) = literalValue? e
  | .paren e => by
    simpa only [Expr.mapColumns, literalValue?] using literalValue?_mapColumns f e
  | .negate e => by cases e <;> rfl
  | .column _ | .literal _ | .placeholder | .var _ | .defaultValue | .star | .not _ | .binary _ _ _
  | .inList _ _ _ | .between _ _ _ _ | .isNull _ _ | .like _ _ _ | .call _ _ _ => rfl

/-- A condition says the same about two tables if its columns are keys of the one where those that
stand for them are keys of the other. -/
theorem hintOf_mapColumns {t t' : ShardedTable} {f : ColumnName → ColumnName}
    (hf : ∀ c, t.isKey (f c) = t'.isKey c) : ∀ e : Expr, t.hintOf (e.mapColumns f) = t'.hintOf e
  | .paren e => by
    simpa only [Expr.mapColumns, ShardedTable.hintOf] using hintOf_mapColumns hf e
  | .binary l op r => by
    have hkey : ∀ e : Expr, t.isKeyColumn (e.mapColumns f) = t'.isKeyColumn e := by
      intro e
      cases e with
      | column c => exact hf c
      | _ => rfl
    cases op with
    | and | or =>
      simp only [Expr.mapColumns, ShardedTable.hintOf, hintOf_mapColumns hf l, hintOf_mapColumns hf r]
    | equal => simp only [Expr.mapColumns, ShardedTable.hintOf, hkey, literalValue?_mapColumns]
    | _ => rfl
  | .inList e items negated => by
    have hkey : t.isKeyColumn (e.mapColumns f) = t'.isKeyColumn e := by
      cases e with
      | column c => exact hf c
      | _ => rfl
    have hvalues : (Expr.mapColumnsAll f items).mapM literalValue? = items.mapM literalValue? := by
      rw [Expr.mapColumnsAll_eq_map, List.mapM_map]
      congr 1
      funext e
      exact literalValue?_mapColumns f e
    cases negated with
    | false => simp only [Expr.mapColumns, ShardedTable.hintOf, hkey, hvalues]
    | true => rfl
  | .column _ | .literal _ | .placeholder | .var _ | .defaultValue | .star | .not _ | .negate _
  | .between _ _ _ _ | .isNull _ _ | .like _ _ _ | .call _ _ _ => rfl

/-- That two references mean tables of one rule, up to the case of letters. -/
structure RuledRef.Alike (db : String) (p p' : RuledRef) : Prop where
  rule : p.rule = p'.rule
  schema : Text.sameName (p.ref.table.schema.getD db) (p'.ref.table.schema.getD db) = true
  name : Text.sameName p.ref.table.name p'.ref.table.name = true
  aliasName : p.ref.aliasName = p'.ref.aliasName

theorem sameName_getD {a b : Option String} (h : a.map Text.lower = b.map Text.lower) (d : String) :
    Text.sameName (a.getD d) (b.getD d) = true := by
  rw [Text.sameName_iff]
  cases a <;> cases b <;> simp_all

section

variable {rules : RuleTable} {p p' : RuledRef} {ps ps' : List RuledRef} {k : Nat}

theorem ruledRefs_alike (rules : RuleTable) (db : String) {refs refs' : List TableRef}
    (h : refs.map (·.mapTable TableName.lowered) = refs'.map (·.mapTable TableName.lowered)) :
    List.Forall₂ (RuledRef.Alike db) (ruledRefs rules db refs) (ruledRefs rules db refs') := by
  induction refs generalizing refs' with
  | nil =>
    cases refs' with
    | nil => exact .nil
    | cons t refs' => cases h
  | cons t refs ih =>
    cases refs' with
    | nil => cases h
    | cons t' refs' =>
      obtain ⟨hhead, htail⟩ := List.cons.inj h
      obtain ⟨htable, halias⟩ := TableRef.mk.inj hhead
      obtain ⟨hschema, hname⟩ := TableName.mk.inj htable
      have hdb := sameName_getD hschema db
      have hsame := (Text.sameName_iff _ _).mpr hname
      have hrule : ruleOf? rules db t = ruleOf? rules db t' := ruleOf?_congr hdb hsame
      cases hr : ruleOf? rules db t' with
      | none =>
        rw [ruledRefs_cons_of_unsharded hr, ruledRefs_cons_of_unsharded (hrule.trans hr)]
        exact ih htail
      | some r =>
        rw [ruledRefs_cons_of_rule hr, ruledRefs_cons_of_rule (hrule.trans hr)]
        exact .cons ⟨rfl, hdb, hsame, halias⟩ (ih htail)

namespace RuledRef.Alike

theorem refl (p : RuledRef) (db : String) : p.Alike db p :=
  ⟨rfl, Text.sameName_refl _, Text.sameName_refl _, rfl⟩

theorem symm (h : p.Alike db p') : p'.Alike db p where
  rule := h.rule.symm
  schema := by rw [Text.sameName_comm, h.schema]
  name := by rw [Text.sameName_comm, h.name]
  aliasName := h.aliasName.symm

theorem isKey_lowered (h : p.Alike db p') (c : ColumnName) :
    (ShardedTable.ofRef p.ref db p.rule).isKey (c.mapQualifier Text.lower) =
      (ShardedTable.ofRef p'.ref db p'.rule).isKey c := by
  have hname := (Text.sameName_iff _ _).mp h.name
  obtain ⟨_ | q, n⟩ := c
  · simp only [ShardedTable.isKey, ShardedTable.ofRef, ColumnName.mapQualifier, h.rule, Option.map_none]
  · simp only [ShardedTable.isKey, ShardedTable.ofRef, ColumnName.mapQualifier, h.rule, h.aliasName,
      Option.map_some, Text.sameName, Text.lower_lower, hname]

theorem isKey (h : p.Alike db p') {c c' : ColumnName}
    (hc : c.mapQualifier Text.lower = c'.mapQualifier Text.lower) :
    (ShardedTable.ofRef p.ref db p.rule).isKey c = (ShardedTable.ofRef p'.ref db p'.rule).isKey c' := by
  rw [← (refl p db).isKey_lowered c, ← h.isKey_lowered c', hc]

/-- A condition in other letters keeps the same shards. -/
theorem reached (h : p.Alike db p') {condition condition' : Option Expr}
    (hcondition : condition.map (·.mapQualifiers Text.lower) =
      condition'.map (·.mapQualifiers Text.lower)) :
    p.reached db condition = p'.reached db condition' := by
  have hhint : (ShardedTable.ofRef p.ref db p.rule).hint condition =
      (ShardedTable.ofRef p'.ref db p'.rule).hint condition' := by
    cases condition with
    | none =>
      cases condition' with
      | none => rfl
      | some e' => cases hcondition
    | some e =>
      cases condition' with
      | none => cases hcondition
      | some e' =>
        have he : e.mapQualifiers Text.lower = e'.mapQualifiers Text.lower :=
          Option.some.inj hcondition
        have hleft := hintOf_mapColumns (refl p db).isKey_lowered e
        have hright := hintOf_mapColumns h.isKey_lowered e'
        simp only [ShardedTable.hint]
        rw [← hleft, ← hright]
        exact congrArg _ he
  rw [RuledRef.reached, RuledRef.reached, hhint, h.rule]

/-- The shards of an index of a table are the same ones, in a database with the same name. -/
theorem shard (h : p.Alike db p') (k : Nat) : (p.shard db k).slice = (p'.shard db k).slice ∧
    (p.shard db k).table = (p'.shard db k).table ∧
    Text.sameName (p.shard db k).db (p'.shard db k).db = true := by
  simp only [RuledRef.shard, Rule.shard, h.rule, true_and, List.getD_eq_getElem?_getD]
  cases p'.rule.databases[k]? with
  | none => exact h.schema
  | some physical => exact Text.sameName_refl physical

end RuledRef.Alike

theorem rel_find? {α β : Type} {R : α → β → Prop} {as : List α} {bs : List β} {f : α → Bool}
    {g : β → Bool} (h : List.Forall₂ R as bs) (hfg : ∀ a b, R a b → f a = g b) :
    Option.Rel R (as.find? f) (bs.find? g) := by
  induction h with
  | nil => exact .none
  | @cons a b as bs hab _ ih =>
    rw [List.find?_cons, List.find?_cons, hfg a b hab]
    cases g b with
    | true => exact .some hab
    | false => exact ih

theorem map_eq_of_alike {α : Type} {f f' : RuledRef → α} (h : List.Forall₂ (RuledRef.Alike db) ps ps')
    (hf : ∀ q q', q.Alike db q' → f q = f' q') : ps.map f = ps'.map f' := by
  induction h with
  | nil => rfl
  | cons hhead _ ih => rw [List.map_cons, List.map_cons, hf _ _ hhead, ih]

variable {condition condition' : Option Expr}

/-- A join of the same tables is one of the same indexes, or of none. -/
theorem joinIndexes_alike (h : List.Forall₂ (RuledRef.Alike db) (p :: ps) (p' :: ps'))
    (hcondition : condition.map (·.mapQualifiers Text.lower) =
      condition'.map (·.mapQualifiers Text.lower)) :
    (∃ e e', joinIndexes db condition p ps = .error e ∧ joinIndexes db condition' p' ps' = .error e') ∨
    ∃ ks, joinIndexes db condition p ps = .ok ks ∧ joinIndexes db condition' p' ps' = .ok ks := by
  obtain ⟨hfirst, hothers⟩ := List.forall₂_cons.mp h
  have hreached : p.reached db condition = p'.reached db condition' := hfirst.reached hcondition
  have hshared : sharedIndexes db condition p ps = sharedIndexes db condition' p' ps' := by
    have hall := map_eq_of_alike hothers fun q q' hq => hq.reached hcondition
    unfold sharedIndexes
    rw [hreached]
    congr 1
    funext k
    have hmem := congrArg (List.all · fun js => decide (k ∈ js)) hall
    simpa only [List.all_map, Function.comp_def] using hmem
  unfold joinIndexes
  rw [hshared, hreached]
  cases sharedIndexes db condition' p' ps' with
  | cons k ks => exact .inr ⟨_, rfl, rfl⟩
  | nil =>
    cases p'.reached db condition' with
    | nil => exact .inl ⟨_, _, rfl, rfl⟩
    | cons k ks =>
      have hmissing := rel_find? (f := fun q => decide (k ∉ List.range q.rule.count.toNat))
        (g := fun q => decide (k ∉ List.range q.rule.count.toNat)) h
        fun q q' hq => by rw [hq.rule]
      dsimp only
      generalize (p :: ps).find? _ = found at hmissing ⊢
      generalize (p' :: ps').find? _ = found' at hmissing ⊢
      cases hmissing with
      | some => exact .inl ⟨_, _, rfl, rfl⟩
      | none => exact .inr ⟨_, rfl, rfl⟩

/-- Where the shards of an index lie together in the one spelling and apart in the other, they lie on
one slice and in databases that differ in the case of letters only. -/
theorem cased_of_stray (h : List.Forall₂ (RuledRef.Alike db) (p :: ps) (p' :: ps')) {q : RuledRef}
    (hstray : stray? db p ps k = some q) (htogether : stray? db p' ps' k = none) : q ∈ ps ∧
      (q.shard db k).slice = (p.shard db k).slice ∧ (q.shard db k).db ≠ (p.shard db k).db ∧
      Text.sameName (q.shard db k).db (p.shard db k).db = true := by
  obtain ⟨hfirst, hothers⟩ := List.forall₂_cons.mp h
  have hmem : q ∈ ps := List.mem_of_find?_eq_some hstray
  obtain ⟨q', hq', hother⟩ := exists_of_forall₂ hothers hmem
  obtain ⟨hslice, -, hdb⟩ := hfirst.shard k
  obtain ⟨hslice', -, hdb'⟩ := hother.shard k
  have hlies := lies_of_together htogether q' (List.mem_cons_of_mem _ hq')
  have hslices : (q.shard db k).slice = (p.shard db k).slice := by
    rw [hslice', hlies.1, hslice]
  have hnames : Text.sameName (q.shard db k).db (p.shard db k).db = true := by
    rw [hlies.2] at hdb'
    rw [Text.sameName_comm] at hdb
    exact Text.sameName_trans hdb' hdb
  have happart := List.find?_some hstray
  simp only [hslices, ne_eq, not_true_eq_false, decide_false, Bool.false_or, decide_eq_true_eq]
    at happart
  exact ⟨hmem, hslices, happart, hnames⟩

end

end Planning

end ShardedSql
