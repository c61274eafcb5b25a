import ShardedSql.Proofs.Planning.Colocated

namespace ShardedSql.Planning

open Routing (Rule RuleTable)
open Sql (TableRef)

variable (rules : RuleTable) (db : String) (k : Nat)

/-- What the table that is referred to is called on the shards of an index. -/
def physicalName (t : TableRef) : String :=
  match ruleOf? rules db t with
  | some r => (r.shard (t.table.schema.getD db) k).table
  | none => t.table.name

/-- What puts the names of the shards of an index into a statement with these references. -/
def refsRenamer (refs : List TableRef) : Renamer :=
  ⟨db, (ruledRefs rules db refs).map (RuledRef.rename db k), refs.filterMap (·.aliasName)⟩

variable {rules : RuleTable} {db : String} {k : Nat} {refs : List TableRef} {t u : TableRef}
  {q : String}

theorem physicalName_of_rule {r : Rule} (h : ruleOf? rules db t = some r) :
    physicalName rules db k t = r.table ++ ("_" ++ Text.decimal k) := by
  rw [physicalName, h, ← String.append_assoc]
  rfl

theorem physicalName_of_unsharded (h : ruleOf? rules db t = none) :
    physicalName rules db k t = t.table.name := by
  rw [physicalName, h]

theorem ruleOf?_congr (hdb : Text.sameName (u.table.schema.getD db) (t.table.schema.getD db) = true)
    (hname : Text.sameName u.table.name t.table.name = true) :
    ruleOf? rules db u = ruleOf? rules db t := rules.find?_congr hdb hname

/-- Physical names of one index are equal when those of the tables are. -/
theorem sameName_physicalName (ht : (ruleOf? rules db t).isSome) (hu : (ruleOf? rules db u).isSome) :
    Text.sameName (physicalName rules db k t) (physicalName rules db k u) =
      Text.sameName t.table.name u.table.name := by
  obtain ⟨r, hr⟩ := Option.isSome_iff_exists.mp ht
  obtain ⟨r', hr'⟩ := Option.isSome_iff_exists.mp hu
  rw [physicalName_of_rule hr, physicalName_of_rule hr', Text.sameName_append_right]
  have htable := (Text.sameName_iff _ _).mp (RuleTable.sameName_of_find? hr)
  have htable' := (Text.sameName_iff _ _).mp (RuleTable.sameName_of_find? hr')
  rw [Bool.eq_iff_iff, Text.sameName_iff, Text.sameName_iff, htable, htable']

/-- A physical name is longer than the one of the table. -/
theorem not_sameName_physicalName (ht : (ruleOf? rules db t).isSome)
    (h : Text.sameName t.table.name q = true) :
    Text.sameName q (physicalName rules db k t) = false := by
  obtain ⟨r, hr⟩ := Option.isSome_iff_exists.mp ht
  rw [physicalName_of_rule hr, Bool.eq_false_iff]
  intro hsame
  have hlength := Text.length_eq_of_sameName hsame
  have htable := Text.length_eq_of_sameName (RuleTable.sameName_of_find? hr)
  have hname := Text.length_eq_of_sameName h
  have hmark : "_".length = 1 := rfl
  simp only [String.length_append] at hlength
  omega

namespace RuledRef

theorem table_shard (p : RuledRef) (db : String) (k : Nat) :
    (p.shard db k).table = p.rule.table ++ ("_" ++ Text.decimal k) :=
  String.append_assoc ..

end RuledRef

/-- A reference to a sharded table is renamed to the shard of its rule. -/
theorem find?_of_rule (ht : t ∈ refs) {r : Rule} (hr : ruleOf? rules db t = some r) :
    ∃ p ∈ ruledRefs rules db refs, p.rule = r ∧
      (refsRenamer rules db k refs).find? t.table = some (p.rename db k) := by
  have hself : (⟨t, r⟩ : RuledRef) ∈ ruledRefs rules db refs := mem_ruledRefs.mpr ⟨ht, hr⟩
  unfold Renamer.find? refsRenamer
  rw [List.find?_map]
  cases hfind : (ruledRefs rules db refs).find? ((fun n : Renaming =>
      Text.sameName n.table t.table.name && Text.sameName n.db (t.table.schema.getD db)) ∘
        RuledRef.rename db k) with
  | some p =>
    have hp := List.mem_of_find?_eq_some hfind
    have hsame := List.find?_some hfind
    obtain ⟨hname, hdb⟩ := (Bool.and_eq_true _ _).mp hsame
    have hrule : ruleOf? rules db p.ref = ruleOf? rules db t := ruleOf?_congr hdb hname
    rw [hr, (mem_ruledRefs.mp hp).2] at hrule
    exact ⟨p, hp, Option.some.inj hrule, rfl⟩
  | none =>
    have hnone := List.find?_eq_none.mp hfind ⟨t, r⟩ hself
    simp [RuledRef.rename, Renaming.toShard, Text.sameName_refl] at hnone

/-- Nothing is renamed that is no reference to a sharded table. -/
theorem find?_of_unsharded (h : ruleOf? rules db t = none) :
    (refsRenamer rules db k refs).find? t.table = none := by
  unfold Renamer.find? refsRenamer
  rw [List.find?_map, Option.map_eq_none_iff, List.find?_eq_none]
  intro p hp hsame
  obtain ⟨hname, hdb⟩ := (Bool.and_eq_true _ _).mp hsame
  have hrule : ruleOf? rules db p.ref = ruleOf? rules db t := ruleOf?_congr hdb hname
  rw [h, (mem_ruledRefs.mp hp).2] at hrule
  cases hrule

theorem tableRef_of_unsharded (h : ruleOf? rules db t = none) :
    (refsRenamer rules db k refs).tableRef t = t := by
  rw [Renamer.tableRef, Renamer.tableName, find?_of_unsharded h]

theorem ruledRefs_singleton {r : Rule} (hr : ruleOf? rules db t = some r) :
    ruledRefs rules db [t] = [⟨t, r⟩] := by
  unfold ruleOf? at hr
  simp [ruledRefs, hr]

theorem exists_ruleOf?_of_ruledRefs (h : ruledRefs rules db [t] ≠ []) :
    ∃ r, ruleOf? rules db t = some r := by
  cases hr : ruleOf? rules db t with
  | none => exact absurd (ruledRefs_cons_of_unsharded hr []) h
  | some r => exact ⟨r, rfl⟩

theorem refsRenamer_singleton {r : Rule} (hr : ruledRefs rules db [t] = [⟨t, r⟩]) :
    refsRenamer rules db k [t] = ⟨db, [RuledRef.rename db k ⟨t, r⟩], t.aliasName.toList⟩ := by
  have haliases : [t].filterMap (·.aliasName) = t.aliasName.toList := by
    cases h : t.aliasName <;> simp [h]
  rw [refsRenamer, hr, haliases]
  rfl

/-- A table is called by its physical name in the place of a sharded one. -/
theorem name_tableRef_of_mem (ht : t ∈ refs) :
    ((refsRenamer rules db k refs).tableRef t).table.name = physicalName rules db k t := by
  cases hr : ruleOf? rules db t with
  | none => rw [tableRef_of_unsharded hr, physicalName_of_unsharded hr]
  | some r =>
    obtain ⟨p, -, hp, hfind⟩ := find?_of_rule (k := k) ht hr
    rw [Renamer.tableRef, Renamer.tableName, hfind, physicalName_of_rule hr, ← hp]
    exact p.table_shard db k

theorem qualifier_of_alias (h : ∃ u ∈ refs, ∃ a, u.aliasName = some a ∧ Text.sameName a q = true) :
    (refsRenamer rules db k refs).qualifier q = q := by
  obtain ⟨u, hu, a, ha, hq⟩ := h
  have hany : (refsRenamer rules db k refs).aliases.any (fun a => Text.sameName a q) = true :=
    List.any_eq_true.mpr ⟨a, List.mem_filterMap.mpr ⟨u, hu, ha⟩, hq⟩
  rw [Renamer.qualifier, if_pos hany]

/-- What becomes of a qualifier that is no alias: it follows a sharded table of its name. -/
theorem qualifier_of_not_alias
    (h : ∀ u ∈ refs, ∀ a, u.aliasName = some a → Text.sameName a q = false) :
    (∃ u ∈ refs, (ruleOf? rules db u).isSome ∧ Text.sameName u.table.name q = true ∧
      (refsRenamer rules db k refs).qualifier q = physicalName rules db k u) ∨
    (∀ u ∈ refs, (ruleOf? rules db u).isSome → Text.sameName u.table.name q = false) ∧
      (refsRenamer rules db k refs).qualifier q = q := by
  have hany : ¬(refsRenamer rules db k refs).aliases.any (fun a => Text.sameName a q) = true := by
    intro hany
    obtain ⟨a, ha, hq⟩ := List.any_eq_true.mp hany
    obtain ⟨u, hu, ha⟩ := List.mem_filterMap.mp ha
    rw [h u hu a ha] at hq
    cases hq
  rw [Renamer.qualifier, if_neg hany]
  unfold refsRenamer
  rw [List.find?_map]
  cases hfind : (ruledRefs rules db refs).find? ((fun n : Renaming =>
      Text.sameName n.table q) ∘ RuledRef.rename db k) with
  | some p =>
    obtain ⟨hp, hrule⟩ := mem_ruledRefs.mp (List.mem_of_find?_eq_some hfind)
    have hsame := List.find?_some hfind
    refine .inl ⟨p.ref, hp, by simp [hrule], hsame, ?_⟩
    rw [physicalName_of_rule hrule]
    exact p.table_shard db k
  | none =>
    refine .inr ⟨fun u hu hsome => ?_, rfl⟩
    obtain ⟨r, hr⟩ := Option.isSome_iff_exists.mp hsome
    exact Bool.eq_false_iff.mpr (List.find?_eq_none.mp hfind ⟨u, r⟩ (mem_ruledRefs.mpr ⟨hu, hr⟩))

end ShardedSql.Planning
