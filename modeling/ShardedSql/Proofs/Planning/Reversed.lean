import Mathlib.Data.List.Find
import ShardedSql.Proofs.Planning.LetterCase

namespace ShardedSql.Planning

open Sql (Statement TableName)

/-- The renaming that takes a physical table back to the logical one. -/
def Renaming.swap (n : Renaming) : Renaming := ⟨n.physicalDb, n.physicalTable, n.db, n.table⟩

/-- That renamings into one physical database tell apart tables of different names. -/
structure TellApart (rs : List Renaming) (physicalDb : String) : Prop where
  oneDatabase : ∀ n ∈ rs, Text.sameName n.physicalDb physicalDb = true
  distinct : ∀ n ∈ rs, ∀ m ∈ rs, Text.sameName n.physicalTable m.physicalTable = true →
    Text.sameName n.table m.table = true

/-- That a name is none of the physical ones. -/
def IsFresh (rs : List Renaming) (name : String) : Prop :=
  ∀ n ∈ rs, Text.sameName n.physicalTable name = false

instance (rs : List Renaming) (name : String) : Decidable (IsFresh rs name) :=
  inferInstanceAs (Decidable (∀ n ∈ rs, Text.sameName n.physicalTable name = false))

namespace Renamer

/-- Whether a qualifier is renamed. -/
def renames (r : Renamer) (q : String) : Bool :=
  !(r.aliases.any fun a => Text.sameName a q) && r.renamings.any fun n => Text.sameName n.table q

/-- A name of a table in small letters, if it is renamed. -/
def lowerTable (r : Renamer) (t : TableName) : TableName :=
  if (r.find? t).isSome then t.lowered else t

/-- A qualifier in small letters, if it is renamed. -/
def lowerQualifier (r : Renamer) (q : String) : String := if r.renames q then Text.lower q else q

/-- The first renaming that gives a table the physical name of another one. -/
def firstTo? (r : Renamer) (n : Renaming) : Option Renaming :=
  r.renamings.find? fun m => Text.sameName m.physicalTable n.physicalTable

/-- A name of a table with the schema that it has when it was renamed there and back. A physical name
does not tell which database its table is of, so that the first renaming to it decides. -/
def resettle (r : Renamer) (t : TableName) : TableName :=
  match (r.find? t).bind r.firstTo? with
  | some m => ⟨t.schema.map fun _ => m.db, t.name⟩
  | none => t

/-- That the schema of a name is the one that it comes back with, in some letters. -/
def KeepsSchema (r : Renamer) (t : TableName) : Prop := (r.resettle t).lowered = t.lowered

instance (r : Renamer) (t : TableName) : Decidable (r.KeepsSchema t) :=
  inferInstanceAs (Decidable (_ = _))

/-- The renamer that takes names back. -/
def back (r : Renamer) (physicalDb : String) : Renamer :=
  ⟨physicalDb, r.renamings.map .swap, r.aliases⟩

variable {r : Renamer}

/-- What a renaming that is found is for. -/
theorem of_find?_eq_some {t : TableName} {n : Renaming} (h : r.find? t = some n) :
    n ∈ r.renamings ∧ Text.sameName n.table t.name = true ∧
      Text.sameName n.db (t.schema.getD r.defaultDb) = true := by
  have hsame := List.find?_some h
  rw [Bool.and_eq_true] at hsame
  exact ⟨List.mem_of_find?_eq_some h, hsame⟩

theorem find?_of_lowered {t t' : TableName} (h : t.lowered = t'.lowered) : r.find? t = r.find? t' := by
  obtain ⟨hschema, hname⟩ := TableName.mk.inj h
  refine List.find?_congr fun n _ => ?_
  rw [sameName_congr (Text.sameName_refl n.table) ((Text.sameName_iff _ _).mpr hname),
    sameName_congr (Text.sameName_refl n.db) (sameName_getD hschema r.defaultDb)]

theorem renames_of_sameName {q q' : String} (h : Text.sameName q q' = true) :
    r.renames q = r.renames q' := by
  have hsame : ∀ a, Text.sameName a q = Text.sameName a q' :=
    fun a => sameName_congr (Text.sameName_refl a) h
  change (!(r.aliases.any fun a => Text.sameName a q) &&
    r.renamings.any fun n => Text.sameName n.table q) = _
  simp only [hsame]
  rfl

theorem qualifier_of_not_renames {q : String} (h : r.renames q = false) : r.qualifier q = q := by
  cases halias : r.aliases.any fun a => Text.sameName a q with
  | true => exact if_pos halias
  | false =>
    have hnone : (r.renamings.any fun n => Text.sameName n.table q) = false := by
      change (!(r.aliases.any fun a => Text.sameName a q) && _) = false at h
      rwa [halias, Bool.not_false, Bool.true_and] at h
    have hfind := List.find?_eq_none.mpr fun n hn => List.any_eq_false.mp hnone n hn
    refine (if_neg (Bool.eq_false_iff.mp halias)).trans ?_
    rw [hfind]

theorem qualifier_of_renames {q : String} (h : r.renames q = true) :
    ∃ n ∈ r.renamings, Text.sameName n.table q = true ∧ r.qualifier q = n.physicalTable := by
  obtain ⟨halias, hsome⟩ := Bool.and_eq_true_iff.mp h
  obtain ⟨n, hn⟩ := Option.isSome_iff_exists.mp
    (List.find?_isSome.mpr (List.any_eq_true.mp hsome))
  have hname := List.find?_some hn
  refine ⟨n, List.mem_of_find?_eq_some hn, hname, (if_neg (by simpa using halias)).trans ?_⟩
  rw [hn]

theorem lowerTable_of_isSome {t : TableName} (h : (r.find? t).isSome) :
    r.lowerTable t = t.lowered := if_pos h

theorem lowerTable_of_lowered {t t' : TableName} (h : t.lowered = t'.lowered)
    (hrenamed : (r.find? t').isSome) : r.lowerTable t = r.lowerTable t' := by
  have hrenamed' : (r.find? t).isSome := by rwa [find?_of_lowered h]
  rw [lowerTable_of_isSome hrenamed', h, lowerTable_of_isSome hrenamed]

theorem lowerQualifier_of_renames {q : String} (h : r.renames q = true) :
    r.lowerQualifier q = Text.lower q := if_pos h

theorem lowerQualifier_of_sameName {q q' : String} (h : Text.sameName q q' = true)
    (hrenamed : r.renames q' = true) : r.lowerQualifier q = r.lowerQualifier q' := by
  have hrenamed' : r.renames q = true := by rwa [renames_of_sameName h]
  rw [lowerQualifier_of_renames hrenamed', (Text.sameName_iff _ _).mp h,
    lowerQualifier_of_renames hrenamed]

section

variable {physicalDb : String}

theorem find?_back_of_fresh {t : TableName} (h : IsFresh r.renamings t.name) :
    (r.back physicalDb).find? t = none := by
  refine List.find?_eq_none.mpr fun n hn => ?_
  obtain ⟨m, hm, rfl⟩ := List.mem_map.mp hn
  simp [Renaming.swap, h m hm]

/-- The renaming that a physical name is found for on the way back. -/
theorem find?_back (h : TellApart r.renamings physicalDb) {n : Renaming} (hn : n ∈ r.renamings)
    (schema : Option String) :
    (r.back physicalDb).find? ⟨schema.map fun _ => n.physicalDb, n.physicalTable⟩ =
      (r.firstTo? n).map .swap := by
  have hdb : Text.sameName physicalDb
      ((schema.map fun _ => n.physicalDb).getD physicalDb) = true := by
    cases schema with
    | none => exact Text.sameName_refl _
    | some s =>
      rw [Text.sameName_comm]
      exact h.oneDatabase n hn
  change (r.renamings.map Renaming.swap).find? _ = _
  rw [List.find?_map]
  refine congrArg (Option.map Renaming.swap) (List.find?_congr fun m hm => ?_)
  have hsame : Text.sameName m.physicalDb
      ((schema.map fun _ => n.physicalDb).getD physicalDb) = true :=
    Text.sameName_trans (h.oneDatabase m hm) hdb
  change (Text.sameName m.physicalTable n.physicalTable &&
    Text.sameName m.physicalDb ((schema.map fun _ => n.physicalDb).getD physicalDb)) = _
  rw [hsame]
  exact Bool.and_true _

/-- The first renaming to a physical name is there, and for a table of the same name. -/
theorem exists_firstTo? (h : TellApart r.renamings physicalDb) {n : Renaming}
    (hn : n ∈ r.renamings) : ∃ m ∈ r.renamings, r.firstTo? n = some m ∧
      Text.sameName m.physicalTable n.physicalTable = true ∧ Text.sameName m.table n.table = true := by
  have hsome : (r.firstTo? n).isSome :=
    List.find?_isSome.mpr ⟨n, hn, Text.sameName_refl n.physicalTable⟩
  obtain ⟨m, hfirst⟩ := Option.isSome_iff_exists.mp hsome
  have hm := List.mem_of_find?_eq_some hfirst
  have hphysical := List.find?_some hfirst
  exact ⟨m, hm, hfirst, hphysical, h.distinct m hm n hn hphysical⟩

theorem resettle_of_find?_eq_none {t : TableName} (h : r.find? t = none) : r.resettle t = t := by
  rw [resettle, h]
  rfl

theorem resettle_of_find?_eq_some {t : TableName} {n m : Renaming} (h : r.find? t = some n)
    (hfirst : r.firstTo? n = some m) : r.resettle t = ⟨t.schema.map fun _ => m.db, t.name⟩ := by
  rw [resettle, h, Option.bind_some, hfirst]

/-- A name that is renamed is renamed with the schema that it comes back with, too. -/
theorem find?_resettle_isSome (h : TellApart r.renamings physicalDb) {t : TableName}
    (hrenamed : (r.find? t).isSome) : (r.find? (r.resettle t)).isSome := by
  obtain ⟨n, hfind⟩ := Option.isSome_iff_exists.mp hrenamed
  obtain ⟨hn, hname, hdb⟩ := of_find?_eq_some hfind
  obtain ⟨m, hm, hfirst, -, htable⟩ := exists_firstTo? h hn
  rw [resettle_of_find?_eq_some hfind hfirst]
  cases hschema : t.schema with
  | none =>
    rw [hschema] at hdb
    exact List.find?_isSome.mpr ⟨n, hn, Bool.and_eq_true_iff.mpr ⟨hname, hdb⟩⟩
  | some s =>
    exact List.find?_isSome.mpr ⟨m, hm, Bool.and_eq_true_iff.mpr
      ⟨Text.sameName_trans htable hname, Text.sameName_refl m.db⟩⟩

/-- A table that is renamed there and back has its name again, in some letters, with the schema of the
first renaming to the physical name. -/
theorem lowerTable_back (h : TellApart r.renamings physicalDb) {t : TableName}
    (hfresh : IsFresh r.renamings t.name) :
    r.lowerTable ((r.back physicalDb).tableName (r.tableName t)) = r.lowerTable (r.resettle t) := by
  cases hfind : r.find? t with
  | none =>
    have hthere : r.tableName t = t := by rw [tableName, hfind]
    have hback : (r.back physicalDb).tableName t = t := by
      rw [tableName, find?_back_of_fresh hfresh]
    rw [hthere, hback, resettle_of_find?_eq_none hfind]
  | some n =>
    obtain ⟨hn, hname, -⟩ := of_find?_eq_some hfind
    obtain ⟨m, -, hfirst, -, htable⟩ := exists_firstTo? h hn
    have hthere : r.tableName t = ⟨t.schema.map fun _ => n.physicalDb, n.physicalTable⟩ := by
      rw [tableName, hfind]
    have hback : (r.back physicalDb).tableName (r.tableName t) =
        ⟨t.schema.map fun _ => m.db, m.table⟩ := by
      rw [hthere, tableName, find?_back h hn, hfirst]
      exact congrArg (TableName.mk · _) (Option.map_map _ _ _)
    have hlower := (Text.sameName_iff _ _).mp (Text.sameName_trans htable hname)
    rw [hback]
    refine lowerTable_of_lowered ?_ (find?_resettle_isSome h (by rw [hfind]; rfl))
    rw [resettle_of_find?_eq_some hfind hfirst]
    exact congrArg (TableName.mk _) hlower

/-- A name is the same with the schema that it comes back with exactly if that is its own. -/
theorem lowerTable_resettle_iff (h : TellApart r.renamings physicalDb) (t : TableName) :
    r.lowerTable (r.resettle t) = r.lowerTable t ↔ r.KeepsSchema t := by
  cases hfind : r.find? t with
  | none =>
    have hsame := resettle_of_find?_eq_none hfind
    exact ⟨fun _ => congrArg TableName.lowered hsame, fun _ => congrArg r.lowerTable hsame⟩
  | some n =>
    have hrenamed : (r.find? t).isSome := by
      rw [hfind]
      rfl
    constructor
    · intro heq
      rwa [lowerTable_of_isSome (find?_resettle_isSome h hrenamed),
        lowerTable_of_isSome hrenamed] at heq
    · exact fun hkeeps => lowerTable_of_lowered hkeeps hrenamed

/-- Schemas are kept where all tables with one physical name are of one database. -/
theorem keepsSchema_of_oneDb (h : TellApart r.renamings physicalDb)
    (hdb : ∀ n ∈ r.renamings, ∀ m ∈ r.renamings,
      Text.sameName n.physicalTable m.physicalTable = true → Text.sameName n.db m.db = true)
    (t : TableName) : r.KeepsSchema t := by
  cases hfind : r.find? t with
  | none => exact congrArg TableName.lowered (resettle_of_find?_eq_none hfind)
  | some n =>
    obtain ⟨hn, -, hschema⟩ := of_find?_eq_some hfind
    obtain ⟨m, hm, hfirst, hphysical, -⟩ := exists_firstTo? h hn
    have hsame := Text.sameName_trans (hdb m hm n hn hphysical) hschema
    have hschemas : (t.schema.map fun _ => m.db).map Text.lower = t.schema.map Text.lower := by
      cases hs : t.schema with
      | none => rfl
      | some s =>
        rw [hs] at hsame
        exact congrArg some ((Text.sameName_iff _ _).mp hsame)
    change (r.resettle t).lowered = t.lowered
    rw [resettle_of_find?_eq_some hfind hfirst]
    exact congrArg (TableName.mk · _) hschemas

theorem renames_back_of_fresh {q : String} (h : IsFresh r.renamings q) :
    (r.back physicalDb).renames q = false := by
  have hnone : ((r.renamings.map Renaming.swap).any fun n => Text.sameName n.table q) = false := by
    refine List.any_eq_false.mpr fun n hn => ?_
    obtain ⟨m, hm, rfl⟩ := List.mem_map.mp hn
    exact Bool.eq_false_iff.mp (h m hm)
  exact (congrArg (_ && ·) hnone).trans (Bool.and_false _)

theorem renames_back (physicalDb : String) (haliases : ∀ a ∈ r.aliases, IsFresh r.renamings a)
    {n : Renaming} (hn : n ∈ r.renamings) :
    (r.back physicalDb).renames n.physicalTable = true := by
  have hnone : (r.aliases.any fun a => Text.sameName a n.physicalTable) = false := by
    refine List.any_eq_false.mpr fun a ha => Bool.eq_false_iff.mp ?_
    rw [Text.sameName_comm]
    exact haliases a ha n hn
  have hsome : ((r.renamings.map Renaming.swap).any fun m =>
      Text.sameName m.table n.physicalTable) = true :=
    List.any_eq_true.mpr ⟨n.swap, List.mem_map_of_mem hn, Text.sameName_refl _⟩
  change (!(r.aliases.any fun a => Text.sameName a n.physicalTable) && _) = true
  rw [hnone, Bool.not_false, Bool.true_and]
  exact hsome

/-- A qualifier that is renamed there and back is what it was, in some letters. -/
theorem lowerQualifier_back (h : TellApart r.renamings physicalDb)
    (haliases : ∀ a ∈ r.aliases, IsFresh r.renamings a) {q : String}
    (hfresh : IsFresh r.renamings q) :
    r.lowerQualifier ((r.back physicalDb).qualifier (r.qualifier q)) = r.lowerQualifier q := by
  cases hrenamed : r.renames q with
  | false =>
    rw [qualifier_of_not_renames hrenamed, qualifier_of_not_renames (renames_back_of_fresh hfresh)]
  | true =>
    obtain ⟨n, hn, hname, hthere⟩ := qualifier_of_renames hrenamed
    obtain ⟨m', hm', hname', hback⟩ := qualifier_of_renames (renames_back physicalDb haliases hn)
    obtain ⟨m, hm, rfl⟩ := List.mem_map.mp hm'
    rw [hthere, hback]
    exact lowerQualifier_of_sameName
      (Text.sameName_trans (h.distinct m hm n hn hname') hname) hrenamed

end

end Renamer

/-- The renamer of the physical statements that come from a statement. -/
def Renamer.ofStatement (db : String) (rs : List Renaming) (stmt : Statement) : Renamer :=
  ⟨db, rs, stmt.tableRefs.filterMap (·.aliasName)⟩

/-- A SELECT, UPDATE or DELETE with physical names. -/
def renameStatement (db : String) (rs : List Renaming) : Statement → Statement
  | .select s => .select (renameSelect db rs s)
  | .update u => .update (renameUpdate db rs u)
  | .delete d => .delete (renameDelete db rs d)
  | stmt => stmt

/-- A statement with the names that are renamed in it, and their schemas, in small letters. -/
def lowerRenamed (db : String) (rs : List Renaming) (stmt : Statement) : Statement :=
  stmt.mapNames (Renamer.ofStatement db rs stmt).lowerTable
    (Renamer.ofStatement db rs stmt).lowerQualifier

section

variable {db : String} {rs : List Renaming} {stmt : Statement}

theorem renameStatement_eq_mapNames : renameStatement db rs stmt =
    stmt.mapNames (Renamer.ofStatement db rs stmt).tableName
      (Renamer.ofStatement db rs stmt).qualifier := by
  cases stmt with
  | select s => exact congrArg Statement.select (renameSelect_eq_mapNames db rs s)
  | update u =>
    have haliases : [u.table].filterMap (·.aliasName) = u.table.aliasName.toList := by
      cases h : u.table.aliasName <;> simp [h]
    change Statement.update _ = Statement.update (u.mapNames
      (Renamer.mk db rs ([u.table].filterMap (·.aliasName))).tableName
      (Renamer.mk db rs ([u.table].filterMap (·.aliasName))).qualifier)
    rw [haliases]
    rfl
  | delete d => rfl
  | insert _ | explain _ | other _ => rfl

theorem aliasNames_mapNames (f : TableName → TableName) (g : String → String) :
    (stmt.mapNames f g).tableRefs.filterMap (·.aliasName) =
      stmt.tableRefs.filterMap (·.aliasName) := by
  cases stmt with
  | select s =>
    change (s.mapNames f g).tableRefs.filterMap _ = _
    rw [s.tableRefs_mapNames, List.filterMap_map]
    rfl
  | update _ | delete _ | insert _ | explain _ | other _ => rfl

end

/-- A statement with the schemas that its tables come back with. -/
def resettled (db : String) (rs : List Renaming) (stmt : Statement) : Statement :=
  stmt.mapNames (Renamer.ofStatement db rs stmt).resettle id

section

variable {db physicalDb : String} {rs : List Renaming} {stmt : Statement}

theorem ofStatement_mapNames (f : TableName → TableName) (g : String → String) :
    Renamer.ofStatement db rs (stmt.mapNames f g) = Renamer.ofStatement db rs stmt :=
  congrArg (Renamer.mk db rs) (aliasNames_mapNames f g)

theorem lowerRenamed_mapNames (f : TableName → TableName) (g : String → String) :
    lowerRenamed db rs (stmt.mapNames f g) =
      stmt.mapNames ((Renamer.ofStatement db rs stmt).lowerTable ∘ f)
        ((Renamer.ofStatement db rs stmt).lowerQualifier ∘ g) := by
  change (stmt.mapNames f g).mapNames (Renamer.ofStatement db rs _).lowerTable
    (Renamer.ofStatement db rs _).lowerQualifier = _
  rw [ofStatement_mapNames, Statement.mapNames_mapNames]

/-- What a statement comes to that is renamed there and back. -/
theorem lowerRenamed_back (hapart : TellApart rs physicalDb)
    (htables : ∀ t ∈ stmt.tableRefs, IsFresh rs t.table.name)
    (haliases : ∀ t ∈ stmt.tableRefs, ∀ a ∈ t.aliasName, IsFresh rs a)
    (hqualifiers : ∀ q ∈ stmt.qualifiers, IsFresh rs q) :
    lowerRenamed db rs (renameStatement physicalDb (rs.map .swap) (renameStatement db rs stmt)) =
      lowerRenamed db rs (resettled db rs stmt) := by
  have hback : Renamer.ofStatement physicalDb (rs.map .swap) (renameStatement db rs stmt) =
      (Renamer.ofStatement db rs stmt).back physicalDb := by
    rw [renameStatement_eq_mapNames]
    exact congrArg (Renamer.mk physicalDb _) (aliasNames_mapNames _ _)
  have haliases' : ∀ a ∈ (Renamer.ofStatement db rs stmt).aliases, IsFresh rs a := by
    intro a ha
    obtain ⟨t, ht, ha⟩ := List.mem_filterMap.mp ha
    exact haliases t ht a ha
  rw [renameStatement_eq_mapNames, hback, renameStatement_eq_mapNames, Statement.mapNames_mapNames,
    resettled, lowerRenamed_mapNames, lowerRenamed_mapNames]
  exact Statement.mapNames_congr
    (fun t ht => Renamer.lowerTable_back (r := .ofStatement db rs stmt) hapart (htables t ht))
    fun q hq => Renamer.lowerQualifier_back (r := .ofStatement db rs stmt) hapart haliases'
      (hqualifiers q hq)

theorem lowerRenamed_resettled_iff (hinsert : ∀ i, stmt ≠ .insert i)
    (hapart : TellApart rs physicalDb) :
    lowerRenamed db rs (resettled db rs stmt) = lowerRenamed db rs stmt ↔
      ∀ t ∈ stmt.tableRefs, (Renamer.ofStatement db rs stmt).KeepsSchema t.table := by
  rw [resettled, lowerRenamed_mapNames, lowerRenamed]
  constructor
  · intro heq t ht
    have hrefs := congrArg Statement.tableRefs heq
    rw [Statement.tableRefs_mapNames _ _ hinsert, Statement.tableRefs_mapNames _ _ hinsert] at hrefs
    have htable := congrArg (·.table) (List.map_inj_left.mp hrefs t ht)
    exact (Renamer.lowerTable_resettle_iff hapart t.table).mp htable
  · intro hkeep
    exact Statement.mapNames_congr
      (fun t ht => (Renamer.lowerTable_resettle_iff hapart t.table).mpr (hkeep t ht)) fun _ _ => rfl

end

/-- Renaming is undone by the renamings taken back, with the physical database as the one that a name
without a schema is in, but for schemas. A SELECT, UPDATE or DELETE in which nothing has a physical
name comes back with the schemas of the first renamings to the physical names and is otherwise the
same, up to the case of the letters of the names that were renamed and of their schemas. So it is the
statement that it was exactly if those are its own schemas, as they always are where tables of
different databases have different physical names. -/
theorem renamed_back_iff (db physicalDb : String) (rs : List Renaming) (stmt : Statement)
    (hinsert : ∀ i, stmt ≠ .insert i) (hapart : TellApart rs physicalDb)
    (htables : ∀ t ∈ stmt.tableRefs, IsFresh rs t.table.name)
    (haliases : ∀ t ∈ stmt.tableRefs, ∀ a ∈ t.aliasName, IsFresh rs a)
    (hqualifiers : ∀ q ∈ stmt.qualifiers, IsFresh rs q) :
    lowerRenamed db rs (renameStatement physicalDb (rs.map .swap) (renameStatement db rs stmt)) =
      lowerRenamed db rs (resettled db rs stmt) ∧
    (lowerRenamed db rs (renameStatement physicalDb (rs.map .swap) (renameStatement db rs stmt)) =
        lowerRenamed db rs stmt ↔
      ∀ t ∈ stmt.tableRefs, (Renamer.ofStatement db rs stmt).KeepsSchema t.table) ∧
    ((∀ n ∈ rs, ∀ m ∈ rs, Text.sameName n.physicalTable m.physicalTable = true →
        Text.sameName n.db m.db = true) →
      lowerRenamed db rs (renameStatement physicalDb (rs.map .swap) (renameStatement db rs stmt)) =
        lowerRenamed db rs stmt) := by
  have hback : lowerRenamed db rs (renameStatement physicalDb (rs.map .swap)
      (renameStatement db rs stmt)) = lowerRenamed db rs (resettled db rs stmt) :=
    lowerRenamed_back hapart htables haliases hqualifiers
  rw [hback]
  refine ⟨rfl, lowerRenamed_resettled_iff hinsert hapart, fun hdb => ?_⟩
  apply (lowerRenamed_resettled_iff hinsert hapart).mpr
  intro t _
  exact Renamer.keepsSchema_of_oneDb (r := .ofStatement db rs stmt) hapart hdb t.table

def toThirdShards : List Renaming :=
  [⟨"shop", "orders", "shop_1", "orders_3"⟩, ⟨"shop", "lines", "shop_1", "lines_3"⟩]

/-- `SELECT ORDERS.id, l.* FROM Shop.Orders JOIN lines AS l`. -/
def linesOfOrders : Statement := .select {
  distinct := false
  items := [.expr (.column ⟨some "ORDERS", "id"⟩) none, .tableStar "l"]
  sources := [⟨⟨some "Shop", "Orders"⟩, none⟩]
  joins := [⟨.inner, ⟨⟨none, "lines"⟩, some "l"⟩, none⟩]
  condition := none
  groupBy := []
  having := none
  orderBy := []
  limit := none
  forUpdate := false }

theorem lines_of_orders_taken_back :
    (renameStatement "shop" toThirdShards linesOfOrders).sql =
      "SELECT orders_3.id, l.* FROM shop_1.orders_3 JOIN lines_3 AS l" ∧
    TellApart toThirdShards "shop_1" ∧
    lowerRenamed "shop" toThirdShards (renameStatement "shop_1" (toThirdShards.map .swap)
        (renameStatement "shop" toThirdShards linesOfOrders)) =
      lowerRenamed "shop" toThirdShards linesOfOrders ∧
    (lowerRenamed "shop" toThirdShards linesOfOrders).sql =
      "SELECT orders.id, l.* FROM shop.orders JOIN lines AS l" := by
  have hapart : TellApart toThirdShards "shop_1" := ⟨by decide, by decide⟩
  obtain ⟨-, hiff, -⟩ := renamed_back_iff "shop" "shop_1" toThirdShards linesOfOrders nofun hapart
    (by decide) (by decide) (by decide)
  exact ⟨rfl, hapart, hiff.mpr (by decide +kernel), rfl⟩

def toOneShard : List Renaming := [⟨"a", "orders", "p", "orders_3"⟩, ⟨"b", "orders", "p", "orders_3"⟩]

/-- `SELECT * FROM orders JOIN b.orders AS o ON orders.id = o.id`. -/
def ordersOfTwoDatabases : Statement := .select {
  distinct := false
  items := [.star]
  sources := [⟨⟨none, "orders"⟩, none⟩]
  joins := [⟨.inner, ⟨⟨some "b", "orders"⟩, some "o"⟩,
    some (.binary (.column ⟨some "orders", "id"⟩) .equal (.column ⟨some "o", "id"⟩))⟩]
  condition := none
  groupBy := []
  having := none
  orderBy := []
  limit := none
  forUpdate := false }

/-- Of two tables of one name that have one physical name, the second comes back as the first. -/
theorem orders_of_two_databases_come_back_as_one :
    TellApart toOneShard "p" ∧
    (∀ n ∈ toOneShard, ∀ m ∈ toOneShard, Text.sameName n.table m.table = true →
      Text.sameName n.physicalTable m.physicalTable = true) ∧
    (∀ t ∈ ordersOfTwoDatabases.tableRefs, IsFresh toOneShard t.table.name) ∧
    (∀ t ∈ ordersOfTwoDatabases.tableRefs, ∀ a ∈ t.aliasName, IsFresh toOneShard a) ∧
    (∀ q ∈ ordersOfTwoDatabases.qualifiers, IsFresh toOneShard q) ∧
    (renameStatement "a" toOneShard ordersOfTwoDatabases).sql =
      "SELECT * FROM orders_3 JOIN p.orders_3 AS o ON orders_3.id = o.id" ∧
    (renameStatement "p" (toOneShard.map .swap)
        (renameStatement "a" toOneShard ordersOfTwoDatabases)).sql =
      "SELECT * FROM orders JOIN a.orders AS o ON orders.id = o.id" ∧
    lowerRenamed "a" toOneShard (renameStatement "p" (toOneShard.map .swap)
        (renameStatement "a" toOneShard ordersOfTwoDatabases)) ≠
      lowerRenamed "a" toOneShard ordersOfTwoDatabases :=
  ⟨⟨by decide, by decide⟩, by decide, by decide, by decide, by decide, rfl,
    rfl, by decide +kernel⟩

end ShardedSql.Planning
