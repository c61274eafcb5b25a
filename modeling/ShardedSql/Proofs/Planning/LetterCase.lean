import ShardedSql.Proofs.Planning.AlikeTables
import ShardedSql.Proofs.Planning.Referents

namespace ShardedSql.Planning

open Routing (Rule RuleTable Shard)
open Sql (Delete Select Statement TableName TableRef Update)

/-- That two renamings are for one table and give it one name, up to the case of letters. -/
structure Renaming.Alike (n n' : Renaming) : Prop where
  db : Text.sameName n.db n'.db = true
  table : Text.sameName n.table n'.table = true
  physicalDb : Text.sameName n.physicalDb n'.physicalDb = true
  physicalTable : n.physicalTable = n'.physicalTable

theorem Renaming.Alike.refl (n : Renaming) : n.Alike n :=
  ⟨Text.sameName_refl _, Text.sameName_refl _, Text.sameName_refl _, rfl⟩

theorem RuledRef.Alike.rename {db : String} {p p' : RuledRef} (h : p.Alike db p') (k : Nat) :
    (p.rename db k).Alike (p'.rename db k) :=
  ⟨h.schema, h.name, (h.shard k).2.2, (h.shard k).2.1⟩

theorem sameName_congr {a a' b b' : String} (ha : Text.sameName a a' = true)
    (hb : Text.sameName b b' = true) : Text.sameName a b = Text.sameName a' b' := by
  simp only [Text.sameName, (Text.sameName_iff a a').mp ha, (Text.sameName_iff b b').mp hb]

/-- That two renamers do the same, up to the case of letters. -/
structure Renamer.Alike (r r' : Renamer) : Prop where
  defaultDb : r.defaultDb = r'.defaultDb
  aliases : r.aliases = r'.aliases
  renamings : List.Forall₂ Renaming.Alike r.renamings r'.renamings

namespace Renamer.Alike

variable {r r' : Renamer}

theorem refl (r : Renamer) : r.Alike r := ⟨rfl, rfl, List.forall₂_same.mpr fun n _ => .refl n⟩

theorem qualifier (h : r.Alike r') {q q' : String} (hq : Text.sameName q q' = true) :
    Text.lower (r.qualifier q) = Text.lower (r'.qualifier q') := by
  have haliases : (r.aliases.any fun a => Text.sameName a q) =
      r'.aliases.any fun a => Text.sameName a q' := by
    rw [h.aliases]
    congr 1
    funext a
    exact sameName_congr (Text.sameName_refl a) hq
  have hsame : ∀ n n' : Renaming, n.Alike n' →
      Text.sameName n.table q = Text.sameName n'.table q' :=
    fun n n' hn => sameName_congr hn.table hq
  have hfound := rel_find? h.renamings hsame
  unfold Renamer.qualifier
  rw [haliases]
  split
  · exact (Text.sameName_iff q q').mp hq
  · generalize r.renamings.find? _ = found at hfound ⊢
    generalize r'.renamings.find? _ = found' at hfound ⊢
    cases hfound with
    | none => exact (Text.sameName_iff q q').mp hq
    | some hn => exact congrArg Text.lower hn.physicalTable

theorem tableName (h : r.Alike r') {t t' : TableName} (ht : t.lowered = t'.lowered) :
    (r.tableName t).lowered = (r'.tableName t').lowered := by
  obtain ⟨hschema, hname⟩ := TableName.mk.inj ht
  have hsame : ∀ n n' : Renaming, n.Alike n' →
      (Text.sameName n.table t.name && Text.sameName n.db (t.schema.getD r.defaultDb)) =
        (Text.sameName n'.table t'.name && Text.sameName n'.db (t'.schema.getD r'.defaultDb)) := by
    intro n n' hn
    rw [h.defaultDb, sameName_congr hn.table ((Text.sameName_iff _ _).mpr hname),
      sameName_congr hn.db (sameName_getD hschema _)]
  have hfound := rel_find? h.renamings hsame
  unfold Renamer.tableName Renamer.find?
  generalize r.renamings.find? _ = found at hfound ⊢
  generalize r'.renamings.find? _ = found' at hfound ⊢
  cases hfound with
  | none => exact ht
  | some hn =>
    have hdb := (Text.sameName_iff _ _).mp hn.physicalDb
    have hname := congrArg Text.lower hn.physicalTable
    cases hs : t.schema <;> cases hs' : t'.schema <;> simp_all [TableName.lowered]

/-- Alike renamers keep statements alike. -/
theorem mapNames (h : r.Alike r') {stmt stmt' : Statement} (hstmt : stmt.lowered = stmt'.lowered) :
    (stmt.mapNames r.tableName r.qualifier).lowered =
      (stmt'.mapNames r'.tableName r'.qualifier).lowered := by
  -- both renamers see a name in small letters only, up to the letters of what they make of it
  have hself : ∀ r : Renamer, ∀ stmt : Statement, (stmt.mapNames r.tableName r.qualifier).lowered =
      stmt.lowered.mapNames (TableName.lowered ∘ r.tableName) (Text.lower ∘ r.qualifier) := by
    intro r stmt
    have htable : TableName.lowered ∘ r.tableName =
        (TableName.lowered ∘ r.tableName) ∘ TableName.lowered := by
      funext t
      refine (refl r).tableName ?_
      simp [TableName.lowered, Text.lower_lower, Function.comp_def]
    have hqualifier : Text.lower ∘ r.qualifier = (Text.lower ∘ r.qualifier) ∘ Text.lower := by
      funext q
      exact (refl r).qualifier ((Text.sameName_iff _ _).mpr (Text.lower_lower q).symm)
    rw [Statement.lowered, Statement.lowered, Statement.mapNames_mapNames, Statement.mapNames_mapNames,
      ← htable, ← hqualifier]
  have htable : TableName.lowered ∘ r.tableName = TableName.lowered ∘ r'.tableName :=
    funext fun t => h.tableName rfl
  have hqualifier : Text.lower ∘ r.qualifier = Text.lower ∘ r'.qualifier :=
    funext fun q => h.qualifier (Text.sameName_refl q)
  rw [hself, hself, hstmt, htable, hqualifier]

end Renamer.Alike

/-- That two calls are for the shards of one index on one slice, and send statements that are the same
up to the case of names. -/
structure Emission.Alike (e e' : Emission) : Prop where
  index : e.index = e'.index
  slice : e.call.slice = e'.call.slice
  db : Text.sameName e.call.db e'.call.db = true
  phys : e.phys.lowered = e'.phys.lowered

/-- That two statements get like answers: none, the one call of a statement without sharded tables, or
calls for the same shards. -/
inductive AnswersAlike (rules : RuleTable) (db : String) (stmt stmt' : Statement) :
    Except Error Plan → Except Error Plan → Prop
  | refused (e e' : Error) : AnswersAlike rules db stmt stmt' (.error e) (.error e')
  | unsplit (slice sql sql' : String) (h : ruledRefs rules db stmt.tableRefs = [])
      (h' : ruledRefs rules db stmt'.tableRefs = []) :
      AnswersAlike rules db stmt stmt' (.ok (.unshard ⟨slice, db, sql⟩))
        (.ok (.unshard ⟨slice, db, sql'⟩))
  | split {p p' : Plan} {es es' : List Emission} (h : Sends rules db stmt p es)
      (h' : Sends rules db stmt' p' es') (halike : List.Forall₂ Emission.Alike es es') :
      AnswersAlike rules db stmt stmt' (.ok p) (.ok p')

/-- That a statement is refused because the shards of an index of two of its tables lie on one slice in
databases whose names are one up to the case of letters. -/
def RefusedByCase (rules : RuleTable) (db : String) (stmt : Statement)
    (answer : Except Error Plan) : Prop :=
  ∃ p ∈ ruledRefs rules db stmt.tableRefs, ∃ q ∈ ruledRefs rules db stmt.tableRefs, ∃ k,
    answer = .error (.unsupported (.splitJoin (p.shard db k) (q.shard db k))) ∧
    (q.shard db k).slice = (p.shard db k).slice ∧ (q.shard db k).db ≠ (p.shard db k).db ∧
    Text.sameName (q.shard db k).db (p.shard db k).db = true

/-- That two statements get like answers, or one of them is planned and the other refused by case. -/
def AlikeButForCase (rules : RuleTable) (db : String) (stmt stmt' : Statement)
    (answer answer' : Except Error Plan) : Prop :=
  AnswersAlike rules db stmt stmt' answer answer' ∨
    RefusedByCase rules db stmt answer ∧ answer'.isOk ∨
    answer.isOk ∧ RefusedByCase rules db stmt' answer'

theorem emissions_alike {f f' : Nat → Emission} (h : ∀ k, (f k).Alike (f' k)) (ks : List Nat) :
    List.Forall₂ Emission.Alike (ks.map f) (ks.map f') := by
  rw [List.forall₂_map_left_iff, List.forall₂_map_right_iff]
  exact List.forall₂_same.mpr fun k _ => h k

section

variable {db : String} {p p' : RuledRef} {ps ps' : List RuledRef}

theorem aliasNames_of_lowered {refs refs' : List TableRef}
    (h : refs.map (·.mapTable TableName.lowered) = refs'.map (·.mapTable TableName.lowered)) :
    refs.filterMap (·.aliasName) = refs'.filterMap (·.aliasName) := by
  have haliases := congrArg (List.filterMap (·.aliasName)) h
  rwa [List.filterMap_map, List.filterMap_map] at haliases

theorem joinEmission_alike {s s' : Select}
    (hs : (Statement.select s).lowered = (Statement.select s').lowered)
    (h : List.Forall₂ (RuledRef.Alike db) (p :: ps) (p' :: ps')) (n k : Nat) :
    (Emission.mk k (joinCall db s p ps n k) (.select (shardSelect db s (p :: ps) n k))).Alike
      ⟨k, joinCall db s' p' ps' n k, .select (shardSelect db s' (p' :: ps') n k)⟩ := by
  have hsplit : (Statement.select (splitSelect s n).1).lowered =
      (Statement.select (splitSelect s' n).1).lowered := by
    simp only [Statement.lowered, Statement.mapNames, ← splitSelect_mapNames] at hs ⊢
    rw [Statement.select.inj hs]
  have hrefs := congrArg Select.tableRefs (Statement.select.inj hs)
  rw [Select.tableRefs_mapNames, Select.tableRefs_mapNames] at hrefs
  have hrenamer : (selectRenamer db ((p :: ps).map (RuledRef.rename db k)) (splitSelect s n).1).Alike
      (selectRenamer db ((p' :: ps').map (RuledRef.rename db k)) (splitSelect s' n).1) := by
    refine ⟨rfl, ?_, ?_⟩
    · simp only [selectRenamer, tableRefs_splitSelect]
      exact aliasNames_of_lowered hrefs
    · rw [selectRenamer, selectRenamer, List.forall₂_map_left_iff, List.forall₂_map_right_iff]
      exact h.imp fun q q' hq => hq.rename k
  obtain ⟨hfirst, -⟩ := List.forall₂_cons.mp h
  refine ⟨rfl, (hfirst.shard k).1, (hfirst.shard k).2.2, ?_⟩
  simp only [shardSelect, renameSelect_eq_mapNames]
  exact hrenamer.mapNames hsplit

theorem updateEmission_alike {u u' : Update} {r r' : Rule}
    (hu : (Statement.update u).lowered = (Statement.update u').lowered)
    (h : RuledRef.Alike db ⟨u.table, r⟩ ⟨u'.table, r'⟩) (k : Nat) :
    (Emission.mk k (updateCall u db (.ofRef u.table db r) (RuledRef.shard db k ⟨u.table, r⟩))
      (.update (renameUpdate db [RuledRef.rename db k ⟨u.table, r⟩] u))).Alike
        ⟨k, updateCall u' db (.ofRef u'.table db r') (RuledRef.shard db k ⟨u'.table, r'⟩),
          .update (renameUpdate db [RuledRef.rename db k ⟨u'.table, r'⟩] u')⟩ := by
  refine ⟨rfl, (h.shard k).1, (h.shard k).2.2, ?_⟩
  have hrenamer : (Renamer.mk db [RuledRef.rename db k ⟨u.table, r⟩] u.table.aliasName.toList).Alike
      ⟨db, [RuledRef.rename db k ⟨u'.table, r'⟩], u'.table.aliasName.toList⟩ :=
    ⟨rfl, congrArg Option.toList h.aliasName, .cons (h.rename k) .nil⟩
  simp only [renameUpdate_eq_mapNames]
  exact hrenamer.mapNames hu

theorem deleteEmission_alike {d d' : Delete} {r r' : Rule}
    (hd : (Statement.delete d).lowered = (Statement.delete d').lowered)
    (h : RuledRef.Alike db ⟨⟨d.table, none⟩, r⟩ ⟨⟨d'.table, none⟩, r'⟩) (k : Nat) :
    (Emission.mk k (deleteCall d db (.ofRef ⟨d.table, none⟩ db r)
      (RuledRef.shard db k ⟨⟨d.table, none⟩, r⟩))
      (.delete (renameDelete db [RuledRef.rename db k ⟨⟨d.table, none⟩, r⟩] d))).Alike
        ⟨k, deleteCall d' db (.ofRef ⟨d'.table, none⟩ db r')
          (RuledRef.shard db k ⟨⟨d'.table, none⟩, r'⟩),
          .delete (renameDelete db [RuledRef.rename db k ⟨⟨d'.table, none⟩, r'⟩] d')⟩ := by
  refine ⟨rfl, (h.shard k).1, (h.shard k).2.2, ?_⟩
  have hrenamer : (Renamer.mk db [RuledRef.rename db k ⟨⟨d.table, none⟩, r⟩] []).Alike
      ⟨db, [RuledRef.rename db k ⟨⟨d'.table, none⟩, r'⟩], []⟩ :=
    ⟨rfl, rfl, .cons (h.rename k) .nil⟩
  simp only [renameDelete_eq_mapNames]
  exact hrenamer.mapNames hd

end

theorem tableRefs_of_lowered {stmt stmt' : Statement} (h : stmt.lowered = stmt'.lowered) :
    stmt.tableRefs.map (·.mapTable TableName.lowered) =
      stmt'.tableRefs.map (·.mapTable TableName.lowered) := by
  cases stmt <;> cases stmt' <;> try cases h
  case select.select s s' =>
    have hrefs := congrArg Select.tableRefs (Statement.select.inj h)
    rwa [Select.tableRefs_mapNames, Select.tableRefs_mapNames] at hrefs
  case update.update u u' => exact congrArg ([·.table]) (Statement.update.inj h)
  case delete.delete d d' =>
    have htable : d.table.lowered = d'.table.lowered := congrArg Delete.table (Statement.delete.inj h)
    simp [Statement.tableRefs, TableRef.mapTable, htable]
  all_goals rfl

section

variable {σ : Type} {rules : RuleTable} {nextKey : String → Planner σ Int64} {db : String} {st : σ}
  {p p' : RuledRef} {ps ps' : List RuledRef}

theorem refusedByCase_of_stray {s : Select} {k : Nat} {q : RuledRef}
    (hrefs : ruledRefs rules db s.tableRefs = p :: ps)
    (h : List.Forall₂ (RuledRef.Alike db) (p :: ps) (p' :: ps')) (hstray : stray? db p ps k = some q)
    (htogether : stray? db p' ps' k = none) : RefusedByCase rules db (.select s)
      (.error (.unsupported (.splitJoin (p.shard db k) (q.shard db k)))) := by
  obtain ⟨hmem, hslice, happart, hnames⟩ := cased_of_stray h hstray htogether
  refine ⟨p, ?_, q, ?_, k, rfl, hslice, happart, hnames⟩
  · exact hrefs ▸ List.mem_cons_self
  · exact hrefs ▸ List.mem_cons_of_mem _ hmem

theorem planSelect_of_indexes (nextKey : String → Planner σ Int64) (st : σ) {s : Select}
    {ks : List Nat}
    (hrefs : ruledRefs rules db s.tableRefs = p :: ps)
    (hks : joinIndexes db s.condition p ps = .ok ks) :
    (∃ k ∈ ks, ∃ q, stray? db p ps k = some q ∧
      ((planSelect (.ofRules rules nextKey) s db).outcome st).1 =
        .error (.unsupported (.splitJoin (p.shard db k) (q.shard db k)))) ∨
    ∃ plan, (∀ k ∈ ks, stray? db p ps k = none) ∧
      ((planSelect (.ofRules rules nextKey) s db).outcome st).1 = .ok plan ∧
      Sends rules db (.select s) plan (joinEmissions db s p ps ks) := by
  rcases planSelect_joined nextKey st hrefs with
    ⟨e, he, -⟩ | ⟨js, k, q, hjs, hk, hq, hplan⟩ | ⟨js, merge, hjs, htogether, hplan⟩
  · cases hks.symm.trans he
  · cases hks.symm.trans hjs
    exact .inl ⟨k, hk, q, hq, congrArg Prod.fst hplan⟩
  · cases hks.symm.trans hjs
    exact .inr ⟨_, htogether, congrArg Prod.fst hplan, sends_joinEmissions hrefs hks htogether merge⟩

theorem planSelect_of_indexes_error {s : Select} {e : Error}
    (hrefs : ruledRefs rules db s.tableRefs = p :: ps)
    (he : joinIndexes db s.condition p ps = .error e) :
    ((planSelect (.ofRules rules nextKey) s db).outcome st).1 = .error e := by
  rcases planSelect_joined nextKey st hrefs with
    ⟨e', he', hplan⟩ | ⟨js, k, q, hjs, -⟩ | ⟨js, merge, hjs, -⟩
  · cases he.symm.trans he'
    exact congrArg Prod.fst hplan
  · cases he.symm.trans hjs
  · cases he.symm.trans hjs

theorem planSelect_alike {s s' : Select}
    (hs : (Statement.select s).lowered = (Statement.select s').lowered)
    (hrefs : ruledRefs rules db s.tableRefs = p :: ps)
    (hrefs' : ruledRefs rules db s'.tableRefs = p' :: ps')
    (h : List.Forall₂ (RuledRef.Alike db) (p :: ps) (p' :: ps')) :
    AlikeButForCase rules db (.select s) (.select s')
      ((planSelect (.ofRules rules nextKey) s db).outcome st).1
      ((planSelect (.ofRules rules nextKey) s' db).outcome st).1 := by
  have hcondition := congrArg Select.condition (Statement.select.inj hs)
  rcases joinIndexes_alike h hcondition with ⟨e, e', he, he'⟩ | ⟨ks, hks, hks'⟩
  · rw [planSelect_of_indexes_error hrefs he, planSelect_of_indexes_error hrefs' he']
    exact .inl (.refused e e')
  rcases planSelect_of_indexes nextKey st hrefs hks with
    ⟨k, hk, q, hq, hplan⟩ | ⟨plan, htogether, hplan, hsends⟩ <;>
  rcases planSelect_of_indexes nextKey st hrefs' hks' with
    ⟨k', hk', q', hq', hplan'⟩ | ⟨plan', htogether', hplan', hsends'⟩ <;>
  rw [hplan, hplan']
  · exact .inl (.refused _ _)
  · exact .inr (.inl ⟨refusedByCase_of_stray hrefs h hq (htogether' k hk), rfl⟩)
  · have hflip := (h.imp fun _ _ halike => halike.symm).flip
    exact .inr (.inr ⟨rfl, refusedByCase_of_stray hrefs' hflip hq' (htogether k' hk')⟩)
  · exact .inl (.split hsends hsends' (emissions_alike (joinEmission_alike hs h ks.length) ks))

/-- Two UPDATEs that set the key of a table in different letters both set it. -/
theorem planUpdate_alike {u u' : Update} {r r' : Rule}
    (hu : (Statement.update u).lowered = (Statement.update u').lowered)
    (hr : ruleOf? rules db u.table = some r) (hr' : ruleOf? rules db u'.table = some r')
    (h : RuledRef.Alike db ⟨u.table, r⟩ ⟨u'.table, r'⟩) :
    AnswersAlike rules db (.update u) (.update u')
      ((planUpdate (.ofRules rules nextKey) u db).outcome st).1
      ((planUpdate (.ofRules rules nextKey) u' db).outcome st).1 := by
  have hcondition := congrArg Update.condition (Statement.update.inj hu)
  have hassignments := congrArg Update.assignments (Statement.update.inj hu)
  have hreached := h.reached hcondition
  have hpairs : List.Forall₂ Eq (u.assignments.map (·.mapQualifiers Text.lower))
      (u'.assignments.map (·.mapQualifiers Text.lower)) := by
    rw [List.forall₂_eq_eq_eq]
    exact hassignments
  rw [List.forall₂_map_left_iff, List.forall₂_map_right_iff] at hpairs
  have hkeys := rel_find? hpairs fun a a' ha => h.isKey (congrArg Sql.Assignment.column ha)
  rw [planUpdate_outcome hr, planUpdate_outcome hr', hreached]
  generalize u.assignments.find? _ = found at hkeys ⊢
  generalize u'.assignments.find? _ = found' at hkeys ⊢
  cases hkeys with
  | some => exact .refused _ _
  | none =>
    refine .split (sends_updateEmissions hr ?_) (sends_updateEmissions hr' ?_)
      (emissions_alike (updateEmission_alike hu h) _)
    · exact fun k hk => Rule.hasShard_of_reached (hreached ▸ hk)
    · exact fun k hk => Rule.hasShard_of_reached hk

theorem planDelete_alike {d d' : Delete} {r r' : Rule}
    (hd : (Statement.delete d).lowered = (Statement.delete d').lowered)
    (hr : ruleOf? rules db ⟨d.table, none⟩ = some r)
    (hr' : ruleOf? rules db ⟨d'.table, none⟩ = some r')
    (h : RuledRef.Alike db ⟨⟨d.table, none⟩, r⟩ ⟨⟨d'.table, none⟩, r'⟩) :
    AnswersAlike rules db (.delete d) (.delete d')
      ((planDelete (.ofRules rules nextKey) d db).outcome st).1
      ((planDelete (.ofRules rules nextKey) d' db).outcome st).1 := by
  have hcondition := congrArg Delete.condition (Statement.delete.inj hd)
  have hreached := h.reached hcondition
  rw [planDelete_outcome hr, planDelete_outcome hr', hreached]
  refine .split (sends_deleteEmissions hr ?_) (sends_deleteEmissions hr' ?_)
    (emissions_alike (deleteEmission_alike hd h) _)
  · exact fun k hk => Rule.hasShard_of_reached (hreached ▸ hk)
  · exact fun k hk => Rule.hasShard_of_reached hk

end

theorem verb_of_lowered {stmt stmt' : Statement} (h : stmt.lowered = stmt'.lowered) :
    stmt.verb = stmt'.verb := by
  have hverb := congrArg Statement.verb h
  rwa [Statement.lowered, Statement.lowered, Statement.verb_mapNames, Statement.verb_mapNames] at hverb

/-- Two alike references by themselves, of which one is to a sharded table. -/
theorem exists_rules_of_alike {rules : RuleTable} {db : String} {t t' : TableRef}
    (h : List.Forall₂ (RuledRef.Alike db) (ruledRefs rules db [t]) (ruledRefs rules db [t']))
    (hne : ruledRefs rules db [t] ≠ []) : ∃ r r', ruleOf? rules db t = some r ∧
      ruleOf? rules db t' = some r' ∧ RuledRef.Alike db ⟨t, r⟩ ⟨t', r'⟩ := by
  obtain ⟨r, hr⟩ := exists_ruleOf?_of_ruledRefs hne
  rw [ruledRefs_singleton hr] at h
  have hne' : ruledRefs rules db [t'] ≠ [] := by
    intro hnil
    rw [hnil] at h
    cases h
  obtain ⟨r', hr'⟩ := exists_ruleOf?_of_ruledRefs hne'
  rw [ruledRefs_singleton hr'] at h
  exact ⟨r, r', hr, hr', (List.forall₂_cons.mp h).1⟩

/-- The letter case of names makes no difference to planning, with one exception. Two statements that
differ only in the case of the names of their databases and tables and of their qualifiers get like
answers, unless the one is planned and the other is refused for the shards of an index of two tables
that lie in databases whose names differ in case. -/
theorem answers_alike_of_lowered {σ : Type} (rules : RuleTable) (nextKey : String → Planner σ Int64)
    (config : Config) (stmt stmt' : Statement) (db sql sql' : String) (st : σ)
    (hverb : stmt.verb ∈ ["select", "update", "delete"]) (h : stmt.lowered = stmt'.lowered) :
    AlikeButForCase rules db stmt stmt'
      ((plan (.ofRules rules nextKey) config stmt db sql).outcome st).1
      ((plan (.ofRules rules nextKey) config stmt' db sql').outcome st).1 := by
  have halike := ruledRefs_alike rules db (tableRefs_of_lowered h)
  have hverb' : stmt'.verb ∈ ["select", "update", "delete"] := verb_of_lowered h ▸ hverb
  have hexplain : ∀ inner, (Statement.explain inner).verb ∉ ["select", "update", "delete"] := by
    intro inner
    simp [Statement.verb]
  cases hrefs : ruledRefs rules db stmt.tableRefs with
  | nil =>
    rw [hrefs, List.forall₂_nil_left_iff] at halike
    rw [plan_of_unruled hrefs fun inner hinner => hexplain inner (hinner ▸ hverb),
      plan_of_unruled halike fun inner hinner => hexplain inner (hinner ▸ hverb')]
    exact .inl (.unsplit config.defaultSlice sql sql' hrefs halike)
  | cons p ps =>
    obtain ⟨p', ps', hfirst, hothers, hrefs'⟩ := List.forall₂_cons_left_iff.mp (hrefs ▸ halike)
    have hne : ruledRefs rules db stmt.tableRefs ≠ [] := by simp [hrefs]
    have hne' : ruledRefs rules db stmt'.tableRefs ≠ [] := by simp [hrefs']
    rw [plan_of_ruledRefs hne, plan_of_ruledRefs hne']
    cases stmt with
    | select s =>
      cases stmt' with
      | select s' => exact planSelect_alike h hrefs hrefs' (.cons hfirst hothers)
      | _ => cases h
    | update u =>
      cases stmt' with
      | update u' =>
        obtain ⟨r, r', hr, hr', htables⟩ := exists_rules_of_alike halike hne
        exact .inl (planUpdate_alike h hr hr' htables)
      | _ => cases h
    | delete d =>
      cases stmt' with
      | delete d' =>
        obtain ⟨r, r', hr, hr', htables⟩ := exists_rules_of_alike halike hne
        exact .inl (planDelete_alike h hr hr' htables)
      | _ => cases h
    | insert i => cases hi : i.replace <;> simp [Statement.verb, hi] at hverb
    | explain inner => exact absurd rfl hne
    | other tokens => exact absurd rfl hne

def ordersInHalves : Rule := .new "shop" "orders" "id" 2

def linesInHalves : Rule := .new "shop" "lines" "oid" 2

/-- `SELECT * FROM orders JOIN shop.lines ON orders.id = lines.oid` with the names in some spelling. -/
def ordersJoiningLines (schema orders lines : String) : Statement :=
  .select {
    distinct := false
    items := [.star]
    sources := [⟨⟨none, orders⟩, none⟩]
    joins := [⟨.inner, ⟨⟨some schema, lines⟩, none⟩,
      some (.binary (.column ⟨some orders, "id"⟩) .equal (.column ⟨some lines, "oid"⟩))⟩]
    condition := none
    groupBy := []
    having := none
    orderBy := []
    limit := none
    forUpdate := false }

/-- The answer to `ordersJoiningLines` on the database `shop`. -/
def ordersJoiningLinesAnswer (schema orders lines : String) : Except Error Plan :=
  ((plan (.ofRules ⟨[ordersInHalves, linesInHalves]⟩ noKeys) .standard
    (ordersJoiningLines schema orders lines) "shop" "").outcome ()).1

theorem capital_orders_reach_the_same_shards :
    (ordersJoiningLines "shop" "orders" "lines").verb ∈ ["select", "update", "delete"] ∧
    (ordersJoiningLines "shop" "orders" "lines").lowered =
      (ordersJoiningLines "shop" "ORDERS" "Lines").lowered ∧
    AnswersAlike ⟨[ordersInHalves, linesInHalves]⟩ "shop" (ordersJoiningLines "shop" "orders" "lines")
      (ordersJoiningLines "shop" "ORDERS" "Lines") (ordersJoiningLinesAnswer "shop" "orders" "lines")
      (ordersJoiningLinesAnswer "shop" "ORDERS" "Lines") := by
  have hverb : (ordersJoiningLines "shop" "orders" "lines").verb ∈ ["select", "update", "delete"] := by
    decide
  have hlowered : (ordersJoiningLines "shop" "orders" "lines").lowered =
      (ordersJoiningLines "shop" "ORDERS" "Lines").lowered := by decide +kernel
  refine ⟨hverb, hlowered, ?_⟩
  rcases answers_alike_of_lowered ⟨[ordersInHalves, linesInHalves]⟩ noKeys .standard _ _ "shop" "" ""
    () hverb hlowered with halike | ⟨⟨_, _, _, _, _, hrefused, _⟩, _⟩ | ⟨_, _, _, _, _, _, hrefused, _⟩
  · exact halike
  · have hplanned : (ordersJoiningLinesAnswer "shop" "orders" "lines").isOk = true := rfl
    rw [ordersJoiningLinesAnswer, hrefused] at hplanned
    cases hplanned
  · have hplanned : (ordersJoiningLinesAnswer "shop" "ORDERS" "Lines").isOk = true := rfl
    rw [ordersJoiningLinesAnswer, hrefused] at hplanned
    cases hplanned

/-- Where the schema of the one table is spelled in capitals, the join is refused. -/
theorem capital_schema_refused :
    (ordersJoiningLines "shop" "orders" "lines").lowered =
      (ordersJoiningLines "SHOP" "orders" "lines").lowered ∧
    (ordersJoiningLinesAnswer "shop" "orders" "lines").map (·.routing.calls) = .ok
      [⟨"slice-0", "shop", "SELECT * FROM orders_0 JOIN shop.lines_0 ON orders_0.id = lines_0.oid"⟩,
        ⟨"slice-0", "shop", "SELECT * FROM orders_1 JOIN shop.lines_1 ON orders_1.id = lines_1.oid"⟩] ∧
    ordersJoiningLinesAnswer "SHOP" "orders" "lines" = .error (.unsupported
      (.splitJoin ⟨"slice-0", "shop", "orders_0", 0⟩ ⟨"slice-0", "SHOP", "lines_0", 0⟩)) :=
  ⟨by decide +kernel, rfl, rfl⟩

end ShardedSql.Planning
