import ShardedSql.Proofs.Sql.Items

namespace ShardedSql.Sql

open TokenParser
open Token (isPlainWord scan)

/-- The words that an UPDATE may have in front of its table, and that leave no trace. -/
def updateHints : List String := ["LOW_PRIORITY", "IGNORE"]

/-- What stands behind the first token of a table that SET follows is neither a name nor a hint. -/
theorem TableRef.second_token {t : TableRef} {ws : List Token} (hws : EndsAt [.word "SET"] ws)
    {u : Token} {us : List Token} (h : t.tokens ++ ws = u :: us) :
    ¬OpensName us ∧ ¬OpensWith "IGNORE" us := by
  have hcons : ∀ {v : Token} {vs : List Token}, v.name? = none → v.isKeyword "IGNORE" = false →
      ¬OpensName (v :: vs) ∧ ¬OpensWith "IGNORE" (v :: vs) := by
    intro v vs hname hword
    refine ⟨?_, ?_⟩
    · rintro ⟨_, ⟨⟩, n, hn⟩
      rw [hname] at hn
      cases hn
    · rw [opensWith_cons, hword]
      exact Bool.false_ne_true
  have hset : ¬OpensName ws ∧ ¬OpensWith "IGNORE" ws := by
    cases ws with
    | nil =>
      refine ⟨?_, not_opensWith_nil _⟩
      rintro ⟨_, ⟨⟩, -⟩
    | cons v vs =>
      rw [List.mem_singleton.mp (hws v rfl)]
      exact hcons (by decide) (by decide)
  obtain ⟨⟨_ | q, n⟩, _ | a⟩ := t <;> cases h
  · exact hset
  · exact hcons (by decide) (by decide)
  · exact hcons (by decide) (by decide)
  · exact hcons (by decide) (by decide)

/-- UPDATE and its table. -/
def updateTargetPhrase : Phrase TableRef where
  sql t := "UPDATE " ++ t.sql
  tokens t := .word "UPDATE" :: t.tokens
  normal := id
  Fit _ := True
  Readable t := ∀ hint ∈ updateHints, ¬OpensWith hint t.tokens

def Update.parseTarget : TokenParser TableRef := do
  needsWord "UPDATE"
  let _ ← takesWord "LOW_PRIORITY"
  let _ ← takesWord "IGNORE"
  TableRef.parse

theorem TableRef.tokens_ne_nil (t : TableRef) : t.tokens ≠ [] := by
  obtain ⟨⟨_ | q, n⟩, a⟩ := t <;> exact List.cons_ne_nil _ _

theorem updatedTable_faithful : tableRefPhrase.Faithful TableRef.parse [.word "SET"] := by
  have hnoAlias : NoAlias [.word "SET"] := by
    unfold NoAlias
    decide
  exact tableRef_faithful (by decide) hnoAlias

theorem updateTarget_faithful :
    updateTargetPhrase.Faithful Update.parseTarget [.word "SET"] := by
  have htable := updatedTable_faithful
  have hmarks : Marks "UPDATE ".toList [.word "UPDATE"] (needsWord "UPDATE") :=
    Marks.keyword (by decide : isPlainWord "UPDATE".toList = true) (by decide)
  have hall := htable.after hmarks
  have htext : ∀ (y : TableRef) (rest : List Char), (updateTargetPhrase.sql y).toList ++ rest =
      "UPDATE ".toList ++ ((tableRefPhrase.sql y).toList ++ rest) := by
    intro y rest
    simp [updateTargetPhrase, tableRefPhrase]
  refine ⟨fun _ _ => hall.spells trivial trivial, fun _ _ => hall.plain trivial trivial, ?_, ?_⟩
  · intro y ws _ hread hws
    have hlow := hread "LOW_PRIORITY" (by decide)
    have hignore := hread "IGNORE" (by decide)
    rw [← opensWith_append y.tokens_ne_nil ws] at hlow hignore
    unfold Update.parseTarget
    simp only [updateTargetPhrase, List.cons_append]
    rw [run_bind_of_ok (run_needsWord_cons (by decide)),
      run_bind_of_ok (run_takesWord_of_not_opens hlow),
      run_bind_of_ok (run_takesWord_of_not_opens hignore)]
    exact htable.reads trivial trivial hws
  · intro ts x mid hrun
    unfold Update.parseTarget at hrun
    obtain ⟨_, ts₁, hupdate, h₁⟩ := run_bind_eq_ok.mp hrun
    obtain ⟨t, -, rfl⟩ := run_needsWord_eq_ok.mp hupdate
    obtain ⟨low, ts₂, hlow, h₂⟩ := run_bind_eq_ok.mp h₁
    obtain ⟨ignore, ts₃, hignore, h₃⟩ := run_bind_eq_ok.mp h₂
    obtain ⟨u, hu, hname⟩ := TableRef.opensName h₃
    obtain ⟨u', hu', -, hecho⟩ := htable.sound h₃
    obtain rfl := List.append_cancel_right (hu'.symm.trans hu)
    subst hu
    -- the tokens of a printed table, behind the word UPDATE
    have hscanned : ∀ {y : TableRef} {rest : List Char} {v a : List Token},
        EndsTextAt [.word "SET"] rest →
        scan ((updateTargetPhrase.sql y).toList ++ rest) = .ok (t :: v ++ a) →
        t = .word "UPDATE" ∧ scan ((tableRefPhrase.sql y).toList ++ rest) = .ok (v ++ a) ∧
          ∃ ws, EndsAt [.word "SET"] ws ∧ v ++ a = y.tokens ++ ws := by
      intro y rest v a hrest hscan
      rw [htext] at hscan
      obtain ⟨ws, hws, heq⟩ := (hmarks.spells _).rest_of_ok hscan
      cases heq
      obtain ⟨ws, hws', heq⟩ := (htable.spells (y := y) trivial trivial hrest).rest_of_ok hws
      exact ⟨rfl, hws, ws, hrest.ends hws', heq⟩
    rcases run_takesWord_eq_ok.mp hlow with ⟨rfl, t₁, ht₁, rfl⟩ | ⟨rfl, hnotLow, rfl⟩
    · rcases run_takesWord_eq_ok.mp hignore with ⟨rfl, t₂, ht₂, rfl⟩ | ⟨rfl, -, rfl⟩
      · refine ⟨t :: t₁ :: t₂ :: u', rfl, fun _ => trivial, ?_⟩
        intro y rest a _ _ hrest _ hscan
        obtain ⟨-, -, ws, hws, heq⟩ := hscanned (v := t₁ :: t₂ :: u') hrest hscan
        exact absurd ((opensWith_cons _ _ _).mpr ht₂) (TableRef.second_token hws heq.symm).2
      · refine ⟨t :: t₁ :: u', rfl, fun _ => trivial, ?_⟩
        intro y rest a _ _ hrest _ hscan
        obtain ⟨-, -, ws, hws, heq⟩ := hscanned (v := t₁ :: u') hrest hscan
        exact absurd (hname a) (TableRef.second_token hws heq.symm).1
    · rcases run_takesWord_eq_ok.mp hignore with ⟨rfl, t₂, ht₂, rfl⟩ | ⟨rfl, hnotIgnore, rfl⟩
      · refine ⟨t :: t₂ :: u', rfl, fun _ => trivial, ?_⟩
        intro y rest a _ _ hrest _ hscan
        obtain ⟨-, -, ws, hws, heq⟩ := hscanned (v := t₂ :: u') hrest hscan
        exact absurd (hname a) (TableRef.second_token hws heq.symm).1
      · refine ⟨t :: u', rfl, fun _ => trivial, ?_⟩
        rintro y rest a - rfl hrest htame hscan
        obtain ⟨rfl, hscan', -⟩ := hscanned hrest hscan
        rw [htext] at htame
        obtain ⟨-, rfl, hend⟩ := hecho trivial rfl hrest htame.of_append hscan'
        have hne : tableRefPhrase.tokens y ≠ [] := y.tokens_ne_nil
        rw [opensWith_append hne] at hnotLow hnotIgnore
        refine ⟨?_, rfl, hend⟩
        intro hint hhint
        rcases List.mem_cons.mp hhint with rfl | hhint
        · exact hnotLow
        · rw [List.mem_singleton.mp hhint]
          exact hnotIgnore

/-- An UPDATE of several tables is refused. -/
theorem run_oneTable_eq_ok {α : Type} {p : TokenParser α} {ts mid : List Token} {x : α} :
    (do
      if (← seesSymbol .comma) || (← seesWord "JOIN") then fail (.unsupported .multiTableUpdate)
      p : TokenParser α).run ts = .ok (x, mid) ↔
      (ts.head? ≠ some (.symbol .comma) ∧ ¬OpensWith "JOIN" ts) ∧ p.run ts = .ok (x, mid) := by
  rw [run_seesSymbol_bind, run_seesWord_bind, run_unless_eq_ok]
  simp

theorem marks_set : Marks " SET ".toList [.word "SET"] (needsWord "SET") where
  spells _ := Spells.spaced (by decide : isPlainWord "SET".toList = true)
  plain := by simp
  reads _ := rfl
  sound := by
    intro ts _ mid hrun
    obtain ⟨t, -, rfl⟩ := run_needsWord_eq_ok.mp hrun
    exact ⟨[t], rfl, rfl⟩

/-- The condition of an UPDATE or a DELETE, and its limit. -/
def scopePhrase (k : Nat) : Phrase (Option Expr × Option UInt64) :=
  ((exprPhrase k).optional " WHERE " "WHERE").seq (unsignedPhrase.optional " LIMIT " "LIMIT")

theorem scope_opens (k : Nat) :
    (scopePhrase k).Opens [.word "WHERE", .word "LIMIT"] [] :=
  (Phrase.optional_opens where_keyword).seq (Phrase.optional_opens limit_keyword)

theorem scope_faithful (k : Nat) : (scopePhrase k).Faithful (do
    return (← after? "WHERE" (Expr.parse (k + 1)), ← after? "LIMIT" unsigned)) [] :=
  ((expr_faithful k (by decide)).optional where_keyword (by decide)).seq
    ((unsigned_faithful []).optional limit_keyword (by decide))
    (Phrase.optional_opens limit_keyword)

namespace Update

/-- An UPDATE with the names of its functions in capitals. -/
def normal (u : Update) : Update :=
  { u with
    assignments := u.assignments.map Assignment.normal
    condition := u.condition.map Expr.normal }

/-- An UPDATE of expressions that are read from scanned tokens. -/
structure Written (k : Nat) (u : Update) : Prop where
  nonempty : u.assignments ≠ []
  assignments : ∀ a ∈ u.assignments, a.value.Written k
  condition : ∀ e ∈ u.condition, e.Written k

/-- Whether an UPDATE is read again from its text: its expressions are, and its table does not
start with a name that is one of the hints. -/
structure Legible (u : Update) : Prop where
  table : ∀ hint ∈ updateHints, ¬OpensWith hint u.table.tokens
  assignments : ∀ a ∈ u.assignments, a.value.Legible
  condition : ∀ e ∈ u.condition, e.Legible

/-- An UPDATE as its parts. -/
def parts (u : Update) : TableRef × List Assignment × Option Expr × Option UInt64 :=
  (u.table, u.assignments, u.condition, u.limit)

end Update

/-- The parts of an UPDATE in their order. -/
def updateParts (k : Nat) : Phrase (TableRef × List Assignment × Option Expr × Option UInt64) :=
  updateTargetPhrase.seq (((assignmentPhrase k).list.after " SET " [.word "SET"]).seq (scopePhrase k))

def updatePhrase (k : Nat) : Phrase Update where
  sql := Update.sql
  tokens u := (updateParts k).tokens u.parts
  normal := Update.normal
  Fit := Update.Written k
  Readable := Update.Legible

theorem update_matches (k : Nat) : (updatePhrase k).Matches (updateParts k) Update.parts
    (fun u => ⟨u.1, u.2.1, u.2.2.1, u.2.2.2⟩) where
  sql := by
    intro u _
    have hparts : (updateParts k).sql u.parts = "UPDATE " ++ u.table.sql ++
        (" SET " ++ commaSeparated (u.assignments.map Assignment.sql) ++
          (sqlClause " WHERE " (u.condition.map Expr.sql) ++
            sqlClause " LIMIT " (u.limit.map sqlUnsigned))) := rfl
    rw [hparts, show (updatePhrase k).sql u = u.sql from rfl]
    delta Update.sql
    simp only [String.append_assoc]
  normal := by
    intro u
    simp [updatePhrase, updateParts, Update.parts, Update.normal, Phrase.seq, Phrase.after,
      Phrase.list, Phrase.optional, scopePhrase, updateTargetPhrase, assignmentPhrase, exprPhrase,
      unsignedPhrase]
  fit := by
    intro u
    constructor
    · intro h
      exact ⟨trivial, ⟨h.nonempty, h.assignments⟩, h.condition, fun _ _ => trivial⟩
    · rintro ⟨-, ⟨hne, hassignments⟩, hcondition, -⟩
      exact ⟨hne, hassignments, hcondition⟩
  readable := by
    intro u
    constructor
    · intro h
      exact ⟨h.table, h.assignments, h.condition, fun _ _ => trivial⟩
    · rintro ⟨htable, hassignments, hcondition, -⟩
      exact ⟨htable, hassignments, hcondition⟩

theorem Update.parse_eq (levels : Nat) : Update.parse levels = do
    let table ← Update.parseTarget
    if (← seesSymbol .comma) || (← seesWord "JOIN") then fail (.unsupported .multiTableUpdate)
    needsWord "SET"
    let assignments ← TokenParser.list (Assignment.parse levels)
    let condition ← after? "WHERE" (Expr.parse levels)
    let limit ← after? "LIMIT" unsigned
    return ⟨table, assignments, condition, limit⟩ := by
  unfold Update.parse Update.parseTarget
  simp only [then_assoc]

theorem update_faithful (k : Nat) : (updatePhrase k).Faithful (Update.parse (k + 1)) [] := by
  have hset := ((assignment_faithful k (T := [.symbol .comma, .word "WHERE", .word "LIMIT"])
    (by decide)).list (by decide)).after marks_set
  have hbehind := hset.seq (scope_faithful k) (scope_opens k)
  have hafter : ((assignmentPhrase k).list.after " SET " [.word "SET"]).Opens [.word "SET"]
      [.word "WHERE", .word "LIMIT"] := Phrase.after_opens marks_set fun _ => .space (by decide)
  have hopens := hafter.seq (scope_opens k)
  have hparts := (updateTarget_faithful.seq hbehind hopens).via (update_matches k)
  have hguarded : (updatePhrase k).Faithful (do
      let table ← Update.parseTarget
      if (← seesSymbol .comma) || (← seesWord "JOIN") then fail (.unsupported .multiTableUpdate)
      needsWord "SET"
      let assignments ← TokenParser.list (Assignment.parse (k + 1))
      let condition ← after? "WHERE" (Expr.parse (k + 1))
      let limit ← after? "LIMIT" unsigned
      return ⟨table, assignments, condition, limit⟩) [] := by
    apply hparts.guarded
    · intro ts mid x hrun
      simp only [then_assoc, pure_then]
      obtain ⟨table, ts₁, htable, h₁⟩ := run_bind_eq_ok.mp hrun
      rw [run_oneTable_eq_ok] at h₁
      exact (run_bind_of_ok htable).trans h₁.2
    · intro ts mid x _ hrun
      simp only [then_assoc, pure_then] at hrun
      obtain ⟨table, ts₁, htable, h₁⟩ := run_bind_eq_ok.mp hrun
      refine (run_bind_of_ok htable).trans (run_oneTable_eq_ok.mpr ⟨?_, h₁⟩)
      obtain ⟨_, ts₂, hset, -⟩ := run_bind_eq_ok.mp h₁
      obtain ⟨t, ht, rfl⟩ := run_needsWord_eq_ok.mp hset
      refine ⟨fun hcomma => ?_, not_opensWith_of_isKeyword ht (by decide) _⟩
      rw [Option.some.inj hcomma] at ht
      cases ht
  rw [Update.parse_eq]
  exact hguarded

namespace Delete

/-- A DELETE with the names of its functions in capitals. -/
def normal (d : Delete) : Delete := { d with condition := d.condition.map Expr.normal }

/-- A DELETE with a condition that is read from scanned tokens. -/
def Written (k : Nat) (d : Delete) : Prop := ∀ e ∈ d.condition, e.Written k

/-- Whether a DELETE is read again from its text: its condition is. -/
def Legible (d : Delete) : Prop := ∀ e ∈ d.condition, e.Legible

end Delete

/-- The parts of a DELETE in their order. -/
def deleteParts (k : Nat) : Phrase (TableName × Option Expr × Option UInt64) :=
  (tableNamePhrase.seq (scopePhrase k)).after "DELETE FROM " [.word "DELETE", .word "FROM"]

def deletePhrase (k : Nat) : Phrase Delete where
  sql := Delete.sql
  tokens d := (deleteParts k).tokens (d.table, d.condition, d.limit)
  normal := Delete.normal
  Fit := Delete.Written k
  Readable := Delete.Legible

theorem delete_matches (k : Nat) : (deletePhrase k).Matches (deleteParts k)
    (fun d => (d.table, d.condition, d.limit)) (fun d => ⟨d.1, d.2.1, d.2.2⟩) where
  sql := by
    intro d _
    have hparts : (deleteParts k).sql (d.table, d.condition, d.limit) = "DELETE FROM " ++
        (d.table.sql ++ (sqlClause " WHERE " (d.condition.map Expr.sql) ++
          sqlClause " LIMIT " (d.limit.map sqlUnsigned))) := rfl
    rw [hparts, show (deletePhrase k).sql d = d.sql from rfl]
    delta Delete.sql
    simp only [String.append_assoc]
  normal := by
    intro d
    simp [deletePhrase, deleteParts, Delete.normal, Phrase.seq, Phrase.after, Phrase.optional,
      scopePhrase, tableNamePhrase, exprPhrase, unsignedPhrase]
  fit := by
    intro d
    exact ⟨fun h => ⟨trivial, h, fun _ _ => trivial⟩, fun h => h.2.1⟩
  readable := by
    intro d
    exact ⟨fun h => ⟨trivial, h, fun _ _ => trivial⟩, fun h => h.2.1⟩

theorem delete_faithful (k : Nat) : (deletePhrase k).Faithful (Delete.parse (k + 1)) [] := by
  have hmarks : Marks "DELETE FROM ".toList [.word "DELETE", .word "FROM"] (do
      needsWord "DELETE"
      needsWord "FROM") :=
    (Marks.keyword (by decide : isPlainWord "DELETE".toList = true) (by decide)).append
      (Marks.keyword (by decide : isPlainWord "FROM".toList = true) (by decide))
  have hparts := (((tableName_faithful (T := [.word "WHERE", .word "LIMIT"]) (by decide)).seq
    (scope_faithful k) (scope_opens k)).after hmarks).via (delete_matches k)
  unfold Delete.parse
  simpa only [then_assoc, pure_then] using hparts

end ShardedSql.Sql
