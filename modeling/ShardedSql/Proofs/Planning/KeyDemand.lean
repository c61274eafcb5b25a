import Mathlib.Logic.Function.Iterate
import ShardedSql.Proofs.Execution.DryRun
import ShardedSql.Proofs.Planning.Emissions
import ShardedSql.Proofs.Planning.GeneratedKeys

namespace ShardedSql.Planning

open Routing (RuleTable)
open Sql (Expr Insert Statement)

variable {σ α β : Type}

/-- The state after a key of a scope was asked for. -/
def afterKey (nextKey : String → Planner σ Int64) (scope : String) (st : σ) : σ :=
  ((nextKey scope).outcome st).2

/-- That a step of planning does nothing to the state but ask for keys of a scope: for at most so many,
and for exactly so many unless it fails. -/
def Planner.Draws (nextKey : String → Planner σ Int64) (scope : String) (n : Nat)
    (x : Planner σ α) : Prop :=
  ∀ st, ∃ m ≤ n, (x.outcome st).2 = (afterKey nextKey scope)^[m] st ∧
    ((x.outcome st).1.isOk → m = n)

namespace Planner

variable {nextKey : String → Planner σ Int64} {scope : String} {m n : Nat} {x : Planner σ α}

theorem draws_of_still (h : ∀ st, (x.outcome st).2 = st) : Draws nextKey scope 0 x :=
  fun st => ⟨0, Nat.le_refl 0, h st, fun _ => rfl⟩

theorem draws_pure (a : α) : Draws nextKey scope 0 (pure a : Planner σ α) :=
  draws_of_still fun _ => rfl

theorem draws_liftExcept (result : Except Error α) :
    Draws nextKey scope 0 (liftExcept result : Planner σ α) := draws_of_still fun _ => rfl

theorem draws_throw (n : Nat) (e : Error) : Draws nextKey scope n (throw e : Planner σ α) :=
  fun _ => ⟨0, Nat.zero_le n, rfl, fun h => by cases h⟩

theorem draws_nextKey (nextKey : String → Planner σ Int64) (scope : String) :
    Draws nextKey scope 1 (nextKey scope) := fun _ => ⟨1, Nat.le_refl 1, rfl, fun _ => rfl⟩

/-- Steps ask for their keys one after the other. -/
theorem Draws.bind {f : α → Planner σ β} (hx : Draws nextKey scope m x)
    (hf : ∀ a, Draws nextKey scope n (f a)) : Draws nextKey scope (m + n) (x >>= f) := by
  intro st
  obtain ⟨i, hi, hstate, hall⟩ := hx st
  rw [outcome_bind]
  generalize x.outcome st = o at hstate hall
  obtain ⟨answer, st'⟩ := o
  obtain rfl : st' = _ := hstate
  cases answer with
  | error e => exact ⟨i, Nat.le_add_right_of_le hi, rfl, fun h => by cases h⟩
  | ok a =>
    obtain ⟨j, hj, hstate', hall'⟩ := hf a ((afterKey nextKey scope)^[i] st)
    refine ⟨j + i, by omega, ?_, fun h => ?_⟩
    · rw [Function.iterate_add_apply]
      exact hstate'
    · rw [hall rfl, hall' h, Nat.add_comm]

theorem Draws.adapt (h : Draws nextKey scope n x) (f : Error → Error) :
    @Draws σ α nextKey scope n (ExceptT.adapt f x) := by
  intro st
  obtain ⟨m, hm, hstate, hall⟩ := h st
  rw [outcome_adapt]
  refine ⟨m, hm, hstate, fun hok => hall ?_⟩
  cases hanswer : (x.outcome st).1 with
  | error e =>
    rw [hanswer] at hok
    cases hok
  | ok a => rfl

end Planner

open Planner

section

variable (rules : RuleTable) (nextKey : String → Planner σ Int64)

namespace InsertTarget

variable (t : InsertTarget)

theorem fill_draws (row : List Expr) :
    Draws nextKey (sequenceScope t.db t.table) (if t.lacksKey row then 1 else 0)
      (t.fill (.ofRules rules nextKey) row) := by
  by_cases hlacks : t.lacksKey row = true
  · rw [if_pos hlacks]
    unfold fill
    dsimp only
    rw [if_pos (lacksKey_iff.mp hlacks)]
    exact (draws_nextKey nextKey _).bind fun id => draws_pure _
  · rw [if_neg hlacks]
    unfold fill
    dsimp only
    rw [if_neg (mt lacksKey_iff.mpr hlacks)]
    split
    · exact draws_pure _
    · exact draws_throw 0 _

theorem place_draws (row : List Expr) (width number : Nat) :
    Draws nextKey (sequenceScope t.db t.table) (if t.lacksKey row then 1 else 0)
      (t.place (.ofRules rules nextKey) width row number) := by
  have hfill := t.fill_draws rules nextKey row
  generalize (if t.lacksKey row then 1 else 0) = n at hfill ⊢
  unfold place
  dsimp only
  split
  · exact draws_throw n _
  · refine hfill.bind (n := 0) fun filled => ?_
    refine (draws_liftExcept (rules.route t.db t.table (.values [filled.key]))).bind (n := 0)
      fun shards => ?_
    cases shards with
    | nil => exact draws_throw 0 _
    | cons shard others => exact draws_pure _

/-- Placing rows asks for a key for each row that lacks one. -/
theorem placeAll_draws (rows : List (List Expr)) (width number : Nat) :
    Draws nextKey (sequenceScope t.db t.table) (rows.countP t.lacksKey)
      (t.placeAll (.ofRules rules nextKey) width rows number) := by
  induction rows generalizing number with
  | nil => exact draws_pure _
  | cons row rows ih =>
    have hall := (t.place_draws rules nextKey row width number).bind fun p =>
      (ih (number + 1)).bind (n := 0) fun ps => draws_pure (p :: ps)
    rw [List.countP_cons, Nat.add_comm]
    exact hall

end InsertTarget

theorem planInsert_draws (i : Insert) (db : String) :
    Draws nextKey (sequenceScope (i.table.schema.getD db) i.table.name) (keylessRows rules db i)
      (planInsert (.ofRules rules nextKey) i db) := by
  unfold planInsert
  intro st
  rw [outcome_bind, Services.ofRules_shardKey, keylessRows]
  cases hkey : rules.shardKey (i.table.schema.getD db) i.table.name with
  | none => exact draws_throw _ _ st
  | some key =>
    dsimp only
    split
    · exact draws_throw _ _ st
    split
    · exact draws_throw _ _ st
    have hplaced := InsertTarget.placeAll_draws rules nextKey
      (.of i (i.table.schema.getD db) key) i.rows i.columns.length 1
    rw [InsertTarget.of_db, InsertTarget.of_table] at hplaced
    exact hplaced.bind (n := 0) (fun placed => draws_pure _) st

theorem planDirect_insert_draws (config : Config) (i : Insert) (db sql : String) :
    Draws nextKey (sequenceScope (i.table.schema.getD db) i.table.name) (keylessRows rules db i)
      (planDirect (.ofRules rules nextKey) config (.insert i) db sql) := by
  unfold planDirect
  rw [classify_insert, keylessRows]
  cases hkey : rules.shardKey (i.table.schema.getD db) i.table.name with
  | none => exact draws_pure (planUnshard config db sql)
  | some key =>
    have hinsert := planInsert_draws rules nextKey i db
    rw [keylessRows, hkey] at hinsert
    exact hinsert

end

/-- How many keys planning a statement, or the EXPLAIN of one, may ask for. -/
def keyDemand (rules : RuleTable) (db : String) : Statement → Nat
  | .insert i | .explain (.insert i) => keylessRows rules db i
  | _ => 0

/-- The scope of those keys. -/
def keyScope (db : String) : Statement → String
  | .insert i | .explain (.insert i) => sequenceScope (i.table.schema.getD db) i.table.name
  | _ => ""

section

variable (rules : RuleTable) (config : Config) (stmt : Statement) (db text : String)

/-- Only an INSERT needs keys. The plan of another statement is made without them, and leaves the state
alone. -/
theorem planDirect_settled (hinsert : ∀ i, stmt ≠ .insert i) : ∃ answer : Except Error Plan,
    ∀ (σ : Type) (nextKey : String → Planner σ Int64) (st : σ),
      (planDirect (.ofRules rules nextKey) config stmt db text).outcome st = (answer, st) := by
  by_cases hexplain : ∃ inner, stmt = .explain inner
  · obtain ⟨inner, rfl⟩ := hexplain
    exact ⟨.ok (planUnshard config db text), fun _ _ _ => rfl⟩
  have hstmt : ∀ inner, stmt ≠ .explain inner := not_exists.mp hexplain
  by_cases hnone : ruledRefs rules db stmt.tableRefs = []
  · refine ⟨.ok (planUnshard config db text), fun σ nextKey st => ?_⟩
    rw [← plan_of_not_explain _ config hstmt]
    exact plan_of_unruled hnone hstmt config text
  · cases stmt with
    | insert i => exact absurd rfl (hinsert i)
    | explain inner => exact absurd rfl (hstmt inner)
    | other tokens => exact absurd rfl hnone
    | select s =>
      obtain ⟨p, ps, hrefs⟩ := List.exists_cons_of_ne_nil hnone
      exact ⟨_, fun σ nextKey st =>
        (plan_of_ruledRefs hnone config text).trans (planSelect_ruled hrefs)⟩
    | update u =>
      obtain ⟨r, hr⟩ := exists_ruleOf?_of_ruledRefs hnone
      exact ⟨_, fun σ nextKey st =>
        (plan_of_ruledRefs hnone config text).trans (planUpdate_outcome hr)⟩
    | delete d =>
      obtain ⟨r, hr⟩ := exists_ruleOf?_of_ruledRefs hnone
      exact ⟨_, fun σ nextKey st =>
        (plan_of_ruledRefs hnone config text).trans (planDelete_outcome hr)⟩

theorem planExplain_settled (hinsert : ∀ i, stmt ≠ .insert i)
    (hexplain : ∀ inner, stmt ≠ .explain inner) :
    ∃ answer : Except Error Plan, ∀ (σ : Type) (nextKey : String → Planner σ Int64) (st : σ),
      (plan (.ofRules rules nextKey) config (.explain stmt) db text).outcome st = (answer, st) := by
  obtain ⟨answer, hanswer⟩ := planDirect_settled rules config stmt db stmt.sql hinsert
  cases answer with
  | error e =>
    refine ⟨.error (.explainBuild e), fun σ nextKey st => ?_⟩
    rw [outcome_explain hexplain, hanswer]
  | ok p =>
    refine ⟨.ok (.explain p.isSharded p.routing), fun σ nextKey st => ?_⟩
    rw [outcome_explain hexplain, hanswer]

theorem insertStatement_or_settled : (∃ explained i, stmt = insertStatement explained i) ∨
    keyDemand rules db stmt = 0 ∧ ∃ answer : Except Error Plan,
      ∀ (σ : Type) (nextKey : String → Planner σ Int64) (st : σ),
        (plan (.ofRules rules nextKey) config stmt db text).outcome st = (answer, st) := by
  cases stmt with
  | insert i => exact .inl ⟨false, i, rfl⟩
  | select s => exact .inr ⟨rfl, planDirect_settled rules config (.select s) db text (by simp)⟩
  | update u => exact .inr ⟨rfl, planDirect_settled rules config (.update u) db text (by simp)⟩
  | delete d => exact .inr ⟨rfl, planDirect_settled rules config (.delete d) db text (by simp)⟩
  | other ts => exact .inr ⟨rfl, planDirect_settled rules config (.other ts) db text (by simp)⟩
  | explain inner =>
    cases inner with
    | insert i => exact .inl ⟨true, i, rfl⟩
    | explain inner => exact .inr ⟨rfl, .error .nestedExplain, fun _ _ _ => rfl⟩
    | _ => exact .inr ⟨rfl, planExplain_settled rules config _ db text (by simp) (by simp)⟩

/-- Planning a statement does nothing to the state but ask for the keys of its INSERT. -/
theorem plan_draws (nextKey : String → Planner σ Int64) :
    Draws nextKey (keyScope db stmt) (keyDemand rules db stmt)
      (plan (.ofRules rules nextKey) config stmt db text) := by
  rcases insertStatement_or_settled rules config stmt db text with
    ⟨explained, i, rfl⟩ | ⟨hzero, answer, hanswer⟩
  · cases explained with
    | false => exact planDirect_insert_draws rules nextKey config i db text
    | true =>
      exact ((planDirect_insert_draws rules nextKey config i db _).adapt _).bind (n := 0)
        fun p => draws_pure _
  · rw [hzero]
    exact draws_of_still fun st => congrArg Prod.snd (hanswer σ nextKey st)

/-- A statement is planned alike wherever the keys that it asks for are alike. -/
theorem plan_agree {τ : Type} {R : σ → τ → Prop} (nextKey : String → Planner σ Int64)
    (nextKey' : String → Planner τ Int64) (h : keyDemand rules db stmt ≠ 0 →
      Agree R (nextKey (keyScope db stmt)) (nextKey' (keyScope db stmt))) :
    Agree R (plan (.ofRules rules nextKey) config stmt db text)
      (plan (.ofRules rules nextKey') config stmt db text) := by
  rcases insertStatement_or_settled rules config stmt db text with
    ⟨explained, i, rfl⟩ | ⟨-, answer, hanswer⟩
  · cases explained <;> exact plan_insertStatement_agree rules config _ i db text h
  · intro s t hst
    rw [hanswer σ nextKey s, hanswer τ nextKey' t]
    exact ⟨rfl, hst⟩

end

end ShardedSql.Planning
