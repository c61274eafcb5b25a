import ShardedSql.Planning.Statement
import ShardedSql.Proofs.Planning.InsertPartition

namespace ShardedSql.Planning

open Routing (RuleTable)
open Sql (Insert Statement)

variable {σ τ α β : Type}

/-- Whether two steps of planning answer alike and lead from related states to related states. -/
def Planner.Agree (R : σ → τ → Prop) (x : Planner σ α) (y : Planner τ α) : Prop :=
  ∀ s t, R s t → (x.outcome s).1 = (y.outcome t).1 ∧ R (x.outcome s).2 (y.outcome t).2

namespace Planner

variable {R : σ → τ → Prop}

theorem agree_pure (a : α) : Agree R (pure a) (pure a) := fun _ _ h => ⟨rfl, h⟩

theorem agree_throw (e : Error) : Agree R (throw e : Planner σ α) (throw e) := fun _ _ h => ⟨rfl, h⟩

theorem agree_liftExcept (result : Except Error α) :
    Agree R (liftExcept result) (liftExcept result) := fun _ _ h => ⟨rfl, h⟩

theorem Agree.outcome {x : Planner σ α} {y : Planner τ α} (hx : Agree R x y) {s : σ} {t : τ}
    (h : R s t) : ∃ answer s' t', x.outcome s = (answer, s') ∧ y.outcome t = (answer, t') ∧
      R s' t' :=
  ⟨_, _, _, rfl, Prod.ext (hx s t h).1.symm rfl, (hx s t h).2⟩

/-- Steps agree one after the other. -/
theorem Agree.bind {x : Planner σ α} {y : Planner τ α} {f : α → Planner σ β} {g : α → Planner τ β}
    (hx : Agree R x y) (hf : ∀ a, Agree R (f a) (g a)) : Agree R (x >>= f) (y >>= g) := by
  intro s t h
  obtain ⟨answer, s', t', hs, ht, hstate⟩ := hx.outcome h
  rw [outcome_bind, outcome_bind, hs, ht]
  cases answer with
  | error e => exact ⟨rfl, hstate⟩
  | ok a => exact hf a s' t' hstate

theorem Agree.adapt {x : Planner σ α} {y : Planner τ α} (h : Agree R x y) (f : Error → Error) :
    @Agree σ τ α R (ExceptT.adapt f x) (ExceptT.adapt f y) := by
  intro s t hst
  rw [outcome_adapt, outcome_adapt, (h s t hst).1]
  exact ⟨rfl, (h s t hst).2⟩

end Planner

section Insert

open Planner

/-- How many rows of an INSERT into a sharded table have no key of their own. -/
def keylessRows (rules : RuleTable) (db : String) (i : Insert) : Nat :=
  match rules.shardKey (i.table.schema.getD db) i.table.name with
  | none => 0
  | some key => i.rows.countP (InsertTarget.of i (i.table.schema.getD db) key).lacksKey

variable {R : σ → τ → Prop} (rules : RuleTable) {nextKey : String → Planner σ Int64}
  {nextKey' : String → Planner τ Int64}

namespace InsertTarget

variable (t : InsertTarget)

theorem fill_agree {row : List Sql.Expr} (h : t.lacksKey row = true →
    Agree R (nextKey (sequenceScope t.db t.table)) (nextKey' (sequenceScope t.db t.table))) :
    Agree R (t.fill (.ofRules rules nextKey) row) (t.fill (.ofRules rules nextKey') row) := by
  unfold fill
  dsimp only
  split
  · next hlacks => exact (h (lacksKey_iff.mpr hlacks)).bind fun id => agree_pure _
  · split
    · exact agree_pure _
    · exact agree_throw _

theorem place_agree {row : List Sql.Expr} (h : t.lacksKey row = true →
    Agree R (nextKey (sequenceScope t.db t.table)) (nextKey' (sequenceScope t.db t.table)))
    (width number : Nat) :
    Agree R (t.place (.ofRules rules nextKey) width row number)
      (t.place (.ofRules rules nextKey') width row number) := by
  unfold place
  dsimp only
  split
  · exact agree_throw _
  · refine (t.fill_agree rules h).bind fun filled => ?_
    refine (agree_liftExcept (rules.route t.db t.table (.values [filled.key]))).bind fun shards => ?_
    cases shards with
    | nil => exact agree_throw _
    | cons shard others => exact agree_pure _

/-- Rows are placed alike if those of them that lack a key get it alike. -/
theorem placeAll_agree {rows : List (List Sql.Expr)} (h : rows.countP t.lacksKey ≠ 0 →
    Agree R (nextKey (sequenceScope t.db t.table)) (nextKey' (sequenceScope t.db t.table)))
    (width number : Nat) :
    Agree R (t.placeAll (.ofRules rules nextKey) width rows number)
      (t.placeAll (.ofRules rules nextKey') width rows number) := by
  induction rows generalizing number with
  | nil => exact agree_pure _
  | cons row rows ih =>
    refine (t.place_agree rules (fun hlacks => h ?_) width number).bind fun p =>
      (ih (fun hrest => h ?_) (number + 1)).bind fun ps => agree_pure _
    · rw [List.countP_cons_of_pos hlacks]
      exact Nat.succ_ne_zero _
    · exact fun hzero => hrest (Nat.eq_zero_of_le_zero (hzero ▸ (List.sublist_cons_self ..).countP_le))

end InsertTarget

theorem planInsert_agree (i : Insert) (db : String) (h : keylessRows rules db i ≠ 0 →
    Agree R (nextKey (sequenceScope (i.table.schema.getD db) i.table.name))
      (nextKey' (sequenceScope (i.table.schema.getD db) i.table.name))) :
    Agree R (planInsert (.ofRules rules nextKey) i db) (planInsert (.ofRules rules nextKey') i db) := by
  unfold planInsert
  intro s t hst
  rw [outcome_bind, outcome_bind, Services.ofRules_shardKey, Services.ofRules_shardKey]
  cases hkey : rules.shardKey (i.table.schema.getD db) i.table.name with
  | none => exact agree_throw _ s t hst
  | some key =>
    dsimp only
    split
    · exact agree_throw _ s t hst
    split
    · exact agree_throw _ s t hst
    refine Agree.bind (InsertTarget.placeAll_agree rules _ (fun hrows => ?_) _ _)
      (fun placed => agree_pure _) s t hst
    rw [InsertTarget.of_db, InsertTarget.of_table]
    exact h (by rwa [keylessRows, hkey])

theorem classify_insert (nextKey : String → Planner σ Int64) (i : Insert) (db : String) :
    classify (.ofRules rules nextKey) (.insert i) db =
      pure (if (rules.shardKey (i.table.schema.getD db) i.table.name).isSome then .shardAware
        else .passThrough) := by
  have hsharded : isShardedTable (.ofRules rules nextKey) db i.table =
      pure (rules.shardKey (i.table.schema.getD db) i.table.name).isSome := rfl
  simp only [classify, referencedTables, List.anyM, hsharded]
  cases (rules.shardKey (i.table.schema.getD db) i.table.name).isSome <;> rfl

theorem planDirect_insert_agree (config : Config) (i : Insert) (db sql : String)
    (h : keylessRows rules db i ≠ 0 →
      Agree R (nextKey (sequenceScope (i.table.schema.getD db) i.table.name))
        (nextKey' (sequenceScope (i.table.schema.getD db) i.table.name))) :
    Agree R (planDirect (.ofRules rules nextKey) config (.insert i) db sql)
      (planDirect (.ofRules rules nextKey') config (.insert i) db sql) := by
  unfold planDirect
  rw [classify_insert, classify_insert]
  refine (agree_liftExcept (.ok (if (rules.shardKey (i.table.schema.getD db) i.table.name).isSome
    then StatementClass.shardAware else .passThrough))).bind fun c => ?_
  cases c with
  | shardAware => exact planInsert_agree rules i db h
  | passThrough => exact agree_pure _
  | explain => exact agree_pure _

end Insert

end ShardedSql.Planning
