import ShardedSql.Proofs.Planning.Issued

namespace ShardedSql.Planning

open Routing (Rule RuleTable)
open Sql (Delete Select Statement TableName TableRef Update)

section

variable {σ : Type} {rules : RuleTable} {nextKey : String → Planner σ Int64} {db : String}

theorem anyM_isShardedTable (refs : List TableRef) :
    (refs.map (·.table)).anyM (isShardedTable (.ofRules rules nextKey) db) =
      pure !(ruledRefs rules db refs).isEmpty := by
  induction refs with
  | nil => rfl
  | cons ref refs ih =>
    have hsharded : isShardedTable (.ofRules rules nextKey) db ref.table =
        pure (ruleOf? rules db ref).isSome := by
      change (pure (rules.shardKey _ _).isSome : StateM σ Bool) = _
      rw [RuleTable.shardKey, Option.isSome_map]
      rfl
    rw [List.map_cons, List.anyM, hsharded, pure_bind]
    cases hr : ruleOf? rules db ref with
    | none =>
      rw [ruledRefs_cons_of_unsharded hr]
      exact ih
    | some r =>
      rw [ruledRefs_cons_of_rule hr]
      rfl

/-- A statement is split by shards exactly if it refers to a sharded table. -/
theorem classify_ofRules {stmt : Statement} (h : ∀ inner, stmt ≠ .explain inner) :
    classify (.ofRules rules nextKey) stmt db =
      pure (if (ruledRefs rules db stmt.tableRefs).isEmpty then .passThrough else .shardAware) := by
  have hclass : ∀ refs, referencedTables stmt = refs.map TableRef.table →
      classify (.ofRules rules nextKey) stmt db =
        pure (if (ruledRefs rules db refs).isEmpty then .passThrough else .shardAware) := by
    intro refs hrefs
    have hany : classify (.ofRules rules nextKey) stmt db = (do
        if ← (referencedTables stmt).anyM (isShardedTable (.ofRules rules nextKey) db) then
          return .shardAware
        else return .passThrough) := by
      cases stmt with
      | explain inner => exact absurd rfl (h inner)
      | _ => rfl
    rw [hany, hrefs, anyM_isShardedTable, pure_bind]
    cases (ruledRefs rules db refs).isEmpty <;> rfl
  cases stmt with
  | explain inner => exact absurd rfl (h inner)
  | _ => exact hclass _ rfl

variable {stmt : Statement} {st : σ}

theorem plan_of_ruledRefs (h : ruledRefs rules db stmt.tableRefs ≠ []) (config : Config)
    (sql : String) : (plan (.ofRules rules nextKey) config stmt db sql).outcome st =
      (planSharded (.ofRules rules nextKey) config stmt db sql).outcome st := by
  have hstmt : ∀ inner, stmt ≠ .explain inner := by
    rintro inner rfl
    exact h rfl
  apply plan_of_shardAware
  rw [classify_ofRules hstmt, if_neg (by simpa using h)]
  rfl

/-- A statement without a sharded table is sent on as it is. -/
theorem plan_of_unruled (h : ruledRefs rules db stmt.tableRefs = [])
    (hstmt : ∀ inner, stmt ≠ .explain inner) (config : Config) (sql : String) :
    (plan (.ofRules rules nextKey) config stmt db sql).outcome st =
      (.ok (planUnshard config db sql), st) := by
  rw [plan_of_not_explain _ config hstmt]
  unfold planDirect
  rw [classify_ofRules hstmt, h]
  rfl

end

/-- A call, the index of the shards that it is for, and the statement that it sends. -/
structure Emission where
  index : Nat
  call : Call
  phys : Statement
  deriving DecidableEq, Repr

/-- That a plan makes these calls, each for the shards of its index and with the text of its
statement. -/
structure Sends (rules : RuleTable) (db : String) (stmt : Statement) (p : Plan)
    (es : List Emission) : Prop where
  routing : p.routing = .ofCalls (es.map (·.call))
  printed : ∀ e ∈ es, e.call.sql = e.phys.sql
  onShards : ∀ e ∈ es, OnShards rules db e.index stmt e.call e.phys

/-- The calls of a join, one for each index. -/
def joinEmissions (db : String) (s : Select) (p : RuledRef) (ps : List RuledRef) (ks : List Nat) :
    List Emission :=
  ks.map fun k => ⟨k, joinCall db s p ps ks.length k, .select (shardSelect db s (p :: ps) ks.length k)⟩

section

variable {rules : RuleTable} {db : String} {s : Select} {p : RuledRef} {ps : List RuledRef}
  {ks : List Nat}

theorem index_joinEmissions : (joinEmissions db s p ps ks).map (·.index) = ks := by
  rw [joinEmissions, List.map_map]
  exact List.map_id ks

theorem sends_joinEmissions (hrefs : ruledRefs rules db s.tableRefs = p :: ps)
    (hks : joinIndexes db s.condition p ps = .ok ks) (htogether : ∀ k ∈ ks, stray? db p ps k = none)
    (merge : Result.SelectMerge) :
    Sends rules db (.select s) (.select (.ofCalls (ks.map (joinCall db s p ps ks.length))) merge)
      (joinEmissions db s p ps ks) where
  routing := by
    rw [joinEmissions, List.map_map]
    rfl
  printed e he := by
    obtain ⟨k, hk, rfl⟩ := List.mem_map.mp he
    rfl
  onShards e he := by
    obtain ⟨k, hk, rfl⟩ := List.mem_map.mp he
    exact onShards_joinCall hrefs (hasShard_of_joinIndexes hks hk) (htogether k hk)

end

/-- The calls of an UPDATE of a sharded table, one for each index. -/
def updateEmissions (db : String) (u : Update) (r : Rule) (ks : List Nat) : List Emission :=
  ks.map fun k => ⟨k, updateCall u db (.ofRef u.table db r) (RuledRef.shard db k ⟨u.table, r⟩),
    .update (renameUpdate db [RuledRef.rename db k ⟨u.table, r⟩] u)⟩

/-- The calls of a DELETE on a sharded table, one for each index. -/
def deleteEmissions (db : String) (d : Delete) (r : Rule) (ks : List Nat) : List Emission :=
  ks.map fun k => ⟨k, deleteCall d db (.ofRef ⟨d.table, none⟩ db r)
    (RuledRef.shard db k ⟨⟨d.table, none⟩, r⟩),
    .delete (renameDelete db [RuledRef.rename db k ⟨⟨d.table, none⟩, r⟩] d)⟩

section

variable {σ : Type} {rules : RuleTable} {nextKey : String → Planner σ Int64} {db : String} {u : Update}
  {d : Delete} {r : Rule} {ks : List Nat} {st : σ}

theorem index_updateEmissions : (updateEmissions db u r ks).map (·.index) = ks := by
  rw [updateEmissions, List.map_map]
  exact List.map_id ks

theorem index_deleteEmissions : (deleteEmissions db d r ks).map (·.index) = ks := by
  rw [deleteEmissions, List.map_map]
  exact List.map_id ks

theorem sends_updateEmissions (hr : ruleOf? rules db u.table = some r)
    (hks : ∀ k ∈ ks, r.HasShard k) : Sends rules db (.update u)
      (.update (.ofCalls ((updateEmissions db u r ks).map (·.call)))) (updateEmissions db u r ks) where
  routing := rfl
  printed e he := by
    obtain ⟨k, hk, rfl⟩ := List.mem_map.mp he
    rfl
  onShards e he := by
    obtain ⟨k, hk, rfl⟩ := List.mem_map.mp he
    exact onShards_updateCall (ruledRefs_singleton hr) (hks k hk)

theorem sends_deleteEmissions (hr : ruleOf? rules db ⟨d.table, none⟩ = some r)
    (hks : ∀ k ∈ ks, r.HasShard k) : Sends rules db (.delete d)
      (.delete (.ofCalls ((deleteEmissions db d r ks).map (·.call)))) (deleteEmissions db d r ks) where
  routing := rfl
  printed e he := by
    obtain ⟨k, hk, rfl⟩ := List.mem_map.mp he
    rfl
  onShards e he := by
    obtain ⟨k, hk, rfl⟩ := List.mem_map.mp he
    exact onShards_deleteCall (ruledRefs_singleton hr) (hks k hk)

theorem planUpdate_outcome (hr : ruleOf? rules db u.table = some r) :
    (planUpdate (.ofRules rules nextKey) u db).outcome st =
      (match u.assignments.find? fun a => (ShardedTable.ofRef u.table db r).isKey a.column with
        | some a => .error (.keyUpdate a.column.name)
        | none => .ok (.update (.ofCalls ((updateEmissions db u r
            (RuledRef.reached db u.condition ⟨u.table, r⟩)).map (·.call)))), st) := by
  unfold planUpdate
  rw [Planner.outcome_bind_of_ok (ofRef?_of_find nextKey hr u.condition st)]
  dsimp only
  cases u.assignments.find? fun a => (ShardedTable.ofRef u.table db r).isKey a.column with
  | some a => rfl
  | none =>
    rw [updateEmissions, List.map_map, List.map_map]
    rfl

theorem planDelete_outcome (hr : ruleOf? rules db ⟨d.table, none⟩ = some r) :
    (planDelete (.ofRules rules nextKey) d db).outcome st =
      (.ok (.delete (.ofCalls ((deleteEmissions db d r
        (RuledRef.reached db d.condition ⟨⟨d.table, none⟩, r⟩)).map (·.call)))), st) := by
  unfold planDelete
  rw [Planner.outcome_bind_of_ok (ofRef?_of_find nextKey hr d.condition st)]
  dsimp only
  rw [deleteEmissions, List.map_map, List.map_map]
  rfl

end

end ShardedSql.Planning
