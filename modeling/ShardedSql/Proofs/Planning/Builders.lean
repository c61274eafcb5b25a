import ShardedSql.Planning.Statement
import ShardedSql.Proofs.Planning.Steps

namespace ShardedSql.Planning

open Sql (Delete Insert Select Update)

theorem RoutingMap.mem_ofCalls_map {α : Type} {f : α → Call} {xs : List α} {c : Call} :
    c ∈ (RoutingMap.ofCalls (xs.map f)).calls ↔ ∃ x ∈ xs, f x = c :=
  (RoutingMap.perm_ofCalls _).mem_iff.trans List.mem_map

variable {σ : Type} {services : Services σ} {db : String} {st st' : σ} {p : Plan}

/-- How the plan of a SELECT was made: its tables were routed and their shards put together to
groups, each of which gets a call. -/
theorem planSelect_cases {s : Select} (h : (planSelect services s db).outcome st = (.ok p, st')) :
    ∃ (first : RoutedTable) (others : List RoutedTable) (groups : List ShardGroup) (st₁ : σ),
      (routeTables services s db).outcome st = (.ok (first :: others), st₁) ∧
      (colocate services first others).outcome st₁ = (.ok groups, st') ∧
      p = .select
        (.ofCalls (groups.map (groupCall (splitSelect s groups.length).1 db (first :: others))))
        (groups.foldl (fun m g => nameTables m (renamings (first :: others) g))
          (splitSelect s groups.length).2) := by
  unfold planSelect at h
  obtain ⟨tables, st₁, htables, h⟩ := Planner.outcome_bind_eq_ok.mp h
  cases tables with
  | nil => cases h
  | cons first others =>
    obtain ⟨groups, st₂, hgroups, h⟩ := Planner.outcome_bind_eq_ok.mp h
    cases h
    exact ⟨first, others, groups, st₁, htables, hgroups, rfl⟩

/-- How the plan of an INSERT was made: its rows were given their keys and placed. -/
theorem planInsert_cases {i : Insert} (h : (planInsert services i db).outcome st = (.ok p, st')) :
    ∃ (key : String) (st₁ : σ) (placed : List PlacedRow),
      services.shardKey (i.table.schema.getD db) i.table.name st = (some key, st₁) ∧
      ((InsertTarget.of i (i.table.schema.getD db) key).placeAll services i.columns.length i.rows
        1).outcome st₁ = (.ok placed, st') ∧
      p = .insert (.ofCalls ((groupRows placed).map
        (rowsCall i db (.of i (i.table.schema.getD db) key)))) (generatedId placed) := by
  unfold planInsert at h
  obtain ⟨key, st₁, hkey, h⟩ := Planner.outcome_bind_eq_ok.mp h
  rw [Planner.outcome_lift] at hkey
  cases key with
  | none => cases h
  | some key =>
    dsimp only at h
    split at h
    · cases h
    split at h
    · cases h
    obtain ⟨placed, st₂, hplaced, h⟩ := Planner.outcome_bind_eq_ok.mp h
    cases h
    obtain ⟨hsome, rfl⟩ := Prod.mk.inj hkey
    exact ⟨key, _, placed, Prod.ext (Except.ok.inj hsome) rfl, hplaced, rfl⟩

/-- How the plan of an UPDATE was made: its table was routed. -/
theorem planUpdate_cases {u : Update} (h : (planUpdate services u db).outcome st = (.ok p, st')) :
    ∃ t : RoutedTable,
      (RoutedTable.ofRef? services u.table db u.condition).outcome st = (.ok (some t), st') ∧
      p = .update (.ofCalls (t.shards.map (updateCall u db t.table))) := by
  unfold planUpdate at h
  obtain ⟨routed, st₁, hrouted, h⟩ := Planner.outcome_bind_eq_ok.mp h
  cases routed with
  | none => cases h
  | some t =>
    dsimp only at h
    split at h
    · cases h
    · cases h
      exact ⟨t, hrouted, rfl⟩

/-- How the plan of a DELETE was made: its table was routed. -/
theorem planDelete_cases {d : Delete} (h : (planDelete services d db).outcome st = (.ok p, st')) :
    ∃ t : RoutedTable,
      (RoutedTable.ofRef? services ⟨d.table, none⟩ db d.condition).outcome st = (.ok (some t), st') ∧
      p = .delete (.ofCalls (t.shards.map (deleteCall d db t.table))) := by
  unfold planDelete at h
  obtain ⟨routed, st₁, hrouted, h⟩ := Planner.outcome_bind_eq_ok.mp h
  cases routed with
  | none => cases h
  | some t =>
    cases h
    exact ⟨t, hrouted, rfl⟩

end ShardedSql.Planning
