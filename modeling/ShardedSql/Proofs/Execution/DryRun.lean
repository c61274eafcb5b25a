import ShardedSql.Proofs.Execution.Ending
import ShardedSql.Proofs.Planning.Builders
import ShardedSql.Proofs.Planning.InsertPartition

namespace ShardedSql

namespace Execution

open Planning (Call Plan)
open Result (ResultSet Value)

/-- A backend that answers every call at once, and never fails. -/
def prompt (answer : Call → ResultSet) (c : Call) : Reply := ⟨0, .ok (answer c)⟩

namespace FanOut

variable {slots : Nat} {limit : Option Interruption} {s : FanOut}

/-- While no call is running the next one starts, or there is none. -/
theorem next?_of_idle (hslots : 0 < slots) (hgoing : s.failure = none) (hidle : s.running = []) :
    s.next? slots limit = match s.waiting with
      | [] => none
      | j :: rest => some (s.start j rest) := by
  unfold next?
  rw [hgoing]
  cases s.waiting with
  | nil => simp [await?, hidle, earliest?]
  | cons j rest => simp [hidle, hslots]

/-- Calls that are all answered at once are all made, in their order. -/
theorem made_run_of_prompt (hslots : 0 < slots) (hgoing : s.failure = none)
    (hidle : s.running = [])
    (hprompt : ∀ j ∈ s.waiting, ∃ part, j.reply = ⟨0, .ok part⟩) :
    (s.run slots limit).made = s.made ++ s.waiting.map (·.call) := by
  fun_induction run slots limit s with
  | case1 s hnone =>
    rw [next?_of_idle hslots hgoing hidle] at hnone
    cases hwaiting : s.waiting with
    | nil => simp
    | cons j rest =>
      rw [hwaiting] at hnone
      cases hnone
  | case2 s s' hsome ih =>
    rw [next?_of_idle hslots hgoing hidle] at hsome
    cases hwaiting : s.waiting with
    | nil =>
      rw [hwaiting] at hsome
      cases hsome
    | cons j rest =>
      rw [hwaiting] at hsome hprompt
      cases hsome
      obtain ⟨part, hreply⟩ := hprompt j List.mem_cons_self
      have hstart : s.start j rest =
          { s with waiting := rest, made := s.made ++ [j.call], parts := s.parts ++ [(j.place, part)] } := by
        simp [start, hreply, settle]
      rw [hstart] at ih ⊢
      rw [ih hgoing hidle fun i hi => hprompt i (List.mem_cons_of_mem _ hi)]
      simp

end FanOut

/-- Against such a backend a plan makes all its calls, unless it is cancelled before it starts. -/
theorem calls_execute_prompt {config : Config} {r : Request} (hcancel : r.cancelAfter ≠ some 0)
    (answer : Call → ResultSet) {p : Plan} (h : ∀ sharded, p ≠ .explain sharded p.routing) :
    (execute config r (prompt answer) p).calls = p.routing.calls := by
  rw [execute_eq_andThen config r (prompt answer) h]
  change (runCalls config r (fun _ => prompt answer) p.routing.calls).calls = _
  rw [runCalls, dispatch, if_neg hcancel]
  change ((FanOut.initial _).run _ _).made = _
  rw [FanOut.made_run_of_prompt (slots_pos config) rfl rfl]
  · exact map_call_jobs _ _
  · intro j hj
    obtain ⟨i, hi, rfl⟩ := List.mem_mapIdx.mp hj
    exact ⟨_, rfl⟩

end Execution

namespace Planning

open Execution (Request calls_execute_prompt execute explainColumns prompt)
open Result (ResultSet Value)
open Routing (ordersById)
open Sql (Statement)

variable {σ : Type} {services : Services σ} {db : String} {st st' : σ} {p : Plan}

/-- Whether a plan is for shards, and not one that passes a statement on or explains it. -/
def Plan.isSplit : Plan → Bool
  | .unshard _ | .explain _ _ => false
  | _ => true

theorem planSelect_isSplit {s : Sql.Select}
    (h : (planSelect services s db).outcome st = (.ok p, st')) : p.isSplit = true := by
  obtain ⟨first, others, groups, st₁, -, -, rfl⟩ := planSelect_cases h
  rfl

theorem planInsert_isSplit {i : Sql.Insert}
    (h : (planInsert services i db).outcome st = (.ok p, st')) : p.isSplit = true := by
  obtain ⟨key, st₁, placed, -, -, rfl⟩ := planInsert_cases h
  rfl

theorem planUpdate_isSplit {u : Sql.Update}
    (h : (planUpdate services u db).outcome st = (.ok p, st')) : p.isSplit = true := by
  obtain ⟨t, -, rfl⟩ := planUpdate_cases h
  rfl

theorem planDelete_isSplit {d : Sql.Delete}
    (h : (planDelete services d db).outcome st = (.ok p, st')) : p.isSplit = true := by
  obtain ⟨t, -, rfl⟩ := planDelete_cases h
  rfl

/-- The text of a statement decides nothing about its plan. It is passed on as it is, or the plan is
for shards and made without it. -/
theorem planDirect_text (services : Services σ) (config : Config) (stmt : Statement) (db : String)
    (st : σ) :
    (∃ st', ∀ text, (planDirect services config stmt db text).outcome st =
      (.ok (planUnshard config db text), st')) ∨
    ∃ result st', (∀ text, (planDirect services config stmt db text).outcome st = (result, st')) ∧
      ∀ p, result = .ok p → p.isSplit = true := by
  have hdirect (text : String) : (planDirect services config stmt db text).outcome st = _ :=
    Planner.outcome_bind _ _ st
  simp only [Planner.outcome_lift] at hdirect
  generalize classify services stmt db st = answer at hdirect
  obtain ⟨c, st₁⟩ := answer
  have hsplit (x : Planner σ Plan) (hx : ∀ text, (planDirect services config stmt db text).outcome st
      = x.outcome st₁) (hkind : ∀ p st', x.outcome st₁ = (.ok p, st') → p.isSplit = true) :
      ∃ result st', (∀ text, (planDirect services config stmt db text).outcome st =
        (result, st')) ∧ ∀ p, result = .ok p → p.isSplit = true :=
    ⟨(x.outcome st₁).1, (x.outcome st₁).2, hx, fun p hp => hkind p _ (Prod.ext hp rfl)⟩
  cases c with
  | explain => exact .inl ⟨st₁, hdirect⟩
  | passThrough => exact .inl ⟨st₁, hdirect⟩
  | shardAware =>
    cases stmt with
    | select s => exact .inr (hsplit _ hdirect fun _ _ => planSelect_isSplit)
    | insert i => exact .inr (hsplit _ hdirect fun _ _ => planInsert_isSplit)
    | update u => exact .inr (hsplit _ hdirect fun _ _ => planUpdate_isSplit)
    | delete d => exact .inr (hsplit _ hdirect fun _ _ => planDelete_isSplit)
    | explain _ | other _ => exact .inl ⟨st₁, hdirect⟩

/-- How a call of the plan of a statement is shown: with what the plan is for, and with the canonical
text of the statement in the place of the one that is passed on. -/
def shownCall (stmt : Statement) (p : Plan) (c : Call) : List Value :=
  match p with
  | .unshard _ => [.text "unshard", .text c.slice, .text c.db, .text stmt.sql]
  | _ => [.text "shard", .text c.slice, .text c.db, .text c.sql]

/-- What explaining a statement comes to: its plan is made from its canonical text. -/
theorem outcome_explain {stmt : Statement} (hstmt : ∀ inner, stmt ≠ .explain inner) (config : Config)
    (text : String) : (plan services config (.explain stmt) db text).outcome st =
      match (planDirect services config stmt db stmt.sql).outcome st with
      | (.ok p, st') => (.ok (.explain p.isSharded p.routing), st')
      | (.error e, st') => (.error (.explainBuild e), st') := by
  have hexplain : plan services config (.explain stmt) db text =
      planExplain services config stmt db := by
    cases stmt with
    | explain inner => exact absurd rfl (hstmt inner)
    | _ => rfl
  have houtcome : (planExplain services config stmt db).outcome st = _ :=
    Planner.outcome_bind _ _ st
  rw [hexplain, houtcome, Planner.outcome_adapt]
  rcases (planDirect services config stmt db stmt.sql).outcome st with ⟨_ | p, st'⟩ <;> rfl

/-- EXPLAIN shows what execution sends. It fails exactly when the statement cannot be planned, for
the same reason. Otherwise it answers with the calls that are made for the statement, in their
order, and makes none itself. -/
theorem explain_shows_sent_calls (services : Services σ) (config : Config) (stmt : Statement)
    (db text explainText : String) (st : σ) (hstmt : ∀ inner, stmt ≠ .explain inner) :
    match (plan services config stmt db text).outcome st with
    | (.error e, st') => (plan services config (.explain stmt) db explainText).outcome st =
        (.error (.explainBuild e), st')
    | (.ok p, st') => ∃ shown,
        (plan services config (.explain stmt) db explainText).outcome st = (.ok shown, st') ∧
        ∀ (r r' : Request) (answer : Call → ResultSet) (backend : Call → Execution.Reply),
          r.cancelAfter ≠ some 0 → ∃ rows,
            execute config r' backend shown = ⟨[], 0, .ok (.ofRows explainColumns rows)⟩ ∧
            rows = (execute config r (prompt answer) p).calls.map (shownCall stmt p) ∧
            rows.length = p.size := by
  have hplan : plan services config stmt db text = planDirect services config stmt db text := by
    cases stmt with
    | explain inner => exact absurd rfl (hstmt inner)
    | _ => rfl
  rw [hplan, outcome_explain hstmt]
  rcases planDirect_text services config stmt db st with ⟨st', hpassed⟩ | ⟨result, st', hsame, hsplit⟩
  · rw [hpassed, hpassed]
    refine ⟨_, rfl, fun r r' answer backend hcancel => ⟨_, rfl, ?_, rfl⟩⟩
    rw [calls_execute_prompt hcancel answer (by simp [planUnshard])]
    rfl
  · rw [hsame, hsame]
    cases result with
    | error e => rfl
    | ok p =>
      have hp := hsplit p rfl
      have hexplain (sharded : Bool) : p ≠ .explain sharded p.routing := by
        intro he
        rw [he] at hp
        cases hp
      refine ⟨_, rfl, fun r r' answer backend hcancel => ⟨_, rfl, ?_⟩⟩
      rw [calls_execute_prompt hcancel answer hexplain, List.length_map]
      cases p with
      | unshard _ | explain _ _ => cases hp
      | select _ _ | update _ | delete _ | insert _ _ => exact ⟨rfl, rfl⟩

theorem plan_twoOrders :
    (plan (.ofRules ⟨[ordersById]⟩ countUp) .standard (.insert twoOrders) "shop" "").outcome 7 =
      (.ok (.insert ⟨twoOrdersCalls⟩ (some 7)), 8) :=
  planInsert_twoOrders

/-- The EXPLAIN of an INSERT uses up a new key, as the INSERT does, and shows it in its place. -/
theorem two_orders_are_explained :
    (∀ inner, Statement.insert twoOrders ≠ .explain inner) ∧ ∃ shown,
      (plan (.ofRules ⟨[ordersById]⟩ countUp) .standard (.explain (.insert twoOrders)) "shop"
        "").outcome 7 = (.ok shown, 8) ∧
      execute .standard ⟨none, none⟩ (prompt fun _ => .empty) shown = ⟨[], 0, .ok (.ofRows explainColumns
        [[.text "shard", .text "slice-0", .text "shop",
          .text "INSERT INTO orders_1 (id, name) VALUES (5, 'a')"],
        [.text "shard", .text "slice-0", .text "shop",
          .text "INSERT INTO orders_3 (id, name) VALUES (7, 'b')"]])⟩ := by
  have hstmt : ∀ inner, Statement.insert twoOrders ≠ .explain inner := by
    rintro inner ⟨⟩
  have hshows := explain_shows_sent_calls (.ofRules ⟨[ordersById]⟩ countUp) .standard
    (.insert twoOrders) "shop" "" "" 7 hstmt
  rw [plan_twoOrders] at hshows
  obtain ⟨shown, hplan, hrows⟩ := hshows
  obtain ⟨rows, hexecute, rfl, -⟩ := hrows ⟨none, none⟩ ⟨none, none⟩ (fun _ => .empty)
    (prompt fun _ => .empty) (by simp)
  rw [calls_execute_prompt (by simp) _ (by simp)] at hexecute
  exact ⟨hstmt, shown, hplan, hexecute⟩

end Planning

end ShardedSql
