import ShardedSql.Proofs.Planning.KeyDemand
import ShardedSql.Proofs.Sequence.Scopes

namespace ShardedSql.Planning

open Execution (Outcome Reply Request execute)
open Result (ResultSet)
open Routing (RuleTable ordersById)
open Sql (Statement)

/-- A statement as a client issues it, with the limits of the request and the backend that answers its
calls. -/
structure Issue where
  stmt : Statement
  db : String
  text : String
  request : Request
  backend : Call → Reply

/-- What an issued statement comes to: its plan with the calls and the result of it, or an error. -/
abbrev Answer := Except Error (Plan × Outcome ResultSet)

variable (rules : RuleTable) (config : Config)

/-- The answer to a statement, and the sequences after it. -/
def Issue.answer (q : Issue) (r : Registry) : Answer × Registry :=
  let planned := (plan (.ofRouter rules.router) config q.stmt q.db q.text).outcome r
  (planned.1.map fun p => (p, execute config q.request q.backend p), planned.2)

/-- The answers to statements that follow each other. -/
def answers (r : Registry) : List Issue → List Answer
  | [] => []
  | q :: qs => (q.answer rules config r).1 :: answers (q.answer rules config r).2 qs

variable {r r' : Registry} {scope : String}

theorem afterKey_registry (scope : String) :
    afterKey (fun scope => ExceptT.mk fun r => Registry.next r scope) scope = Registry.skip scope := rfl

theorem answer_ok {q : Issue} {p : Plan} {o : Outcome ResultSet}
    (h : (q.answer rules config r).1 = .ok (p, o)) :
    ((plan (.ofRouter rules.router) config q.stmt q.db q.text).outcome r).1 = .ok p ∧
      o = execute config q.request q.backend p := by
  unfold Issue.answer at h
  dsimp only at h
  cases hplanned : ((plan (.ofRouter rules.router) config q.stmt q.db q.text).outcome r).1 with
  | error e =>
    rw [hplanned] at h
    cases h
  | ok p' =>
    rw [hplanned] at h
    cases h
    exact ⟨rfl, rfl⟩

theorem answer_draws (q : Issue) (r : Registry) : ∃ n ≤ keyDemand rules q.db q.stmt,
    (q.answer rules config r).2 = (Registry.skip (keyScope q.db q.stmt))^[n] r ∧
      ((q.answer rules config r).1.isOk → n = keyDemand rules q.db q.stmt) := by
  have hdraws := plan_draws rules config q.stmt q.db q.text
    (fun scope => ExceptT.mk fun r => Registry.next r scope) r
  rw [afterKey_registry, ← Services.ofRouter_router] at hdraws
  obtain ⟨n, hn, hstate, hall⟩ := hdraws
  refine ⟨n, hn, hstate, fun hok => hall ?_⟩
  cases hanswer : (q.answer rules config r).1 with
  | error e =>
    rw [hanswer] at hok
    cases hok
  | ok a =>
    rw [(answer_ok rules config hanswer).1]
    rfl

/-- Registries that differ in one sequence stay so. A statement that does not ask for its keys is
answered alike. -/
theorem answer_sameBut (q : Issue) (h : r.SameBut scope r') :
    (q.answer rules config r).2.SameBut scope (q.answer rules config r').2 ∧
      (keyDemand rules q.db q.stmt = 0 ∨ keyScope q.db q.stmt ≠ scope →
        (q.answer rules config r).1 = (q.answer rules config r').1) := by
  by_cases hscope : keyDemand rules q.db q.stmt ≠ 0 ∧ keyScope q.db q.stmt = scope
  · obtain ⟨hdemand, rfl⟩ := hscope
    obtain ⟨n, -, hn, -⟩ := answer_draws rules config q r
    obtain ⟨m, -, hm, -⟩ := answer_draws rules config q r'
    rw [hn, hm]
    refine ⟨((Registry.SameBut.skips _ n r).symm.trans h).trans (.skips _ m r'), ?_⟩
    rintro (hzero | hne)
    · exact absurd hzero hdemand
    · exact absurd rfl hne
  · have hagree := plan_agree (R := Registry.SameBut scope) rules config q.stmt q.db q.text
      (fun scope => ExceptT.mk fun r => Registry.next r scope)
      (fun scope => ExceptT.mk fun r => Registry.next r scope)
      (fun hdemand r r' hsame => hsame.next fun hne => hscope ⟨hdemand, hne⟩) r r' h
    refine ⟨hagree.2, fun _ => ?_⟩
    simp only [Issue.answer, Services.ofRouter_router, hagree.1]

theorem answers_sameBut (qs : List Issue) (h : r.SameBut scope r') {i : Nat} {q : Issue}
    (hq : qs[i]? = some q) (hother : keyDemand rules q.db q.stmt = 0 ∨ keyScope q.db q.stmt ≠ scope) :
    (answers rules config r qs)[i]? = (answers rules config r' qs)[i]? := by
  induction qs generalizing r r' i with
  | nil => rfl
  | cons q' qs ih =>
    obtain ⟨hstate, hanswer⟩ := answer_sameBut rules config q' h
    cases i with
    | zero =>
      obtain rfl : q' = q := by simpa using hq
      simp only [answers, List.getElem?_cons_zero, hanswer hother]
    | succ i =>
      simp only [answers, List.getElem?_cons_succ]
      exact ih hstate (by simpa using hq)

/-- The EXPLAIN of a statement, issued as a text of its own. -/
def Issue.explain (text : String) (q : Issue) : Issue :=
  { q with stmt := .explain q.stmt, text := text }

theorem plan_explain_ok {σ : Type} {services : Services σ} {stmt : Statement} {db text : String}
    {st : σ} {p : Plan} (h : ((plan services config (.explain stmt) db text).outcome st).1 = .ok p) :
    ∃ sharded routing, p = .explain sharded routing := by
  by_cases hnested : ∃ inner, stmt = .explain inner
  · obtain ⟨inner, rfl⟩ := hnested
    cases h
  · rw [outcome_explain (not_exists.mp hnested)] at h
    generalize (planDirect services config stmt db stmt.sql).outcome st = planned at h
    rcases planned with ⟨_ | p, st'⟩ <;> cases h
    exact ⟨_, _, rfl⟩

/-- Explaining a statement moves the sequences as planning it does. -/
theorem state_explain {σ : Type} (services : Services σ) {stmt : Statement}
    (hstmt : ∀ inner, stmt ≠ .explain inner) (db text explainText : String) (st : σ) :
    ((plan services config (.explain stmt) db explainText).outcome st).2 =
      ((plan services config stmt db text).outcome st).2 := by
  have hexplain : ((plan services config (.explain stmt) db explainText).outcome st).2 =
      ((planDirect services config stmt db stmt.sql).outcome st).2 := by
    rw [outcome_explain hstmt]
    rcases (planDirect services config stmt db stmt.sql).outcome st with ⟨_ | p, st'⟩ <;> rfl
  rw [hexplain, plan_of_not_explain services config hstmt]
  rcases planDirect_text services config stmt db st with ⟨st', hpassed⟩ | ⟨result, st', hsame, -⟩
  · rw [hpassed, hpassed]
  · rw [hsame, hsame]

/-- The side effects of EXPLAIN. It makes no call, and does to the sequences what planning the statement
does: it asks for the keys of the rows of an INSERT that lack one, in the one scope of their table. A
later statement is answered as if the EXPLAIN had not been issued, unless it asks for keys of that scope
too. -/
theorem explain_takes_its_keys_only (q : Issue) (text : String) (r : Registry) :
    (∀ p o, ((q.explain text).answer rules config r).1 = .ok (p, o) → o.calls = []) ∧
    ((∀ inner, q.stmt ≠ .explain inner) →
      ((q.explain text).answer rules config r).2 = (q.answer rules config r).2) ∧
    (∃ n ≤ keyDemand rules q.db (.explain q.stmt), ((q.explain text).answer rules config r).2 =
        (Registry.skip (keyScope q.db (.explain q.stmt)))^[n] r ∧
      (((q.explain text).answer rules config r).1.isOk →
        n = keyDemand rules q.db (.explain q.stmt))) ∧
    ∀ (later : List Issue) (i : Nat) (q' : Issue), later[i]? = some q' →
      (keyDemand rules q.db (.explain q.stmt) = 0 ∨ keyDemand rules q'.db q'.stmt = 0 ∨
        keyScope q'.db q'.stmt ≠ keyScope q.db (.explain q.stmt)) →
      (answers rules config r (q.explain text :: later))[i + 1]? =
        (answers rules config r later)[i]? := by
  obtain ⟨n, hn, hstate, hall⟩ := answer_draws rules config (q.explain text) r
  refine ⟨?_, fun hstmt => ?_, ⟨n, hn, hstate, hall⟩, ?_⟩
  · intro p o hok
    obtain ⟨hplan, rfl⟩ := answer_ok rules config hok
    obtain ⟨sharded, routing, rfl⟩ := plan_explain_ok config hplan
    rfl
  · exact state_explain config _ hstmt q.db q.text text r
  · intro later i q' hq' hother
    rw [answers, List.getElem?_cons_succ, hstate]
    rcases hother with hzero | hother
    · have hnone : n = 0 := Nat.eq_zero_of_le_zero (hzero ▸ hn)
      rw [hnone, Function.iterate_zero, id]
    · exact answers_sameBut rules config later (Registry.SameBut.skips _ n r).symm hq' hother

/-- The calls that a statement is planned to make. -/
def plannedCalls (a : Answer) : Option (List Call) := a.toOption.map (·.1.routing.calls)

/-- `INSERT INTO orders (name) VALUES ('name')` on the database `shop`. -/
def orderIssue (name : String) : Issue :=
  ⟨.insert (insertOrder "orders" name), "shop", (insertOrder "orders" name).sql, ⟨none, none⟩,
    Execution.prompt fun _ => .empty⟩

/-- Behind an explained order the next one gets the second key, and lies on another shard. -/
theorem explained_order_takes_a_key :
    (answers ⟨[ordersById]⟩ .standard ⟨[], countFromOne⟩ [orderIssue "b"]).map plannedCalls =
      [some [⟨"slice-0", "shop", "INSERT INTO orders_1 (name, id) VALUES ('b', 1)"⟩]] ∧
    (answers ⟨[ordersById]⟩ .standard ⟨[], countFromOne⟩
      [(orderIssue "a").explain "EXPLAIN INSERT INTO orders (name) VALUES ('a')",
        orderIssue "b"]).map plannedCalls =
      [some [⟨"slice-0", "shop", "INSERT INTO orders_1 (name, id) VALUES ('a', 1)"⟩],
        some [⟨"slice-0", "shop", "INSERT INTO orders_2 (name, id) VALUES ('b', 2)"⟩]] ∧
    (((orderIssue "a").explain "EXPLAIN INSERT INTO orders (name) VALUES ('a')").answer
      ⟨[ordersById]⟩ .standard ⟨[], countFromOne⟩).2 ≠ ⟨[], countFromOne⟩ :=
  ⟨rfl, rfl, by decide +kernel⟩

end ShardedSql.Planning
