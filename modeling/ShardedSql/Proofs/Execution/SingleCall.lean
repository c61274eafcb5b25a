import ShardedSql.Execution.Execute

namespace ShardedSql.Execution

open Planning (Call)
open Result (ResultSet)

namespace FanOut

variable {slots : Nat} {limit : Option Interruption} {s s' : FanOut}

theorem run_of_next? (h : s.next? slots limit = some s') :
    s.run slots limit = s'.run slots limit := by
  rw [run]
  split
  · next hnone =>
    rw [hnone] at h
    cases h
  · next s'' hsome =>
    rw [hsome] at h
    cases h
    rfl

theorem run_of_next?_eq_none (h : s.next? slots limit = none) : s.run slots limit = s := by
  rw [run]
  split
  · rfl
  · next s'' hsome =>
    rw [hsome] at h
    cases h

/-- The fan-out that has one answer, when no other call is to come. -/
def answeredBy (call : Call) (place : Nat) (reply : Reply) : FanOut :=
  settle ⟨reply.delay, [], [], [], [call], none⟩ place reply.result

theorem next?_answeredBy (call : Call) (place : Nat) (reply : Reply) :
    (answeredBy call place reply).next? slots none = none := by
  unfold answeredBy
  cases reply.result <;> rfl

/-- A call that nothing interrupts is made and answered. -/
theorem run_single (hslots : 0 < slots) (j : Job) :
    (initial [j]).run slots none = answeredBy j.call j.place j.reply := by
  have hstart : (initial [j]).next? slots none = some ((initial [j]).start j []) := if_pos hslots
  rw [run_of_next? hstart]
  by_cases hdelay : j.reply.delay = 0
  · have hanswered : (initial [j]).start j [] = answeredBy j.call j.place j.reply := by
      unfold start answeredBy
      rw [if_pos hdelay, hdelay]
      rfl
    rw [hanswered, run_of_next?_eq_none (next?_answeredBy _ _ _)]
  · have hfinish : ((initial [j]).start j []).next? slots none =
        some (answeredBy j.call j.place j.reply) := by
      unfold start answeredBy
      rw [if_neg hdelay]
      simp [next?, await?, initial, earliest?, finish]
    rw [run_of_next? hfinish, run_of_next?_eq_none (next?_answeredBy _ _ _)]

end FanOut

theorem dispatch_single {slots : Nat} (hslots : 0 < slots) (j : Job) :
    dispatch slots none none [j] = ⟨[j.call], j.reply.delay, j.reply.result.map ([·])⟩ := by
  have hrun := FanOut.run_single hslots j
  change ((FanOut.initial [j]).run slots none).outcome = _
  rw [hrun, FanOut.answeredBy]
  cases j.reply.result with
  | error e => rfl
  | ok part => simp [FanOut.settle, FanOut.outcome, FanOut.inOrder, Except.map]

/-- The one call of an unsharded statement is made, and its answer is the answer. -/
theorem execute_unshard (config : Config) {r : Request} (hdeadline : r.deadline config = none)
    (hcancel : r.cancelAfter = none) (backend : Call → Reply) (call : Call) :
    execute config r backend (.unshard call) =
      ⟨[call], (backend call).delay, (backend call).result⟩ := by
  have hcalls : runCalls config r (fun _ => backend) [call] =
      ⟨[call], (backend call).delay, (backend call).result.map ([·])⟩ := by
    unfold runCalls
    rw [hdeadline, hcancel]
    exact dispatch_single (slots_pos config) ⟨0, call, backend call⟩
  change (runCalls config r (fun _ => backend) [call]).andThen
    (fun parts => .ok (parts.headD .empty)) = _
  rw [hcalls, Outcome.andThen]
  cases (backend call).result <;> rfl

end ShardedSql.Execution
