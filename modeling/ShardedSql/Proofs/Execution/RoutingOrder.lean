import ShardedSql.Proofs.Execution.Runs

namespace ShardedSql.Execution

open FanOut
open Planning (Call RoutingMap)
open Result (ResultSet)

theorem map_call_jobs (reply : Nat → Call → Reply) (calls : List Call) :
    (jobs reply calls).map (·.call) = calls :=
  List.ext_getElem (by simp [jobs]) (by simp [jobs])

theorem pairwise_place_jobs (reply : Nat → Call → Reply) (calls : List Call) :
    ((jobs reply calls).map (·.place)).Pairwise (· < ·) := by
  rw [List.pairwise_iff_getElem]
  intro i j hi hj hij
  simpa [jobs] using hij

theorem map_result_jobs (reply : Nat → Call → Reply) (calls : List Call) :
    (jobs reply calls).map (·.reply.result) = calls.mapIdx fun i c => (reply i c).result :=
  List.ext_getElem (by simp [jobs]) (by simp [jobs])

theorem dispatch_eq_outcome {slots : Nat} {deadline cancelAfter : Option Nat}
    (hcancel : cancelAfter ≠ some 0) (js : List Job) :
    ∃ s, Steps slots (Interruption.of? deadline cancelAfter) (initial js) s ∧
      Final slots (Interruption.of? deadline cancelAfter) s ∧
      dispatch slots deadline cancelAfter js = s.outcome := by
  obtain ⟨hsteps, hfinal⟩ :=
    steps_run slots (Interruption.of? deadline cancelAfter) (initial js)
  exact ⟨_, hsteps, hfinal, by rw [dispatch, if_neg hcancel]⟩

variable {slots : Nat} {limit : Option Interruption} {js : List Job} {s : FanOut}

theorem FanOut.Steps.made_isPrefix (hslots : 0 < slots) (hprompt : ∀ i ∈ limit, i.Prompt)
    (h : Steps slots limit (initial js) s) :
    s.made <+: js.map (·.call) ∧ s.running.length ≤ slots := by
  rcases h.tracks_or_stops hslots hprompt with ⟨called, past, h⟩ | ⟨e, h⟩
  · refine ⟨?_, Nat.le_trans (Nat.le_add_right _ _) h.capacity⟩
    rw [h.made, h.jobs, List.map_append]
    exact List.prefix_append _ _
  · obtain ⟨n, hmade, -⟩ := h.made
    refine ⟨?_, h.capacity⟩
    rw [hmade, List.map_take]
    exact List.take_prefix _ _

theorem eq_of_map_ok {ps qs : List ResultSet}
    (h : ps.map (Except.ok : ResultSet → Except Error ResultSet) = qs.map .ok) : ps = qs :=
  List.map_injective_iff.mpr (fun a b hab => by cases hab; rfl) h

theorem result_ne_error {slots : Nat} {js : List Job} {parts : List ResultSet}
    (hparts : js.map (·.reply.result) = parts.map .ok) {p : Running} (hp : p ∈ answers slots js)
    (e : Error) : p.result ≠ .error e := by
  intro he
  obtain ⟨j, hj, hresult⟩ := result_of_mem_answers hp
  have hmem : j.reply.result ∈ js.map (·.reply.result) := List.mem_map_of_mem hj
  rw [hparts, ← hresult, he] at hmem
  obtain ⟨part, -, hpart⟩ := List.mem_map.mp hmem
  cases hpart

/-- Without failures and interruptions all calls are made, and answered in the end. -/
theorem FanOut.Steps.outcome_of_ok (hslots : 0 < slots)
    (hplaces : (js.map (·.place)).Pairwise (· < ·)) {parts : List ResultSet}
    (hparts : js.map (·.reply.result) = parts.map .ok) (h : Steps slots none (initial js) s)
    (hfinal : Final slots none s) :
    s.outcome.calls = js.map (·.call) ∧ s.outcome.result = .ok parts := by
  rcases h.tracks_or_stops hslots (by simp) with ⟨called, past, h⟩ | ⟨e, h⟩
  · obtain ⟨hwaiting, hrunning⟩ := hfinal.all_answered hslots h.going
    obtain rfl : js = called := by rw [h.jobs, hwaiting, List.append_nil]
    have hinOrder := h.inOrder_parts hrunning hplaces
    rw [hparts] at hinOrder
    exact ⟨h.made, by rw [outcome, h.going, eq_of_map_ok hinOrder]⟩
  · rcases h.cause with ⟨q, hq, he, -⟩ | ⟨i, hi, -⟩
    · exact absurd he (result_ne_error hparts hq e)
    · cases hi

/-- Fan-out results do not depend on timing. Whatever the delays and the order of the answers, and
whichever of the calls that finish at one time comes first: the calls made are the first ones of
the routing map, never more than the limit are unfinished, and if all succeed then all are made and
their results come back in the order of the routing map. -/
theorem fan_out_in_routing_order (m : RoutingMap) (reply : Nat → Call → Reply) {slots : Nat}
    (hslots : 0 < slots) :
    (∀ s, Steps slots none (initial (jobs reply m.calls)) s →
      s.made <+: m.calls ∧ s.running.length ≤ slots) ∧
    (∀ parts : List ResultSet,
      m.calls.mapIdx (fun i c => (reply i c).result) = parts.map .ok →
      ∀ s, Steps slots none (initial (jobs reply m.calls)) s → Final slots none s →
        s.outcome.calls = m.calls ∧ s.outcome.result = .ok parts) ∧
    ∃ s, Steps slots none (initial (jobs reply m.calls)) s ∧ Final slots none s ∧
      dispatch slots none none (jobs reply m.calls) = s.outcome := by
  refine ⟨fun s hs => ?_, fun parts hparts s hs hfinal => ?_, ?_⟩
  · have hmade := hs.made_isPrefix hslots (by simp)
    rwa [map_call_jobs] at hmade
  · rw [← map_result_jobs] at hparts
    have hend := hs.outcome_of_ok hslots (pairwise_place_jobs _ _) hparts hfinal
    rwa [map_call_jobs] at hend
  · exact @dispatch_eq_outcome slots none none (by simp) _

def twoDeletes : RoutingMap :=
  ⟨[⟨"slice-0", "shop", "DELETE FROM orders_0"⟩, ⟨"slice-1", "shop", "DELETE FROM orders_1"⟩]⟩

/-- The first call takes ten times as long as the second. -/
def slowThenFast (i : Nat) (_ : Call) : Reply :=
  if i = 0 then ⟨50, .ok (.ofCounts 3 0)⟩ else ⟨5, .ok (.ofCounts 4 0)⟩

theorem slow_answer_comes_first : 0 < 2 ∧
    (dispatch 2 none none (jobs slowThenFast twoDeletes.calls)).calls = twoDeletes.calls ∧
    (dispatch 2 none none (jobs slowThenFast twoDeletes.calls)).result =
      .ok [.ofCounts 3 0, .ofCounts 4 0] := by
  obtain ⟨-, hall, s, hs, hfinal, heq⟩ :=
    fan_out_in_routing_order twoDeletes slowThenFast (by decide : 0 < 2)
  rw [heq]
  exact ⟨by decide, hall [.ofCounts 3 0, .ofCounts 4 0] rfl s hs hfinal⟩

end ShardedSql.Execution
