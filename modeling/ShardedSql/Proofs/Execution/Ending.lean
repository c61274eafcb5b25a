import ShardedSql.Proofs.Execution.RoutingOrder

namespace ShardedSql.Execution

open FanOut
open Planning (Call Plan RoutingMap)
open Result (ResultSet mergeSelect mergeWrite)

/-- When the last call is answered. -/
def lastFinish (as : List Running) : Nat := (as.map (·.finish)).foldr max 0

/-- What may end a request: at which time and with what. Of what comes at one time the smallest rank
counts: being cancelled, then what the calls do, then the deadline. -/
inductive Ending (slots : Nat) (deadline cancelAfter : Option Nat) (js : List Job) :
    (time rank : Nat) → Except Error (List ResultSet) → Prop
  | cancelled {c : Nat} (h : cancelAfter = some c) :
      Ending slots deadline cancelAfter js c 0 (.error .cancelled)
  | failed {q : Running} {e : Error} (hq : q ∈ answers slots js) (he : q.result = .error e) :
      Ending slots deadline cancelAfter js q.finish 1 (.error e)
  | completed {parts : List ResultSet} (h : js.map (·.reply.result) = parts.map .ok) :
      Ending slots deadline cancelAfter js (lastFinish (answers slots js)) 1 (.ok parts)
  | timedOut {d : Nat} (h : deadline = some d) :
      Ending slots deadline cancelAfter js d 2 (.error (.timeout d))

/-- Whether an ending comes before all others. -/
def Decides (ending : Nat → Nat → Except Error (List ResultSet) → Prop) (time : Nat)
    (result : Except Error (List ResultSet)) : Prop :=
  ∃ rank, ending time rank result ∧
    ∀ time' rank' result', ending time' rank' result' →
      time < time' ∨ time = time' ∧ rank ≤ rank'

theorem finish_le_lastFinish {as : List Running} {q : Running} (h : q ∈ as) :
    q.finish ≤ lastFinish as := by
  induction as with
  | nil => cases h
  | cons p ps ih =>
    rcases List.mem_cons.mp h with rfl | h
    · exact Nat.le_max_left _ _
    · exact Nat.le_trans (ih h) (Nat.le_max_right _ _)

theorem lastFinish_le {as : List Running} {t : Nat} (h : ∀ q ∈ as, q.finish ≤ t) :
    lastFinish as ≤ t := by
  induction as with
  | nil => exact Nat.zero_le _
  | cons p ps ih =>
    exact Nat.max_le.mpr ⟨h p List.mem_cons_self, ih fun q hq => h q (List.mem_cons_of_mem _ hq)⟩

variable {slots : Nat} {deadline cancelAfter : Option Nat} {js : List Job} {t : Nat}

/-- What counts comes before the request is cancelled, and no later than the deadline. -/
theorem Interruption.counts_of? (hcancel : cancelAfter ≠ some 0)
    (h : ∀ i ∈ Interruption.of? deadline cancelAfter, t ≤ i.lastTime) :
    (∀ c, cancelAfter = some c → t < c) ∧ ∀ d, deadline = some d → t ≤ d := by
  cases deadline with
  | none =>
    cases cancelAfter with
    | none => simp
    | some c =>
      have hlast := h _ rfl
      simp only [ne_eq, Option.some.injEq, reduceCtorEq, false_implies, implies_true, and_true,
        forall_eq'] at hcancel hlast ⊢
      omega
  | some d =>
    cases cancelAfter with
    | none =>
      have hlast := h _ rfl
      simpa using hlast
    | some c =>
      simp only [ne_eq, Option.some.injEq, forall_eq'] at hcancel ⊢
      by_cases hle : c ≤ d
      · have hlast := h _ (if_pos hle)
        simp only at hlast
        omega
      · have hlast := h _ (if_neg hle)
        simp only at hlast
        omega

/-- The interruption is the cancelling or the deadline, whichever comes first. -/
theorem Interruption.eq_of_mem_of? {i : Interruption}
    (h : i ∈ Interruption.of? deadline cancelAfter) :
    (∃ c, cancelAfter = some c ∧ i = ⟨c, c - 1, .cancelled⟩ ∧ ∀ d, deadline = some d → c ≤ d) ∨
      ∃ d, deadline = some d ∧ i = ⟨d, d, .timeout d⟩ ∧ ∀ c, cancelAfter = some c → d < c := by
  cases deadline with
  | none =>
    cases cancelAfter with
    | none => cases h
    | some c => exact .inl ⟨c, rfl, (Option.some.inj h).symm, by simp⟩
  | some d =>
    cases cancelAfter with
    | none => exact .inr ⟨d, rfl, (Option.some.inj h).symm, by simp⟩
    | some c =>
      unfold Interruption.of? at h
      simp only at h
      split at h
      · next hle => exact .inl ⟨c, rfl, (Option.some.inj h).symm, by simpa using hle⟩
      · next hlt => exact .inr ⟨d, rfl, (Option.some.inj h).symm, by simpa using hlt⟩

theorem Interruption.prompt_of? (hcancel : cancelAfter ≠ some 0) :
    ∀ i ∈ Interruption.of? deadline cancelAfter, i.Prompt := by
  intro i hi
  rcases eq_of_mem_of? hi with ⟨c, rfl, rfl, -⟩ | ⟨d, rfl, rfl, -⟩
  · have : c ≠ 0 := by simpa using hcancel
    exact ⟨Nat.sub_le _ _, by simp only; omega⟩
  · exact ⟨Nat.le_refl _, Nat.le_succ _⟩

/-- What the calls do in time decides, if no call fails before. -/
theorem decides_of_counts (hcancel : cancelAfter ≠ some 0)
    (hcounts : ∀ i ∈ Interruption.of? deadline cancelAfter, t ≤ i.lastTime)
    {result : Except Error (List ResultSet)}
    (hending : Ending slots deadline cancelAfter js t 1 result)
    (hfailures : ∀ p ∈ answers slots js, ∀ e, p.result = .error e → t ≤ p.finish)
    (hlast : t ≤ lastFinish (answers slots js)) :
    Decides (Ending slots deadline cancelAfter js) t result := by
  obtain ⟨hbefore, hwithin⟩ := Interruption.counts_of? hcancel hcounts
  refine ⟨1, hending, fun t' rank' result' h => ?_⟩
  cases h with
  | cancelled h => exact .inl (hbefore _ h)
  | failed hq he =>
    have := hfailures _ hq _ he
    omega
  | completed => omega
  | timedOut h =>
    have := hwithin _ h
    omega

/-- An interruption decides, if nothing that counts ends the request before. -/
theorem decides_of_interruption {i : Interruption}
    (hi : i ∈ Interruption.of? deadline cancelAfter) (hcancel : cancelAfter ≠ some 0)
    (hlate : ∃ q ∈ answers slots js, i.lastTime < q.finish)
    (hfailures : ∀ p ∈ answers slots js, ∀ e, p.result = .error e → i.lastTime < p.finish) :
    Decides (Ending slots deadline cancelAfter js) i.time (.error i.error) := by
  obtain ⟨q, hq, hlt⟩ := hlate
  have hlast := Nat.lt_of_lt_of_le hlt (finish_le_lastFinish hq)
  rcases Interruption.eq_of_mem_of? hi with ⟨c, hc, rfl, hd⟩ | ⟨d, hd, rfl, hc⟩
  · have hpos : c ≠ 0 := by simpa [hc] using hcancel
    refine ⟨0, .cancelled hc, fun t' rank' result' h => ?_⟩
    simp only at hlast hfailures ⊢
    cases h with
    | cancelled h =>
      obtain rfl := Option.some.inj (hc.symm.trans h)
      exact .inr ⟨rfl, Nat.le_refl _⟩
    | failed hq he =>
      have := hfailures _ hq _ he
      omega
    | completed => omega
    | timedOut h =>
      have := hd _ h
      omega
  · refine ⟨2, .timedOut hd, fun t' rank' result' h => ?_⟩
    simp only at hlast hfailures ⊢
    cases h with
    | cancelled h => exact .inl (hc _ h)
    | failed hq he => exact .inl (hfailures _ hq _ he)
    | completed => exact .inl hlast
    | timedOut h =>
      obtain rfl := Option.some.inj (hd.symm.trans h)
      exact .inr ⟨rfl, Nat.le_refl _⟩

/-- Whichever ending comes first decides how a request ends that is not cancelled before it
starts. -/
theorem FanOut.Steps.decides (hslots : 0 < slots) (hcancel : cancelAfter ≠ some 0)
    (hplaces : (js.map (·.place)).Pairwise (· < ·)) {s : FanOut}
    (h : Steps slots (Interruption.of? deadline cancelAfter) (initial js) s)
    (hfinal : Final slots (Interruption.of? deadline cancelAfter) s) :
    Decides (Ending slots deadline cancelAfter js) s.outcome.elapsed s.outcome.result ∧
      MadeBy slots js s.outcome.elapsed s.outcome.calls := by
  rcases h.tracks_or_stops hslots (Interruption.prompt_of? hcancel) with
    ⟨called, past, h⟩ | ⟨e, h⟩
  · obtain ⟨hwaiting, hrunning⟩ := hfinal.all_answered hslots h.going
    obtain rfl : js = called := by rw [h.jobs, hwaiting, List.append_nil]
    have hsplit := h.split
    rw [hrunning, List.nil_append, List.nil_append] at hsplit
    have hresult : s.outcome.result = .ok (inOrder s.parts) := by rw [outcome, h.going]
    have hle : lastFinish (answers slots js) ≤ s.time :=
      lastFinish_le fun q hq => h.earlier q (hsplit.mem_iff.mp hq)
    have hge : s.time ≤ lastFinish (answers slots js) := by
      rcases h.last.resolve_left (by simp) with hzero | ⟨q, hq, hq'⟩
      · omega
      · rw [← hq']
        exact finish_le_lastFinish (hsplit.mem_iff.mpr hq)
    have hending : Ending slots deadline cancelAfter js s.time 1 (.ok (inOrder s.parts)) := by
      rw [Nat.le_antisymm hge hle]
      exact .completed (h.inOrder_parts hrunning hplaces).symm
    refine ⟨?_, h.madeBy hslots (Nat.le_refl _) h.busy⟩
    rw [hresult]
    refine decides_of_counts hcancel h.counts hending (fun p hp e he => ?_) hge
    obtain ⟨part, hpart⟩ := h.ok_of_past (hsplit.mem_iff.mp hp)
    rw [hpart] at he
    cases he
  · have hresult : s.outcome.result = .error e := by rw [outcome, h.failure]
    rw [hresult]
    refine ⟨?_, h.made⟩
    rcases h.cause with ⟨q, hq, he, htime, hcounts, hfailures⟩ |
      ⟨i, hi, htime, rfl, hlate, hfailures⟩
    · change Decides _ s.time _
      rw [← htime] at hcounts hfailures ⊢
      exact decides_of_counts hcancel hcounts (.failed hq he) hfailures (finish_le_lastFinish hq)
    · change Decides _ s.time _
      rw [htime]
      exact decides_of_interruption hi hcancel hlate hfailures

theorem runCalls_decides (config : Config) {r : Request} (hcancel : r.cancelAfter ≠ some 0)
    (reply : Nat → Call → Reply) (calls : List Call) :
    Decides (Ending (Execution.slots config) (r.deadline config) r.cancelAfter (jobs reply calls))
      (runCalls config r reply calls).elapsed (runCalls config r reply calls).result ∧
    MadeBy (Execution.slots config) (jobs reply calls) (runCalls config r reply calls).elapsed
      (runCalls config r reply calls).calls := by
  obtain ⟨s, hsteps, hfinal, hrun⟩ :=
    @dispatch_eq_outcome (Execution.slots config) (r.deadline config) _ hcancel (jobs reply calls)
  rw [runCalls, hrun]
  exact hsteps.decides (slots_pos config) hcancel (pairwise_place_jobs _ _) hfinal

/-- What a plan makes of the answers to its calls: a SELECT merges their rows, a write adds up what they
count, and the one answer of a call that was passed on is the answer. -/
def combine : Plan → List ResultSet → Except Error ResultSet
  | .unshard _, parts => .ok (parts.headD .empty)
  | .select _ merge, parts => mergeSelect merge parts
  | .insert _ generated, parts => .ok (mergeWrite generated parts)
  | .update _, parts | .delete _, parts => .ok (mergeWrite none parts)
  | .explain sharded routing, _ => .ok (explainResult sharded routing)

/-- Carrying out a plan is making its calls, and then combining their answers if all succeed. -/
theorem execute_eq_andThen (config : Config) (r : Request) (backend : Call → Reply) {p : Plan}
    (h : ∀ sharded, p ≠ .explain sharded p.routing) :
    execute config r backend p =
      (runCalls config r (fun _ => backend) p.routing.calls).andThen (combine p) := by
  cases p with
  | explain sharded m => exact absurd rfl (h sharded)
  | _ => rfl

/-- The earliest event decides a fanned-out statement: its last answer, its first failure, its
deadline, which is its own or else that of the configuration, or its being cancelled. It makes the
calls that have started by then, and it makes none if it is cancelled before. Only when all answers
are there, the plan combines them to the result of the statement. -/
theorem earliest_event_decides (config : Config) (r : Request) (reply : Nat → Call → Reply)
    (m : RoutingMap) :
    Decides (Ending (Execution.slots config) (r.timeout.or (config.backendTimeout.map (·.toNat)))
        r.cancelAfter (jobs reply m.calls))
      (runCalls config r reply m.calls).elapsed (runCalls config r reply m.calls).result ∧
    MadeBy (Execution.slots config) (jobs reply m.calls) (runCalls config r reply m.calls).elapsed
      (runCalls config r reply m.calls).calls ∧
    (r.cancelAfter = some 0 → runCalls config r reply m.calls = ⟨[], 0, .error .cancelled⟩) ∧
    ∀ (backend : Call → Reply) (p : Plan), p.routing = m → (∀ sharded, p ≠ .explain sharded m) →
      execute config r backend p =
        (runCalls config r (fun _ => backend) m.calls).andThen (combine p) := by
  have hexecute : ∀ (backend : Call → Reply) (p : Plan), p.routing = m →
      (∀ sharded, p ≠ .explain sharded m) → execute config r backend p =
        (runCalls config r (fun _ => backend) m.calls).andThen (combine p) := by
    rintro backend p rfl h
    exact execute_eq_andThen config r backend h
  by_cases hcancel : r.cancelAfter = some 0
  · have hrun : runCalls config r reply m.calls = ⟨[], 0, .error .cancelled⟩ := if_pos hcancel
    rw [hrun]
    refine ⟨⟨0, .cancelled hcancel, fun t rank _ _ => ?_⟩, ⟨0, rfl, fun i a _ => ?_⟩, fun _ => rfl,
      hexecute⟩
    · simp only
      omega
    · simp
  · obtain ⟨hdecides, hmade⟩ := runCalls_decides config hcancel reply m.calls
    exact ⟨hdecides, hmade, fun h => absurd h hcancel, hexecute⟩

end ShardedSql.Execution
