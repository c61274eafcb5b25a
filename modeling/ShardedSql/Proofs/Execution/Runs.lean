import Mathlib.Data.List.Nodup
import ShardedSql.Proofs.Execution.Progress

namespace ShardedSql.Execution

open Planning (Call)
open Result (ResultSet)

/-- Whether a request that ended at the time `t` made the calls that had started by then. -/
def MadeBy (slots : Nat) (js : List Job) (t : Nat) (made : List Call) : Prop :=
  ∃ n, made = (js.take n).map (·.call) ∧ ∀ i a, (spans slots (delays js))[i]? = some a →
    (i < n → a.start ≤ t) ∧ (n ≤ i → t ≤ a.start)

/-- Whether an interruption comes right behind the last time that counts. -/
def Interruption.Prompt (i : Interruption) : Prop :=
  i.lastTime ≤ i.time ∧ i.time ≤ i.lastTime + 1

namespace FanOut

variable {slots : Nat} {limit : Option Interruption} {js called : List Job}
  {due past : List Running} {s s' : FanOut}

/-- How a request ends without all answers: by the first failure, or by the interruption. -/
structure Stops (slots : Nat) (limit : Option Interruption) (js : List Job) (e : Error)
    (s : FanOut) : Prop where
  failure : s.failure = some e
  made : MadeBy slots js s.time s.made
  capacity : s.running.length ≤ slots
  cause :
    (∃ q ∈ answers slots js, q.result = .error e ∧ q.finish = s.time ∧
      (∀ i ∈ limit, s.time ≤ i.lastTime) ∧
      ∀ p ∈ answers slots js, ∀ e', p.result = .error e' → s.time ≤ p.finish) ∨
    ∃ i ∈ limit, s.time = i.time ∧ e = i.error ∧ (∃ q ∈ answers slots js, i.lastTime < q.finish) ∧
      ∀ p ∈ answers slots js, ∀ e', p.result = .error e' → i.lastTime < p.finish

namespace Tracks

theorem madeBy (h : Tracks slots limit js called due past s) (hslots : 0 < slots) {t : Nat}
    (ht : s.time ≤ t) (hbusy : s.waiting ≠ [] →
      ∀ u < t, slots ≤ unfinishedAt u ((answers slots called).map (·.finish))) :
    MadeBy slots js t s.made := by
  obtain ⟨later, laterSpans, -, hspans, hstarts, -⟩ := h.ahead hslots hbusy
  have hlength : (spans slots (delays called)).length = called.length := by
    simp [length_spans, delays]
  refine ⟨called.length, by simp [h.made, h.jobs], fun i a ha => ⟨fun hi => ?_, fun hi => ?_⟩⟩
  · rw [hspans, List.getElem?_append_left (by omega)] at ha
    exact Nat.le_trans (h.started a (List.mem_of_getElem? ha)) ht
  · rw [hspans, List.getElem?_append_right (by omega)] at ha
    exact hstarts a (List.mem_of_getElem? ha)

/-- A call that fails ends the request. No call has failed before it, and none can. -/
theorem fail {q : Running} (h : Tracks slots limit js called [q] past s) (hslots : 0 < slots)
    (hq : q.finish = s.time) {e : Error} (he : q.result = .error e) :
    Stops slots limit js e (s.settle q.place q.result) := by
  obtain ⟨later, -, hanswers, -, -, hlater⟩ := h.ahead hslots h.busy
  rw [he]
  refine ⟨rfl, h.madeBy hslots (Nat.le_refl _) h.busy, Nat.le_of_succ_le h.capacity,
    .inl ⟨q, ?_, he, hq, h.counts, ?_⟩⟩
  · rw [hanswers]
    exact List.mem_append_left _ (h.split.mem_iff.mpr (by simp))
  · intro p hp e' he'
    rw [hanswers] at hp
    rcases List.mem_append.mp hp with hp | hp
    · rw [h.split.mem_iff, List.append_assoc] at hp
      rcases List.mem_append.mp hp with hp | hp
      · exact h.later p hp
      · rcases List.mem_cons.mp hp with rfl | hp
        · exact Nat.le_of_eq hq.symm
        · obtain ⟨part, hpart⟩ := h.ok_of_past hp
          rw [hpart] at he'
          cases he'
    · exact hlater p hp

theorem settle {q : Running} (h : Tracks slots limit js called [q] past s) (hslots : 0 < slots)
    (hq : q.finish = s.time) :
    (∃ past', Tracks slots limit js called [] past' (s.settle q.place q.result)) ∨
      ∃ e, Stops slots limit js e (s.settle q.place q.result) := by
  cases hresult : q.result with
  | ok part =>
    rw [← hresult]
    exact .inl ⟨_, h.answer hq hresult⟩
  | error e =>
    rw [← hresult]
    exact .inr ⟨e, h.fail hslots hq hresult⟩

theorem interrupt (h : Tracks slots limit js called [] past s) (hslots : 0 < slots)
    (hbusy : s.waiting = [] ∨ slots ≤ s.running.length) {r : Running} (hr : r ∈ s.running)
    (hfirst : ∀ q ∈ s.running, r.finish ≤ q.finish) {i : Interruption} (hlimit : i ∈ limit)
    (hprompt : i.Prompt) (hlate : i.lastTime < r.finish) :
    Stops slots limit js i.error (s.interrupt i) := by
  have hfull (hwaiting : s.waiting ≠ []) :=
    h.busy_until (hbusy.resolve_left hwaiting) hfirst
  have htime : s.time ≤ i.time := Nat.le_trans (h.counts i hlimit) hprompt.1
  obtain ⟨later, -, hanswers, -, -, hlater⟩ := h.ahead hslots hfull
  refine ⟨rfl, h.madeBy hslots htime fun hwaiting u hu => hfull hwaiting u ?_, h.capacity,
    .inr ⟨i, hlimit, rfl, rfl, ⟨r, ?_, hlate⟩, ?_⟩⟩
  · have := hprompt.2
    change u < i.time at hu
    omega
  · rw [hanswers]
    exact List.mem_append_left _ (h.split.mem_iff.mpr (by simp [hr]))
  · intro p hp e he
    rw [hanswers] at hp
    rcases List.mem_append.mp hp with hp | hp
    · rw [h.split.mem_iff, List.append_nil] at hp
      rcases List.mem_append.mp hp with hp | hp
      · exact Nat.lt_of_lt_of_le hlate (hfirst p hp)
      · obtain ⟨part, hpart⟩ := h.ok_of_past hp
        rw [hpart] at he
        cases he
    · exact Nat.lt_of_lt_of_le hlate (hlater p hp)

/-- One step leads on, or to the end. -/
theorem step (h : Tracks slots limit js called [] past s) (hslots : 0 < slots)
    (hprompt : ∀ i ∈ limit, i.Prompt) (hstep : Step slots limit s s') :
    (∃ called' past', Tracks slots limit js called' [] past' s') ∨
      ∃ e, Stops slots limit js e s' := by
  cases hstep with
  | @start j rest _ hwaiting hfree =>
    have hcall := h.call hwaiting hfree
    unfold FanOut.start
    split
    · next hdelay =>
      exact (hcall.settle hslots (by simp [hdelay])).imp_left fun ⟨past', h'⟩ => ⟨_, past', h'⟩
    · exact .inl ⟨_, _, hcall.wait (Nat.le_add_right _ _) (h.last.resolve_left (by simp))⟩
  | finish _ hbusy hrunning hfirst hcounts =>
    have hdue := h.advance hbusy hrunning hfirst hcounts
    exact (hdue.settle hslots rfl).imp_left fun ⟨past', h'⟩ => ⟨_, past', h'⟩
  | interrupt _ hbusy hr hfirst hlimit hlate =>
    exact .inr ⟨_, h.interrupt hslots hbusy hr hfirst hlimit (hprompt _ hlimit) hlate⟩

end Tracks

theorem Stops.final {e : Error} (h : Stops slots limit js e s) : Final slots limit s := by
  intro s' hstep
  have hgoing : s.failure = none := by cases hstep <;> assumption
  rw [h.failure] at hgoing
  cases hgoing

/-- Whatever happens in which order, a request is under way or has ended as it must. -/
theorem Steps.tracks_or_stops (hslots : 0 < slots) (hprompt : ∀ i ∈ limit, i.Prompt)
    (h : Steps slots limit (initial js) s) :
    (∃ called past, Tracks slots limit js called [] past s) ∨ ∃ e, Stops slots limit js e s := by
  induction h with
  | refl => exact .inl ⟨_, _, Tracks.initial slots limit js⟩
  | tail _ hstep ih =>
    rcases ih with ⟨called, past, htracks⟩ | ⟨e, hstops⟩
    · exact htracks.step hslots hprompt hstep
    · exact absurd hstep (hstops.final _)

/-- The answers that came in, put in order, are those of the calls in their order. -/
theorem Tracks.inOrder_parts (h : Tracks slots limit js js [] past s) (hrunning : s.running = [])
    (hplaces : (js.map (·.place)).Pairwise (· < ·)) :
    (inOrder s.parts).map Except.ok = js.map (·.reply.result) := by
  let numbered := js.map fun j => (j.place, j.reply.result)
  have hnumbered : numbered = (answers slots js).map fun q => (q.place, q.result) := by
    apply List.ext_getElem
    · simp [numbered, answers, length_spans, delays]
    · intro i h₁ h₂
      simp [numbered, answers]
  have hsplit := h.split
  rw [hrunning, List.nil_append, List.nil_append] at hsplit
  let sorted := s.parts.mergeSort fun a b => a.1 ≤ b.1
  have hperm : (sorted.map fun p => (p.1, Except.ok p.2)).Perm numbered := by
    rw [hnumbered]
    exact ((List.mergeSort_perm _ _).map _).trans
      ((List.Perm.of_eq h.parts.symm).trans (hsplit.map _).symm)
  have hsorted : (sorted.map fun p => (p.1, (Except.ok p.2 : Except Error ResultSet))).Pairwise
      fun a b => a.1 ≤ b.1 := by
    rw [List.pairwise_map]
    refine (@List.pairwise_mergeSort _ (fun a b => decide (a.1 ≤ b.1)) ?_ ?_ s.parts).imp ?_
    · intro a b c
      simpa using Nat.le_trans
    · intro a b
      simpa using Nat.le_total a.1 b.1
    · intro a b hab
      simpa using hab
  have hincreasing : numbered.Pairwise fun a b => a.1 < b.1 := by
    simpa [numbered, List.pairwise_map] using hplaces
  have hnodup : (numbered.map (·.1)).Nodup := by
    rw [List.nodup_iff_pairwise_ne, List.pairwise_map]
    exact hincreasing.imp Nat.ne_of_lt
  have heq : (sorted.map fun p => (p.1, Except.ok p.2)) = numbered := by
    refine List.Perm.eq_of_pairwise (fun a b ha hb hab hba => ?_) hsorted
      (hincreasing.imp Nat.le_of_lt) hperm
    exact List.inj_on_of_nodup_map hnodup (hperm.mem_iff.mp ha) hb (Nat.le_antisymm hab hba)
  have hresults := congrArg (List.map (·.2)) heq
  simpa [numbered, sorted, inOrder, Function.comp_def] using hresults

end FanOut

end ShardedSql.Execution
