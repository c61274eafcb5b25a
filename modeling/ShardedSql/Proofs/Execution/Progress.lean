import ShardedSql.Proofs.Execution.Schedule
import ShardedSql.Proofs.Execution.Steps

namespace ShardedSql.Execution

open Result (ResultSet)

def delays (js : List Job) : List Nat := js.map (·.reply.delay)

/-- When and how the calls are answered if nothing ends their request before that. -/
def answers (slots : Nat) (js : List Job) : List Running :=
  List.zipWith (fun j a => ⟨j.place, a.finish, j.reply.result⟩) js (spans slots (delays js))

theorem finishes_answers (slots : Nat) (js : List Job) :
    (answers slots js).map (·.finish) = (spans slots (delays js)).map (·.finish) := by
  have hlength : (spans slots (delays js)).length ≤ js.length := by
    simp [length_spans, delays]
  rw [answers, List.map_zipWith]
  apply List.ext_getElem
  · simp [length_spans, delays]
  · intro i h₁ h₂
    simp

theorem answers_concat (slots : Nat) (js : List Job) (j : Job) :
    ∃ start, answers slots (js ++ [j]) =
        answers slots js ++ [⟨j.place, start + j.reply.delay, j.reply.result⟩] ∧
      spans slots (delays (js ++ [j])) =
        spans slots (delays js) ++ [⟨start, start + j.reply.delay⟩] ∧
      start = freeAt slots (latestFirst ((answers slots js).map (·.finish))) := by
  obtain ⟨start, hspans, hstart⟩ := spans_concat slots (delays js) j.reply.delay
  have hdelays : delays (js ++ [j]) = delays js ++ [j.reply.delay] := by simp [delays]
  refine ⟨start, ?_, by rw [hdelays, hspans], by rw [finishes_answers, hstart]⟩
  rw [answers, hdelays, hspans, List.zipWith_append (by simp [length_spans, delays])]
  rfl

/-- The answers to later calls come after the time up to which the calls before them leave no slot
free. -/
theorem answers_append {slots : Nat} (hslots : 0 < slots) (js more : List Job) :
    ∃ later laterSpans, answers slots (js ++ more) = answers slots js ++ later ∧
      spans slots (delays (js ++ more)) = spans slots (delays js) ++ laterSpans ∧
      ∀ t, (∀ u < t, slots ≤ unfinishedAt u ((answers slots js).map (·.finish))) →
        (∀ a ∈ laterSpans, t ≤ a.start) ∧ ∀ q ∈ later, t ≤ q.finish := by
  obtain ⟨laterSpans, hspans, hstarts⟩ := spans_append hslots (delays js) (delays more)
  have hdelays : delays (js ++ more) = delays js ++ delays more := by simp [delays]
  refine ⟨List.zipWith (fun j a => ⟨j.place, a.finish, j.reply.result⟩) more laterSpans, laterSpans,
    ?_, by rw [hdelays, hspans], ?_⟩
  · rw [answers, hdelays, hspans, List.zipWith_append (by simp [length_spans, delays])]
    rfl
  · intro t hbusy
    rw [finishes_answers] at hbusy
    refine ⟨hstarts t hbusy, fun q hq => ?_⟩
    obtain ⟨i, hi, rfl⟩ := List.getElem_of_mem hq
    rw [List.length_zipWith, Nat.lt_min] at hi
    have hmem : laterSpans[i] ∈ laterSpans := List.getElem_mem hi.2
    have hspan : laterSpans[i] ∈ spans slots (delays js ++ delays more) := by
      rw [hspans]
      exact List.mem_append_right _ hmem
    have hle := start_le_finish hspan
    simpa using Nat.le_trans (hstarts t hbusy _ hmem) hle

/-- An answer is what its call gets. -/
theorem result_of_mem_answers {slots : Nat} {js : List Job} {q : Running}
    (h : q ∈ answers slots js) : ∃ j ∈ js, q.result = j.reply.result := by
  obtain ⟨i, hi, rfl⟩ := List.getElem_of_mem h
  rw [answers, List.length_zipWith, Nat.lt_min] at hi
  exact ⟨js[i], List.getElem_mem hi.1, by simp [answers]⟩

namespace FanOut

/-- How far the calls of a request have come while nothing has failed. The ones in `due` are about
to be answered, those in `past` have been. -/
structure Tracks (slots : Nat) (limit : Option Interruption) (js called : List Job)
    (due past : List Running) (s : FanOut) : Prop where
  going : s.failure = none
  jobs : js = called ++ s.waiting
  made : s.made = called.map (·.call)
  capacity : s.running.length + due.length ≤ slots
  counts : ∀ i ∈ limit, s.time ≤ i.lastTime
  started : ∀ a ∈ spans slots (delays called), a.start ≤ s.time
  split : (answers slots called).Perm (s.running ++ due ++ past)
  parts : past.map (fun q => (q.place, q.result)) = s.parts.map fun p => (p.1, .ok p.2)
  later : ∀ r ∈ s.running, s.time ≤ r.finish
  earlier : ∀ q ∈ past, q.finish ≤ s.time
  busy : s.waiting ≠ [] → ∀ t < s.time, slots ≤ unfinishedAt t ((answers slots called).map (·.finish))
  last : due ≠ [] ∨ s.time = 0 ∨ ∃ q ∈ past, q.finish = s.time

namespace Tracks

variable {slots : Nat} {limit : Option Interruption} {js called : List Job}
  {due past : List Running} {s : FanOut}

theorem initial (slots : Nat) (limit : Option Interruption) (js : List Job) :
    Tracks slots limit js [] [] [] (FanOut.initial js) where
  going := rfl
  jobs := rfl
  made := rfl
  capacity := Nat.zero_le _
  counts := fun _ _ => Nat.zero_le _
  started := by simp [spans, schedule, delays]
  split := .refl _
  parts := rfl
  later := by simp [FanOut.initial]
  earlier := by simp
  busy := by simp [FanOut.initial]
  last := .inr (.inl rfl)

theorem unfinishedAt_eq (h : Tracks slots limit js called due past s) (t : Nat) :
    unfinishedAt t ((answers slots called).map (·.finish)) =
      unfinishedAt t (s.running.map (·.finish)) + unfinishedAt t (due.map (·.finish)) +
        unfinishedAt t (past.map (·.finish)) := by
  rw [unfinishedAt, (h.split.map (·.finish)).countP_eq, List.map_append, List.map_append,
    List.countP_append, List.countP_append]
  rfl

/-- While all slots are taken up nothing else can start before the first running call is
answered. -/
theorem busy_until (h : Tracks slots limit js called due past s)
    (hfull : slots ≤ s.running.length) {t : Nat} (hfirst : ∀ q ∈ s.running, t ≤ q.finish) :
    ∀ u < t, slots ≤ unfinishedAt u ((answers slots called).map (·.finish)) := by
  intro u hu
  have hall : unfinishedAt u (s.running.map (·.finish)) = s.running.length := by
    rw [unfinishedAt, List.countP_eq_length.mpr, List.length_map]
    intro f hf
    obtain ⟨q, hq, rfl⟩ := List.mem_map.mp hf
    have := hfirst q hq
    exact decide_eq_true (by omega)
  rw [h.unfinishedAt_eq, hall]
  omega

/-- A call that can be made starts now. -/
theorem freeAt_eq (h : Tracks slots limit js called [] past s) (hfree : s.running.length < slots)
    (hwaiting : s.waiting ≠ []) :
    freeAt slots (latestFirst ((answers slots called).map (·.finish))) = s.time := by
  refine freeAt_latestFirst_eq (by omega) ?_ (h.busy hwaiting)
  have hrunning : unfinishedAt s.time (s.running.map (·.finish)) ≤ s.running.length :=
    Nat.le_trans List.countP_le_length (Nat.le_of_eq (List.length_map _))
  have hpast : unfinishedAt s.time (past.map (·.finish)) = 0 := by
    rw [unfinishedAt, List.countP_eq_zero]
    intro f hf
    obtain ⟨q, hq, rfl⟩ := List.mem_map.mp hf
    simpa using h.earlier q hq
  rw [h.unfinishedAt_eq, hpast]
  simp only [List.map_nil]
  exact Nat.lt_of_le_of_lt hrunning hfree

/-- Making a call. Its answer is due after its delay. -/
theorem call (h : Tracks slots limit js called [] past s) {j : Job} {rest : List Job}
    (hwaiting : s.waiting = j :: rest) (hfree : s.running.length < slots) :
    Tracks slots limit js (called ++ [j])
      [⟨j.place, s.time + j.reply.delay, j.reply.result⟩] past
      { s with waiting := rest, made := s.made ++ [j.call] } := by
  have hne : s.waiting ≠ [] := by simp [hwaiting]
  obtain ⟨start, hanswers, hspans, hstart⟩ := answers_concat slots called j
  rw [h.freeAt_eq hfree hne] at hstart
  subst hstart
  constructor
  case going => exact h.going
  case jobs => simp [h.jobs, hwaiting]
  case made => simp [h.made]
  case capacity => exact hfree
  case counts => exact h.counts
  case started =>
    intro a ha
    rw [hspans] at ha
    rcases List.mem_append.mp ha with ha | ha
    · exact h.started a ha
    · exact Nat.le_of_eq (congrArg Span.start (List.mem_singleton.mp ha))
  case split =>
    rw [hanswers]
    have hsplit := h.split.append_right [⟨j.place, s.time + j.reply.delay, j.reply.result⟩]
    rw [List.append_nil, List.append_assoc] at hsplit
    exact hsplit.trans (by simpa using (List.perm_append_singleton _ past).append_left s.running)
  case parts => exact h.parts
  case later => exact h.later
  case earlier => exact h.earlier
  case busy =>
    intro _ t ht
    rw [hanswers, List.map_append, unfinishedAt, List.countP_append]
    exact Nat.le_add_right_of_le (h.busy hne t ht)
  case last => exact .inl (List.cons_ne_nil _ _)

/-- A call that takes its time is running. -/
theorem wait {q : Running} (h : Tracks slots limit js called [q] past s) (hq : s.time ≤ q.finish)
    (hlast : s.time = 0 ∨ ∃ q ∈ past, q.finish = s.time) :
    Tracks slots limit js called [] past { s with running := s.running ++ [q] } := by
  constructor
  case going => exact h.going
  case jobs => exact h.jobs
  case made => exact h.made
  case capacity => simpa using h.capacity
  case counts => exact h.counts
  case started => exact h.started
  case split => simpa using h.split
  case parts => exact h.parts
  case later =>
    intro r hr
    rcases List.mem_append.mp hr with hr | hr
    · exact h.later r hr
    · rw [List.mem_singleton.mp hr]
      exact hq
  case earlier => exact h.earlier
  case busy => exact h.busy
  case last => exact .inr hlast

/-- Waiting for the first answer of the running calls, which is due then. -/
theorem advance (h : Tracks slots limit js called [] past s) {before after : List Running}
    {r : Running} (hbusy : s.waiting = [] ∨ slots ≤ s.running.length)
    (hrunning : s.running = before ++ r :: after) (hfirst : ∀ q ∈ s.running, r.finish ≤ q.finish)
    (hcounts : ∀ i ∈ limit, r.finish ≤ i.lastTime) :
    Tracks slots limit js called [r] past { s with time := r.finish, running := before ++ after } := by
  have hle : s.time ≤ r.finish := h.later r (by simp [hrunning])
  have hperm : s.running.Perm (before ++ after ++ [r]) := by
    rw [hrunning]
    simpa using (@List.perm_append_comm _ [r] after).append_left before
  constructor
  case going => exact h.going
  case jobs => exact h.jobs
  case made => exact h.made
  case capacity =>
    have := h.capacity
    rw [hperm.length_eq] at this
    simpa [Nat.add_assoc] using this
  case counts => exact hcounts
  case started => exact fun a ha => Nat.le_trans (h.started a ha) hle
  case split =>
    have hsplit := h.split
    rw [List.append_nil] at hsplit
    exact hsplit.trans (hperm.append_right past)
  case parts => exact h.parts
  case later => exact fun q hq => hfirst q (hperm.mem_iff.mpr (List.mem_append_left _ hq))
  case earlier => exact fun q hq => Nat.le_trans (h.earlier q hq) hle
  case busy =>
    intro hwaiting
    exact h.busy_until (hbusy.resolve_left hwaiting) hfirst
  case last => exact .inl (List.cons_ne_nil _ _)

/-- A call is answered at its time. -/
theorem answer {q : Running} (h : Tracks slots limit js called [q] past s) (hq : q.finish = s.time)
    {part : ResultSet} (hpart : q.result = .ok part) :
    Tracks slots limit js called [] (past ++ [q]) (s.settle q.place q.result) := by
  rw [hpart]
  constructor
  case going => exact h.going
  case jobs => exact h.jobs
  case made => exact h.made
  case capacity => exact Nat.le_of_succ_le h.capacity
  case counts => exact h.counts
  case started => exact h.started
  case split =>
    refine h.split.trans ?_
    simpa [settle] using (@List.perm_append_comm _ [q] past).append_left s.running
  case parts => simp [settle, h.parts, hpart]
  case later => exact h.later
  case earlier =>
    intro p hp
    rcases List.mem_append.mp hp with hp | hp
    · exact h.earlier p hp
    · rw [List.mem_singleton.mp hp]
      exact Nat.le_of_eq hq
  case busy => exact h.busy
  case last => exact .inr (.inr ⟨q, by simp, hq⟩)

/-- What comes later than the calls that were made. -/
theorem ahead (h : Tracks slots limit js called due past s) (hslots : 0 < slots) {t : Nat}
    (hbusy : s.waiting ≠ [] →
      ∀ u < t, slots ≤ unfinishedAt u ((answers slots called).map (·.finish))) :
    ∃ later laterSpans, answers slots js = answers slots called ++ later ∧
      spans slots (delays js) = spans slots (delays called) ++ laterSpans ∧
      (∀ a ∈ laterSpans, t ≤ a.start) ∧ ∀ q ∈ later, t ≤ q.finish := by
  by_cases hwaiting : s.waiting = []
  · have hjs : js = called := by rw [h.jobs, hwaiting, List.append_nil]
    exact ⟨[], [], by simp [hjs], by simp [hjs], by simp, by simp⟩
  · obtain ⟨later, laterSpans, hanswers, hspans, htimes⟩ :=
      answers_append hslots called s.waiting
    rw [← h.jobs] at hanswers hspans
    exact ⟨later, laterSpans, hanswers, hspans, htimes t (hbusy hwaiting)⟩

theorem ok_of_past (h : Tracks slots limit js called due past s) {q : Running} (hq : q ∈ past) :
    ∃ part, q.result = .ok part := by
  have hmem : (q.place, q.result) ∈ past.map fun q => (q.place, q.result) :=
    List.mem_map_of_mem hq
  rw [h.parts] at hmem
  obtain ⟨p, -, hp⟩ := List.mem_map.mp hmem
  exact ⟨p.2, (congrArg Prod.snd hp).symm⟩

end Tracks

end FanOut

end ShardedSql.Execution
