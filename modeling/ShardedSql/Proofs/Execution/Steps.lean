import Mathlib.Logic.Relation
import ShardedSql.Execution.Execute

namespace ShardedSql.Execution.FanOut

variable {slots : Nat} {limit : Option Interruption} {s s' : FanOut}

/-- What may happen next. Calls start in their order and as soon as they may. Of the calls that are
answered first any one may be it. -/
inductive Step (slots : Nat) (limit : Option Interruption) (s : FanOut) : FanOut → Prop
  | start {j : Job} {rest : List Job} (hgoing : s.failure = none) (hwaiting : s.waiting = j :: rest)
      (hfree : s.running.length < slots) : Step slots limit s (s.start j rest)
  | finish {r : Running} {before after : List Running} (hgoing : s.failure = none)
      (hbusy : s.waiting = [] ∨ slots ≤ s.running.length)
      (hrunning : s.running = before ++ r :: after)
      (hfirst : ∀ q ∈ s.running, r.finish ≤ q.finish)
      (hcounts : ∀ i ∈ limit, r.finish ≤ i.lastTime) :
      Step slots limit s (s.finish r (before ++ after))
  | interrupt {r : Running} {i : Interruption} (hgoing : s.failure = none)
      (hbusy : s.waiting = [] ∨ slots ≤ s.running.length) (hr : r ∈ s.running)
      (hfirst : ∀ q ∈ s.running, r.finish ≤ q.finish) (hlimit : limit = some i)
      (hlate : i.lastTime < r.finish) : Step slots limit s (s.interrupt i)

abbrev Steps (slots : Nat) (limit : Option Interruption) : FanOut → FanOut → Prop :=
  Relation.ReflTransGen (Step slots limit)

/-- A state in which nothing more happens. -/
def Final (slots : Nat) (limit : Option Interruption) (s : FanOut) : Prop :=
  ∀ s', ¬Step slots limit s s'

theorem earliest?_eq_none {rs : List Running} : earliest? rs = none ↔ rs = [] := by
  constructor
  · intro h
    cases rs with
    | nil => rfl
    | cons r rs =>
      unfold earliest? at h
      split at h
      · cases h
      · split at h <;> cases h
  · rintro rfl
    rfl

theorem earliest?_eq_some {rs others : List Running} {r : Running}
    (h : earliest? rs = some (r, others)) : (∃ before after, rs = before ++ r :: after ∧
      others = before ++ after) ∧ ∀ q ∈ rs, r.finish ≤ q.finish := by
  induction rs generalizing r others with
  | nil => cases h
  | cons p ps ih =>
    unfold earliest? at h
    split at h
    · next hnone =>
      rw [earliest?_eq_none] at hnone
      cases h
      subst hnone
      exact ⟨⟨[], [], rfl, rfl⟩, by simp⟩
    · next q others' hsome =>
      obtain ⟨⟨before, after, hps, hothers⟩, hfirst⟩ := ih hsome
      split at h
      · next hlt =>
        cases h
        refine ⟨⟨p :: before, after, by rw [hps]; rfl, by rw [hothers]; rfl⟩, ?_⟩
        intro x hx
        rcases List.mem_cons.mp hx with rfl | hx
        · exact Nat.le_of_lt hlt
        · exact hfirst x hx
      · next hle =>
        cases h
        refine ⟨⟨[], ps, rfl, rfl⟩, ?_⟩
        intro x hx
        rcases List.mem_cons.mp hx with rfl | hx
        · exact Nat.le_refl _
        · exact Nat.le_trans (Nat.le_of_not_lt hle) (hfirst x hx)

theorem step_of_await? (hgoing : s.failure = none)
    (hbusy : s.waiting = [] ∨ slots ≤ s.running.length) (h : s.await? limit = some s') :
    Step slots limit s s' := by
  unfold await? at h
  split at h
  · cases h
  · next r others hr =>
    obtain ⟨⟨before, after, hrunning, rfl⟩, hfirst⟩ := earliest?_eq_some hr
    cases h
    exact .finish hgoing hbusy hrunning hfirst (by simp)
  · next r others i hr =>
    obtain ⟨⟨before, after, hrunning, rfl⟩, hfirst⟩ := earliest?_eq_some hr
    split at h
    · next hle =>
      cases h
      exact .finish hgoing hbusy hrunning hfirst (by simpa using hle)
    · next hlate =>
      cases h
      exact .interrupt hgoing hbusy (by simp [hrunning]) hfirst rfl (Nat.lt_of_not_le hlate)

theorem step_of_next? (h : s.next? slots limit = some s') : Step slots limit s s' := by
  unfold next? at h
  split at h
  · cases h
  · next hgoing hwaiting => exact step_of_await? hgoing (.inl hwaiting) h
  · next hgoing hwaiting =>
    split at h
    · next hfree =>
      cases h
      exact .start hgoing hwaiting hfree
    · next hfull => exact step_of_await? hgoing (.inr (Nat.le_of_not_lt hfull)) h

theorem await?_eq_none (h : s.await? limit = none) : s.running = [] := by
  unfold await? at h
  split at h
  · next hr => exact earliest?_eq_none.mp hr
  · cases h
  · split at h <;> cases h

theorem next?_of_busy (hgoing : s.failure = none)
    (hbusy : s.waiting = [] ∨ slots ≤ s.running.length) : s.next? slots limit = s.await? limit := by
  unfold next?
  rw [hgoing]
  split
  · next h => cases h
  · rfl
  · next hwaiting =>
    rw [hwaiting] at hbusy
    exact if_neg (Nat.not_lt_of_le (hbusy.resolve_left (List.cons_ne_nil _ _)))

theorem next?_isSome (h : Step slots limit s s') : (s.next? slots limit).isSome = true := by
  have hawait (hr : s.running ≠ []) : (s.await? limit).isSome = true := by
    cases hawait : s.await? limit with
    | none => exact absurd (await?_eq_none hawait) hr
    | some s' => rfl
  cases h with
  | start hgoing hwaiting hfree => simp [next?, hgoing, hwaiting, hfree]
  | finish hgoing hbusy hrunning =>
    rw [next?_of_busy hgoing hbusy]
    exact hawait (by simp [hrunning])
  | interrupt hgoing hbusy hr =>
    rw [next?_of_busy hgoing hbusy]
    exact hawait (List.ne_nil_of_mem hr)

theorem final_iff : Final slots limit s ↔ s.next? slots limit = none := by
  constructor
  · intro h
    cases hnext : s.next? slots limit with
    | none => rfl
    | some s' => exact absurd (step_of_next? hnext) (h s')
  · intro h s' hstep
    have := next?_isSome hstep
    simp [h] at this

/-- Without a failure everything has been answered in the end. -/
theorem Final.all_answered (h : Final slots limit s) (hslots : 0 < slots)
    (hgoing : s.failure = none) : s.waiting = [] ∧ s.running = [] := by
  rw [final_iff] at h
  by_cases hbusy : s.waiting = [] ∨ slots ≤ s.running.length
  · rw [next?_of_busy hgoing hbusy] at h
    have hrunning := await?_eq_none h
    refine ⟨hbusy.resolve_right fun hle => ?_, hrunning⟩
    rw [hrunning, List.length_nil] at hle
    omega
  · obtain ⟨hwaiting, hfree⟩ := not_or.mp hbusy
    obtain ⟨j, rest, hwaiting⟩ := List.exists_cons_of_ne_nil hwaiting
    simp [next?, hgoing, hwaiting, Nat.lt_of_not_le hfree] at h

/-- The calls are made by steps, until no more can follow. -/
theorem steps_run (slots : Nat) (limit : Option Interruption) (s : FanOut) :
    Steps slots limit s (s.run slots limit) ∧ Final slots limit (s.run slots limit) := by
  fun_induction run slots limit s with
  | case1 s hnone => exact ⟨.refl, final_iff.mpr hnone⟩
  | case2 s s' hsome ih => exact ⟨.head (step_of_next? hsome) ih.1, ih.2⟩

end ShardedSql.Execution.FanOut
