import Mathlib.Data.List.Induction

namespace ShardedSql.Execution

/-- The time that a call takes up, in milliseconds from the start of its request. -/
structure Span where
  start : Nat
  finish : Nat
  deriving DecidableEq, Repr

/-- How many calls that finish at the given times are unfinished at the time `t`. -/
def unfinishedAt (t : Nat) (finishes : List Nat) : Nat := finishes.countP (t < ·)

/-- Puts a time before the first that is no later, so that times which run from the latest to the
earliest still do. -/
def insertFinish (t : Nat) : List Nat → List Nat
  | [] => [t]
  | u :: us => if u ≤ t then t :: u :: us else u :: insertFinish t us

/-- The first time at which fewer than `slots` calls are unfinished, where their finish times run
from the latest to the earliest: all but `slots - 1` of them have finished when the one at that
place has. -/
def freeAt (slots : Nat) (finishes : List Nat) : Nat := finishes[slots - 1]?.getD 0

/-- Calls start in their order, each as soon as fewer than `slots` of those before it are
unfinished, whose finish times run from the latest to the earliest. A call without delay never
takes up a slot. -/
def schedule (slots : Nat) : (finishes delays : List Nat) → List Span
  | _, [] => []
  | finishes, d :: ds =>
    let start := freeAt slots finishes
    ⟨start, start + d⟩ :: schedule slots (insertFinish (start + d) finishes) ds

theorem insertFinish_perm (t : Nat) (us : List Nat) : (insertFinish t us).Perm (t :: us) := by
  induction us with
  | nil => rfl
  | cons u us ih =>
    unfold insertFinish
    split
    · rfl
    · exact (ih.cons u).trans (List.Perm.swap t u us)

theorem pairwise_insertFinish {us : List Nat} (h : us.Pairwise (· ≥ ·)) (t : Nat) :
    (insertFinish t us).Pairwise (· ≥ ·) := by
  induction us with
  | nil => simp [insertFinish]
  | cons u us ih =>
    obtain ⟨hu, hus⟩ := List.pairwise_cons.mp h
    unfold insertFinish
    split
    · next hut =>
      exact .cons (fun v hv => by
        rcases List.mem_cons.mp hv with rfl | hv
        · exact hut
        · exact Nat.le_trans (hu v hv) hut) h
    · next hut =>
      refine .cons (fun v hv => ?_) (ih hus)
      rcases List.mem_cons.mp ((insertFinish_perm t us).mem_iff.mp hv) with rfl | hv
      · omega
      · exact hu v hv

theorem unfinishedAt_insertFinish (s t : Nat) (us : List Nat) :
    unfinishedAt s (insertFinish t us) = unfinishedAt s us + if s < t then 1 else 0 := by
  rw [unfinishedAt, (insertFinish_perm t us).countP_eq, List.countP_cons]
  simp [unfinishedAt]

/-- The times at which a call may start are those from `freeAt` on. -/
theorem unfinishedAt_lt_iff {slots : Nat} (hs : 0 < slots) {finishes : List Nat}
    (h : finishes.Pairwise (· ≥ ·)) (t : Nat) :
    unfinishedAt t finishes < slots ↔ freeAt slots finishes ≤ t := by
  induction finishes generalizing slots with
  | nil => simp [unfinishedAt, freeAt, hs]
  | cons f fs ih =>
    obtain ⟨hf, hfs⟩ := List.pairwise_cons.mp h
    obtain ⟨n, rfl⟩ := Nat.exists_eq_succ_of_ne_zero (Nat.ne_of_gt hs)
    have hcons : unfinishedAt t (f :: fs) = unfinishedAt t fs + if t < f then 1 else 0 := by
      simp [unfinishedAt, List.countP_cons]
    by_cases htf : t < f
    · rcases n with _ | n
      · simp [hcons, htf, freeAt]
      · have := ih (Nat.succ_pos n) hfs
        simp only [hcons, htf, freeAt] at *
        simpa using this
    · have hzero : unfinishedAt t fs = 0 := by
        simp only [unfinishedAt, List.countP_eq_zero, decide_eq_true_eq]
        exact fun g hg => by have := hf g hg; omega
      have hle : freeAt (n + 1) (f :: fs) ≤ t := by
        simp only [freeAt, Nat.add_sub_cancel]
        rcases hg : (f :: fs)[n]? with _ | g
        · simp
        · rcases List.mem_cons.mp (List.mem_of_getElem? hg) with rfl | hg
          · simpa using htf
          · have := hf g hg
            simp only [Option.getD_some]
            omega
      simp [hcons, hzero, htf, hle]

/-- Finish times from the latest to the earliest. -/
def latestFirst (finishes : List Nat) : List Nat :=
  finishes.foldl (fun us t => insertFinish t us) []

theorem latestFirst_concat (finishes : List Nat) (t : Nat) :
    latestFirst (finishes ++ [t]) = insertFinish t (latestFirst finishes) := by
  simp [latestFirst]

theorem pairwise_latestFirst (finishes : List Nat) : (latestFirst finishes).Pairwise (· ≥ ·) := by
  induction finishes using List.reverseRecOn with
  | nil => exact .nil
  | append_singleton finishes t ih =>
    rw [latestFirst_concat]
    exact pairwise_insertFinish ih t

theorem unfinishedAt_latestFirst (t : Nat) (finishes : List Nat) :
    unfinishedAt t (latestFirst finishes) = unfinishedAt t finishes := by
  induction finishes using List.reverseRecOn with
  | nil => rfl
  | append_singleton finishes f ih =>
    rw [latestFirst_concat, unfinishedAt_insertFinish, ih]
    simp [unfinishedAt, List.countP_append, List.countP_cons]

/-- A call starts at the first time at which a slot is free. -/
theorem freeAt_latestFirst_eq {slots t : Nat} (hslots : 0 < slots) {finishes : List Nat}
    (hfree : unfinishedAt t finishes < slots) (hbusy : ∀ u < t, slots ≤ unfinishedAt u finishes) :
    freeAt slots (latestFirst finishes) = t := by
  have hiff (u : Nat) : unfinishedAt u finishes < slots ↔ freeAt slots (latestFirst finishes) ≤ u := by
    rw [← unfinishedAt_lt_iff hslots (pairwise_latestFirst finishes), unfinishedAt_latestFirst]
  have hle := (hiff t).mp hfree
  refine Nat.le_antisymm hle (Nat.le_of_not_lt fun hlt => ?_)
  have hslot := (hiff _).mpr (Nat.le_refl _)
  have := hbusy _ hlt
  omega

theorem le_freeAt_latestFirst {slots t : Nat} (hslots : 0 < slots) {finishes : List Nat}
    (hbusy : ∀ u < t, slots ≤ unfinishedAt u finishes) :
    t ≤ freeAt slots (latestFirst finishes) := by
  refine Nat.le_of_not_lt fun hlt => ?_
  have hslot := (unfinishedAt_lt_iff hslots (pairwise_latestFirst finishes) _).mpr (Nat.le_refl _)
  rw [unfinishedAt_latestFirst] at hslot
  have := hbusy _ hlt
  omega

/-- The times that the calls take up one after the other. -/
def spans (slots : Nat) (delays : List Nat) : List Span := schedule slots [] delays

theorem schedule_concat (slots : Nat) (finishes delays : List Nat) (d : Nat) :
    ∃ start, schedule slots finishes (delays ++ [d]) =
        schedule slots finishes delays ++ [⟨start, start + d⟩] ∧
      start = freeAt slots (((schedule slots finishes delays).map (·.finish)).foldl
        (fun us t => insertFinish t us) finishes) := by
  induction delays generalizing finishes with
  | nil => exact ⟨_, rfl, rfl⟩
  | cons e delays ih =>
    obtain ⟨start, hschedule, hstart⟩ := ih (insertFinish (freeAt slots finishes + e) finishes)
    exact ⟨start, by simp [schedule, hschedule], by simpa [schedule] using hstart⟩

theorem spans_concat (slots : Nat) (delays : List Nat) (d : Nat) :
    ∃ start, spans slots (delays ++ [d]) = spans slots delays ++ [⟨start, start + d⟩] ∧
      start = freeAt slots (latestFirst ((spans slots delays).map (·.finish))) :=
  schedule_concat slots [] delays d

theorem length_schedule (slots : Nat) (finishes delays : List Nat) :
    (schedule slots finishes delays).length = delays.length := by
  induction delays generalizing finishes with
  | nil => rfl
  | cons d ds ih => simp [schedule, ih]

theorem length_spans (slots : Nat) (delays : List Nat) :
    (spans slots delays).length = delays.length := length_schedule slots [] delays

theorem start_le_finish {slots : Nat} {delays : List Nat} {a : Span} (h : a ∈ spans slots delays) :
    a.start ≤ a.finish := by
  induction delays using List.reverseRecOn with
  | nil => cases h
  | append_singleton delays d ih =>
    obtain ⟨start, hspans, -⟩ := spans_concat slots delays d
    rw [hspans] at h
    rcases List.mem_append.mp h with h | h
    · exact ih h
    · rw [List.mem_singleton.mp h]
      exact Nat.le_add_right _ _

/-- Later calls do not start while the calls before them leave no slot free. -/
theorem spans_append {slots : Nat} (hslots : 0 < slots) (delays more : List Nat) :
    ∃ later, spans slots (delays ++ more) = spans slots delays ++ later ∧
      ∀ t, (∀ u < t, slots ≤ unfinishedAt u ((spans slots delays).map (·.finish))) →
        ∀ a ∈ later, t ≤ a.start := by
  induction more using List.reverseRecOn with
  | nil => exact ⟨[], by simp, by simp⟩
  | append_singleton more d ih =>
    obtain ⟨later, hlater, hstarts⟩ := ih
    obtain ⟨start, hspans, hstart⟩ := spans_concat slots (delays ++ more) d
    refine ⟨later ++ [⟨start, start + d⟩], ?_, ?_⟩
    · rw [← List.append_assoc, hspans, hlater, List.append_assoc]
    · intro t hbusy a ha
      rcases List.mem_append.mp ha with ha | ha
      · exact hstarts t hbusy a ha
      · rw [List.mem_singleton.mp ha, hstart, hlater]
        refine le_freeAt_latestFirst hslots fun u hu => Nat.le_trans (hbusy u hu) ?_
        rw [List.map_append, unfinishedAt, unfinishedAt, List.countP_append]
        exact Nat.le_add_right _ _

end ShardedSql.Execution
