import ShardedSql.Proofs.Execution.Ending

namespace ShardedSql.Execution

open FanOut
open Planning (Call Plan RoutingMap)
open Result (ResultSet)

/-- Whether a call takes up its time no later than it does in another schedule. -/
structure Span.NoLater (a b : Span) : Prop where
  start : a.start ≤ b.start
  finish : a.finish ≤ b.finish

/-- More slots are free no later, if no more calls are unfinished at any time. -/
theorem freeAt_mono {slots more : Nat} (hslots : 0 < slots) (hmore : slots ≤ more)
    {us vs : List Nat} (hus : us.Pairwise (· ≥ ·)) (hvs : vs.Pairwise (· ≥ ·))
    (h : ∀ t, unfinishedAt t us ≤ unfinishedAt t vs) : freeAt more us ≤ freeAt slots vs := by
  have hfree := (unfinishedAt_lt_iff hslots hvs _).mpr (Nat.le_refl _)
  apply (unfinishedAt_lt_iff (Nat.lt_of_lt_of_le hslots hmore) hus _).mp
  exact Nat.lt_of_lt_of_le (Nat.lt_of_le_of_lt (h _) hfree) hmore

theorem unfinishedAt_insertFinish_mono {t u : Nat} (htu : t ≤ u) {us vs : List Nat}
    (h : ∀ s, unfinishedAt s us ≤ unfinishedAt s vs) (s : Nat) :
    unfinishedAt s (insertFinish t us) ≤ unfinishedAt s (insertFinish u vs) := by
  rw [unfinishedAt_insertFinish, unfinishedAt_insertFinish]
  refine Nat.add_le_add (h s) ?_
  split
  · next hst => exact Nat.le_of_eq (if_pos (Nat.lt_of_lt_of_le hst htu)).symm
  · exact Nat.zero_le _

/-- Calls that find more slots start no later, one by one. It is by numbers of unfinished calls that
the two schedules are compared, as the calls that are unfinished at one time need not be the same in
both. -/
theorem schedule_mono {slots more : Nat} (hslots : 0 < slots) (hmore : slots ≤ more)
    {us vs : List Nat} (hus : us.Pairwise (· ≥ ·)) (hvs : vs.Pairwise (· ≥ ·))
    (h : ∀ t, unfinishedAt t us ≤ unfinishedAt t vs) (delays : List Nat) :
    List.Forall₂ Span.NoLater (schedule more us delays) (schedule slots vs delays) := by
  induction delays generalizing us vs with
  | nil => exact .nil
  | cons d ds ih =>
    have hstart := freeAt_mono hslots hmore hus hvs h
    have hfinish := Nat.add_le_add_right hstart d
    exact .cons ⟨hstart, hfinish⟩ (ih (pairwise_insertFinish hus _) (pairwise_insertFinish hvs _)
      (unfinishedAt_insertFinish_mono hfinish h))

theorem spans_mono {slots more : Nat} (hslots : 0 < slots) (hmore : slots ≤ more)
    (delays : List Nat) :
    List.Forall₂ Span.NoLater (spans more delays) (spans slots delays) :=
  schedule_mono hslots hmore .nil .nil (fun _ => Nat.le_refl _) delays

theorem lastFinish_answers_mono {slots more : Nat} (hslots : 0 < slots) (hmore : slots ≤ more)
    (js : List Job) : lastFinish (answers more js) ≤ lastFinish (answers slots js) := by
  have hspans := spans_mono hslots hmore (delays js)
  rw [lastFinish, lastFinish, finishes_answers, finishes_answers]
  generalize spans more (delays js) = as at hspans ⊢
  generalize spans slots (delays js) = bs at hspans ⊢
  induction hspans with
  | nil => exact Nat.le_refl _
  | cons hspan _ ih =>
    have hfinish := hspan.finish
    simp only [List.map_cons, List.foldr_cons]
    omega

namespace FanOut

variable {slots : Nat} {limit : Option Interruption} {js called : List Job}
  {past : List Running} {s s' : FanOut} {i t : Nat}

/-- Whether the call that has `i` calls before it can start at the time `t`. -/
def StartsAt (slots : Nat) (limit : Option Interruption) (js : List Job) (i t : Nat) : Prop :=
  ∃ s s', Steps slots limit (initial js) s ∧ Step slots limit s s' ∧ s.time = t ∧
    s.made.length = i ∧ i < s'.made.length

theorem made_settle (s : FanOut) (place : Nat) (result : Except Error ResultSet) :
    (s.settle place result).made = s.made := by
  cases result <;> rfl

theorem made_start (s : FanOut) (j : Job) (rest : List Job) :
    (s.start j rest).made = s.made ++ [j.call] := by
  unfold start
  split
  · exact made_settle _ _ _
  · rfl

/-- A step makes the next call, or none. -/
theorem Step.made_cases (h : Step slots limit s s') :
    (∃ j rest, s.waiting = j :: rest ∧ s.running.length < slots ∧
      s'.made = s.made ++ [j.call]) ∨ s'.made = s.made := by
  cases h with
  | start _ hwaiting hfree => exact .inl ⟨_, _, hwaiting, hfree, made_start _ _ _⟩
  | finish => exact .inr (made_settle _ _ _)
  | interrupt => exact .inr rfl

/-- A request that goes on has come as far as its schedule says. -/
theorem Steps.tracks (hslots : 0 < slots) (hprompt : ∀ l ∈ limit, l.Prompt)
    (h : Steps slots limit (initial js) s) (hstep : Step slots limit s s') :
    ∃ called past, Tracks slots limit js called [] past s := by
  rcases h.tracks_or_stops hslots hprompt with htracks | ⟨e, hstops⟩
  · exact htracks
  · exact absurd hstep (hstops.final _)

/-- What was made so far starts the schedule, and the next call follows if it may start. -/
theorem Tracks.span_next (h : Tracks slots limit js called [] past s) (hslots : 0 < slots)
    {j : Job} {rest : List Job} (hwaiting : s.waiting = j :: rest)
    (hfree : s.running.length < slots) :
    (spans slots (delays js))[s.made.length]? = some ⟨s.time, s.time + j.reply.delay⟩ := by
  obtain ⟨start, -, hspans, hstart⟩ := answers_concat slots called j
  rw [h.freeAt_eq hfree (by simp [hwaiting])] at hstart
  subst hstart
  obtain ⟨later, laterSpans, -, hall, -⟩ :=
    (h.call hwaiting hfree).ahead hslots (t := 0) fun _ u hu => absurd hu (Nat.not_lt_zero u)
  have hlength : (spans slots (delays called)).length = s.made.length := by
    simp [length_spans, delays, h.made]
  rw [hall, hspans, List.append_assoc, ← hlength, List.getElem?_append_right (Nat.le_refl _)]
  simp

theorem Steps.startsAt_of_made (h : Steps slots limit (initial js) s) (hi : i < s.made.length) :
    ∃ t, StartsAt slots limit js i t := by
  induction h with
  | refl => exact absurd hi (Nat.not_lt_zero i)
  | @tail s s' hsteps hstep ih =>
    by_cases hmade : i < s.made.length
    · exact ih hmade
    · refine ⟨s.time, s, s', hsteps, hstep, rfl, ?_, hi⟩
      rcases hstep.made_cases with ⟨j, rest, -, -, hgrown⟩ | hsame
      · rw [hgrown, List.length_append, List.length_singleton] at hi
        omega
      · rw [hsame] at hi
        exact absurd hi hmade

/-- A request is interrupted when nothing else could start in time. -/
theorem Tracks.late_of_interrupt (h : Tracks slots limit js called [] past s) (hslots : 0 < slots)
    (hbusy : s.waiting = [] ∨ slots ≤ s.running.length) {r : Running}
    (hfirst : ∀ q ∈ s.running, r.finish ≤ q.finish) {l : Interruption}
    (hlate : l.lastTime < r.finish) {a : Span} (ha : (spans slots (delays js))[i]? = some a)
    (hi : s.made.length ≤ i) : l.lastTime < a.start := by
  have hfull (hwaiting : s.waiting ≠ []) :=
    h.busy_until (hbusy.resolve_left hwaiting) hfirst
  obtain ⟨later, laterSpans, -, hspans, hstarts, -⟩ := h.ahead hslots hfull
  have hlength : (spans slots (delays called)).length = s.made.length := by
    simp [length_spans, delays, h.made]
  rw [hspans, List.getElem?_append_right (by omega)] at ha
  exact Nat.lt_of_lt_of_le hlate (hstarts a (List.mem_of_getElem? ha))

theorem failure_settle_of_ok {place : Nat} {result : Except Error ResultSet}
    (h : ∃ part, result = .ok part) : (s.settle place result).failure = s.failure := by
  obtain ⟨part, rfl⟩ := h
  rfl

theorem failure_start_of_ok {j : Job} {rest : List Job}
    (h : ∃ part, j.reply.result = .ok part) : (s.start j rest).failure = s.failure := by
  unfold start
  split
  · exact failure_settle_of_ok h
  · rfl

/-- If all calls succeed, nothing but an interruption ends their request early, and then all calls
have been made that start in time. -/
theorem Steps.made_in_time (hslots : 0 < slots) (hprompt : ∀ l ∈ limit, l.Prompt)
    (hok : ∀ j ∈ js, ∃ part, j.reply.result = .ok part) (h : Steps slots limit (initial js) s) :
    s.failure = none ∨ ∃ l ∈ limit, ∀ (i : Nat) (a : Span), (spans slots (delays js))[i]? = some a →
      s.made.length ≤ i → l.lastTime < a.start := by
  induction h with
  | refl => exact .inl rfl
  | tail hsteps hstep =>
    obtain ⟨called, past, htracks⟩ := Steps.tracks hslots hprompt hsteps hstep
    cases hstep with
    | @start j rest hgoing hwaiting =>
      left
      have hj : j ∈ js := by simp [htracks.jobs, hwaiting]
      rw [failure_start_of_ok (hok j hj), hgoing]
    | @finish r before after hgoing _ hrunning =>
      left
      have hr : r ∈ answers slots called := htracks.split.mem_iff.mpr (by simp [hrunning])
      obtain ⟨j, hj, hresult⟩ := result_of_mem_answers hr
      have hj : j ∈ js := by simp [htracks.jobs, hj]
      rw [FanOut.finish, failure_settle_of_ok (by rw [hresult]; exact hok j hj)]
      exact hgoing
    | interrupt _ hbusy _ hfirst hlimit hlate =>
      right
      exact ⟨_, hlimit, fun i a ha hi => htracks.late_of_interrupt hslots hbusy hfirst hlate ha hi⟩

/-- Calls start when their schedule says, and in time. -/
theorem StartsAt.span (hslots : 0 < slots) (hprompt : ∀ l ∈ limit, l.Prompt)
    (h : StartsAt slots limit js i t) :
    (∃ a, (spans slots (delays js))[i]? = some a ∧ a.start = t) ∧ ∀ l ∈ limit, t ≤ l.lastTime := by
  obtain ⟨s, s', hsteps, hstep, rfl, rfl, hmade⟩ := h
  obtain ⟨called, past, htracks⟩ := Steps.tracks hslots hprompt hsteps hstep
  rcases hstep.made_cases with ⟨j, rest, hwaiting, hfree, -⟩ | hsame
  · exact ⟨⟨_, htracks.span_next hslots hwaiting hfree, rfl⟩, htracks.counts⟩
  · rw [hsame] at hmade
    exact absurd hmade (Nat.lt_irrefl _)

/-- If all calls succeed, those that start in time are made. -/
theorem startsAt_of_span (hslots : 0 < slots) (hprompt : ∀ l ∈ limit, l.Prompt)
    (hok : ∀ j ∈ js, ∃ part, j.reply.result = .ok part) {a : Span}
    (ha : (spans slots (delays js))[i]? = some a) (hcounts : ∀ l ∈ limit, a.start ≤ l.lastTime) :
    StartsAt slots limit js i a.start := by
  obtain ⟨hsteps, hfinal⟩ := steps_run slots limit (initial js)
  have hmade : i < (run slots limit (initial js)).made.length := by
    rcases Steps.made_in_time hslots hprompt hok hsteps with hgoing | ⟨l, hl, hlate⟩
    · obtain ⟨hwaiting, -⟩ := hfinal.all_answered hslots hgoing
      rcases Steps.tracks_or_stops hslots hprompt hsteps with ⟨called, past, htracks⟩ | ⟨e, hstops⟩
      · have hjobs := htracks.jobs
        rw [hwaiting, List.append_nil] at hjobs
        obtain ⟨hi, -⟩ := List.getElem?_eq_some_iff.mp ha
        simpa [htracks.made, ← hjobs, length_spans, delays] using hi
      · cases hgoing.symm.trans hstops.failure
    · refine Nat.lt_of_not_le fun hi => ?_
      exact absurd (hcounts l hl) (Nat.not_le_of_lt (hlate i a ha hi))
  obtain ⟨t, ht⟩ := Steps.startsAt_of_made hsteps hmade
  obtain ⟨⟨b, hb, rfl⟩, -⟩ := ht.span hslots hprompt
  rw [ha] at hb
  cases hb
  exact ht

/-- With more slots each call that starts does so no later. -/
theorem StartsAt.mono {more : Nat} (hslots : 0 < slots) (hmore : slots ≤ more)
    (hprompt : ∀ l ∈ limit, l.Prompt) (hok : ∀ j ∈ js, ∃ part, j.reply.result = .ok part)
    (h : StartsAt slots limit js i t) :
    (∃ u, StartsAt more limit js i u) ∧ ∀ u, StartsAt more limit js i u → u ≤ t := by
  have hpos := Nat.lt_of_lt_of_le hslots hmore
  obtain ⟨⟨a, ha, rfl⟩, hcounts⟩ := h.span hslots hprompt
  have hspans := spans_mono hslots hmore (delays js)
  have hlength := hspans.length_eq
  obtain ⟨hi, rfl⟩ := List.getElem?_eq_some_iff.mp ha
  have hearlier := (hspans.get (by omega) hi).start
  refine ⟨⟨_, startsAt_of_span hpos hprompt hok (List.getElem?_eq_getElem (by omega)) fun l hl =>
    Nat.le_trans hearlier (hcounts l hl)⟩, fun u hu => ?_⟩
  obtain ⟨⟨b, hb, rfl⟩, -⟩ := hu.span hpos hprompt
  obtain ⟨hi', rfl⟩ := List.getElem?_eq_some_iff.mp hb
  exact hearlier

end FanOut

/-- If all calls succeed, the last answer or the deadline decides, whichever comes first. -/
theorem Decides.of_ok {slots : Nat} {deadline : Option Nat} {js : List Job}
    {parts : List ResultSet} (hparts : js.map (·.reply.result) = parts.map .ok) {time : Nat}
    {result : Except Error (List ResultSet)}
    (h : Decides (Ending slots deadline none js) time result) :
    ((∀ d ∈ deadline, lastFinish (answers slots js) ≤ d) ∧
        time = lastFinish (answers slots js) ∧ result = .ok parts) ∨
      ∃ d ∈ deadline, d < lastFinish (answers slots js) ∧ time = d ∧
        result = .error (.timeout d) := by
  obtain ⟨rank, hending, hfirst⟩ := h
  cases hending with
  | cancelled h => cases h
  | failed hq he => exact absurd he (result_ne_error hparts hq _)
  | completed h =>
    left
    refine ⟨fun d hd => ?_, rfl, ?_⟩
    · have := hfirst _ _ _ (.timedOut hd)
      omega
    · exact congrArg Except.ok (eq_of_map_ok (h.symm.trans hparts))
  | timedOut h =>
    right
    have := hfirst _ _ _ (.completed hparts)
    exact ⟨_, h, by omega, rfl, rfl⟩

/-- With more slots a request whose calls all succeed ends no later, and if it got all its answers
it still gets the same. -/
theorem Decides.mono {slots more : Nat} (hslots : 0 < slots) (hmore : slots ≤ more)
    {deadline : Option Nat} {js : List Job} {parts : List ResultSet}
    (hparts : js.map (·.reply.result) = parts.map .ok) {time time' : Nat}
    {result result' : Except Error (List ResultSet)}
    (h : Decides (Ending slots deadline none js) time result)
    (h' : Decides (Ending more deadline none js) time' result') :
    time' ≤ time ∧ (∀ ps, result = .ok ps → result' = .ok ps) := by
  have hlast := lastFinish_answers_mono hslots hmore js
  rcases h.of_ok hparts with ⟨hin, rfl, rfl⟩ | ⟨d, hd, hlate, rfl, rfl⟩ <;>
    rcases h'.of_ok hparts with ⟨hin', rfl, rfl⟩ | ⟨d', hd', hlate', rfl, rfl⟩
  · exact ⟨hlast, fun ps h => h⟩
  · have := hin _ hd'
    omega
  · exact ⟨hin' _ hd, nofun⟩
  · obtain rfl := Option.some.inj (hd.symm.trans hd')
    exact ⟨Nat.le_refl _, nofun⟩

/-- Whether the call that has `i` calls before it can start at the time `t` of its request. -/
def CallStartsAt (config : Config) (r : Request) (reply : Nat → Call → Reply) (calls : List Call)
    (i t : Nat) : Prop :=
  StartsAt (Execution.slots config) (Interruption.of? (r.deadline config) r.cancelAfter)
    (jobs reply calls) i t

theorem slots_mono {few many : Config} (h : few.maxParallel ≤ many.maxParallel) :
    Execution.slots few ≤ Execution.slots many := by
  have := UInt64.le_iff_toNat_le.mp h
  unfold Execution.slots
  omega

section

variable {few many : Config} {r : Request} {reply : Nat → Call → Reply} {calls : List Call}
  {parts : List ResultSet}

theorem ok_of_mem_jobs (h : (jobs reply calls).map (·.reply.result) = parts.map .ok) :
    ∀ j ∈ jobs reply calls, ∃ part, j.reply.result = .ok part := by
  intro j hj
  have hmem : j.reply.result ∈ (jobs reply calls).map (·.reply.result) := List.mem_map_of_mem hj
  rw [h] at hmem
  obtain ⟨part, -, hpart⟩ := List.mem_map.mp hmem
  exact ⟨part, hpart.symm⟩

theorem CallStartsAt.mono (hmany : few.maxParallel ≤ many.maxParallel)
    (hdeadline : r.deadline many = r.deadline few) (hcancel : r.cancelAfter ≠ some 0)
    (hparts : (jobs reply calls).map (·.reply.result) = parts.map .ok) {i t : Nat}
    (h : CallStartsAt few r reply calls i t) :
    (∃ u, CallStartsAt many r reply calls i u) ∧
      ∀ u, CallStartsAt many r reply calls i u → u ≤ t := by
  unfold CallStartsAt at h ⊢
  rw [hdeadline]
  exact h.mono (slots_pos few) (slots_mono hmany) (Interruption.prompt_of? hcancel)
    (ok_of_mem_jobs hparts)

/-- Without a deadline every call starts. -/
theorem exists_callStartsAt (config : Config) (hdeadline : r.deadline config = none)
    (hcancel : r.cancelAfter = none)
    (hparts : (jobs reply calls).map (·.reply.result) = parts.map .ok) {i : Nat}
    (hi : i < calls.length) : ∃ t, CallStartsAt config r reply calls i t := by
  have hspan : i < (spans (Execution.slots config) (delays (jobs reply calls))).length := by
    simpa [length_spans, delays, jobs] using hi
  have hlimit : Interruption.of? (r.deadline config) r.cancelAfter = none := by
    rw [hdeadline, hcancel]
    rfl
  unfold CallStartsAt
  rw [hlimit]
  exact ⟨_, startsAt_of_span (slots_pos config) (by simp) (ok_of_mem_jobs hparts)
    (List.getElem?_eq_getElem hspan) (by simp)⟩

theorem runCalls_mono (hmany : few.maxParallel ≤ many.maxParallel)
    (hdeadline : r.deadline many = r.deadline few) (hcancel : r.cancelAfter = none)
    (hparts : (jobs reply calls).map (·.reply.result) = parts.map .ok) :
    (runCalls many r reply calls).elapsed ≤ (runCalls few r reply calls).elapsed ∧
      ∀ ps, (runCalls few r reply calls).result = .ok ps →
        (runCalls many r reply calls).result = .ok ps := by
  have hnever : r.cancelAfter ≠ some 0 := by simp [hcancel]
  have hfew := (runCalls_decides few hnever reply calls).1
  have hwide := (runCalls_decides many hnever reply calls).1
  rw [hcancel] at hfew hwide
  rw [hdeadline] at hwide
  exact hfew.mono (slots_pos few) (slots_mono hmany) hparts hwide

/-- A request gets all its answers only if all its calls succeed. -/
theorem results_of_ok (config : Config) (hcancel : r.cancelAfter ≠ some 0)
    (h : (runCalls config r reply calls).result = .ok parts) :
    (jobs reply calls).map (·.reply.result) = parts.map .ok := by
  obtain ⟨rank, hending, -⟩ := (runCalls_decides config hcancel reply calls).1
  rw [h] at hending
  generalize (runCalls config r reply calls).elapsed = time at hending
  cases hending with
  | completed hparts => exact hparts

theorem execute_mono (hmany : few.maxParallel ≤ many.maxParallel)
    (hdeadline : r.deadline many = r.deadline few) (hcancel : r.cancelAfter = none)
    (backend : Call → Reply) {p : Plan} {answer : ResultSet}
    (h : (execute few r backend p).result = .ok answer) :
    (execute many r backend p).result = .ok answer ∧
      (execute many r backend p).elapsed ≤ (execute few r backend p).elapsed := by
  by_cases hexplain : ∃ sharded, p = .explain sharded p.routing
  · obtain ⟨sharded, hp⟩ := hexplain
    rw [hp] at h ⊢
    exact ⟨h, Nat.le_refl _⟩
  · have hcalls : ∀ sharded, p ≠ .explain sharded p.routing :=
      fun sharded hp => hexplain ⟨sharded, hp⟩
    rw [execute_eq_andThen _ r backend hcalls] at h ⊢
    rw [execute_eq_andThen _ r backend hcalls]
    cases hrun : (runCalls few r (fun _ => backend) p.routing.calls).result with
    | error e => simp [Outcome.andThen, hrun, Except.bind] at h
    | ok parts =>
      have hparts := results_of_ok few (by simp [hcancel]) hrun
      obtain ⟨helapsed, hresult⟩ := runCalls_mono hmany hdeadline hcancel hparts
      refine ⟨?_, helapsed⟩
      simpa [Outcome.andThen, hrun, hresult _ hrun] using h

end

/-- More parallelism never hurts. Let all calls of a request succeed and nobody cancel it. Under a
higher limit, each call that starts under the lower one starts too, and no later, and the request
ends no later. What succeeds within its deadline still does so, with the same answer. -/
theorem more_slots_never_hurt {few many : Config} (hmany : few.maxParallel ≤ many.maxParallel)
    (htimeout : many.backendTimeout = few.backendTimeout) {r : Request}
    (hcancel : r.cancelAfter = none) :
    (∀ (m : RoutingMap) (reply : Nat → Call → Reply) (parts : List ResultSet),
      m.calls.mapIdx (fun i c => (reply i c).result) = parts.map .ok →
        (∀ i t, CallStartsAt few r reply m.calls i t →
          (∃ u, CallStartsAt many r reply m.calls i u) ∧
          ∀ u, CallStartsAt many r reply m.calls i u → u ≤ t) ∧
        (r.deadline few = none → ∀ i < m.calls.length, ∃ t, CallStartsAt few r reply m.calls i t) ∧
        (runCalls many r reply m.calls).elapsed ≤ (runCalls few r reply m.calls).elapsed ∧
        ∀ ps, (runCalls few r reply m.calls).result = .ok ps →
          (runCalls many r reply m.calls).result = .ok ps) ∧
    ∀ (backend : Call → Reply) (p : Plan) (answer : ResultSet),
      (execute few r backend p).result = .ok answer →
        (execute many r backend p).result = .ok answer ∧
        (execute many r backend p).elapsed ≤ (execute few r backend p).elapsed := by
  have hdeadline : r.deadline many = r.deadline few := by
    simp [Request.deadline, htimeout]
  refine ⟨fun m reply parts hparts => ?_, fun backend p answer h =>
    execute_mono hmany hdeadline hcancel backend h⟩
  rw [← map_result_jobs] at hparts
  exact ⟨fun i t h => h.mono hmany hdeadline (by simp [hcancel]) hparts,
    fun hnone i hi => exists_callStartsAt few hnone hcancel hparts hi,
    runCalls_mono hmany hdeadline hcancel hparts⟩

def oneSlot : Config := Config.standard.withMaxParallel 1

def twoSlots : Config := Config.standard.withMaxParallel 2

def within200 : Request := ⟨some 200, none⟩

def threeDeletes : RoutingMap :=
  ⟨[⟨"slice-0", "shop", "DELETE FROM orders_0"⟩, ⟨"slice-1", "shop", "DELETE FROM orders_1"⟩,
    ⟨"slice-2", "shop", "DELETE FROM orders_2"⟩]⟩

def fiftyThirtyForty (i : Nat) (_ : Call) : Reply :=
  ⟨[50, 30, 40].getD i 0, .ok (.ofCounts 1 0)⟩

/-- One at a time, the third call waits for the first two. -/
theorem third_delete_starts_earlier :
    oneSlot.maxParallel ≤ twoSlots.maxParallel ∧ twoSlots.backendTimeout = oneSlot.backendTimeout ∧
    within200.cancelAfter = none ∧
    CallStartsAt oneSlot within200 fiftyThirtyForty threeDeletes.calls 2 80 ∧
    ∃ u ≤ 80, CallStartsAt twoSlots within200 fiftyThirtyForty threeDeletes.calls 2 u := by
  have hmany : oneSlot.maxParallel ≤ twoSlots.maxParallel := by decide
  have hparts : (jobs fiftyThirtyForty threeDeletes.calls).map (·.reply.result) =
      (List.replicate 3 (ResultSet.ofCounts 1 0)).map .ok := rfl
  have hwaits : CallStartsAt oneSlot within200 fiftyThirtyForty threeDeletes.calls 2 80 :=
    @startsAt_of_span _ _ _ 2 (by decide) (Interruption.prompt_of? (by decide))
      (ok_of_mem_jobs hparts) ⟨80, 120⟩ rfl (by decide)
  obtain ⟨hstarts, -⟩ := (more_slots_never_hurt hmany rfl (rfl : within200.cancelAfter = none)).1
    threeDeletes fiftyThirtyForty (List.replicate 3 (.ofCounts 1 0)) rfl
  obtain ⟨⟨u, hu⟩, hearlier⟩ := hstarts 2 80 hwaits
  exact ⟨hmany, rfl, rfl, hwaits, u, hearlier u hu, hu⟩

end ShardedSql.Execution
