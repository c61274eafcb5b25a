import ShardedSql.Error
import ShardedSql.Planning.RoutingMap
import ShardedSql.Result.ResultSet

namespace ShardedSql.Execution

open Planning (Call)
open Result (ResultSet)

/-- What a backend answers to a call, and after how many milliseconds. -/
structure Reply where
  delay : Nat
  result : Except Error ResultSet

/-- A call that is to be made, its place among the calls of the request and what it will get. -/
structure Job where
  place : Nat
  call : Call
  reply : Reply

def jobs (reply : Nat → Call → Reply) (calls : List Call) : List Job :=
  calls.mapIdx fun i c => ⟨i, c, reply i c⟩

/-- A call that was made and is not answered yet. -/
structure Running where
  place : Nat
  finish : Nat
  result : Except Error ResultSet

/-- What ends a request from outside: at which time, and the last time at which what the calls do
still counts. -/
structure Interruption where
  time : Nat
  lastTime : Nat
  error : Error
  deriving DecidableEq, Repr

/-- At the deadline itself calls still count, but not when the request is cancelled at that time. -/
def Interruption.of? (deadline cancelAfter : Option Nat) : Option Interruption :=
  match deadline, cancelAfter with
  | none, none => none
  | some d, none => some ⟨d, d, .timeout d⟩
  | none, some c => some ⟨c, c - 1, .cancelled⟩
  | some d, some c => if c ≤ d then some ⟨c, c - 1, .cancelled⟩ else some ⟨d, d, .timeout d⟩

/-- The calls of a request on their way. The answers stand in the order in which they came in, each
with the place of its call. -/
structure FanOut where
  time : Nat
  waiting : List Job
  running : List Running
  parts : List (Nat × ResultSet)
  made : List Call
  failure : Option Error

/-- Of the running calls the one that is answered first, and the others. Of several it is the one
that started first. -/
def earliest? : List Running → Option (Running × List Running)
  | [] => none
  | r :: rs =>
    match earliest? rs with
    | none => some (r, [])
    | some (q, others) => if q.finish < r.finish then some (q, r :: others) else some (r, rs)

namespace FanOut

def initial (jobs : List Job) : FanOut := ⟨0, jobs, [], [], [], none⟩

/-- The answer to a call comes in. A failure ends the request. -/
def settle (s : FanOut) (place : Nat) : Except Error ResultSet → FanOut
  | .ok part => { s with parts := s.parts ++ [(place, part)] }
  | .error e => { s with failure := some e }

/-- Makes a call. One without delay is answered before anything else happens. -/
def start (s : FanOut) (j : Job) (rest : List Job) : FanOut :=
  let called := { s with waiting := rest, made := s.made ++ [j.call] }
  if j.reply.delay = 0 then called.settle j.place j.reply.result
  else
    { called with running := s.running ++ [⟨j.place, s.time + j.reply.delay, j.reply.result⟩] }

/-- Waits for the answer to a call. -/
def finish (s : FanOut) (r : Running) (others : List Running) : FanOut :=
  settle { s with time := r.finish, running := others } r.place r.result

/-- Drops the calls that are still running. -/
def interrupt (s : FanOut) (i : Interruption) : FanOut :=
  { s with time := i.time, failure := some i.error }

/-- Waits for the next answer, or for the interruption if that comes first. -/
def await? (limit : Option Interruption) (s : FanOut) : Option FanOut :=
  match earliest? s.running, limit with
  | none, _ => none
  | some (r, others), none => some (s.finish r others)
  | some (r, others), some i =>
    if r.finish ≤ i.lastTime then some (s.finish r others) else some (s.interrupt i)

/-- Calls are made in their order, as long as fewer than `slots` of them are running. -/
def next? (slots : Nat) (limit : Option Interruption) (s : FanOut) : Option FanOut :=
  match s.failure, s.waiting with
  | some _, _ => none
  | none, [] => s.await? limit
  | none, j :: rest =>
    if s.running.length < slots then some (s.start j rest) else s.await? limit

/-- How many steps may still follow. -/
def stepsLeft (s : FanOut) : Nat :=
  if s.failure.isSome then 0 else 2 * s.waiting.length + s.running.length + 1

theorem stepsLeft_of_going {s : FanOut} (hs : s.failure = none) :
    s.stepsLeft = 2 * s.waiting.length + s.running.length + 1 := by simp [stepsLeft, hs]

theorem stepsLeft_settle_le (s : FanOut) (place : Nat) (result : Except Error ResultSet) :
    (s.settle place result).stepsLeft ≤ s.stepsLeft := by
  cases result with
  | ok part => exact Nat.le_refl _
  | error e => simp [settle, stepsLeft]

theorem length_of_earliest? {rs others : List Running} {r : Running}
    (h : earliest? rs = some (r, others)) : rs.length = others.length + 1 := by
  induction rs generalizing r others with
  | nil => cases h
  | cons q qs ih =>
    unfold earliest? at h
    split at h
    · next hnone =>
      cases qs with
      | nil => cases h; rfl
      | cons p ps =>
        unfold earliest? at hnone
        split at hnone <;> (try split at hnone) <;> cases hnone
    · next p ps hsome =>
      split at h <;> cases h
      · simp [ih hsome]
      · rfl

theorem stepsLeft_await? {limit : Option Interruption} {s s' : FanOut} (hs : s.failure = none)
    (h : s.await? limit = some s') : s'.stepsLeft < s.stepsLeft := by
  have hfinish : ∀ {r : Running} {others : List Running},
      earliest? s.running = some (r, others) → (s.finish r others).stepsLeft < s.stepsLeft := by
    intro r others hr
    refine Nat.lt_of_le_of_lt (stepsLeft_settle_le _ _ _) ?_
    rw [stepsLeft_of_going hs, stepsLeft_of_going (by exact hs), length_of_earliest? hr]
    exact Nat.lt_succ_self _
  unfold await? at h
  split at h
  · cases h
  · next hr =>
    cases h
    exact hfinish hr
  · next hr =>
    split at h <;> cases h
    · exact hfinish hr
    · simp [interrupt, stepsLeft, hs]

theorem stepsLeft_start {s : FanOut} {j : Job} {rest : List Job} (hs : s.failure = none)
    (hwaiting : s.waiting = j :: rest) : (s.start j rest).stepsLeft < s.stepsLeft := by
  unfold start
  split
  · refine Nat.lt_of_le_of_lt (stepsLeft_settle_le _ _ _) ?_
    rw [stepsLeft_of_going hs, stepsLeft_of_going (by exact hs), hwaiting]
    simp only [List.length_cons]
    omega
  · rw [stepsLeft_of_going hs, stepsLeft_of_going (by exact hs), hwaiting]
    simp only [List.length_cons, List.length_append, List.length_nil]
    omega

theorem stepsLeft_next? {slots : Nat} {limit : Option Interruption} {s s' : FanOut}
    (h : s.next? slots limit = some s') : s'.stepsLeft < s.stepsLeft := by
  unfold next? at h
  split at h
  · cases h
  · next hs _ => exact stepsLeft_await? hs h
  · next hs hwaiting =>
    split at h
    · cases h
      exact stepsLeft_start hs hwaiting
    · exact stepsLeft_await? hs h

/-- Goes on until all calls are answered, one fails or the request is interrupted. -/
def run (slots : Nat) (limit : Option Interruption) (s : FanOut) : FanOut :=
  match _h : s.next? slots limit with
  | none => s
  | some s' => s'.run slots limit
termination_by s.stepsLeft
decreasing_by exact stepsLeft_next? ‹_›

/-- The answers in the order of their calls. -/
def inOrder (parts : List (Nat × ResultSet)) : List ResultSet :=
  (parts.mergeSort fun a b => a.1 ≤ b.1).map (·.2)

end FanOut

end ShardedSql.Execution
