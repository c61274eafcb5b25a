import Mathlib.Logic.Function.Iterate
import Mathlib.Tactic.SplitIfs
import ShardedSql.Sequence

namespace ShardedSql.Registry

/-- The registry after a value of a scope was asked for. -/
def skip (scope : String) (r : Registry) : Registry := (r.next scope).2

/-- That two registries differ at most in the sequence of one scope. -/
structure SameBut (scope : String) (r r' : Registry) : Prop where
  autoCreate : r.autoCreate = r'.autoCreate
  find? : ∀ other, other ≠ scope → r.find? other = r'.find? other

/-- An operation on a registry: a scope is registered, or its next key is asked for. -/
inductive Op where
  | create (scope : String) (start step : Int64)
  | next (scope : String)
  deriving DecidableEq, Repr

inductive Answer where
  | created
  | key (k : Int64)
  | refused (e : Error)
  deriving DecidableEq, Repr

def Op.scope : Op → String
  | create scope _ _ => scope
  | next scope => scope

def Answer.ofKey : Except Error Int64 → Answer
  | .ok k => key k
  | .error e => refused e

/-- What an operation answers, and the registry after it. A registration that is refused changes
nothing. -/
def Op.run (r : Registry) : Op → Answer × Registry
  | create scope start step =>
    match r.create scope start step with
    | .ok r' => (.created, r')
    | .error e => (.refused e, r)
  | next scope => (.ofKey (r.next scope).1, r.skip scope)

/-- The registry after operations that follow each other. -/
def after (r : Registry) (ops : List Op) : Registry := ops.foldl (fun r op => (op.run r).2) r

/-- What an operation answers that comes behind others. -/
def answer (r : Registry) (before : List Op) (op : Op) : Answer := (op.run (r.after before)).1

variable {scope other : String} {r r' r'' : Registry}

theorem after_append (r : Registry) (ops ops' : List Op) :
    r.after (ops ++ ops') = (r.after ops).after ops' := List.foldl_append

theorem after_cons (r : Registry) (op : Op) (ops : List Op) :
    r.after (op :: ops) = (op.run r).2.after ops := rfl

theorem after_concat (r : Registry) (ops : List Op) (op : Op) :
    r.after (ops ++ [op]) = (op.run (r.after ops)).2 := after_append r ops [op]

theorem run_create (r : Registry) (scope : String) (start step : Int64) :
    (Op.create scope start step).run r =
      if step = 0 then (.refused (.sequence (.zeroStep scope)), r)
      else if (r.find? scope).isSome then (.refused (.sequence (.duplicate scope)), r)
      else (.created, r.set scope ⟨start, step⟩) := by
  simp only [Op.run, create]
  split_ifs <;> rfl

namespace SameBut

theorem refl (scope : String) (r : Registry) : SameBut scope r r := ⟨rfl, fun _ _ => rfl⟩

theorem symm (h : SameBut scope r r') : SameBut scope r' r :=
  ⟨h.autoCreate.symm, fun other hne => (h.find? other hne).symm⟩

theorem trans (h : SameBut scope r r') (h' : SameBut scope r' r'') : SameBut scope r r'' :=
  ⟨h.autoCreate.trans h'.autoCreate, fun other hne => (h.find? other hne).trans (h'.find? other hne)⟩

theorem set (h : SameBut scope r r') (other : String) (p : Progression) :
    SameBut scope (r.set other p) (r'.set other p) where
  autoCreate := h.autoCreate
  find? name hne := by
    by_cases hname : name = other
    · rw [hname, find?_set_self, find?_set_self]
    · rw [find?_set_of_ne _ hname, find?_set_of_ne _ hname, h.find? name hne]

theorem set_self (scope : String) (r : Registry) (p : Progression) :
    SameBut scope r (r.set scope p) := ⟨rfl, fun _ hne => (find?_set_of_ne r hne p).symm⟩

/-- A value of one scope moves no other sequence. -/
theorem skip (scope : String) (r : Registry) : SameBut scope r (r.skip scope) := by
  unfold Registry.skip next
  cases (r.find? scope).or r.autoCreate with
  | none => exact refl scope r
  | some p =>
    dsimp only
    cases Text.toInt64? (p.next.toInt + p.step.toInt) with
    | none => exact set_self scope r p
    | some n => exact set_self scope r { p with next := n }

theorem skips (scope : String) (n : Nat) (r : Registry) :
    SameBut scope r ((Registry.skip scope)^[n] r) := by
  induction n generalizing r with
  | zero => exact refl scope r
  | succ n ih => exact (skip scope r).trans (ih (r.skip scope))

/-- The value of another scope is the same in both, and leaves them alike. -/
theorem next (h : SameBut scope r r') (hne : other ≠ scope) :
    (r.next other).1 = (r'.next other).1 ∧ SameBut scope (r.next other).2 (r'.next other).2 := by
  unfold Registry.next
  rw [h.find? other hne, h.autoCreate]
  cases (r'.find? other).or r'.autoCreate with
  | none => exact ⟨rfl, h⟩
  | some p =>
    dsimp only
    cases Text.toInt64? (p.next.toInt + p.step.toInt) with
    | none => exact ⟨rfl, h.set other p⟩
    | some n => exact ⟨rfl, h.set other { p with next := n }⟩

/-- An operation leaves all scopes but its own as they are. -/
theorem run (op : Op) (r : Registry) : SameBut op.scope r (op.run r).2 := by
  cases op with
  | next scope => exact skip scope r
  | create scope start step =>
    rw [run_create]
    split_ifs
    · exact refl scope r
    · exact refl scope r
    · exact set_self scope r ⟨start, step⟩

/-- An operation on another scope answers alike in both, and leaves them alike. -/
theorem run_congr (h : SameBut scope r r') {op : Op} (hne : op.scope ≠ scope) :
    (op.run r).1 = (op.run r').1 ∧ SameBut scope (op.run r).2 (op.run r').2 := by
  cases op with
  | next other =>
    obtain ⟨hkey, hafter⟩ := h.next hne
    exact ⟨congrArg Answer.ofKey hkey, hafter⟩
  | create other start step =>
    rw [run_create, run_create, h.find? other hne]
    split_ifs
    · exact ⟨rfl, h⟩
    · exact ⟨rfl, h⟩
    · exact ⟨rfl, h.set other ⟨start, step⟩⟩

/-- Registries that differ in one scope go on to differ in that one only, whatever is asked. -/
theorem after (h : SameBut scope r r') (ops : List Op) :
    SameBut scope (r.after ops) (r'.after ops) := by
  induction ops generalizing r r' with
  | nil => exact h
  | cons op ops ih =>
    apply ih
    by_cases hop : op.scope = scope
    · have hleft := run op r
      have hright := run op r'
      rw [hop] at hleft hright
      exact (hleft.symm.trans h).trans hright
    · exact (h.run_congr hop).2

theorem answer (h : SameBut scope r r') (ops : List Op) {op : Op} (hne : op.scope ≠ scope) :
    r.answer ops op = r'.answer ops op := ((h.after ops).run_congr hne).1

end SameBut

/-- An operation that came before makes no difference to the scopes that are not its own. -/
theorem answer_skipping (r : Registry) (before between : List Op) {op op' : Op}
    (hne : op'.scope ≠ op.scope) :
    r.answer (before ++ op :: between) op' = r.answer (before ++ between) op' := by
  have h := (SameBut.run op (r.after before)).answer between hne
  unfold answer at h ⊢
  rw [after_append, after_append, after_cons, h]

end ShardedSql.Registry
