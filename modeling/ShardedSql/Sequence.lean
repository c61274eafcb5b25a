import ShardedSql.Error

namespace ShardedSql

/-- What a sequence gives out next, and by how much it then moves on. -/
structure Progression where
  next : Int64
  step : Int64
  deriving DecidableEq, Repr

/-- The sequences by scope. A scope that is not there starts as `autoCreate`, if that is given. -/
structure Registry where
  scopes : List (String × Progression)
  autoCreate : Option Progression
  deriving DecidableEq, Repr

/-- The scope that generates the keys of a table. -/
def sequenceScope (db table : String) : String := db ++ "." ++ table

namespace Registry

def empty : Registry := ⟨[], none⟩

def find? (r : Registry) (scope : String) : Option Progression := r.scopes.lookup scope

def set (r : Registry) (scope : String) (p : Progression) : Registry :=
  { r with scopes := (scope, p) :: r.scopes.filter (·.1 ≠ scope) }

theorem lookup_filter_ne {scope other : String} (h : other ≠ scope)
    (scopes : List (String × Progression)) :
    (scopes.filter (·.1 ≠ scope)).lookup other = scopes.lookup other := by
  induction scopes with
  | nil => rfl
  | cons entry rest ih =>
    obtain ⟨name, p⟩ := entry
    by_cases hname : name = scope
    · have hother : (other == scope) = false := by simpa using h
      simpa [hname, List.lookup_cons, hother] using ih
    · simp only [ne_eq, hname, not_false_eq_true, decide_true, List.filter_cons_of_pos,
        List.lookup_cons]
      rw [ih]

theorem find?_set_self (r : Registry) (scope : String) (p : Progression) :
    (r.set scope p).find? scope = some p := by
  simp [find?, set]

theorem find?_set_of_ne (r : Registry) {scope other : String} (h : other ≠ scope)
    (p : Progression) : (r.set scope p).find? other = r.find? other := by
  have hother : (other == scope) = false := by simpa using h
  simp only [find?, set, List.lookup_cons, hother]
  exact lookup_filter_ne h r.scopes

/-- Registers a new scope. -/
def create (r : Registry) (scope : String) (start step : Int64) : Except Error Registry :=
  if step = 0 then .error (.sequence (.zeroStep scope))
  else if (r.find? scope).isSome then .error (.sequence (.duplicate scope))
  else .ok (r.set scope ⟨start, step⟩)

/-- The next value of a scope. One whose successor does not fit 64 bits is not given out. A scope
that is created here stays registered even then. -/
def next (r : Registry) (scope : String) : Except Error Int64 × Registry :=
  match (r.find? scope).or r.autoCreate with
  | none => (.error (.sequence (.unknown scope)), r)
  | some p =>
    match Text.toInt64? (p.next.toInt + p.step.toInt) with
    | none => (.error (.sequence (.exhausted scope)), r.set scope p)
    | some n => (.ok p.next, r.set scope { p with next := n })

end Registry

end ShardedSql
