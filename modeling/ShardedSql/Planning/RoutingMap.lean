namespace ShardedSql.Planning

/-- A physical statement and the slice and database that it is sent to. -/
structure Call where
  slice : String
  db : String
  sql : String
  deriving DecidableEq, Repr

/-- Calls are ordered by slice and then by database. -/
def Call.precedes (a b : Call) : Bool :=
  a.slice < b.slice || (a.slice == b.slice && a.db < b.db)

/-- The calls of a plan in the order in which they start. -/
structure RoutingMap where
  calls : List Call
  deriving DecidableEq, Repr

/-- Puts a call behind all that it does not precede. -/
def insertCall (c : Call) : List Call → List Call
  | [] => [c]
  | d :: ds => if c.precedes d then c :: d :: ds else d :: insertCall c ds

namespace RoutingMap

def empty : RoutingMap := ⟨[]⟩

def push (m : RoutingMap) (c : Call) : RoutingMap := ⟨insertCall c m.calls⟩

def ofCalls (calls : List Call) : RoutingMap := calls.foldl push empty

def size (m : RoutingMap) : Nat := m.calls.length

def isEmpty (m : RoutingMap) : Bool := m.size == 0

end RoutingMap

theorem perm_insertCall (c : Call) (ds : List Call) : (insertCall c ds).Perm (c :: ds) := by
  induction ds with
  | nil => exact .refl _
  | cons d ds ih =>
    unfold insertCall
    split
    · exact .refl _
    · exact (ih.cons d).trans (.swap c d ds)

/-- A routing map holds the calls that were put into it, each as often. -/
theorem RoutingMap.perm_ofCalls (calls : List Call) : (RoutingMap.ofCalls calls).calls.Perm calls := by
  have h (m : RoutingMap) : (calls.foldl RoutingMap.push m).calls.Perm (m.calls ++ calls) := by
    induction calls generalizing m with
    | nil => simp
    | cons c calls ih =>
      refine (ih (m.push c)).trans ?_
      exact ((perm_insertCall c m.calls).append_right calls).trans List.perm_middle.symm
  exact h .empty

theorem RoutingMap.size_ofCalls (calls : List Call) :
    (RoutingMap.ofCalls calls).size = calls.length := (RoutingMap.perm_ofCalls calls).length_eq

theorem mem_insertCall {c d : Call} {ds : List Call} :
    d ∈ insertCall c ds ↔ d = c ∨ d ∈ ds := by
  induction ds with
  | nil => simp [insertCall]
  | cons e ds ih =>
    unfold insertCall
    split
    · simp
    · simp [ih, or_left_comm]

end ShardedSql.Planning
