import ShardedSql.Routing.KeyHint
import ShardedSql.Routing.Rule

namespace ShardedSql.Routing

/-- Adds a number to a strictly increasing list, unless it is there. -/
def insertOrdered (n : Nat) : List Nat → List Nat
  | [] => [n]
  | m :: ms =>
    if n < m then n :: m :: ms else if n = m then m :: ms else m :: insertOrdered n ms

/-- The numbers of a list in increasing order, each once. -/
def increasing (ns : List Nat) : List Nat := ns.foldr insertOrdered []

theorem mem_insertOrdered {k n : Nat} {ms : List Nat} :
    k ∈ insertOrdered n ms ↔ k = n ∨ k ∈ ms := by
  induction ms with
  | nil => simp [insertOrdered]
  | cons m ms ih =>
    unfold insertOrdered
    split
    · simp
    · split
      · subst n; simp
      · simp [ih, or_left_comm]

theorem mem_increasing {k : Nat} {ns : List Nat} : k ∈ increasing ns ↔ k ∈ ns := by
  induction ns with
  | nil => simp [increasing]
  | cons n ns ih =>
    rw [List.mem_cons, ← ih]
    exact mem_insertOrdered

theorem pairwise_insertOrdered {n : Nat} {ms : List Nat} (h : ms.Pairwise (· < ·)) :
    (insertOrdered n ms).Pairwise (· < ·) := by
  induction ms with
  | nil => simp [insertOrdered]
  | cons m ms ih =>
    obtain ⟨hm, hms⟩ := List.pairwise_cons.1 h
    unfold insertOrdered
    split
    · rename_i hn
      refine List.pairwise_cons.2 ⟨fun k hk => ?_, h⟩
      rcases List.mem_cons.1 hk with rfl | hk
      · exact hn
      · exact Nat.lt_trans hn (hm k hk)
    · split
      · exact h
      · refine List.pairwise_cons.2 ⟨fun k hk => ?_, ih hms⟩
        rcases mem_insertOrdered.1 hk with rfl | hk
        · omega
        · exact hm k hk

theorem pairwise_increasing (ns : List Nat) : (increasing ns).Pairwise (· < ·) := by
  induction ns with
  | nil => exact List.Pairwise.nil
  | cons n ns ih => exact pairwise_insertOrdered ih

/-- Which tables are sharded, and where the rows of one lie: for a hint, its shards by increasing
index. -/
structure Router where
  shardKey : (db table : String) → Option String
  route : (db table : String) → KeyHint → Except Error (List Shard)

/-- The rules in the order they were added. -/
structure RuleTable where
  rules : List Rule
  deriving DecidableEq, Repr

/-- Whether a rule is for a table. The case of letters makes no difference. -/
def Rule.isFor (r : Rule) (db table : String) : Bool :=
  Text.sameName r.db db && Text.sameName r.table table

/-- The shards that own one of the values a hint allows. -/
def Rule.indexes (r : Rule) : KeyHint → Except Error (List Nat)
  | .all => .ok (List.range r.count.toNat)
  | .values vs => return increasing (← vs.mapM r.indexOf)

namespace RuleTable

def empty : RuleTable := ⟨[]⟩

def find? (t : RuleTable) (db table : String) : Option Rule :=
  t.rules.find? fun r => r.isFor db table

def add (t : RuleTable) (r : Rule) : Except Error RuleTable := do
  r.check
  match t.find? r.db r.table with
  | some _ => .error (.route (.duplicateRule r.db r.table))
  | none => .ok ⟨t.rules ++ [r]⟩

def shardKey (t : RuleTable) (db table : String) : Option String :=
  (t.find? db table).map (·.key)

def route (t : RuleTable) (db table : String) (hint : KeyHint) : Except Error (List Shard) :=
  match t.find? db table with
  | none => .error (.route (.noRule db table))
  | some r => return (← r.indexes hint).map (r.shard db)

def router (t : RuleTable) : Router := ⟨t.shardKey, t.route⟩

end RuleTable

end ShardedSql.Routing
