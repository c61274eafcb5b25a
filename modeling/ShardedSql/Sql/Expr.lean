namespace ShardedSql.Sql

inductive Literal where
  | null
  | boolean (b : Bool)
  | integer (i : Int64)
  /-- A number with a point, an exponent or too many digits for 64 bits, as written. -/
  | number (text : String)
  | text (s : String)
  deriving DecidableEq, Repr

structure ColumnName where
  table : Option String
  name : String
  deriving DecidableEq, Repr

inductive BinaryOp where
  | equal | nullSafeEqual | notEqual | less | lessEqual | greater | greaterEqual
  | and | or
  | plus | minus | times | divide | modulo
  deriving DecidableEq, Repr

inductive Expr where
  | column (c : ColumnName)
  | literal (l : Literal)
  | placeholder
  /-- A variable, its name with the signs before it. -/
  | var (name : String)
  /-- The word DEFAULT as a value. -/
  | defaultValue
  /-- The star of `COUNT(*)`. -/
  | star
  | not (e : Expr)
  | negate (e : Expr)
  | binary (left : Expr) (op : BinaryOp) (right : Expr)
  | inList (e : Expr) (items : List Expr) (negated : Bool)
  | between (e low high : Expr) (negated : Bool)
  | isNull (e : Expr) (negated : Bool)
  | like (e pattern : Expr) (negated : Bool)
  | call (name : String) (args : List Expr) (distinct : Bool)
  | paren (e : Expr)
  deriving Repr

namespace Expr

mutual

def same : Expr → Expr → Bool
  | column c, column c' => c == c'
  | literal l, literal l' => l == l'
  | placeholder, placeholder => true
  | var n, var n' => n == n'
  | defaultValue, defaultValue => true
  | star, star => true
  | not e, not e' => e.same e'
  | negate e, negate e' => e.same e'
  | binary l op r, binary l' op' r' => op == op' && l.same l' && r.same r'
  | inList e items n, inList e' items' n' => n == n' && e.same e' && sameAll items items'
  | between e low high n, between e' low' high' n' =>
    n == n' && e.same e' && low.same low' && high.same high'
  | isNull e n, isNull e' n' => n == n' && e.same e'
  | like e p n, like e' p' n' => n == n' && e.same e' && p.same p'
  | call f args d, call f' args' d' => f == f' && d == d' && sameAll args args'
  | paren e, paren e' => e.same e'
  | _, _ => false

def sameAll : List Expr → List Expr → Bool
  | [], [] => true
  | e :: es, e' :: es' => e.same e' && sameAll es es'
  | _, _ => false

end

mutual

theorem same_iff : ∀ a b : Expr, a.same b = true ↔ a = b
  | column _, b | literal _, b | placeholder, b | var _, b | defaultValue, b | star, b => by
    cases b <;> simp [same]
  | not e, b | negate e, b | paren e, b => by
    cases b <;> simp [same, same_iff e]
  | binary l _ r, b => by
    cases b <;> simp [same, same_iff l, same_iff r, and_assoc, and_left_comm]
  | inList e items _, b => by
    cases b <;> simp [same, same_iff e, sameAll_iff items, and_assoc, and_left_comm, and_comm]
  | between e low high _, b => by
    cases b <;>
      simp [same, same_iff e, same_iff low, same_iff high, and_assoc, and_left_comm, and_comm]
  | isNull e _, b => by
    cases b <;> simp [same, same_iff e, and_comm]
  | like e p _, b => by
    cases b <;> simp [same, same_iff e, same_iff p, and_assoc, and_left_comm, and_comm]
  | call _ args _, b => by
    cases b <;> simp [same, sameAll_iff args, and_assoc, and_left_comm, and_comm]

theorem sameAll_iff : ∀ a b : List Expr, sameAll a b = true ↔ a = b
  | [], b => by cases b <;> simp [sameAll]
  | e :: es, b => by cases b <;> simp [sameAll, same_iff e, sameAll_iff es]

end

instance : DecidableEq Expr := fun a b => decidable_of_iff _ (same_iff a b)

mutual

/-- Replaces every column of an expression. -/
def mapColumns (f : ColumnName → ColumnName) : Expr → Expr
  | column c => column (f c)
  | literal l => literal l
  | placeholder => placeholder
  | var n => var n
  | defaultValue => defaultValue
  | star => star
  | not e => not (e.mapColumns f)
  | negate e => negate (e.mapColumns f)
  | binary l op r => binary (l.mapColumns f) op (r.mapColumns f)
  | inList e items n => inList (e.mapColumns f) (mapColumnsAll f items) n
  | between e low high n => between (e.mapColumns f) (low.mapColumns f) (high.mapColumns f) n
  | isNull e n => isNull (e.mapColumns f) n
  | like e p n => like (e.mapColumns f) (p.mapColumns f) n
  | call g args d => call g (mapColumnsAll f args) d
  | paren e => paren (e.mapColumns f)

def mapColumnsAll (f : ColumnName → ColumnName) : List Expr → List Expr
  | [] => []
  | e :: es => e.mapColumns f :: mapColumnsAll f es

end

theorem mapColumnsAll_eq_map (f : ColumnName → ColumnName) (es : List Expr) :
    mapColumnsAll f es = es.map (mapColumns f) := by
  induction es with
  | nil => rfl
  | cons e es ih => simp [mapColumnsAll, ih]

mutual

theorem mapColumns_id : ∀ e : Expr, e.mapColumns id = e
  | column _ | literal _ | placeholder | var _ | defaultValue | star => rfl
  | not e | negate e | isNull e _ | paren e => by simp [mapColumns, mapColumns_id e]
  | binary l _ r | like l r _ => by simp [mapColumns, mapColumns_id l, mapColumns_id r]
  | inList e items _ => by simp [mapColumns, mapColumns_id e, mapColumnsAll_id items]
  | between e low high _ => by
    simp [mapColumns, mapColumns_id e, mapColumns_id low, mapColumns_id high]
  | call _ args _ => by simp [mapColumns, mapColumnsAll_id args]

theorem mapColumnsAll_id : ∀ es : List Expr, mapColumnsAll id es = es
  | [] => rfl
  | e :: es => by simp [mapColumnsAll, mapColumns_id e, mapColumnsAll_id es]

end

mutual

theorem mapColumns_mapColumns (f g : ColumnName → ColumnName) :
    ∀ e : Expr, (e.mapColumns f).mapColumns g = e.mapColumns (g ∘ f)
  | column _ | literal _ | placeholder | var _ | defaultValue | star => rfl
  | not e | negate e | isNull e _ | paren e => by
    simp [mapColumns, mapColumns_mapColumns f g e]
  | binary l _ r | like l r _ => by
    simp [mapColumns, mapColumns_mapColumns f g l, mapColumns_mapColumns f g r]
  | inList e items _ => by
    simp [mapColumns, mapColumns_mapColumns f g e, mapColumnsAll_mapColumnsAll f g items]
  | between e low high _ => by
    simp [mapColumns, mapColumns_mapColumns f g e, mapColumns_mapColumns f g low,
      mapColumns_mapColumns f g high]
  | call _ args _ => by simp [mapColumns, mapColumnsAll_mapColumnsAll f g args]

theorem mapColumnsAll_mapColumnsAll (f g : ColumnName → ColumnName) :
    ∀ es : List Expr, mapColumnsAll g (mapColumnsAll f es) = mapColumnsAll (g ∘ f) es
  | [] => rfl
  | e :: es => by
    simp [mapColumnsAll, mapColumns_mapColumns f g e, mapColumnsAll_mapColumnsAll f g es]

end

end Expr

end ShardedSql.Sql
