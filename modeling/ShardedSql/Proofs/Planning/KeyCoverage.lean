import ShardedSql.Proofs.Planning.RoutedShards
import ShardedSql.Proofs.Sql.Levels

namespace ShardedSql

namespace Sql

/-- The expressions that an expression is put together from. -/
def Expr.operands : Expr → List Expr
  | column _ | literal _ | placeholder | var _ | defaultValue | star => []
  | not e | negate e | paren e | isNull e _ => [e]
  | binary l _ r | like l r _ => [l, r]
  | inList e items _ => e :: items
  | between e low high _ => [e, low, high]
  | call _ args _ => args

/-- That one expression lies in another one, at any depth. -/
def Expr.Within (x e : Expr) : Prop := Relation.ReflTransGen (fun e x => x ∈ e.operands) e x

theorem Expr.Within.of_operand {x y e : Expr} (hx : x.Within y) (hy : y ∈ e.operands) : x.Within e :=
  .head hy hx

end Sql

namespace Routing.KeyHint

/-- Whether a hint leaves a key value open. -/
def Allows : KeyHint → KeyValue → Prop
  | all, _ => True
  | values vs, v => v ∈ vs

variable {a b : KeyHint} {v : KeyValue}

theorem Allows.both (ha : a.Allows v) (hb : b.Allows v) : (a.both b).Allows v := by
  cases a with
  | all => exact hb
  | values vs =>
    cases b with
    | all => exact ha
    | values ws =>
      -- the sides do not exclude each other, so that the left one is not kept for itself
      rw [Planning.ShardedTable.both_values_shared ⟨v, ha, hb⟩]
      exact List.mem_filter.mpr ⟨ha, decide_eq_true hb⟩

theorem Allows.either (h : a.Allows v ∨ b.Allows v) : (a.either b).Allows v := by
  cases a with
  | all => trivial
  | values vs =>
    cases b with
    | all => trivial
    | values ws => exact List.mem_eraseDups.mpr (List.mem_append.mpr h)

theorem mem_of_both {vs : List KeyValue} (h : a.both b = values vs) (hv : v ∈ vs) :
    (∃ as, a = values as ∧ v ∈ as) ∨ ∃ bs, b = values bs ∧ v ∈ bs := by
  cases a with
  | all => exact .inr ⟨vs, h, hv⟩
  | values as =>
    refine .inl ⟨as, rfl, ?_⟩
    cases b with
    | all =>
      cases h
      exact hv
    | values bs =>
      by_cases hshared : ∃ w ∈ as, w ∈ bs
      · rw [Planning.ShardedTable.both_values_shared hshared] at h
        cases h
        exact List.mem_of_mem_filter hv
      · rw [Planning.ShardedTable.both_values_apart (by simpa using hshared)] at h
        cases h
        exact hv

theorem mem_of_either {vs : List KeyValue} (h : a.either b = values vs) (hv : v ∈ vs) :
    (∃ as, a = values as ∧ v ∈ as) ∨ ∃ bs, b = values bs ∧ v ∈ bs := by
  cases a with
  | all => cases h
  | values as =>
    cases b with
    | all => cases h
    | values bs =>
      cases h
      exact (List.mem_append.mp (List.mem_eraseDups.mp hv)).imp (⟨as, rfl, ·⟩) (⟨bs, rfl, ·⟩)

end Routing.KeyHint

namespace Planning

open Routing (KeyHint KeyValue)
open Sql (Expr Statement)

namespace ShardedTable

/-- The truth values that a condition may have where the key is `v`. A comparison of the key with
literals is decided by what they are; any condition that is neither such a comparison nor made of
others by AND, OR or parentheses may have any value. -/
inductive CanBe (t : ShardedTable) (v : KeyValue) : Expr → Truth → Prop
  | paren {e : Expr} {a : Truth} (h : CanBe t v e a) : CanBe t v (.paren e) a
  | and {l e : Expr} {a b : Truth} (hl : CanBe t v l a) (he : CanBe t v e b) :
      CanBe t v (.binary l .and e) (a.and b)
  | or {l e : Expr} {a b : Truth} (hl : CanBe t v l a) (he : CanBe t v e b) :
      CanBe t v (.binary l .or e) (a.or b)
  | test {e : Expr} {vs : List KeyValue} {a : Truth} (he : KeyTest t e vs)
      (ha : a = if v ∈ vs then .yes else .no) : CanBe t v e a
  | other {e : Expr} {a : Truth} (he : isConnective e = false) (hn : ∀ vs, ¬KeyTest t e vs) :
      CanBe t v e a

variable {t : ShardedTable}

/-- A condition leaves every key open for which it can be true. -/
theorem allows_of_canBe {v : KeyValue} {e : Expr} {a : Truth} (h : t.CanBe v e a)
    (ha : a = .yes) : (t.hintOf e).Allows v := by
  induction h with
  | paren _ ih => exact ih ha
  | and _ _ ihl ihe =>
    obtain ⟨hl, he⟩ := Truth.and_eq_yes.mp ha
    exact (ihl hl).both (ihe he)
  | or _ _ ihl ihe => exact .either ((Truth.or_eq_yes.mp ha).imp ihl ihe)
  | @test e vs _ he hdecided =>
    rw [hintOf_test he]
    by_cases hv : v ∈ vs
    · exact hv
    · rw [if_neg hv] at hdecided
      cases hdecided.symm.trans ha
  | other he hn =>
    rw [hintOf_other he hn]
    trivial

theorem exists_literal_of_test {e : Expr} {vs : List KeyValue} (h : KeyTest t e vs) {v : KeyValue}
    (hv : v ∈ vs) : ∃ x ∈ e.operands, literalValue? x = some v := by
  cases h with
  | @keyEqual c lit w hc hw =>
    obtain rfl := List.mem_singleton.mp hv
    exact ⟨lit, List.mem_cons_of_mem _ List.mem_cons_self, hw⟩
  | @equalKey c lit w hc hw =>
    obtain rfl := List.mem_singleton.mp hv
    exact ⟨lit, List.mem_cons_self, hw⟩
  | keyIn hc hvs =>
    obtain ⟨x, hx, hvalue⟩ := exists_of_mem_mapM hvs hv
    exact ⟨x, List.mem_cons_of_mem _ hx, hvalue⟩

/-- The values that a condition pins stand in it. -/
theorem exists_literal_of_hintOf (e : Expr) {vs : List KeyValue} (h : t.hintOf e = .values vs)
    {v : KeyValue} (hv : v ∈ vs) : ∃ x, x.Within e ∧ literalValue? x = some v := by
  induction e using connective_induction generalizing vs with
  | paren e ih =>
    obtain ⟨x, hx, hvalue⟩ := ih h hv
    exact ⟨x, hx.of_operand List.mem_cons_self, hvalue⟩
  | and l e ihl ihe =>
    rw [hintOf] at h
    rcases KeyHint.mem_of_both h hv with ⟨as, has, ha⟩ | ⟨bs, hbs, hb⟩
    · obtain ⟨x, hx, hvalue⟩ := ihl has ha
      exact ⟨x, hx.of_operand List.mem_cons_self, hvalue⟩
    · obtain ⟨x, hx, hvalue⟩ := ihe hbs hb
      exact ⟨x, hx.of_operand (List.mem_cons_of_mem _ List.mem_cons_self), hvalue⟩
  | or l e ihl ihe =>
    rw [hintOf] at h
    rcases KeyHint.mem_of_either h hv with ⟨as, has, ha⟩ | ⟨bs, hbs, hb⟩
    · obtain ⟨x, hx, hvalue⟩ := ihl has ha
      exact ⟨x, hx.of_operand List.mem_cons_self, hvalue⟩
    · obtain ⟨x, hx, hvalue⟩ := ihe hbs hb
      exact ⟨x, hx.of_operand (List.mem_cons_of_mem _ List.mem_cons_self), hvalue⟩
  | leaf e he =>
    by_cases htest : ∃ ws, KeyTest t e ws
    · obtain ⟨ws, hws⟩ := htest
      cases (hintOf_test hws).symm.trans h
      obtain ⟨x, hx, hvalue⟩ := exists_literal_of_test hws hv
      exact ⟨x, .single hx, hvalue⟩
    · cases (hintOf_other he fun ws hws => htest ⟨ws, hws⟩).symm.trans h

end ShardedTable

/-- What the condition of a statement that is read says about the key of a table: it leaves open every
key for which it can be true, and if it pins values, they are some and stand in the condition. -/
theorem hint_covers_condition (text : String) (stmt : Statement) (e : Expr) (t : ShardedTable)
    (hread : Statement.ofString? text = .ok stmt) (hwhere : conditionOf stmt.innermost = some e) :
    (∀ v, t.CanBe v e .yes → (t.hint (some e)).Allows v) ∧
    ∀ vs, t.hint (some e) = .values vs →
      vs ≠ [] ∧ ∀ v ∈ vs, ∃ x : Expr, x.Within e ∧ literalValue? x = some v := by
  refine ⟨fun v h => ShardedTable.allows_of_canBe h rfl, fun vs hvs => ⟨?_, fun v hv =>
    ShardedTable.exists_literal_of_hintOf e hvs hv⟩⟩
  rintro rfl
  have hwritten : stmt.innermost.Written := by
    rcases Statement.written_innermost_of_ofString? hread with hwritten | ⟨tokens, hother⟩
    · exact hwritten
    · rw [hother] at hwhere
      cases hwhere
  exact hint_conditionOf_ne_nil_of_written hwritten t (hwhere ▸ hvs)

/-- `(id = 1 OR 7 = id) AND id IN ('x', 1)`. -/
def oneOrSeven : Expr :=
  .binary (.paren (.binary (.binary (.column ⟨none, "id"⟩) .equal (.literal (.integer 1))) .or
    (.binary (.literal (.integer 7)) .equal (.column ⟨none, "id"⟩)))) .and
    (idIn [.literal (.text "x"), .literal (.integer 1)])

/-- The condition can be true for the key 1 only, which is what it pins. -/
theorem one_or_seven_pins_one :
    Statement.ofString?
        "EXPLAIN DELETE FROM orders WHERE (id = 1 OR 7 = id) AND id IN ('x', 1)" =
      .ok (.explain (deleteWhere oneOrSeven)) ∧
    conditionOf (Statement.explain (deleteWhere oneOrSeven)).innermost = some oneOrSeven ∧
    ordersTable.CanBe (.int 1) oneOrSeven .yes ∧
    (KeyHint.values [.int 1]).Allows (.int 1) ∧
    ∃ x : Expr, x.Within oneOrSeven ∧ literalValue? x = some (.int 1) := by
  have hread : Statement.ofString?
      "EXPLAIN DELETE FROM orders WHERE (id = 1 OR 7 = id) AND id IN ('x', 1)" =
        .ok (.explain (deleteWhere oneOrSeven)) := by decide +kernel
  have hcan : ordersTable.CanBe (.int 1) oneOrSeven .yes :=
    have hone : ordersTable.CanBe (.int 1) (.binary (.column ⟨none, "id"⟩) .equal
        (.literal (.integer 1))) .yes := .test (.keyEqual (by decide) rfl) (by decide)
    have hseven : ordersTable.CanBe (.int 1) (.binary (.literal (.integer 7)) .equal
        (.column ⟨none, "id"⟩)) .no := .test (.equalKey (by decide) rfl) (by decide)
    have hin : ordersTable.CanBe (.int 1) (idIn [.literal (.text "x"), .literal (.integer 1)]) .yes :=
      .test (.keyIn (by decide) rfl) (by decide)
    .and (.paren (.or hone hseven)) hin
  have hhint : ordersTable.hint (some oneOrSeven) = .values [.int 1] := rfl
  obtain ⟨hallows, hvalues⟩ := hint_covers_condition _ _ oneOrSeven ordersTable hread rfl
  exact ⟨hread, rfl, hcan, hhint ▸ hallows _ hcan, (hvalues _ hhint).2 _ List.mem_cons_self⟩

end Planning

end ShardedSql
