import ShardedSql.Proofs.Planning.Referents

namespace ShardedSql.Planning

open Routing (KeyHint KeyValue Rule RuleTable ordersById)
open Sql (BinaryOp ColumnName Expr Select TableRef)

/-- The conditions that compare a column with something that is no column, and the values that this
pins the column to, if it does. -/
inductive ComparesWith (col : ColumnName) : Expr → Option (List KeyValue) → Prop
  | equal {e : Expr} (he : ∀ c, e ≠ .column c) :
      ComparesWith col (.binary (.column col) .equal e) ((literalValue? e).map ([·]))
  | equalTo {e : Expr} (he : ∀ c, e ≠ .column c) :
      ComparesWith col (.binary e .equal (.column col)) ((literalValue? e).map ([·]))
  | isIn (items : List Expr) :
      ComparesWith col (.inList (.column col) items false) (items.mapM literalValue?)

/-- Whether an expression says nothing about the key of any table, neither as a condition nor as an
operand of one. -/
structure PinsNothing (e : Expr) : Prop where
  hint : ∀ t : ShardedTable, t.hintOf e = .all
  notColumn : ∀ c, e ≠ .column c
  notLiteral : literalValue? e = none

/-- That two expressions differ in one place only, where the one has `p` and the other has `p'`. -/
inductive ReplacedIn (p p' : Expr) : Expr → Expr → Prop
  | here : ReplacedIn p p' p p'
  | not {e e' : Expr} (h : ReplacedIn p p' e e') : ReplacedIn p p' (.not e) (.not e')
  | negate {e e' : Expr} (h : ReplacedIn p p' e e') : ReplacedIn p p' (.negate e) (.negate e')
  | paren {e e' : Expr} (h : ReplacedIn p p' e e') : ReplacedIn p p' (.paren e) (.paren e')
  | left {e e' : Expr} (h : ReplacedIn p p' e e') (op : BinaryOp) (r : Expr) :
      ReplacedIn p p' (.binary e op r) (.binary e' op r)
  | right {e e' : Expr} (l : Expr) (op : BinaryOp) (h : ReplacedIn p p' e e') :
      ReplacedIn p p' (.binary l op e) (.binary l op e')
  | inSubject {e e' : Expr} (h : ReplacedIn p p' e e') (items : List Expr) (negated : Bool) :
      ReplacedIn p p' (.inList e items negated) (.inList e' items negated)
  | inItem {e e' : Expr} (subject : Expr) (before : List Expr) (h : ReplacedIn p p' e e')
      (after : List Expr) (negated : Bool) :
      ReplacedIn p p' (.inList subject (before ++ e :: after) negated)
        (.inList subject (before ++ e' :: after) negated)
  | betweenSubject {e e' : Expr} (h : ReplacedIn p p' e e') (low high : Expr) (negated : Bool) :
      ReplacedIn p p' (.between e low high negated) (.between e' low high negated)
  | betweenLow {e e' : Expr} (subject : Expr) (h : ReplacedIn p p' e e') (high : Expr)
      (negated : Bool) :
      ReplacedIn p p' (.between subject e high negated) (.between subject e' high negated)
  | betweenHigh {e e' : Expr} (subject low : Expr) (h : ReplacedIn p p' e e') (negated : Bool) :
      ReplacedIn p p' (.between subject low e negated) (.between subject low e' negated)
  | isNull {e e' : Expr} (h : ReplacedIn p p' e e') (negated : Bool) :
      ReplacedIn p p' (.isNull e negated) (.isNull e' negated)
  | likeSubject {e e' : Expr} (h : ReplacedIn p p' e e') (pattern : Expr) (negated : Bool) :
      ReplacedIn p p' (.like e pattern negated) (.like e' pattern negated)
  | likePattern {e e' : Expr} (subject : Expr) (h : ReplacedIn p p' e e') (negated : Bool) :
      ReplacedIn p p' (.like subject e negated) (.like subject e' negated)
  | argument {e e' : Expr} (f : String) (before : List Expr) (h : ReplacedIn p p' e e')
      (after : List Expr) (distinct : Bool) :
      ReplacedIn p p' (.call f (before ++ e :: after) distinct)
        (.call f (before ++ e' :: after) distinct)

/-- That two expressions say the same about the key of a table wherever they stand. -/
structure AlikeFor (t : ShardedTable) (e e' : Expr) : Prop where
  hint : t.hintOf e = t.hintOf e'
  key : t.isKeyColumn e = t.isKeyColumn e'
  value : literalValue? e = literalValue? e'
  negated : literalValue? (.negate e) = literalValue? (.negate e')

theorem mapM_literalValue?_congr {e e' : Expr} (h : literalValue? e = literalValue? e')
    (before after : List Expr) : (before ++ e :: after).mapM literalValue? =
      (before ++ e' :: after).mapM literalValue? := by
  rw [List.mapM_append, List.mapM_append, List.mapM_cons, List.mapM_cons, h]

variable {t : ShardedTable} {p p' e e' : Expr}

/-- One place decides nothing about a key that what stands there does not decide. -/
theorem AlikeFor.replacedIn (halike : AlikeFor t p p') (h : ReplacedIn p p' e e') :
    AlikeFor t e e' := by
  induction h with
  | here => exact halike
  | not _ _ => exact ⟨rfl, rfl, rfl, rfl⟩
  | negate _ ih => exact ⟨rfl, rfl, ih.negated, rfl⟩
  | paren _ ih => exact ⟨by simpa only [ShardedTable.hintOf] using ih.hint, rfl, ih.value, rfl⟩
  | left _ op _ ih | right _ op _ ih =>
    refine ⟨?_, rfl, rfl, rfl⟩
    cases op with
    | and | or => simp only [ShardedTable.hintOf, ih.hint]
    | equal => simp only [ShardedTable.hintOf, ih.key, ih.value]
    | _ => rfl
  | inSubject _ items negated ih =>
    refine ⟨?_, rfl, rfl, rfl⟩
    cases negated with
    | false => simp only [ShardedTable.hintOf, ih.key]
    | true => rfl
  | inItem subject before _ after negated ih =>
    refine ⟨?_, rfl, rfl, rfl⟩
    cases negated with
    | false => simp only [ShardedTable.hintOf, mapM_literalValue?_congr ih.value]
    | true => rfl
  | betweenSubject _ _ _ _ _ | betweenLow _ _ _ _ _ | betweenHigh _ _ _ _ _ | isNull _ _ _
  | likeSubject _ _ _ _ | likePattern _ _ _ _ | argument _ _ _ _ _ _ =>
    exact ⟨rfl, rfl, rfl, rfl⟩

theorem isKeyColumn_of_ne (he : ∀ c, e ≠ .column c) : t.isKeyColumn e = false := by
  cases e with
  | column c => exact absurd rfl (he c)
  | _ => rfl

theorem literalValue?_negate (h : literalValue? e = none) : literalValue? (.negate e) = none := by
  cases e with
  | literal l =>
    cases l with
    | integer n => cases h
    | _ => rfl
  | _ => rfl

variable {col : ColumnName} {vs : Option (List KeyValue)}

/-- A comparison pins the tables that take its column for their key. -/
theorem hintOf_of_comparesWith (h : ComparesWith col p vs) :
    t.hintOf p = if t.isKey col then KeyHint.ofValues? vs else .all := by
  have hcolumn : t.isKeyColumn (.column col) = t.isKey col := rfl
  cases h with
  | equal he => simp only [ShardedTable.hintOf, hcolumn, isKeyColumn_of_ne he, Bool.false_eq_true,
      if_false]
  | equalTo he => simp only [ShardedTable.hintOf, hcolumn, isKeyColumn_of_ne he, Bool.false_eq_true,
      if_false]
  | isIn items => simp only [ShardedTable.hintOf, hcolumn]

/-- A comparison with a column that is not the key of a table says nothing about it. -/
theorem AlikeFor.of_comparesWith (h : ComparesWith col p vs) (hkey : t.isKey col = false)
    (hp' : PinsNothing p') : AlikeFor t p p' where
  hint := by
    rw [hintOf_of_comparesWith h, hp'.hint, hkey]
    rfl
  key := by
    rw [isKeyColumn_of_ne hp'.notColumn]
    cases h <;> rfl
  value := by
    rw [hp'.notLiteral]
    cases h <;> rfl
  negated := by
    rw [literalValue?_negate hp'.notLiteral]
    cases h <;> rfl

/-- Whether a qualifier is the own name of a table that the statement calls by an alias. -/
def IsOwnName (u : TableRef) (q : String) : Prop :=
  u.aliasName.isSome ∧ Text.sameName u.table.name q = true

/-- The tables that take a qualified column for their key: the one that the qualifier means, and
those whose own name it is. -/
theorem isKey_qualified_iff {s : Select} {q column db : String} {i j : Nat} {u : TableRef} {r : Rule}
    (h : s.DenotesOnly q i) (hu : s.tableRefs[j]? = some u) :
    (ShardedTable.ofRef u db r).isKey ⟨some q, column⟩ = true ↔
      (j = i ∨ IsOwnName u q) ∧ Text.sameName column r.key = true := by
  have hkey : (ShardedTable.ofRef u db r).isKey ⟨some q, column⟩ =
      (Text.sameName column r.key &&
        (Text.sameName q u.table.name || u.aliasName.any fun a => Text.sameName a q)) := rfl
  have hmeans : j = i ↔ Text.sameName u.goesBy q = true := by
    rw [← h j]
    constructor
    · rintro ⟨u', hu', hq⟩
      cases hu.symm.trans hu'
      exact hq
    · intro hq
      exact ⟨u, hu, hq⟩
  rw [hkey, Bool.and_eq_true, Bool.or_eq_true, hmeans, and_comm, Text.sameName_comm q]
  apply and_congr_left
  intro _
  cases ha : u.aliasName with
  | none =>
    simp [TableRef.goesBy_of_no_alias ha, IsOwnName, ha]
  | some a =>
    simp [TableRef.goesBy_of_alias ha, IsOwnName, ha, or_comm]

/-- Which tables of a SELECT a comparison in its condition prunes, whose qualifier means one of them.
Those are this table and the ones whose own name the qualifier is, if they have the column for their
key. Every other table is routed to the same shards with anything in its place that pins nothing. -/
theorem predicate_prunes_only_its_table {σ : Type} (rules : RuleTable)
    (nextKey : String → Planner σ Int64) (s : Select) (db q column : String) (st : σ) (i : Nat)
    (p p' e e' : Expr) (vs : Option (List KeyValue)) (hcondition : s.condition = some e)
    (hp : ComparesWith ⟨some q, column⟩ p vs) (hp' : PinsNothing p') (he : ReplacedIn p p' e e')
    (hq : s.DenotesOnly q i) :
    (routeTables (.ofRules rules nextKey) s db).outcome st =
      (.ok ((ruledRefs rules db s.tableRefs).map (RuledRef.routed db (some e))), st) ∧
    (routeTables (.ofRules rules nextKey) { s with condition := some e' } db).outcome st =
      (.ok ((ruledRefs rules db s.tableRefs).map (RuledRef.routed db (some e'))), st) ∧
    ∀ j u r, s.tableRefs[j]? = some u → ruleOf? rules db u = some r →
      ((j = i ∨ IsOwnName u q) ∧ Text.sameName column r.key = true →
        (ShardedTable.ofRef u db r).hintOf p = .ofValues? vs) ∧
      (¬((j = i ∨ IsOwnName u q) ∧ Text.sameName column r.key = true) →
        (ShardedTable.ofRef u db r).hintOf p = .all ∧
        RuledRef.routed db (some e') ⟨u, r⟩ = RuledRef.routed db (some e) ⟨u, r⟩) := by
  refine ⟨?_, routeTables_outcome _ st, ?_⟩
  · rw [routeTables_outcome, hcondition]
  · intro j u r hu _
    have hkey : (ShardedTable.ofRef u db r).isKey ⟨some q, column⟩ = true ↔
        (j = i ∨ IsOwnName u q) ∧ Text.sameName column r.key = true := isKey_qualified_iff hq hu
    rw [← hkey]
    constructor
    · intro htaken
      rw [hintOf_of_comparesWith hp, if_pos htaken]
    · intro hother
      have halike : AlikeFor (ShardedTable.ofRef u db r) e e' :=
        (AlikeFor.of_comparesWith hp (Bool.eq_false_iff.mpr hother) hp').replacedIn he
      refine ⟨?_, ?_⟩
      · rw [hintOf_of_comparesWith hp, if_neg hother]
      · have hhint : (ShardedTable.ofRef u db r).hint (some e) =
            (ShardedTable.ofRef u db r).hint (some e') := halike.hint
        rw [RuledRef.routed, RuledRef.routed, hhint]

/-- The lines of orders, sharded as the orders are. -/
def linesByOrder : Rule := .new "shop" "order_lines" "oid" 4

def idEquals (q column : String) : Expr :=
  .binary (.column ⟨some q, column⟩) .equal (.literal (.integer 3))

def idExceeds (q column : String) : Expr :=
  .binary (.column ⟨some q, column⟩) .greater (.literal (.integer 3))

theorem comparesWith_idEquals (q column : String) :
    ComparesWith ⟨some q, column⟩ (idEquals q column) (some [.int 3]) :=
  .equal (by rintro c ⟨⟩)

theorem pinsNothing_idExceeds (q column : String) : PinsNothing (idExceeds q column) :=
  ⟨fun _ => rfl, by rintro c ⟨⟩, rfl⟩

/-- `SELECT * FROM orders AS o JOIN order_lines AS l ON o.id = l.oid WHERE ...`. -/
def ordersWithLines (condition : Expr) : Select where
  distinct := false
  items := [.star]
  sources := [⟨⟨none, "orders"⟩, some "o"⟩]
  joins := [⟨.inner, ⟨⟨none, "order_lines"⟩, some "l"⟩,
    some (.binary (.column ⟨some "o", "id"⟩) .equal (.column ⟨some "l", "oid"⟩))⟩]
  condition := some condition
  groupBy := []
  having := none
  orderBy := []
  limit := none
  forUpdate := false

/-- Without `o.id = 3` the lines of `o.id = 3 AND l.oid = 3` still come from one shard. -/
theorem lines_keep_their_shard :
    (ordersWithLines (.binary (idEquals "o" "id") .and (idEquals "l" "oid"))).DenotesOnly "o" 0 ∧
    (RuledRef.routed "shop" (some (.binary (idExceeds "o" "id") .and (idEquals "l" "oid")))
      ⟨⟨⟨none, "order_lines"⟩, some "l"⟩, linesByOrder⟩).shards =
        [⟨"slice-0", "shop", "order_lines_3", 3⟩] := by
  have hq : (ordersWithLines (.binary (idEquals "o" "id") .and (idEquals "l" "oid"))).DenotesOnly
      "o" 0 := by decide +kernel
  obtain ⟨-, -, hothers⟩ := predicate_prunes_only_its_table ⟨[ordersById, linesByOrder]⟩ noKeys
    (ordersWithLines (.binary (idEquals "o" "id") .and (idEquals "l" "oid"))) "shop" "o" "id" () 0
    (idEquals "o" "id") (idExceeds "o" "id") _ _ (some [.int 3]) rfl (comparesWith_idEquals _ _)
    (pinsNothing_idExceeds _ _) (.left .here _ _) hq
  obtain ⟨-, hlines⟩ := hothers 1 ⟨⟨none, "order_lines"⟩, some "l"⟩ linesByOrder rfl
    rfl
  obtain ⟨-, hsame⟩ := hlines (by simp [IsOwnName]; decide +kernel)
  refine ⟨hq, ?_⟩
  rw [hsame]
  rfl

/-- `SELECT * FROM orders AS o JOIN users AS orders ON o.uid = orders.id WHERE ...`. -/
def ordersOfNamesakes (condition : Expr) : Select where
  distinct := false
  items := [.star]
  sources := [⟨⟨none, "orders"⟩, some "o"⟩]
  joins := [⟨.inner, ⟨⟨none, "users"⟩, some "orders"⟩,
    some (.binary (.column ⟨some "o", "uid"⟩) .equal (.column ⟨some "orders", "id"⟩))⟩]
  condition := some condition
  groupBy := []
  having := none
  orderBy := []
  limit := none
  forUpdate := false

def ordersOfNamesakesCall : Call := ⟨"slice-0", "shop",
  "SELECT * FROM orders_3 AS o JOIN users AS orders ON o.uid = orders.id WHERE orders.id = 3"⟩

/-- In `orders.id = 3` the qualifier means the users, and yet the orders are pruned. -/
theorem alias_prunes_its_namesake :
    (ordersOfNamesakes (idEquals "orders" "id")).DenotesOnly "orders" 1 ∧
    PinsNothing (idExceeds "orders" "id") ∧
    (ordersOfNamesakes (idEquals "orders" "id")).tableRefs[0]? =
      some ⟨⟨none, "orders"⟩, some "o"⟩ ∧
    ruleOf? ⟨[ordersById]⟩ "shop" ⟨⟨none, "orders"⟩, some "o"⟩ = some ordersById ∧
    (RuledRef.routed "shop" (some (idEquals "orders" "id"))
      ⟨⟨⟨none, "orders"⟩, some "o"⟩, ordersById⟩).shards.map (·.table) = ["orders_3"] ∧
    (RuledRef.routed "shop" (some (idExceeds "orders" "id"))
      ⟨⟨⟨none, "orders"⟩, some "o"⟩, ordersById⟩).shards.map (·.table) =
        ["orders_0", "orders_1", "orders_2", "orders_3"] ∧
    (plan (.ofRules ⟨[ordersById]⟩ noKeys) .standard
      (.select (ordersOfNamesakes (idEquals "orders" "id"))) "shop" "").outcome () =
        (.ok (.select ⟨[ordersOfNamesakesCall]⟩ ⟨[], none, [("orders_3", "orders")]⟩), ()) := by
  refine ⟨by decide +kernel, pinsNothing_idExceeds _ _, rfl, rfl, rfl,
    rfl, rfl⟩

end ShardedSql.Planning
