import ShardedSql.Proofs.Planning.Issued
import ShardedSql.Proofs.Planning.Referents
import ShardedSql.Proofs.Sql.Renamed
import ShardedSql.Proofs.Sql.Statements

namespace ShardedSql.Planning

open Routing (RuleTable Shard ordersById)
open Sql
open Sql.TokenParser (OpensWith)

section Renaming

variable {k : Nat} (r : Renamer) (db : String) (rs : List Renaming)

theorem written_expr {e : Expr} (h : e.Written k) : (r.expr e).Written k := h.mapColumns _

theorem legible_expr (e : Expr) : (r.expr e).Legible ↔ e.Legible := e.legible_mapColumns _

theorem written_selectItem {i : SelectItem} (h : i.Written k) : (r.selectItem i).Written k := by
  cases i with
  | star | tableStar _ => trivial
  | expr e a => exact written_expr r h

theorem legible_selectItem (i : SelectItem) : (r.selectItem i).Legible ↔ i.Legible := by
  cases i with
  | star | tableStar _ => rfl
  | expr e a => exact legible_expr r e

theorem tokens_selectItem {P : Token → Prop} (hP : ∀ n, ¬P (.ofName n)) (i : SelectItem) :
    SameFront P (r.selectItem i).tokens i.tokens := by
  cases i with
  | star => exact .refl _
  | tableStar _ => exact .of_not (hP _) (hP _)
  | expr e a => exact (e.tokens_sameFront _ hP).append (.refl _)

theorem opensWith_items {kw : String} (hkw : reservedWords.contains kw = true)
    (items : List SelectItem) :
    OpensWith kw (commaTokens ((items.map r.selectItem).map SelectItem.tokens)) ↔
      OpensWith kw (commaTokens (items.map SelectItem.tokens)) := by
  rw [List.map_map]
  refine (SameFront.commaTokens fun i _ => tokens_selectItem r (fun n hn => ?_) i).opensWith_iff
  rw [isKeyword_of_name? (Token.name?_ofName n) hkw] at hn
  cases hn

theorem written_renameSelect {s : Select} (h : s.Written k) (limit : Option Limit) :
    (renameSelect db rs { s with limit }).Written k where
  nonempty := by simpa [renameSelect] using h.nonempty
  items := by simpa [renameSelect] using fun i hi => written_selectItem _ (h.items i hi)
  sources := by simpa [renameSelect] using h.sources
  joins := by
    simpa [renameSelect, Renamer.join] using fun j hj e he => written_expr _ (h.joins j hj e he)
  condition := by simpa [renameSelect] using fun e he => written_expr _ (h.condition e he)
  groupBy := by simpa [renameSelect] using fun e he => written_expr _ (h.groupBy e he)
  having := by simpa [renameSelect] using fun e he => written_expr _ (h.having e he)
  orderBy := by
    simpa [renameSelect, Renamer.orderItem] using fun o ho => written_expr _ (h.orderBy o ho)

theorem legible_renameSelect (s : Select) (limit : Option Limit) :
    (renameSelect db rs { s with limit }).Legible ↔ s.Legible := by
  let s' := renameSelect db rs { s with limit }
  have hitems : (∀ i ∈ s'.items, i.Legible) ↔ ∀ i ∈ s.items, i.Legible := by
    simp [s', renameSelect, legible_selectItem]
  have hopening {kw : String} (hkw : reservedWords.contains kw = true) :
      OpensWith kw (commaTokens (s'.items.map SelectItem.tokens)) ↔
        OpensWith kw (commaTokens (s.items.map SelectItem.tokens)) :=
    opensWith_items _ hkw s.items
  have hdistinct := hopening (by decide : reservedWords.contains "DISTINCT" = true)
  have hall := hopening (by decide : reservedWords.contains "ALL" = true)
  have hjoins : (∀ j ∈ s'.joins, ∀ e ∈ j.on, e.Legible) ↔ ∀ j ∈ s.joins, ∀ e ∈ j.on, e.Legible := by
    simp [s', renameSelect, Renamer.join, legible_expr]
  have hcondition : (∀ e ∈ s'.condition, e.Legible) ↔ ∀ e ∈ s.condition, e.Legible := by
    simp [s', renameSelect, legible_expr]
  have hgroupBy : (∀ e ∈ s'.groupBy, e.Legible) ↔ ∀ e ∈ s.groupBy, e.Legible := by
    simp [s', renameSelect, legible_expr]
  have hhaving : (∀ e ∈ s'.having, e.Legible) ↔ ∀ e ∈ s.having, e.Legible := by
    simp [s', renameSelect, legible_expr]
  have horderBy : (∀ o ∈ s'.orderBy, o.expr.Legible) ↔ ∀ o ∈ s.orderBy, o.expr.Legible := by
    simp [s', renameSelect, Renamer.orderItem, legible_expr]
  constructor
  · intro h
    exact ⟨hitems.mp h.items, fun hd => (h.opening hd).imp hdistinct.not.mp hall.not.mp,
      hjoins.mp h.joins, hcondition.mp h.condition, hgroupBy.mp h.groupBy, hhaving.mp h.having,
      horderBy.mp h.orderBy⟩
  · intro h
    exact ⟨hitems.mpr h.items, fun hd => (h.opening hd).imp hdistinct.not.mpr hall.not.mpr,
      hjoins.mpr h.joins, hcondition.mpr h.condition, hgroupBy.mpr h.groupBy, hhaving.mpr h.having,
      horderBy.mpr h.orderBy⟩

theorem written_renameUpdate {u : Update} (h : u.Written k) :
    (renameUpdate db rs u).Written k where
  nonempty := by simpa [renameUpdate] using h.nonempty
  assignments := by
    simpa [renameUpdate, Renamer.assignment] using fun a ha => written_expr _ (h.assignments a ha)
  condition := by simpa [renameUpdate] using fun e he => written_expr _ (h.condition e he)

theorem written_renameDelete {d : Delete} (h : d.Written k) : (renameDelete db rs d).Written k := by
  simpa [renameDelete, Delete.Written] using fun e he => written_expr _ (h e he)

theorem legible_renameUpdate {u : Update} (h : u.Legible)
    (htable : ∀ hint ∈ updateHints, ¬OpensWith hint (renameUpdate db rs u).table.tokens) :
    (renameUpdate db rs u).Legible where
  table := htable
  assignments := by
    simpa [renameUpdate, Renamer.assignment, legible_expr] using h.assignments
  condition := by simpa [renameUpdate, legible_expr] using h.condition

theorem legible_renameDelete (d : Delete) : (renameDelete db rs d).Legible ↔ d.Legible := by
  simp [renameDelete, Delete.Legible, legible_expr]

end Renaming

namespace InsertTarget

variable {t : InsertTarget} {rows : List (List Expr)} {k : Nat} {i : Insert}

theorem written_shardInsert (hi : i.Written (k + 1)) (hne : rows ≠ [])
    (h : ∀ cells ∈ rows, t.Fills i.rows cells) (shard : Shard) :
    (t.shardInsert i shard rows).Written (k + 1) where
  nonempty := hne
  rows cells hcells c hc := by
    rcases (h cells hcells).cell hc with ⟨row, hrow, hc⟩ | rfl | ⟨id, rfl⟩
    · exact hi.rows row hrow c hc
    · exact .inr (Expr.written_literal .null (Token.wordText_of_isPlainWord (by decide)) (by decide))
    · exact .inr (Expr.written_generated k id)
  onDuplicate := hi.onDuplicate

theorem legible_shardInsert (hi : i.Legible) (h : ∀ cells ∈ rows, t.Fills i.rows cells)
    (shard : Shard) : (t.shardInsert i shard rows).Legible where
  rows cells hcells c hc := by
    rcases (h cells hcells).cell hc with ⟨row, hrow, hc⟩ | rfl | ⟨id, rfl⟩
    · exact hi.rows row hrow c hc
    · exact .inr ⟨⟨trivial, .inr (by decide)⟩, by decide⟩
    · exact .inr (Expr.legible_generated id)
  onDuplicate := hi.onDuplicate

end InsertTarget

/-- Whether the table of a statement does not start with a hint of UPDATE, if it is one. -/
def NoHint : Statement → Prop
  | .update u => ∀ hint ∈ updateHints, ¬OpensWith hint u.table.tokens
  | _ => True

namespace Issued

variable {db : String} {stmt phys : Statement} {c : Call}

theorem written (h : Issued db stmt c phys) (hstmt : stmt.Written) : phys.Written := by
  cases h with
  | select s shards tables g =>
    obtain ⟨l, hl⟩ := splitSelect_fst s shards
    rw [hl]
    exact written_renameSelect db _ hstmt l
  | insert i t g hrows => exact t.written_shardInsert hstmt hrows.1 hrows.2 g.shard
  | update u t shard => exact written_renameUpdate db _ hstmt
  | delete d t shard => exact written_renameDelete db _ hstmt

/-- The planner makes no statement illegible but by the database that it puts behind UPDATE. -/
theorem legible (h : Issued db stmt c phys) (hstmt : stmt.Legible) (hhint : NoHint phys) :
    phys.Legible := by
  cases h with
  | select s shards tables g =>
    obtain ⟨l, hl⟩ := splitSelect_fst s shards
    rw [hl]
    exact (legible_renameSelect db _ s l).mpr hstmt
  | insert i t g hrows => exact t.legible_shardInsert hstmt hrows.2 g.shard
  | update u t shard =>
    exact legible_renameUpdate db _ hstmt hhint
  | delete d t shard => exact (legible_renameDelete db _ d).mpr hstmt

end Issued

variable {σ : Type} {rules : RuleTable} {nextKey : String → Planner σ Int64} {db : String}
  {st st' : σ} {p : Plan}

/-- The text of a call is read as the statement that it was printed from, up to the case of function
names and signs, exactly if that statement is legible. Only a text with a line break or the start of
a comment in it might be read so without being legible. -/
theorem calls_read_back (rules : RuleTable) (nextKey : String → Planner σ Int64) (config : Config)
    (text db : String) (stmt : Statement) (st st' : σ) (p : Plan)
    (htext : Statement.ofString? text = .ok stmt)
    (hclass : (classify (.ofRules rules nextKey) stmt db st).1 = .shardAware)
    (h : (plan (.ofRules rules nextKey) config stmt db text).outcome st = (.ok p, st')) :
    ∀ c ∈ p.routing.calls, ∃ phys, Issued db stmt c phys ∧ c.sql = phys.sql ∧
      (stmt.Legible → NoHint phys → phys.Legible) ∧
      (phys.Legible → Statement.ofString? c.sql = .ok phys.normal) ∧
      (Tame c.sql.toList → Statement.ofString? c.sql = .ok phys.normal → phys.Legible) := by
  have hwritten : stmt.Written := by
    rcases Statement.written_of_ofString? htext with hwritten | ⟨inner, rfl⟩ | ⟨tokens, rfl⟩
    · exact hwritten
    · cases hclass
    · cases hclass
  intro c hc
  obtain ⟨phys, hissued⟩ := issued_of_plan hclass h c hc
  refine ⟨phys, hissued, hissued.sql_eq, hissued.legible, fun hread => ?_, fun htame hagain => ?_⟩
  · rw [hissued.sql_eq]
    exact Statement.ofString?_sql (hissued.written hwritten) hread
  · rw [hissued.sql_eq] at htame hagain
    exact Statement.legible_of_ofString? (hissued.written hwritten) htame hagain

/-- `INSERT INTO orders (name) VALUES (lower('B'))`. -/
def lowerOrder : Insert where
  replace := false
  ignore := false
  table := ⟨none, "orders"⟩
  columns := ["name"]
  rows := [[.call "lower" [.literal (.text "B")] false]]
  onDuplicate := []

/-- A supply of one negative key. -/
def minusSix (_ : String) : Planner Unit Int64 := pure (-6)

def lowerOrderText : String := "INSERT INTO orders (name) VALUES (lower('B'))"

def lowerOrderPlan : Plan :=
  .insert ⟨[⟨"slice-0", "shop", "INSERT INTO orders_2 (name, id) VALUES (LOWER('B'), -6)"⟩]⟩ none

theorem plan_lowerOrder : (plan (.ofRules ⟨[ordersById]⟩ minusSix) .standard (.insert lowerOrder)
    "shop" lowerOrderText).outcome () = (.ok lowerOrderPlan, ()) := by decide +kernel

theorem legible_lowerOrder : lowerOrder.Legible := by
  refine ⟨fun row hrow c hc => .inr ?_, by simp [lowerOrder]⟩
  cases List.mem_singleton.mp hrow
  cases List.mem_singleton.mp hc
  have hvalue : (Expr.literal (.text "B")).Readable ∧ (Expr.literal (.text "B")).StandsAlone :=
    ⟨trivial, .inr (by decide)⟩
  exact ⟨⟨⟨⟨hvalue, trivial⟩, fun _ => by decide⟩, .inr (by decide)⟩, by decide⟩

theorem lower_order_is_read_back :
    Statement.ofString? lowerOrderText = .ok (.insert lowerOrder) ∧
    ∀ c ∈ lowerOrderPlan.routing.calls, ∃ phys, Issued "shop" (.insert lowerOrder) c phys ∧
      phys.Legible ∧ Statement.ofString? c.sql = .ok phys.normal := by
  have htext : Statement.ofString? lowerOrderText = .ok (.insert lowerOrder) := by decide +kernel
  have hclass : (classify (.ofRules ⟨[ordersById]⟩ minusSix) (.insert lowerOrder) "shop" ()).1 =
      .shardAware := rfl
  refine ⟨htext, fun c hc => ?_⟩
  obtain ⟨phys, hissued, -, hread, hagain, -⟩ := calls_read_back ⟨[ordersById]⟩ minusSix .standard
    lowerOrderText "shop" (.insert lowerOrder) () () lowerOrderPlan htext hclass plan_lowerOrder c hc
  have hphys : phys.Legible := by
    refine hread legible_lowerOrder ?_
    cases hissued
    trivial
  exact ⟨phys, hissued, hphys, hagain hphys⟩

/-- `SELECT * FROM orders WHERE id = 3 AND a = - -5`. -/
def twiceNegated : Select where
  distinct := false
  items := [.star]
  sources := [⟨⟨none, "orders"⟩, none⟩]
  joins := []
  condition := some (.binary (.binary (.column ⟨none, "id"⟩) .equal (.literal (.integer 3))) .and
    (.binary (.column ⟨none, "a"⟩) .equal (.negate (.negate (.literal (.integer 5))))))
  groupBy := []
  having := none
  orderBy := []
  limit := none
  forUpdate := false

def twiceNegatedText : String := "SELECT * FROM orders WHERE id = 3 AND a = - -5"

def twiceNegatedPlan : Plan :=
  .select ⟨[⟨"slice-0", "shop", "SELECT * FROM orders_3 WHERE id = 3 AND a = --5"⟩]⟩
    ⟨[], none, [("orders_3", "orders")]⟩

/-- Two signs are printed as the start of a comment, which leaves no statement. -/
theorem two_signs_are_not_read_back :
    Statement.ofString? twiceNegatedText = .ok (.select twiceNegated) ∧
    (classify (.ofRules ⟨[ordersById]⟩ noKeys) (.select twiceNegated) "shop" ()).1 = .shardAware ∧
    (plan (.ofRules ⟨[ordersById]⟩ noKeys) .standard (.select twiceNegated) "shop"
      twiceNegatedText).outcome () = (.ok twiceNegatedPlan, ()) ∧
    ∃ c ∈ twiceNegatedPlan.routing.calls, ∀ stmt, Statement.ofString? c.sql ≠ .ok stmt := by
  refine ⟨by decide +kernel, rfl, rfl, _, List.mem_cons_self, ?_⟩
  intro stmt h
  have herror : (Statement.ofString? "SELECT * FROM orders_3 WHERE id = 3 AND a = --5").isOk =
    false := by decide +kernel
  rw [h] at herror
  cases herror

end ShardedSql.Planning
