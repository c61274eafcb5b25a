import ShardedSql.Proofs.Planning.PrintedCalls

namespace ShardedSql.Sql

open TokenParser
open Token (scan isPlainWord)

/-- Whether the tokens of a write have the word IGNORE in front of its table. -/
def HasIgnore (ts : List Token) : Prop :=
  OpensWith "IGNORE" ts.tail ∨
    OpensWith "UPDATE" ts ∧ OpensWith "LOW_PRIORITY" ts.tail ∧ OpensWith "IGNORE" ts.tail.tail

instance (ts : List Token) : Decidable (HasIgnore ts) := inferInstanceAs (Decidable (_ ∨ _))

/-- What a write does about rows that are there and how many it writes. -/
structure WriteModifiers where
  replace : Bool
  ignore : Bool
  limit : Option UInt64
  onDuplicate : List Assignment
  deriving DecidableEq, Repr

def WriteModifiers.normal (m : WriteModifiers) : WriteModifiers :=
  { m with onDuplicate := m.onDuplicate.map Assignment.normal }

/-- The modifiers of an INSERT or UPDATE. An UPDATE has no place for the word IGNORE. -/
def Statement.modifiers? : Statement → Option WriteModifiers
  | .insert i => some ⟨i.replace, i.ignore, none, i.onDuplicate⟩
  | .update u => some ⟨false, false, u.limit, []⟩
  | _ => none

theorem Statement.modifiers?_normal (stmt : Statement) :
    stmt.normal.modifiers? = stmt.modifiers?.map WriteModifiers.normal := by
  cases stmt <;> rfl

theorem Insert.verb_of_run {replace ignore : Bool} {ts rest : List Token}
    (h : Insert.parseVerb.run ts = .ok ((replace, ignore), rest)) (hne : rest ≠ []) :
    ∃ t us, ts = t :: us ∧ us ≠ [] ∧
      t.isKeyword (if replace then "REPLACE" else "INSERT") = true ∧
      (OpensWith "IGNORE" us ↔ ignore = true) := by
  obtain ⟨t, us, ts₂, into, rfl, ht, hignore, hinto⟩ := Insert.run_parseVerb_eq_ok h
  have hus : us ≠ [] := by
    rintro rfl
    have hshort := Nat.le_trans ((takesWord "INTO").shrinks hinto)
      ((takesWord "IGNORE").shrinks hignore)
    exact hne (List.length_eq_zero_iff.mp (Nat.le_zero.mp hshort))
  refine ⟨t, us, rfl, hus, ht, ?_⟩
  rcases run_takesWord_eq_ok.mp hignore with ⟨rfl, t', ht', rfl⟩ | ⟨rfl, hnot, -⟩
  · simpa using ht'
  · simpa using hnot

theorem modifiers_of_verb {replace ignore : Bool} {t : Token} {us : List Token}
    (ht : t.isKeyword (if replace then "REPLACE" else "INSERT") = true)
    (hus : OpensWith "IGNORE" us ↔ ignore = true) :
    (OpensWith "REPLACE" (t :: us) ↔ replace = true) ∧
      (HasIgnore (t :: us) ↔ ignore = true) ∧ ¬OpensWith "UPDATE" (t :: us) := by
  have hupdate : ¬OpensWith "UPDATE" (t :: us) := by
    refine not_opensWith_of_isKeyword ht ?_ us
    cases replace <;> decide
  refine ⟨?_, ?_, hupdate⟩
  · cases replace with
    | true => exact iff_of_true ((opensWith_cons _ _ _).mpr ht) rfl
    | false => exact iff_of_false (not_opensWith_of_isKeyword ht (by decide) us) Bool.false_ne_true
  · rw [← hus]
    exact or_iff_left fun h => hupdate h.1

/-- The words in front of the table of an INSERT tell whether it replaces and whether it ignores. -/
theorem Insert.modifiers_of_run {levels : Nat} {i : Insert} {ts rest : List Token}
    (h : (Insert.parse levels).run ts = .ok (i, rest)) (more : List Token) :
    (OpensWith "REPLACE" (ts ++ more) ↔ i.replace = true) ∧
      (HasIgnore (ts ++ more) ↔ i.ignore = true) ∧ ¬OpensWith "UPDATE" (ts ++ more) := by
  rw [Insert.parse_eq] at h
  obtain ⟨⟨replace, ignore⟩, ts₁, hverb, h₁⟩ := run_bind_eq_ok.mp h
  obtain ⟨table, ts₂, htable, h₂⟩ := run_bind_eq_ok.mp h₁
  obtain ⟨content, ts₃, -, h₃⟩ := run_bind_eq_ok.mp h₂
  obtain ⟨onDuplicate, ts₄, -, hpure⟩ := run_bind_eq_ok.mp h₃
  cases hpure
  have hne : ts₁ ≠ [] := by
    obtain ⟨u, rfl, hname⟩ := TableName.opensName htable
    obtain ⟨t, ht, -⟩ := hname ts₂
    exact List.ne_nil_of_mem (List.mem_of_mem_head? ht)
  obtain ⟨t, us, rfl, hus, ht, hignore⟩ := Insert.verb_of_run hverb hne
  exact modifiers_of_verb ht ((opensWith_append hus more).trans hignore)

/-- An INSERT is printed with the words that it was read with. -/
theorem Insert.modifiers_of_sql {i : Insert} {us : List Token} (h : Token.ofString? i.sql = .ok us) :
    (OpensWith "REPLACE" us ↔ i.replace = true) ∧ (HasIgnore us ↔ i.ignore = true) := by
  have hsql : i.sql = insertVerb (i.replace, i.ignore) ++ (i.table.sql ++
      (sqlColumns i.columns ++ (" VALUES " ++
        (commaSeparated (i.rows.map fun row => sqlParenthesized (row.map Expr.sql)) ++
        sqlListClause " ON DUPLICATE KEY UPDATE " (i.onDuplicate.map Assignment.sql))))) := by
    delta Insert.sql insertVerb
    simp only [String.append_assoc]
  rw [hsql, Token.ofString?, String.toList_append] at h
  obtain ⟨ws, -, rfl⟩ := (verb_leads.spells (i.replace, i.ignore) _).rest_of_ok h
  have hverb : (Token.word (if i.replace then "REPLACE" else "INSERT")).isKeyword
      (if i.replace then "REPLACE" else "INSERT") = true := by
    cases i.replace <;> decide
  have hignore : OpensWith "IGNORE" (flagTokens i.ignore "IGNORE" ++ [.word "INTO"] ++ ws) ↔
      i.ignore = true := by
    cases i.ignore with
    | true => exact iff_of_true ((opensWith_cons _ _ _).mpr (by decide)) rfl
    | false =>
      refine iff_of_false (fun hopens => ?_) Bool.false_ne_true
      exact absurd ((opensWith_cons _ _ _).mp hopens) (by decide)
  obtain ⟨hreplace, hhas, -⟩ := modifiers_of_verb hverb hignore
  exact ⟨hreplace, hhas⟩

/-- An UPDATE is printed without IGNORE, unless its table starts with the name. -/
theorem Update.modifiers_of_sql {u : Update} {us : List Token} (h : Token.ofString? u.sql = .ok us) :
    ¬OpensWith "REPLACE" us ∧
      ((∀ hint ∈ updateHints, ¬OpensWith hint u.table.tokens) → ¬HasIgnore us) := by
  let scope := commaSeparated (u.assignments.map Assignment.sql) ++
    (sqlClause " WHERE " (u.condition.map Expr.sql) ++ sqlClause " LIMIT " (u.limit.map sqlUnsigned))
  have hsql : u.sql.toList = "UPDATE ".toList ++ (u.table.sql.toList ++
      (' ' :: ("SET".toList ++ [' ']) ++ scope.toList)) := by
    delta Update.sql
    simp [scope]
  rw [Token.ofString?, hsql] at h
  have hupdate : Spells "UPDATE ".toList [.word "UPDATE"]
      (u.table.sql.toList ++ (' ' :: ("SET".toList ++ [' ']) ++ scope.toList)) :=
    Spells.keyword_space (by decide : isPlainWord "UPDATE".toList = true)
  obtain ⟨ws, hws, rfl⟩ := hupdate.rest_of_ok h
  have hend : EndsTextAt [.word "SET"] (' ' :: ("SET".toList ++ [' ']) ++ scope.toList) :=
    .space_keyword (by decide : isPlainWord "SET".toList = true) (by simp) scope.toList
  obtain ⟨ws', -, rfl⟩ :=
    (updatedTable_faithful.spells (y := u.table) trivial trivial hend).rest_of_ok hws
  have hkw : (Token.word "UPDATE").isKeyword "UPDATE" = true := by decide
  refine ⟨not_opensWith_of_isKeyword hkw (by decide) _, fun hhint => ?_⟩
  have hopens : ∀ hint ∈ updateHints, ¬OpensWith hint (u.table.tokens ++ ws') := by
    intro hint hmem
    rw [opensWith_append u.table.tokens_ne_nil]
    exact hhint hint hmem
  rintro (hignore | ⟨-, hlow, -⟩)
  · exact hopens "IGNORE" (by decide) hignore
  · exact hopens "LOW_PRIORITY" (by decide) hlow

end ShardedSql.Sql

namespace ShardedSql.Planning

open Routing (RuleTable ordersById)
open Sql
open Sql.TokenParser (OpensWith)

variable {db : String} {stmt phys : Statement} {c : Call}

theorem Issued.modifiers (h : Issued db stmt c phys) : phys.modifiers? = stmt.modifiers? := by
  cases h <;> rfl

/-- The words of a write, as its tokens have them, against those of a statement that it is sent as. -/
theorem words_of_issued {ts us more : List Token} (hissued : Issued db stmt c phys)
    (hrun : (Statement.parseWithin Statement.maxLevels).run ts = .ok (stmt, []))
    (hwrite : stmt.modifiers? ≠ none) (hsql : Token.ofString? c.sql = .ok us) :
    (OpensWith "REPLACE" us ↔ OpensWith "REPLACE" (ts ++ more)) ∧
      (NoHint phys → (HasIgnore us ↔
        HasIgnore (ts ++ more) ∧ ¬OpensWith "UPDATE" (ts ++ more))) := by
  have hread := Statement.run_parseWithin_eq_ok hrun
  rw [hissued.sql_eq] at hsql
  cases hissued with
  | select | delete => exact absurd rfl hwrite
  | insert i t g hrows =>
    obtain ⟨hreplace, hignore, hupdate⟩ := Insert.modifiers_of_run hread more
    obtain ⟨hreplace', hignore'⟩ := Insert.modifiers_of_sql hsql
    refine ⟨hreplace'.trans hreplace.symm, fun _ => ?_⟩
    rw [and_iff_left hupdate]
    exact hignore'.trans hignore.symm
  | update u t shard =>
    have hupdate : OpensWith "UPDATE" ts := Statement.opensWith_of_needsWord hread
    have hne : ts ≠ [] := by
      rintro rfl
      exact TokenParser.not_opensWith_nil _ hupdate
    obtain ⟨v, vs, rfl⟩ := List.exists_cons_of_ne_nil hne
    have hkw : v.isKeyword "UPDATE" = true := (TokenParser.opensWith_cons _ _ _).mp hupdate
    obtain ⟨hreplace, hignore⟩ := Update.modifiers_of_sql hsql
    refine ⟨iff_of_false hreplace ?_, fun hhint => iff_of_false (hignore hhint) fun h => h.2 ?_⟩
    · exact TokenParser.not_opensWith_of_isKeyword hkw (by decide) _
    · exact (TokenParser.opensWith_cons _ _ _).mpr hkw

variable {σ : Type} {st st' : σ} {p : Plan}

/-- The calls of a plan for a write have its REPLACE, its LIMIT and its ON DUPLICATE KEY UPDATE, and
its IGNORE if it is not an UPDATE. -/
theorem calls_keep_modifiers (rules : RuleTable) (nextKey : String → Planner σ Int64)
    (config : Config) (text db : String) (ts : List Token) (stmt : Statement) (st st' : σ) (p : Plan)
    (hscan : Token.ofString? text = .ok ts) (htext : Statement.ofString? text = .ok stmt)
    (hwrite : stmt.modifiers? ≠ none)
    (hclass : (classify (.ofRules rules nextKey) stmt db st).1 = .shardAware)
    (h : (plan (.ofRules rules nextKey) config stmt db text).outcome st = (.ok p, st')) :
    ∀ c ∈ p.routing.calls, ∃ phys, Issued db stmt c phys ∧ c.sql = phys.sql ∧
      phys.modifiers? = stmt.modifiers? ∧
      (∀ us, Token.ofString? c.sql = .ok us →
        (OpensWith "REPLACE" us ↔ OpensWith "REPLACE" ts) ∧
        (NoHint phys → (HasIgnore us ↔ HasIgnore ts ∧ ¬OpensWith "UPDATE" ts))) ∧
      (phys.Legible → ∃ again, Statement.ofString? c.sql = .ok again ∧
        again.modifiers? = stmt.modifiers?.map WriteModifiers.normal) := by
  obtain ⟨vs, semicolons, hvs, hrun⟩ := Statement.ofString?_eq_ok htext
  obtain rfl : ts = vs ++ semicolons := Except.ok.inj (hscan.symm.trans hvs)
  intro c hc
  obtain ⟨phys, hissued, hsql, -, hagain, -⟩ :=
    calls_read_back rules nextKey config text db stmt st st' p htext hclass h c hc
  refine ⟨phys, hissued, hsql, hissued.modifiers, fun us hus => ?_, fun hread => ?_⟩
  · exact words_of_issued hissued hrun hwrite hus
  · refine ⟨phys.normal, hagain hread, ?_⟩
    rw [Statement.modifiers?_normal, hissued.modifiers]

/-- `INSERT IGNORE INTO orders (id, n) VALUES (3, 1) ON DUPLICATE KEY UPDATE n = 2`. -/
def ignoringOrder : Insert where
  replace := false
  ignore := true
  table := ⟨none, "orders"⟩
  columns := ["id", "n"]
  rows := [[.literal (.integer 3), .literal (.integer 1)]]
  onDuplicate := [⟨⟨none, "n"⟩, .literal (.integer 2)⟩]

def ignoringOrderText : String :=
  "INSERT IGNORE INTO orders (id, n) VALUES (3, 1) ON DUPLICATE KEY UPDATE n = 2"

def ignoringOrderTokens : List Token :=
  [.word "INSERT", .word "IGNORE", .word "INTO", .word "orders", .symbol .leftParen, .word "id",
    .symbol .comma, .word "n", .symbol .rightParen, .word "VALUES", .symbol .leftParen, .number "3",
    .symbol .comma, .number "1", .symbol .rightParen, .word "ON", .word "DUPLICATE", .word "KEY",
    .word "UPDATE", .word "n", .symbol .equal, .number "2"]

def ignoringOrderCall : Call :=
  ⟨"slice-0", "shop",
    "INSERT IGNORE INTO orders_3 (id, n) VALUES (3, 1) ON DUPLICATE KEY UPDATE n = 2"⟩

def ignoringOrderPlan : Plan := .insert ⟨[ignoringOrderCall]⟩ none

theorem ignoring_order_keeps_modifiers :
    (plan (.ofRules ⟨[ordersById]⟩ noKeys) .standard (.insert ignoringOrder) "shop"
      ignoringOrderText).outcome () = (.ok ignoringOrderPlan, ()) ∧
    ∃ phys : Statement, ignoringOrderCall.sql = phys.sql ∧
      phys.modifiers? = (Statement.insert ignoringOrder).modifiers? ∧
      ∀ us, Token.ofString? ignoringOrderCall.sql = .ok us →
        ¬OpensWith "REPLACE" us ∧ HasIgnore us := by
  have hscan : Token.ofString? ignoringOrderText = .ok ignoringOrderTokens := by decide +kernel
  have hread : Statement.ofString? ignoringOrderText = .ok (.insert ignoringOrder) := by
    decide +kernel
  have hclass : (classify (.ofRules ⟨[ordersById]⟩ noKeys) (.insert ignoringOrder) "shop" ()).1 =
      .shardAware := rfl
  have hplan : (plan (.ofRules ⟨[ordersById]⟩ noKeys) .standard (.insert ignoringOrder) "shop"
      ignoringOrderText).outcome () = (.ok ignoringOrderPlan, ()) := rfl
  obtain ⟨phys, hissued, hsql, hmodifiers, hwords, -⟩ := calls_keep_modifiers ⟨[ordersById]⟩ noKeys
    .standard ignoringOrderText "shop" ignoringOrderTokens (.insert ignoringOrder) () ()
    ignoringOrderPlan hscan hread (by decide) hclass hplan ignoringOrderCall List.mem_cons_self
  have hhint : ∀ {c : Call}, Issued "shop" (.insert ignoringOrder) c phys → NoHint phys := by
    rintro c ⟨⟩
    trivial
  refine ⟨hplan, phys, hsql, hmodifiers, fun us hus => ?_⟩
  obtain ⟨hreplace, hignore⟩ := hwords us hus
  exact ⟨hreplace.not.mpr (by decide), (hignore (hhint hissued)).mpr (by decide)⟩

/-- `UPDATE IGNORE orders SET n = 1 WHERE id = 3`, read without its second word. -/
def ignoringUpdate : Update where
  table := ⟨⟨none, "orders"⟩, none⟩
  assignments := [⟨⟨none, "n"⟩, .literal (.integer 1)⟩]
  condition := some (.binary (.column ⟨none, "id"⟩) .equal (.literal (.integer 3)))
  limit := none

def ignoringUpdateText : String := "UPDATE IGNORE orders SET n = 1 WHERE id = 3"

def ignoringUpdateTokens : List Token :=
  [.word "UPDATE", .word "IGNORE", .word "orders", .word "SET", .word "n", .symbol .equal,
    .number "1", .word "WHERE", .word "id", .symbol .equal, .number "3"]

def ignoringUpdatePlan : Plan :=
  .update ⟨[⟨"slice-0", "shop", "UPDATE orders_3 SET n = 1 WHERE id = 3"⟩]⟩

/-- An UPDATE loses its IGNORE on the way to the shards. -/
theorem update_loses_ignore :
    Token.ofString? ignoringUpdateText = .ok ignoringUpdateTokens ∧ HasIgnore ignoringUpdateTokens ∧
    Statement.ofString? ignoringUpdateText = .ok (.update ignoringUpdate) ∧
    (classify (.ofRules ⟨[ordersById]⟩ noKeys) (.update ignoringUpdate) "shop" ()).1 =
      .shardAware ∧
    (plan (.ofRules ⟨[ordersById]⟩ noKeys) .standard (.update ignoringUpdate) "shop"
      ignoringUpdateText).outcome () = (.ok ignoringUpdatePlan, ()) ∧
    ∃ c ∈ ignoringUpdatePlan.routing.calls, ∃ us, Token.ofString? c.sql = .ok us ∧
      ¬HasIgnore us := by
  refine ⟨by decide +kernel, by decide, by decide +kernel, rfl, rfl, _,
    List.mem_cons_self, ?_⟩
  exact ⟨.word "UPDATE" :: .word "orders_3" :: ignoringUpdateTokens.drop 3, by decide +kernel,
    by decide⟩

end ShardedSql.Planning
