import ShardedSql.Proofs.Execution.DryRun
import ShardedSql.Proofs.Sql.CanonicalForm

namespace ShardedSql.Sql

open TokenParser
open Statement (maxLevels dropSemicolons ofTokens? parseWithin)

/-- A list of items, each with its own tokens, is read where each item is. -/
theorem run_list_map {α β : Type} {item : TokenParser α} (Ends : List Token → Prop) {xs : List β}
    (hne : xs ≠ []) {f : β → α} {g : β → List Token}
    (hitem : ∀ x ∈ xs, ∀ rest, Ends rest → item.run (g x ++ rest) = .ok (f x, rest))
    (hcomma : ∀ ts, Ends (.symbol .comma :: ts)) {rest : List Token} (hrest : Ends rest)
    (hend : rest.head? ≠ some (.symbol .comma)) :
    (TokenParser.list item).run (commaTokens (xs.map g) ++ rest) = .ok (xs.map f, rest) := by
  have hpairs : xs.map (fun x => (f x, g x)) ≠ [] := by simpa using hne
  have hread := run_list Ends hpairs (by simpa using hitem) hcomma hrest hend
  simpa only [List.map_map, Function.comp_def] using hread

theorem Derives.ne_defaultValue {k : Nat} {r : Rank} {e : Expr} {u : List Token}
    (h : Derives k r e u) : e ≠ .defaultValue := by
  induction h with
  | number h =>
    subst h
    unfold Expr.ofNumber
    split <;> simp
  | plus _ ih | tighter _ _ _ ih => exact ih
  | _ => simp

/-- A column of an INSERT and the tokens of its value. -/
structure GivenValue where
  column : Token
  name : String
  named : column.name? = some name
  tokens : List Token
  value : Expr
  read : (Insert.parseValue maxLevels).run tokens = .ok (value, [])

namespace GivenValue

/-- The value where an expression is expected, which makes the word DEFAULT a column. -/
def assigned (v : GivenValue) : Expr :=
  match v.value, v.tokens with
  | .defaultValue, [.word w] => .column ⟨none, w⟩
  | e, _ => e

/-- A value is the word DEFAULT or an expression that does not start with it. -/
theorem default_or_derives (v : GivenValue) :
    (∃ w, Text.upper w = "DEFAULT" ∧ v.tokens = [.word w] ∧ v.value = .defaultValue) ∨
      Derives (maxLevels - 1) .disjunction v.value v.tokens ∧ ¬OpensWith "DEFAULT" v.tokens := by
  have hread := v.read
  unfold Insert.parseValue at hread
  obtain ⟨b, ts, hword, hrest⟩ := run_bind_eq_ok.mp hread
  rcases run_takesWord_eq_ok.mp hword with ⟨rfl, t, ht, htokens⟩ | ⟨rfl, hnot, rfl⟩
  · obtain ⟨hvalue, rfl⟩ : Expr.defaultValue = v.value ∧ ts = [] := by
      simpa using hrest
    cases t with
    | word w => exact .inl ⟨w, beq_iff_eq.mp ht, htokens, hvalue.symm⟩
    | _ => cases ht
  · obtain ⟨u, hu, hderives⟩ := sound_parse (maxLevels - 1) hrest
    rw [List.append_nil] at hu
    exact .inr ⟨hu ▸ hderives, hnot⟩

theorem assigned_of_ne {v : GivenValue} (h : v.value ≠ .defaultValue) : v.assigned = v.value := by
  unfold assigned
  split
  · next hvalue _ => exact absurd hvalue h
  · rfl

theorem derives_assigned (v : GivenValue) :
    Derives (maxLevels - 1) .disjunction v.assigned v.tokens := by
  rcases v.default_or_derives with ⟨w, hw, htokens, hvalue⟩ | ⟨hderives, -⟩
  · have hname : (Token.word w).name? = some w := by
      have hfree : reservedWords.contains "DEFAULT" = false := by decide
      simp only [Token.name?, isReserved, hw, hfree, Bool.false_eq_true, if_false]
    have hcolumn : Derives (maxLevels - 1) .signed (.column ⟨none, w⟩) [.word w] :=
      .tighter rfl (.column hname) (by simp)
    rw [assigned, hvalue, htokens]
    refine hcolumn.of_signed ?_
    rw [opensWith_cons, Token.isKeyword, hw]
    decide
  · rw [assigned_of_ne hderives.ne_defaultValue]
    exact hderives

theorem assigned_eq_iff (v : GivenValue) : v.assigned = v.value ↔ v.value ≠ .defaultValue :=
  ⟨fun h hvalue => v.derives_assigned.ne_defaultValue (h.trans hvalue), assigned_of_ne⟩

theorem run_parseValue (v : GivenValue) {rest : List Token} (hrest : Stops .disjunction rest) :
    (Insert.parseValue maxLevels).run (v.tokens ++ rest) = .ok (v.value, rest) := by
  unfold Insert.parseValue
  rcases v.default_or_derives with ⟨w, hw, htokens, hvalue⟩ | ⟨hderives, hnot⟩
  · have hopens : OpensWith "DEFAULT" (v.tokens ++ rest) := by
      rw [htokens]
      exact (opensWith_cons _ _ _).mpr (beq_iff_eq.mpr hw)
    rw [run_bind_of_ok (run_takesWord_of_opens hopens), htokens, hvalue]
    rfl
  · have hnot' : ¬OpensWith "DEFAULT" (v.tokens ++ rest) := by
      rwa [opensWith_append hderives.ne_nil]
    rw [run_bind_of_ok (run_takesWord_of_not_opens hnot')]
    exact hderives.run_parse hrest

theorem run_parse (v : GivenValue) {rest : List Token} (hrest : Stops .disjunction rest) :
    (Expr.parse maxLevels).run (v.tokens ++ rest) = .ok (v.assigned, rest) :=
  v.derives_assigned.run_parse hrest

/-- The tokens of the value as an assignment to its column. -/
def assignmentTokens (v : GivenValue) : List Token := v.column :: .symbol .equal :: v.tokens

def assignment (v : GivenValue) : Assignment := ⟨⟨none, v.name⟩, v.assigned⟩

theorem run_parseAssignment (v : GivenValue) {rest : List Token} (hrest : Stops .disjunction rest) :
    (Assignment.parse maxLevels).run (v.assignmentTokens ++ rest) = .ok (v.assignment, rest) := by
  have hname : TokenParser.name.run (v.column :: .symbol .equal :: (v.tokens ++ rest)) =
      .ok (v.name, _) :=
    run_name_eq_ok.mpr ⟨v.column, v.named, rfl⟩
  unfold Assignment.parse ColumnName.parse qualifiedName
  simp only [then_assoc, assignmentTokens, List.cons_append]
  rw [run_bind_of_ok hname, run_bind_of_ok (run_takesSymbol_of_ne (by simp))]
  simp only [Bool.false_eq_true, if_false, pure_then]
  rw [run_bind_of_ok (run_needsSymbol_cons _), run_bind_of_ok (v.run_parse hrest)]
  rfl

end GivenValue

/-- A name goes on behind a dot only. -/
theorem run_qualifiedName_append {x : Option String × String} {u ws : List Token}
    (h : qualifiedName.run u = .ok (x, [])) (hws : ws.head? ≠ some (.symbol .dot)) :
    qualifiedName.run (u ++ ws) = .ok (x, ws) := by
  unfold qualifiedName at h ⊢
  obtain ⟨first, ts, hfirst, hrest⟩ := run_bind_eq_ok.mp h
  obtain ⟨t, ht, rfl⟩ := run_name_eq_ok.mp hfirst
  have hname : TokenParser.name.run (t :: ts ++ ws) = .ok (first, ts ++ ws) :=
    run_name_eq_ok.mpr ⟨t, ht, rfl⟩
  rw [run_bind_of_ok hname]
  obtain ⟨dot, ts₁, hdot, hnext⟩ := run_bind_eq_ok.mp hrest
  rcases run_takesSymbol_eq_ok.mp hdot with ⟨rfl, rfl⟩ | ⟨rfl, -, rfl⟩
  · obtain ⟨n, ts₂, hn, hpure⟩ := run_bind_eq_ok.mp hnext
    obtain ⟨t', ht', rfl⟩ := run_nameAfterDot_eq_ok.mp hn
    cases hpure
    have hpart : nameAfterDot.run (t' :: ws) = .ok (n, ws) :=
      run_nameAfterDot_eq_ok.mpr ⟨t', ht', rfl⟩
    simp only [List.cons_append, List.nil_append]
    rw [run_bind_of_ok (run_takesSymbol_cons _), if_pos rfl, run_bind_of_ok hpart]
    rfl
  · cases hnext
    rw [List.nil_append, run_bind_of_ok (run_takesSymbol_of_ne hws)]
    rfl

theorem TableName.run_parse_append {t : TableName} {u ws : List Token}
    (h : TableName.parse.run u = .ok (t, [])) (hws : ws.head? ≠ some (.symbol .dot)) :
    TableName.parse.run (u ++ ws) = .ok (t, ws) := by
  obtain ⟨x, ts, hx, hpure⟩ := run_bind_eq_ok.mp h
  cases hpure
  exact run_bind_of_ok (run_qualifiedName_append hx hws)

/-- An INSERT of one row, each column of which has its value. -/
structure OneRow where
  replace : Bool
  ignore : Bool
  table : TableName
  tableTokens : List Token
  tableRead : TableName.parse.run tableTokens = .ok (table, [])
  given : List GivenValue
  nonempty : given ≠ []
  /-- What follows the row, such as ON DUPLICATE KEY UPDATE. -/
  ending : List Token
  lastRow : ending.head? ≠ some (.symbol .comma)

namespace OneRow

def front (d : OneRow) : List Token := insertVerbTokens (d.replace, d.ignore) ++ d.tableTokens

def columnTokens (d : OneRow) : List Token :=
  .symbol .leftParen :: commaTokens (d.given.map fun v => [v.column]) ++ [.symbol .rightParen]

def rowTokens (d : OneRow) : List Token :=
  .symbol .leftParen :: commaTokens (d.given.map (·.tokens)) ++ [.symbol .rightParen]

/-- The columns and the values in lists of their own. -/
def valuesContent (d : OneRow) : List Token := d.columnTokens ++ .word "VALUES" :: d.rowTokens

/-- Each column with its value. -/
def setContent (d : OneRow) : List Token :=
  .word "SET" :: commaTokens (d.given.map (·.assignmentTokens))

def valuesForm (d : OneRow) : List Token := d.front ++ d.valuesContent ++ d.ending

def setForm (d : OneRow) : List Token := d.front ++ d.setContent ++ d.ending

def insert (d : OneRow) (row : List Expr) (onDuplicate : List Assignment) : Insert :=
  ⟨d.replace, d.ignore, d.table, d.given.map (·.name), [row], onDuplicate⟩

/-- The content and the end of an INSERT are read behind its verb and its table. -/
theorem run_parse (d : OneRow) {content ws : List Token} {row : List Expr}
    (hhead : (content ++ ws).head? ≠ some (.symbol .dot))
    (hcontent : (Insert.parseContent maxLevels).run (content ++ ws) =
      .ok ((d.given.map (·.name), [row]), ws)) :
    (Insert.parse maxLevels).run (d.front ++ content ++ ws) =
      (do return d.insert row (← Insert.parseOnDuplicate maxLevels)).run ws := by
  have hverb := verb_leads.reads (d.replace, d.ignore) (d.tableTokens ++ (content ++ ws))
  rw [Insert.parse_eq, front, List.append_assoc, List.append_assoc, run_bind_of_ok hverb,
    run_bind_of_ok (TableName.run_parse_append d.tableRead hhead), run_bind_of_ok hcontent]
  rfl

variable (d : OneRow) {ws : List Token}

theorem run_parseColumns :
    Insert.parseColumns.run (d.columnTokens ++ ws) = .ok (d.given.map (·.name), ws) := by
  have hlist : (TokenParser.list TokenParser.name).run (commaTokens (d.given.map fun v => [v.column])
      ++ .symbol .rightParen :: ws) = .ok (d.given.map (·.name), .symbol .rightParen :: ws) := by
    refine run_list_map (fun _ => True) d.nonempty ?_ (fun _ => trivial) trivial (by simp)
    exact fun v _ rest _ => run_name_eq_ok.mpr ⟨v.column, v.named, rfl⟩
  unfold Insert.parseColumns columnTokens
  simp only [List.cons_append, List.append_assoc]
  rw [run_bind_of_ok (run_takesSymbol_cons _), if_pos rfl, List.nil_append, run_bind_of_ok hlist,
    run_bind_of_ok (run_needsSymbol_cons _)]
  rfl

theorem run_parseRow :
    (Insert.parseRow maxLevels).run (d.rowTokens ++ ws) = .ok (d.given.map (·.value), ws) := by
  have hlist : (TokenParser.list (Insert.parseValue maxLevels)).run (commaTokens
      (d.given.map (·.tokens)) ++ .symbol .rightParen :: ws) =
        .ok (d.given.map (·.value), .symbol .rightParen :: ws) := by
    refine run_list_map (Stops .disjunction) d.nonempty ?_ (fun ts => .of_strength_zero rfl ts)
      (.of_strength_zero rfl ws) (by simp)
    exact fun v _ rest hrest => v.run_parseValue hrest
  have hhead : (commaTokens (d.given.map (·.tokens)) ++ .symbol .rightParen :: ws).head? ≠
      some (.symbol .rightParen) := by
    have hpairs : d.given.map (fun v => (v.assigned, v.tokens)) ≠ [] := by simpa using d.nonempty
    have hderives : ∀ p ∈ d.given.map (fun v => (v.assigned, v.tokens)),
        Derives (maxLevels - 1) .disjunction p.1 p.2 := by
      simpa using fun v _ => v.derives_assigned
    have hfirst := Derives.head_commaTokens_ne_symbol hpairs hderives (.inr rfl)
      (.symbol .rightParen :: ws)
    simpa only [List.map_map, Function.comp_def] using hfirst
  unfold Insert.parseRow rowTokens
  simp only [List.cons_append, List.append_assoc, List.nil_append]
  rw [run_bind_of_ok (run_needsSymbol_cons _), run_seesSymbol_bind]
  simp only [hhead, decide_false, Bool.false_eq_true, if_false]
  rw [run_bind_of_ok hlist, run_bind_of_ok (run_needsSymbol_cons _)]
  rfl

theorem run_parseContent_values (hws : ws.head? ≠ some (.symbol .comma)) :
    (Insert.parseContent maxLevels).run (d.valuesContent ++ ws) =
      .ok ((d.given.map (·.name), [d.given.map (·.value)]), ws) := by
  have hset : ¬OpensWith "SET" (d.columnTokens ++ (.word "VALUES" :: d.rowTokens ++ ws)) := by
    rw [columnTokens, List.cons_append, List.cons_append, opensWith_cons]
    exact Bool.false_ne_true
  have hselect : ¬OpensWith "SELECT" (.word "VALUES" :: d.rowTokens ++ ws) := by
    rw [List.cons_append, opensWith_cons]
    decide
  have hrows : (TokenParser.list (Insert.parseRow maxLevels)).run (d.rowTokens ++ ws) =
      .ok ([d.given.map (·.value)], ws) :=
    run_list_map (f := fun d : OneRow => d.given.map (·.value)) (g := rowTokens) (fun _ => True)
      (List.cons_ne_nil d []) (fun d _ _ _ => d.run_parseRow) (fun _ => trivial) trivial hws
  rw [Insert.parseContent_eq, valuesContent, List.append_assoc,
    run_bind_of_ok (run_takesWord_of_not_opens hset)]
  simp only [Bool.false_eq_true, if_false]
  rw [run_bind_of_ok d.run_parseColumns]
  refine run_unless_word_eq_ok.mpr ⟨hselect, ?_⟩
  rw [List.cons_append, ← List.singleton_append, run_bind_of_ok (marks_values.reads _)]
  exact run_bind_of_ok hrows

theorem run_parseContent_set (hws : Stops .disjunction ws)
    (hcomma : ws.head? ≠ some (.symbol .comma)) :
    (Insert.parseContent maxLevels).run (d.setContent ++ ws) =
      .ok ((d.given.map (·.name), [d.given.map (·.assigned)]), ws) := by
  have hlist : (TokenParser.list (Assignment.parse maxLevels)).run (commaTokens
      (d.given.map (·.assignmentTokens)) ++ ws) = .ok (d.given.map (·.assignment), ws) := by
    refine run_list_map (Stops .disjunction) d.nonempty ?_ (fun ts => .of_strength_zero rfl ts) hws
      hcomma
    exact fun v _ rest hrest => v.run_parseAssignment hrest
  have hset : OpensWith "SET" (d.setContent ++ ws) := (opensWith_cons _ _ _).mpr (by decide)
  rw [Insert.parseContent_eq, run_bind_of_ok (run_takesWord_of_opens hset), if_pos rfl, setContent,
    List.cons_append, List.tail_cons, run_bind_of_ok hlist]
  simp [GivenValue.assignment]

theorem run_parseWithin (ts : List Token) : (parseWithin maxLevels).run (d.front ++ ts) =
    (do return Statement.insert (← Insert.parse maxLevels)).run (d.front ++ ts) := by
  have hfront : d.front ++ ts = .word (if d.replace then "REPLACE" else "INSERT") ::
      (flagTokens d.ignore "IGNORE" ++ [.word "INTO"] ++ (d.tableTokens ++ ts)) := by
    simp [front, insertVerbTokens]
  rw [hfront]
  cases d.replace with
  | true => exact Statement.run_parseDirect (by decide)
  | false => exact Statement.run_parseDirect (by decide)

/-- What the end of the statement is read as. -/
def EndsWith (onDuplicate : List Assignment) : Prop :=
  (Insert.parseOnDuplicate maxLevels).run (dropSemicolons d.ending) = .ok (onDuplicate, [])

/-- The statement is read by its content and its end. -/
theorem ofTokens?_eq_ok_iff {content : List Token} {row : List Expr} {stmt : Statement}
    (hhead : (content ++ dropSemicolons d.ending).head? ≠ some (.symbol .dot))
    (hlast : (d.front ++ content).getLast? ≠ some (.symbol .semicolon))
    (hcontent : (Insert.parseContent maxLevels).run (content ++ dropSemicolons d.ending) =
      .ok ((d.given.map (·.name), [row]), dropSemicolons d.ending)) :
    ofTokens? (d.front ++ content ++ d.ending) = .ok stmt ↔
      ∃ onDuplicate, d.EndsWith onDuplicate ∧ stmt = .insert (d.insert row onDuplicate) := by
  have hne : d.front ++ content ++ dropSemicolons d.ending ≠ [] := by
    simp [front, insertVerbTokens]
  have hrun := d.run_parse hhead hcontent
  have hwithin := d.run_parseWithin (content ++ dropSemicolons d.ending)
  rw [← List.append_assoc, run_bind, hrun] at hwithin
  unfold EndsWith
  rw [Statement.ofTokens?_eq_ok_iff, Statement.dropSemicolons_append hlast, hwithin, run_bind]
  constructor
  · rintro ⟨-, h⟩
    split at h
    · cases h
    · next hend =>
      split at hend
      · cases hend
      · next onDuplicate rest honDuplicate =>
        cases hend
        cases h
        exact ⟨onDuplicate, honDuplicate, rfl⟩
  · rintro ⟨onDuplicate, honDuplicate, rfl⟩
    rw [honDuplicate]
    exact ⟨hne, rfl⟩

theorem head_ending_ne_comma : (dropSemicolons d.ending).head? ≠ some (.symbol .comma) := by
  intro hcomma
  obtain ⟨ts, hts⟩ := Statement.dropSemicolons_isPrefix d.ending
  refine d.lastRow ?_
  rw [← hts, List.head?_append, hcomma]
  rfl

theorem valuesForm_eq_ok_iff {stmt : Statement} : ofTokens? d.valuesForm = .ok stmt ↔
    ∃ onDuplicate, d.EndsWith onDuplicate ∧
      stmt = .insert (d.insert (d.given.map (·.value)) onDuplicate) := by
  refine d.ofTokens?_eq_ok_iff ?_ ?_ (d.run_parseContent_values d.head_ending_ne_comma)
  · simp [valuesContent, columnTokens]
  · have hlast : d.front ++ d.valuesContent = d.front ++ d.columnTokens ++ .word "VALUES" ::
        .symbol .leftParen :: commaTokens (d.given.map (·.tokens)) ++ [.symbol .rightParen] := by
      simp [valuesContent, rowTokens]
    rw [hlast, List.getLast?_concat]
    simp

/-- Only ON DUPLICATE KEY UPDATE goes on behind the values. -/
theorem EndsWith.stops {d : OneRow} {onDuplicate : List Assignment} (h : d.EndsWith onDuplicate) :
    Stops .disjunction (dropSemicolons d.ending) := by
  unfold EndsWith Insert.parseOnDuplicate at h
  obtain ⟨b, ts, hword, hrest⟩ := run_bind_eq_ok.mp h
  rcases run_takesWord_eq_ok.mp hword with ⟨rfl, t, ht, hts⟩ | ⟨rfl, -, hts⟩
  · rw [hts]
    exact .of_strength_zero (strength_of_isKeyword ht) ts
  · cases hrest
    rw [hts]
    exact stops_nil _

theorem semicolon_not_mem_setContent : .symbol .semicolon ∉ d.setContent := by
  have hassignment : ∀ v ∈ d.given, .symbol .semicolon ∉ v.assignmentTokens := by
    intro v _ hmem
    simp only [GivenValue.assignmentTokens, List.mem_cons] at hmem
    rcases hmem with hmem | hmem | hmem
    · exact ne_of_part? (part?_of_name? v.named) _ hmem
    · cases hmem
    · exact v.derives_assigned.plain hmem
  have hlist : .symbol .semicolon ∉ commaTokens (d.given.map (·.assignmentTokens)) :=
    commaTokens_plain (by simpa using hassignment)
  simpa [setContent] using hlist

theorem setForm_eq_ok {onDuplicate : List Assignment} (h : d.EndsWith onDuplicate) :
    ofTokens? d.setForm = .ok (.insert (d.insert (d.given.map (·.assigned)) onDuplicate)) := by
  refine (d.ofTokens?_eq_ok_iff ?_ ?_
    (d.run_parseContent_set h.stops d.head_ending_ne_comma)).mpr ⟨onDuplicate, h, rfl⟩
  · simp [setContent]
  · intro hlast
    have hcontent : d.setContent.getLast? = some (.symbol .semicolon) := by
      rwa [List.getLast?_append_of_ne_nil _ (by simp [setContent])] at hlast
    exact d.semicolon_not_mem_setContent (List.mem_of_getLast? hcontent)

end OneRow

end ShardedSql.Sql

namespace ShardedSql.Planning

open Routing (ordersById)
open Sql

variable {σ : Type}

/-- Whether two texts of a statement are planned alike: with the same plan or the same error, unless
each of them is passed on as it is. -/
def PlannedAlike (services : Services σ) (config : Config) (stmt : Statement)
    (db text text' : String) (st : σ) : Prop :=
  (plan services config stmt db text).outcome st = (plan services config stmt db text').outcome st ∨
    ∃ st', (plan services config stmt db text).outcome st = (.ok (planUnshard config db text), st') ∧
      (plan services config stmt db text').outcome st = (.ok (planUnshard config db text'), st')

theorem plannedAlike_insert (services : Services σ) (config : Config) (i : Insert)
    (db text text' : String) (st : σ) :
    PlannedAlike services config (.insert i) db text text' st := by
  rcases planDirect_text services config (.insert i) db st with
    ⟨st', hpassed⟩ | ⟨result, st', hsplit, -⟩
  · exact .inr ⟨st', hpassed text, hpassed text'⟩
  · exact .inl ((hsplit text).trans (hsplit text').symm)

/-- An INSERT that gives each column its value by SET is read as the one with VALUES, but that it
takes the word DEFAULT for a column. -/
theorem set_form_reads_values (d : OneRow) (valuesText setText : String) (stmt : Statement)
    (hvalues : Token.ofString? valuesText = .ok d.valuesForm)
    (hset : Token.ofString? setText = .ok d.setForm)
    (h : Statement.ofString? valuesText = .ok stmt) :
    (∃ onDuplicate, stmt = .insert (d.insert (d.given.map (·.value)) onDuplicate) ∧
      Statement.ofString? setText =
        .ok (.insert (d.insert (d.given.map (·.assigned)) onDuplicate))) ∧
    ((∀ v ∈ d.given, v.value ≠ .defaultValue) → Statement.ofString? setText = .ok stmt ∧
      ∀ {σ : Type} (services : Services σ) (config : Config) (db : String) (st : σ),
        PlannedAlike services config stmt db setText valuesText st) ∧
    ((∃ v ∈ d.given, v.value = .defaultValue) → Statement.ofString? setText ≠ .ok stmt) := by
  unfold Statement.ofString? at h
  rw [hvalues] at h
  obtain ⟨onDuplicate, hend, rfl⟩ := d.valuesForm_eq_ok_iff.mp h
  have hread : Statement.ofString? setText =
      .ok (.insert (d.insert (d.given.map (·.assigned)) onDuplicate)) := by
    unfold Statement.ofString?
    rw [hset]
    exact d.setForm_eq_ok hend
  have hsame : Statement.ofString? setText =
      .ok (.insert (d.insert (d.given.map (·.value)) onDuplicate)) ↔
        ∀ v ∈ d.given, v.value ≠ .defaultValue := by
    rw [hread]
    simp [OneRow.insert, List.map_inj_left, GivenValue.assigned_eq_iff]
  refine ⟨⟨onDuplicate, rfl, hread⟩, fun hne => ⟨hsame.mpr hne, ?_⟩, ?_⟩
  · intro σ services config db st
    exact plannedAlike_insert services config _ db setText valuesText st
  · rintro ⟨v, hv, hdefault⟩ hread'
    exact hsame.mp hread' v hv hdefault

/-- `id` with 3 and `n` with `1 + 1`, and another `n` for a row that is there. -/
def orderOfThree : OneRow where
  replace := false
  ignore := true
  table := ⟨some "shop", "orders"⟩
  tableTokens := [.word "shop", .symbol .dot, .word "orders"]
  tableRead := rfl
  given := [
    { column := .word "id", name := "id", named := by decide, tokens := [.number "3"],
      value := .literal (.integer 3), read := by decide +kernel },
    { column := .quoted "n", name := "n", named := by decide,
      tokens := [.number "1", .symbol .plus, .number "1"],
      value := .binary (.literal (.integer 1)) .plus (.literal (.integer 1)),
      read := by decide +kernel }]
  nonempty := by simp
  ending := [.word "ON", .word "DUPLICATE", .word "KEY", .word "UPDATE", .word "n", .symbol .equal,
    .number "0", .symbol .semicolon]
  lastRow := by decide

def orderOfThreeInsert : Insert :=
  orderOfThree.insert (orderOfThree.given.map (·.value)) [⟨⟨none, "n"⟩, .literal (.integer 0)⟩]

theorem set_form_of_order_reads_values : Statement.ofString?
    "INSERT IGNORE INTO shop.orders SET id = 3, `n` = 1 + 1 ON DUPLICATE KEY UPDATE n = 0;" =
      .ok (.insert orderOfThreeInsert) := by
  have hvalues : Token.ofString?
      "INSERT IGNORE INTO shop.orders (id, `n`) VALUES (3, 1 + 1) ON DUPLICATE KEY UPDATE n = 0;" =
        .ok orderOfThree.valuesForm := by decide +kernel
  have hset : Token.ofString?
      "INSERT IGNORE INTO shop.orders SET id = 3, `n` = 1 + 1 ON DUPLICATE KEY UPDATE n = 0;" =
        .ok orderOfThree.setForm := by decide +kernel
  have hread : Statement.ofString?
      "INSERT IGNORE INTO shop.orders (id, `n`) VALUES (3, 1 + 1) ON DUPLICATE KEY UPDATE n = 0;" =
        .ok (.insert orderOfThreeInsert) := by decide +kernel
  have hgiven : ∀ v ∈ orderOfThree.given, v.value ≠ .defaultValue := by
    simp [orderOfThree]
  exact ((set_form_reads_values orderOfThree _ _ _ hvalues hset hread).2.1 hgiven).1

/-- A new order, its key left to the sequence. -/
def newOrder (key : Expr) : Insert where
  replace := false
  ignore := false
  table := ⟨none, "orders"⟩
  columns := ["id", "n"]
  rows := [[key, .literal (.integer 1)]]
  onDuplicate := []

/-- A supply of one key. -/
def firstKey (_ : String) : Planner Unit Int64 := pure 1

def newOrderPlan : Plan :=
  .insert ⟨[⟨"slice-0", "shop", "INSERT INTO orders_1 (id, n) VALUES (1, 1)"⟩]⟩ (some 1)

/-- The key that the word DEFAULT leaves to the sequence is a column behind SET, which is no value
for a key. -/
theorem default_is_a_column_behind_set :
    Statement.ofString? "INSERT INTO orders (id, n) VALUES (DEFAULT, 1)" =
      .ok (.insert (newOrder .defaultValue)) ∧
    Statement.ofString? "INSERT INTO orders SET id = DEFAULT, n = 1" =
      .ok (.insert (newOrder (.column ⟨none, "DEFAULT"⟩))) ∧
    (plan (.ofRules ⟨[ordersById]⟩ firstKey) .standard (.insert (newOrder .defaultValue)) "shop"
      "INSERT INTO orders (id, n) VALUES (DEFAULT, 1)").outcome () = (.ok newOrderPlan, ()) ∧
    (plan (.ofRules ⟨[ordersById]⟩ firstKey) .standard
      (.insert (newOrder (.column ⟨none, "DEFAULT"⟩))) "shop"
      "INSERT INTO orders SET id = DEFAULT, n = 1").outcome () =
      (.error (.invalidValue (.computedKey "id" (.column ⟨none, "DEFAULT"⟩))), ()) := by
  refine ⟨?_, ?_, ?_, ?_⟩ <;> decide +kernel

end ShardedSql.Planning
