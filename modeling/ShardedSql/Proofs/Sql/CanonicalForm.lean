import ShardedSql.Proofs.Sql.Reprinted
import ShardedSql.Proofs.Sql.Statements

namespace ShardedSql.Sql

open TokenParser

namespace Token

variable {t u x y : Token} {ts us xs : List Token}

theorem upper_sql_word (w : String) : Text.upper (word w).sql = Text.upper w := by
  simp only [sql]
  split
  · exact upper_upper w
  · rfl

/-- Reserved words are told apart from names, whether these have lost their quotes or not. -/
theorem isKeyword_reread {kw : String} (hkw : kw ∈ reservedWords) (t : Token) :
    t.reread.isKeyword kw = t.isKeyword kw := by
  cases t with
  | word w => simp only [reread, isKeyword, upper_sql_word]
  | quoted q =>
    simp only [reread, ofName]
    split
    · next hbare =>
      have hne : Text.upper q ≠ kw := by
        rintro rfl
        have hq : isReserved q = true := List.contains_iff_mem.mpr hkw
        rw [not_isReserved_of_isBareName hbare] at hq
        cases hq
      simpa [isKeyword] using hne
    · rfl
  | _ => rfl

theorem reread_eq_symbol_iff {s : Symbol} : t.reread = symbol s ↔ t = symbol s := by
  cases t with
  | quoted q =>
    simp only [reread, ofName]
    split <;> simp
  | _ => simp [reread]

theorem reread_of_isDotOrNumeral (h : t.IsDotOrNumeral) : t.reread = t := by
  obtain rfl | h := h
  · rfl
  cases t with
  | word w => rw [reread, sql_of_startsNumber h]
  | number n => rfl
  | _ => cases h

theorem WordText.isWordChar_getLast {cs : List Char} (h : WordText cs) :
    ∀ c ∈ cs.getLast?, Text.isWordChar c = true := by
  intro c hc
  cases h with
  | @plain d ds hd _ hds =>
    rcases List.mem_cons.mp (List.mem_of_getLast? hc) with rfl | hmem
    · exact hd
    · exact hds c hmem
  | numeric _ hne hwords =>
    have hlast : (numeral cs).2.getLast? = some c := by
      rw [← numeral_split cs, List.getLast?_append_of_ne_nil _ hne] at hc
      exact hc
    exact hwords c (List.mem_of_getLast? hlast)

theorem NumberText.getLast_ne_semicolon {cs : List Char} (h : NumberText cs) :
    cs.getLast? ≠ some ';' := by
  intro hlast
  obtain ⟨ds, rfl⟩ := List.getLast?_eq_some_iff.mp hlast
  have hends : EndsWord [';'] := by
    rintro c ⟨⟩
    decide
  have hnumeral := h.ends
  rw [numeral_append hends fun _ => by simp] at hnumeral
  simp at hnumeral

/-- Only a semicolon is printed with a semicolon at its end. -/
theorem Scanned.getLast_sql_eq_semicolon_iff (hx : x.Scanned) :
    x.sql.toList.getLast? = some ';' ↔ x = symbol .semicolon := by
  have hword : ∀ {cs : List Char}, WordText cs → cs.getLast? ≠ some ';' := by
    intro cs h hlast
    have hsemicolon := h.isWordChar_getLast ';' hlast
    cases hsemicolon
  cases x with
  | word w => exact iff_of_false (hword (wordText_sql hx)) (by simp)
  | quoted q =>
    refine iff_of_false ?_ (by simp)
    simp only [sql, sqlName]
    split
    · next hbare => exact hword (wordText_of_isBareName hbare)
    · rw [String.toList_ofList, List.getLast?_concat]
      decide
  | str s =>
    refine iff_of_false ?_ (by simp)
    rw [sql, sqlString, String.toList_ofList, List.getLast?_concat]
    decide
  | number n => exact iff_of_false hx.getLast_ne_semicolon (by simp)
  | placeholder => decide
  | symbol s => cases s <;> decide

theorem exists_toList_sqlAfter (t : Token) (ts : List Token) (u : Token) :
    ∃ cs, (sqlAfter u (ts ++ [t])).toList = cs ++ t.sql.toList := by
  induction ts generalizing u with
  | nil => exact ⟨_, by rw [List.nil_append, toList_sqlAfter, toList_sqlAfter_nil, List.append_nil]⟩
  | cons x xs ih =>
    obtain ⟨cs, hcs⟩ := ih x
    exact ⟨_, by rw [List.cons_append, toList_sqlAfter, hcs, ← List.append_assoc,
      ← List.append_assoc]⟩

theorem getLast_sqlList_eq_semicolon_iff (hts : ∀ t ∈ ts, t.Scanned) :
    (sqlList ts).toList.getLast? = some ';' ↔ ts.getLast? = some (symbol .semicolon) := by
  rcases List.eq_nil_or_concat ts with rfl | ⟨us, t, rfl⟩
  · simp [sqlList]
  · rw [List.concat_eq_append] at hts ⊢
    have ht : t.Scanned := hts t (by simp)
    have htext : ∃ cs, (sqlList (us ++ [t])).toList = cs ++ t.sql.toList := by
      cases us with
      | nil => exact ⟨[], by simp [sqlList, sqlAfter]⟩
      | cons u us =>
        obtain ⟨cs, hcs⟩ := exists_toList_sqlAfter t us u
        exact ⟨u.sql.toList ++ cs, by simp [sqlList, hcs]⟩
    obtain ⟨cs, hcs⟩ := htext
    rw [hcs, List.getLast?_append_of_ne_nil _ ht.sql_ne_nil, ht.getLast_sql_eq_semicolon_iff]
    simp

end Token

namespace Statement

open Token (isKeyword reread scan)

variable {levels : Nat} {text : String} {ts us rest : List Token}

/-- The first words of the statements that are taken apart. -/
def takenApart : List String := ["SELECT", "INSERT", "REPLACE", "UPDATE", "DELETE"]

/-- Whether tokens start as the EXPLAIN of another statement. -/
def opensExplain : List Token → Bool
  | .word w :: rest => isExplain w && rest.head?.any isExplainable
  | _ => false

/-- The tokens of a statement that is passed on: it is of none of the kinds that are taken apart. -/
structure PassedOn (ts : List Token) : Prop where
  paren : ts.head? ≠ some (.symbol .leftParen)
  keyword : ∀ kw ∈ takenApart, ¬OpensWith kw ts
  explain : opensExplain ts = false

theorem run_parseOther : parseOther.run ts = .ok (other ts, []) := by
  simp [parseOther]

theorem run_parseOther_eq_other_iff :
    parseOther.run ts = .ok (other us, rest) ↔ us = ts ∧ rest = [] := by
  rw [run_parseOther]
  simp [eq_comm]

theorem run_parseDirect_eq_other_iff {w : String} :
    (parseDirect levels w).run ts = .ok (other us, rest) ↔
      (∀ kw ∈ takenApart, Text.upper w ≠ kw) ∧ us = ts ∧ rest = [] := by
  have hwrap : ∀ {α : Type} {wrap : α → Statement} {p : TokenParser α}, (∀ a, wrap a ≠ other us) →
      (do return wrap (← p) : TokenParser Statement).run ts ≠ .ok (other us, rest) := by
    intro α wrap p hne hrun
    obtain ⟨a, mid, -, hpure⟩ := run_bind_eq_ok.mp hrun
    exact hne a (congrArg Prod.fst (Except.ok.inj hpure))
  unfold parseDirect
  split
  case h_6 hselect hinsert hreplace hupdate hdelete =>
    rw [run_parseOther_eq_other_iff]
    refine (and_iff_right ?_).symm
    simp only [takenApart, List.forall_mem_cons]
    exact ⟨hselect, hinsert, hreplace, hupdate, hdelete, nofun⟩
  all_goals
    next hw => exact iff_of_false (hwrap nofun) fun h => h.1 _ (by decide) hw

theorem passedOn_word_iff {w : String} : PassedOn (.word w :: ts) ↔
    (∀ kw ∈ takenApart, Text.upper w ≠ kw) ∧ opensExplain (.word w :: ts) = false := by
  have hopens : ∀ kw, OpensWith kw (.word w :: ts) ↔ Text.upper w = kw := by
    simp [isKeyword]
  exact ⟨fun h => ⟨fun kw hkw => mt (hopens kw).mpr (h.keyword kw hkw), h.explain⟩,
    fun h => ⟨by simp, fun kw hkw => mt (hopens kw).mp (h.1 kw hkw), h.2⟩⟩

theorem passedOn_of_not_word {t : Token} (hparen : t ≠ .symbol .leftParen)
    (hword : ∀ w, t ≠ .word w) : PassedOn (t :: ts) := by
  refine ⟨by simpa using hparen, fun kw _ hopens => ?_, ?_⟩
  · cases t with
    | word w => exact hword w rfl
    | _ => cases hopens
  · unfold opensExplain
    split
    · next heq => exact absurd (List.cons.inj heq).1 (hword _)
    · rfl

/-- Which statements are passed on by their tokens, and that they are all of them. -/
theorem run_parseWithin_eq_other_iff (hne : ts ≠ []) :
    (parseWithin levels).run ts = .ok (other us, rest) ↔ PassedOn ts ∧ us = ts ∧ rest = [] := by
  have hother : PassedOn ts → (parseOther.run ts = .ok (other us, rest) ↔
      PassedOn ts ∧ us = ts ∧ rest = []) := fun h => by
    rw [run_parseOther_eq_other_iff, and_iff_right h]
  unfold parseWithin
  simp only [run_ahead_bind]
  split
  · exact iff_of_false (by rintro ⟨⟩) fun h => h.1.paren rfl
  · next w vs =>
    cases hexplain : isExplain w with
    | false =>
      rw [if_neg (by simp), run_parseDirect_eq_other_iff, passedOn_word_iff, opensExplain, hexplain]
      simp
    | true =>
      have hdirect : ∀ kw ∈ takenApart, Text.upper w ≠ kw := by
        have hkws : ∀ kw ∈ takenApart, ["EXPLAIN", "DESC", "DESCRIBE"].contains kw = false := by
          decide
        intro kw hkw heq
        rw [isExplain, heq, hkws kw hkw] at hexplain
        cases hexplain
      cases hnext : vs.head?.any isExplainable with
      | false => exact hother (passedOn_word_iff.mpr ⟨hdirect, by simp [opensExplain, hnext]⟩)
      | true =>
        refine iff_of_false (fun hrun => ?_) fun h => ?_
        · simp only [if_true, run_skip_bind] at hrun
          cases levels with
          | zero => cases hrun
          | succ levels =>
            obtain ⟨inner, mid, -, hpure⟩ := run_bind_eq_ok.mp hrun
            cases hpure
        · have hfalse := h.1.explain
          rw [opensExplain, hexplain, hnext] at hfalse
          cases hfalse
  · next hparen hword =>
    obtain ⟨t, vs, rfl⟩ := List.exists_cons_of_ne_nil hne
    refine hother (passedOn_of_not_word ?_ ?_)
    · rintro rfl
      exact hparen vs rfl
    · rintro w rfl
      exact hword w vs rfl

theorem dropSemicolons_idem (ts : List Token) :
    dropSemicolons (dropSemicolons ts) = dropSemicolons ts := by
  rw [dropSemicolons, dropSemicolons, List.reverse_reverse, dropWhile_eq_self head_dropWhile]

theorem dropSemicolons_isPrefix (ts : List Token) : dropSemicolons ts <+: ts := by
  have hfront := List.reverse_prefix.mpr
    (List.dropWhile_suffix (·.isSymbol .semicolon) (l := ts.reverse))
  rwa [List.reverse_reverse] at hfront

theorem dropSemicolons_eq_self_iff :
    dropSemicolons ts = ts ↔ ts.getLast? ≠ some (.symbol .semicolon) := by
  rw [← List.head?_reverse]
  constructor
  · intro h hhead
    have hrest : ts.reverse.dropWhile (·.isSymbol .semicolon) = ts.reverse := by
      rw [← List.reverse_inj, List.reverse_reverse]
      exact h
    rw [← hrest] at hhead
    have hsemicolon := head_dropWhile _ hhead
    cases hsemicolon
  · intro h
    rw [dropSemicolons, dropWhile_eq_self, List.reverse_reverse]
    intro t ht
    apply Bool.eq_false_iff.mpr
    intro hsemicolon
    rw [beq_iff_eq.mp hsemicolon] at ht
    exact h ht

theorem dropSemicolons_append {us : List Token} (h : us.getLast? ≠ some (.symbol .semicolon))
    (ts : List Token) : dropSemicolons (us ++ ts) = us ++ dropSemicolons ts := by
  have hus : us.reverse.dropWhile (·.isSymbol .semicolon) = us.reverse := by
    rw [← List.reverse_inj, List.reverse_reverse]
    exact dropSemicolons_eq_self_iff.mpr h
  unfold dropSemicolons
  rw [List.reverse_append, List.dropWhile_append]
  split
  · next hempty =>
    rw [hus, List.reverse_reverse, List.isEmpty_iff.mp hempty]
    simp
  · rw [List.reverse_append, List.reverse_reverse]

/-- What is read as a statement that is passed on. -/
theorem ofTokens?_eq_other_iff {tokens : List Token} :
    ofTokens? tokens = .ok (other ts) ↔ ts = dropSemicolons tokens ∧ ts ≠ [] ∧ PassedOn ts := by
  rw [ofTokens?_eq_ok_iff]
  constructor
  · rintro ⟨hne, hrun⟩
    obtain ⟨hpassed, rfl, -⟩ := (run_parseWithin_eq_other_iff hne).mp hrun
    exact ⟨rfl, hne, hpassed⟩
  · rintro ⟨rfl, hne, hpassed⟩
    exact ⟨hne, (run_parseWithin_eq_other_iff hne).mpr ⟨hpassed, rfl, rfl⟩⟩

theorem ofString?_eq_other_iff :
    ofString? text = .ok (other ts) ↔ ∃ tokens, scan text.toList = .ok tokens ∧
      ts = dropSemicolons tokens ∧ ts ≠ [] ∧ PassedOn ts := by
  unfold ofString? Token.ofString?
  cases hscan : scan text.toList with
  | error e => simp
  | ok tokens => simp [ofTokens?_eq_other_iff]

theorem not_isExplainable_of_isDotOrNumeral {t : Token} (h : t.IsDotOrNumeral) :
    isExplainable t = false := by
  obtain rfl | h := h
  · rfl
  cases t with
  | word w => exact Token.contains_upper_of_startsNumber (by decide) h
  | _ => rfl

theorem opensExplain_of_isDotOrNumeral {t : Token} (h : t.IsDotOrNumeral) :
    opensExplain (t :: ts) = false := by
  obtain rfl | h := h
  · rfl
  cases t with
  | word w =>
    have hexplain : isExplain w = false := Token.contains_upper_of_startsNumber (by decide) h
    rw [opensExplain, hexplain, Bool.false_and]
  | _ => rfl

theorem not_opensWith_of_isNumeral {t : Token} (h : t.IsNumeral) {kw : String}
    (hkw : kw ∈ reservedWords) : ¬OpensWith kw (t :: ts) := by
  cases t with
  | word w =>
    have hreserved : reservedWords.contains (Text.upper w) = false :=
      Token.contains_upper_of_startsNumber (by decide) h
    intro hopens
    have hupper : Text.upper w = kw := by simpa [isKeyword] using hopens
    rw [hupper, List.contains_iff_mem.mpr hkw] at hreserved
    cases hreserved
  | _ => rintro ⟨⟩

/-- Whether the text behind a token starts with a word that EXPLAIN may stand in front of. -/
theorem any_isExplainable_of_scan {t : Token} (hts : ∀ u ∈ ts, u.Scanned)
    (hscan : scan (Token.sqlAfter t ts).toList = .ok us) :
    us.head?.any isExplainable = (ts.map reread).head?.any isExplainable := by
  cases ts with
  | nil =>
    rw [Token.toList_sqlAfter_nil, scan] at hscan
    cases hscan
    rfl
  | cons u ts =>
    have hscan' : scan (u.sql.toList ++ (Token.sqlAfter u ts).toList) = .ok us := by
      rw [Token.toList_sqlAfter] at hscan
      split at hscan
      · exact hscan
      · exact Token.scan_space.symm.trans hscan
    rcases (hts u List.mem_cons_self).first_cases hscan' with
      ⟨vs, rfl, -⟩ | ⟨hu, y, vs, rfl, hy⟩
    · rfl
    · have hreread : u.reread = u := Token.reread_of_isDotOrNumeral hu
      simp [hreread, not_isExplainable_of_isDotOrNumeral hu,
        not_isExplainable_of_isDotOrNumeral (.inr hy)]

/-- Whether a text is read as an EXPLAIN is seen from the tokens that it is printed from. -/
theorem opensExplain_of_scan (hts : ∀ t ∈ ts, t.Scanned)
    (hscan : scan (Token.sqlList ts).toList = .ok us) :
    opensExplain us = opensExplain (ts.map reread) := by
  cases ts with
  | nil =>
    rw [Token.sqlList, String.toList_empty, scan] at hscan
    cases hscan
    rfl
  | cons t ts =>
    rw [Token.sqlList, String.toList_append] at hscan
    rcases (hts t List.mem_cons_self).first_cases hscan with
      ⟨vs, rfl, hvs⟩ | ⟨ht, y, vs, rfl, hy⟩
    · have hnext := any_isExplainable_of_scan (fun u hu => hts u (List.mem_cons_of_mem t hu)) hvs
      rw [List.map_cons]
      cases t.reread with
      | word w => rw [opensExplain, opensExplain, hnext]
      | _ => rfl
    · rw [opensExplain_of_isDotOrNumeral (.inr hy), List.map_cons,
        Token.reread_of_isDotOrNumeral ht, opensExplain_of_isDotOrNumeral ht]

/-- Reading a statement again can make it an EXPLAIN, and nothing else. -/
theorem PassedOn.scan_iff (h : PassedOn ts) (hts : ∀ t ∈ ts, t.Scanned)
    (hscan : scan (Token.sqlList ts).toList = .ok us) :
    PassedOn us ↔ opensExplain (ts.map reread) = false := by
  rw [← opensExplain_of_scan hts hscan]
  refine ⟨fun hreread => hreread.explain, fun hexplain => ?_⟩
  have hreserved : ∀ kw ∈ takenApart, kw ∈ reservedWords := by decide
  cases ts with
  | nil =>
    rw [Token.sqlList, String.toList_empty, scan] at hscan
    cases hscan
    exact h
  | cons t ts =>
    rw [Token.sqlList, String.toList_append] at hscan
    rcases (hts t List.mem_cons_self).first_cases hscan with
      ⟨vs, rfl, hvs⟩ | ⟨ht, y, vs, rfl, hy⟩
    · refine ⟨?_, fun kw hkw => ?_, hexplain⟩
      · simpa [Token.reread_eq_symbol_iff] using h.paren
      · rw [opensWith_cons, Token.isKeyword_reread (hreserved kw hkw), ← opensWith_cons kw t ts]
        exact h.keyword kw hkw
    · refine ⟨?_, fun kw hkw => not_opensWith_of_isNumeral hy (hreserved kw hkw), hexplain⟩
      cases y with
      | symbol s => cases hy
      | _ => rintro ⟨⟩

/-- The text of a statement that is passed on is read as a statement that is passed on and has the
same text, exactly if its tokens settle and do not open an EXPLAIN when names have lost their
quotes. -/
theorem passed_on_text_is_canonical_iff (h : ofString? text = .ok (other ts)) :
    (∃ us, ofString? (other ts).sql = .ok (other us) ∧ (other us).sql = (other ts).sql) ↔
      Token.Ending.opening.settles ts ∧ opensExplain (ts.map reread) = false := by
  obtain ⟨tokens, hscan, hts, hne, hpassed⟩ := ofString?_eq_other_iff.mp h
  have hscanned : ∀ t ∈ ts, t.Scanned := fun t ht =>
    Token.scanned_of_mem_scan hscan t ((dropSemicolons_isPrefix tokens).subset (hts ▸ ht))
  obtain ⟨us, hagain, -, hsettled⟩ := Token.reads_sqlList hscanned
  have hus : ∀ u ∈ us, u.Scanned := Token.scanned_of_mem_scan hagain
  constructor
  · rintro ⟨vs, hvs, hsql⟩
    obtain ⟨us', hagain', rfl, -, hpassed'⟩ := ofString?_eq_other_iff.mp hvs
    obtain rfl : us = us' := Except.ok.inj (hagain.symm.trans hagain')
    -- No semicolon is dropped: the text would be read as fewer tokens.
    have hdrop : dropSemicolons us = us := by
      have hsublist := (dropSemicolons_isPrefix us).sublist
      obtain ⟨ws, hws, hlength, -⟩ := Token.reads_sqlList fun u hu => hus u (hsublist.subset hu)
      rw [show Token.sqlList (dropSemicolons us) = Token.sqlList ts from hsql] at hws
      obtain rfl : us = ws := Except.ok.inj (hagain.symm.trans hws)
      exact hsublist.eq_of_length_le hlength
    rw [hdrop] at hsql hpassed'
    exact ⟨hsettled.mp (congrArg String.toList hsql),
      (hpassed.scan_iff hscanned hagain).mp hpassed'⟩
  · rintro ⟨hsettles, hexplain⟩
    have hsql := hsettled.mpr hsettles
    have hdrop : dropSemicolons us = us := by
      have hself : dropSemicolons ts = ts := by rw [hts, dropSemicolons_idem]
      rw [dropSemicolons_eq_self_iff, ne_eq, ← Token.getLast_sqlList_eq_semicolon_iff] at hself ⊢
      · rwa [hsql]
      · exact hus
      · exact hscanned
    have hne' : us ≠ [] := by
      rintro rfl
      obtain ⟨t, ts', rfl⟩ := List.exists_cons_of_ne_nil hne
      simp [Token.sqlList, (hscanned t List.mem_cons_self).sql_ne_nil] at hsql
    exact ⟨us, ofString?_eq_other_iff.mpr ⟨us, hagain, hdrop.symm, hne',
      (hpassed.scan_iff hscanned hagain).mpr hexplain⟩, String.toList_inj.mp hsql⟩

/-- Two settings, to a number in two parts and to a name that is a keyword without its quotes. -/
def setTokens : List Token :=
  [.word "set", .symbol .atSign, .word "x", .symbol .equal, .number "1", .symbol .dot, .number "5",
    .symbol .comma, .word "y", .symbol .equal, .quoted "STATUS", .symbol .dot, .quoted "my t"]

theorem settings_are_canonical :
    ofString? "set @ x = 1 . 5, y = \x60STATUS\x60 . \x60my t\x60;" = .ok (other setTokens) ∧
    (other setTokens).sql = "SET @x = 1.5, y = STATUS.\x60my t\x60" ∧
    ∃ us, ofString? (other setTokens).sql = .ok (other us) ∧
      (other us).sql = (other setTokens).sql := by
  have hread : ofString? "set @ x = 1 . 5, y = \x60STATUS\x60 . \x60my t\x60;" =
      .ok (other setTokens) := by decide +kernel
  have hsettles : Token.Ending.opening.settles setTokens = true := rfl
  exact ⟨hread, rfl,
    (passed_on_text_is_canonical_iff hread).mpr ⟨hsettles, rfl⟩⟩

/-- The description of a table with the name of a keyword becomes an EXPLAIN. -/
theorem description_becomes_an_explain :
    ofString? "EXPLAIN \x60show\x60" = .ok (other [.word "EXPLAIN", .quoted "show"]) ∧
    ¬∃ us, ofString? (other [.word "EXPLAIN", .quoted "show"]).sql = .ok (other us) ∧
      (other us).sql = (other [.word "EXPLAIN", .quoted "show"]).sql := by
  have hagain : ofString? (other [.word "EXPLAIN", .quoted "show"]).sql =
      .ok (explain (other [.word "show"])) := by decide +kernel
  refine ⟨by decide +kernel, ?_⟩
  rintro ⟨us, hus, -⟩
  rw [hagain] at hus
  cases hus

/-- A name that is taken for a keyword is printed in capitals the second time. -/
example : ofString? "SHOW \x60tables\x60" = .ok (other [.word "SHOW", .quoted "tables"]) ∧
    ofString? "SHOW tables" = .ok (other [.word "SHOW", .word "tables"]) ∧
    (other [.word "SHOW", .quoted "tables"]).sql = "SHOW tables" ∧
    (other [.word "SHOW", .word "tables"]).sql = "SHOW TABLES" := by
  decide +kernel

end Statement

end ShardedSql.Sql
