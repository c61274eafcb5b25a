import ShardedSql.Proofs.Sql.Items
import ShardedSql.Proofs.Text.Decimal

namespace ShardedSql.Sql

open TokenParser
open Token (isPlainWord scan)

/-- A value as it is read again. The sign of a negative key, which a sequence may give, is read as
an operator. -/
def Expr.signed : Expr → Expr
  | .literal (.integer i) =>
    if i.toInt < 0 then .negate (.ofNumber (Text.decimal (-i.toInt))) else .literal (.integer i)
  | e => e

theorem sql_ofNumber_decimal {i : Int} (h : 0 ≤ i) :
    (Expr.ofNumber (Text.decimal i)).sql = Text.decimal i := by
  unfold Expr.ofNumber
  rw [Text.readInt64?_decimal h]
  split
  · next x hx => exact congrArg Text.decimal (Text.toInt_toInt64? hx)
  · rfl

namespace Expr

@[simp] theorem signed_sql (e : Expr) : e.signed.sql = e.sql := by
  unfold signed
  split
  · next i =>
    split
    · next hneg =>
      apply String.toList_injective
      have hminus := Text.toList_decimal_of_neg hneg
      have hnumber := sql_ofNumber_decimal (i := -i.toInt) (by omega)
      simp [sql, hnumber, Literal.sql, hminus]
    · rfl
  · rfl

theorem Lexed.signed {e : Expr} (h : e.Lexed) : e.signed = e := by
  cases h with
  | integer hi => exact if_neg (by omega)
  | _ => rfl

end Expr

theorem Derives.of_signed {k : Nat} {e : Expr} {u : List Token} (h : Derives k .signed e u)
    (hnot : ¬OpensWith "NOT" u) : Derives k .disjunction e u := by
  have hproduct : Derives k .product e u := .tighter rfl h nofun
  have hsum : Derives k .sum e u := .tighter rfl hproduct nofun
  have hcomparison : Derives k .comparison e u := .tighter rfl hsum nofun
  have hnegation : Derives k .negation e u := .tighter rfl hcomparison fun _ => hnot
  exact .tighter rfl (.tighter rfl hnegation nofun) nofun

namespace Expr

theorem written_literal {k : Nat} {l : Literal} (h : Lexed (.literal l)) (hl : l.token.Scanned)
    (hnot : l.token.isKeyword "NOT" = false) : (literal l).Written k := by
  have hsigned : Derives k .signed (literal l) [l.token] :=
    .tighter rfl (Derives.literal h) nofun
  refine .of_derives (hsigned.of_signed ?_) (by simpa using hl)
  rw [opensWith_cons, hnot]
  exact Bool.false_ne_true

theorem signed_of_neg {i : Int64} (h : i.toInt < 0) :
    (literal (.integer i)).signed = .negate (ofNumber (Text.decimal (-i.toInt))) := if_pos h

theorem signed_of_nonneg {i : Int64} (h : ¬i.toInt < 0) :
    (literal (.integer i)).signed = literal (.integer i) := if_neg h

/-- A generated key is read from its digits, behind a sign if it is negative. -/
theorem written_generated (k : Nat) (i : Int64) : (literal (.integer i)).signed.Written (k + 1) := by
  by_cases hneg : i.toInt < 0
  · have hnumber : Derives k .primary (ofNumber (Text.decimal (-i.toInt)))
        [.number (Text.decimal (-i.toInt))] := .number rfl
    have hsigned : Derives (k + 1) .signed (.negate (ofNumber (Text.decimal (-i.toInt))))
        [.symbol .minus, .number (Text.decimal (-i.toInt))] :=
      .negate (.tighter rfl hnumber nofun)
    rw [signed_of_neg hneg]
    refine .of_derives (hsigned.of_signed (by simp [opensWith_cons, Token.isKeyword])) ?_
    simpa [Token.Scanned] using numberText_decimal (show 0 ≤ -i.toInt by omega)
  · rw [signed_of_nonneg hneg]
    exact written_literal (.integer (by omega)) (numberText_decimal (by omega)) rfl

theorem legible_generated (i : Int64) : (literal (.integer i)).signed.Legible ∧
    ¬OpensWith "DEFAULT" (literal (.integer i)).signed.tokens := by
  by_cases hneg : i.toInt < 0
  · have hstarts := (numberText_decimal (show 0 ≤ -i.toInt by omega)).starts
    have hnumber : (ofNumber (Text.decimal (-i.toInt))).Readable := by
      unfold ofNumber
      split <;> trivial
    rw [signed_of_neg hneg]
    refine ⟨⟨⟨hnumber, ?_⟩, .inr ?_⟩, ?_⟩
    · rw [sql_ofNumber_decimal (by omega)]
      intro hminus
      obtain ⟨cs, hcs⟩ := List.head?_eq_some_iff.mp hminus
      rw [hcs] at hstarts
      cases hstarts
    · simp [tokens, opensWith_cons, Token.isKeyword]
    · simp [tokens, opensWith_cons, Token.isKeyword]
  · rw [signed_of_nonneg hneg]
    refine ⟨⟨trivial, .inr ?_⟩, ?_⟩
    · simp [tokens, Literal.token, opensWith_cons, Token.isKeyword]
    · simp [tokens, Literal.token, opensWith_cons, Token.isKeyword]

end Expr

/-- A value of a row without a generated key. -/
def valuePhrase (k : Nat) : Phrase Expr where
  sql := Expr.sql
  tokens := Expr.tokens
  normal := Expr.normal
  Fit e := e = .defaultValue ∨ e.Written k
  Readable e := e = .defaultValue ∨ e.Legible ∧ ¬OpensWith "DEFAULT" e.tokens

theorem value_faithful (k : Nat) {T : List Token} (hT : ∀ t ∈ T, t.strength = 0) :
    (valuePhrase k).Faithful (Insert.parseValue (k + 1)) T := by
  have hexpr := expr_faithful k hT
  have hdefault : ∀ {rest : List Char}, EndsTextAt T rest →
      Spells "DEFAULT".toList [.word "DEFAULT"] rest := fun hrest =>
    Spells.keyword (by decide) hrest.follows.endsWord
  have hwritten : ∀ {y : Expr}, (valuePhrase k).Fit y → (valuePhrase k).Readable y →
      y ≠ .defaultValue → y.Written k ∧ y.Legible ∧ ¬OpensWith "DEFAULT" y.tokens :=
    fun hfit hread hne => ⟨hfit.resolve_left hne, hread.resolve_left hne⟩
  refine ⟨?_, ?_, ?_, ?_⟩
  · intro y rest hfit hread hrest
    by_cases hy : y = .defaultValue
    · subst hy
      exact hdefault hrest
    · obtain ⟨hfit, hread, -⟩ := hwritten hfit hread hy
      exact hexpr.spells hfit hread hrest
  · intro y hfit hread
    by_cases hy : y = .defaultValue
    · subst hy
      simp [valuePhrase, Expr.tokens]
    · obtain ⟨hfit, hread, -⟩ := hwritten hfit hread hy
      exact hexpr.plain hfit hread
  · intro y ws hfit hread hws
    unfold Insert.parseValue
    by_cases hy : y = .defaultValue
    · subst hy
      have hword : OpensWith "DEFAULT" (.word "DEFAULT" :: ws) :=
        (opensWith_cons _ _ _).mpr (by decide)
      exact run_bind_of_ok (run_takesWord_of_opens hword)
    · obtain ⟨hfit, hread, hnot⟩ := hwritten hfit hread hy
      rw [← opensWith_append (hfit.derives hread).ne_nil ws] at hnot
      exact (run_bind_of_ok (run_takesWord_of_not_opens hnot)).trans (hexpr.reads hfit hread hws)
  · intro ts x mid hrun
    unfold Insert.parseValue at hrun
    obtain ⟨b, ts₁, hword, h₁⟩ := run_bind_eq_ok.mp hrun
    rcases run_takesWord_eq_ok.mp hword with ⟨rfl, t, ht, rfl⟩ | ⟨rfl, hnot, rfl⟩
    · cases h₁
      refine ⟨[t], rfl, fun _ => .inl rfl, ?_⟩
      intro y rest a hfit hy hrest htame hscan
      obtain rfl : y = .defaultValue := by
        rcases hfit with rfl | hfit
        · rfl
        · have hlexed := hfit.lexed
          cases hlexed <;> cases hy
      obtain ⟨ws, hws, heq⟩ := (hdefault hrest).rest_of_ok hscan
      cases heq
      exact ⟨.inl rfl, rfl, hws⟩
    · obtain ⟨u, rfl, hfit, hecho⟩ := hexpr.sound h₁
      obtain ⟨v, hv, hderives⟩ := sound_parse k h₁
      obtain rfl := List.append_cancel_right hv
      rw [opensWith_append hderives.ne_nil] at hnot
      refine ⟨u, rfl, fun hscanned => .inr (hfit hscanned), ?_⟩
      intro y rest a hfity hy hrest htame hscan
      rcases hfity with rfl | hfity
      · obtain ⟨ws, -, heq⟩ := (hdefault hrest).rest_of_ok hscan
        obtain ⟨t, us, rfl⟩ := List.exists_cons_of_ne_nil hderives.ne_nil
        have hword : t = .word "DEFAULT" := (List.cons.inj heq).1
        exact absurd ((opensWith_cons _ _ _).mpr (by rw [hword]; decide)) hnot
      · obtain ⟨hread, rfl, hend⟩ := hecho hfity hy hrest htame hscan
        exact ⟨.inr ⟨hread, hnot⟩, rfl, hend⟩

/-- A value, which may be a generated key. -/
def cellPhrase (k : Nat) : Phrase Expr := (valuePhrase k).printedAs Expr.signed

theorem cell_faithful (k : Nat) {T : List Token} (hT : ∀ t ∈ T, t.strength = 0) :
    (cellPhrase k).Faithful (Insert.parseValue (k + 1)) T := by
  apply (value_faithful k hT).printedAs
  rintro x (rfl | hx)
  · exact .inl rfl
  · rw [hx.lexed.signed]
    exact .inr hx

theorem row_faithful (k : Nat) (T : List Token) :
    (cellPhrase k).parens.Faithful (Insert.parseRow (k + 1)) T := by
  apply (cell_faithful k (by decide)).parens
  intro y hfit hread
  by_cases hy : y.signed = .defaultValue
  · exact ⟨.word "DEFAULT", [], congrArg Expr.tokens hy, by simp⟩
  · have hderives := (hfit.resolve_left hy).derives (hread.resolve_left hy).1
    obtain ⟨t, us, htokens⟩ := List.exists_cons_of_ne_nil hderives.ne_nil
    refine ⟨t, us, htokens, ?_⟩
    rintro rfl
    exact absurd (hderives.head_symbol (s := .rightParen) (by rw [htokens]; rfl)) (by decide)

/-- The columns of an INSERT, if it names them. -/
def columnsPhrase : Phrase (List String) where
  sql := sqlColumns
  tokens ns := if ns.isEmpty then [] else namePhrase.list.enclosed.tokens ns
  normal := id
  Fit _ := True
  Readable _ := True

theorem columns_opens (T : List Token) :
    columnsPhrase.Opens (.symbol .leftParen :: T) T where
  text {ns rest} _ hrest := by
    cases ns with
    | nil => exact hrest.mono fun _ ht => List.mem_cons_of_mem _ ht
    | cons n ns =>
      have hparen : ∀ cs : List Char, EndsTextAt (.symbol .leftParen :: T) (' ' :: '(' :: cs) := by
        intro cs
        have hspells : Spells [' ', '('] [.symbol .leftParen] cs :=
          Spells.space.append Spells.leftParen
        exact .of_spells hspells List.mem_cons_self (.space (by decide))
      have hall := hparen ((commaSeparated ((n :: ns).map sqlName)).toList ++ ')' :: rest)
      simpa [columnsPhrase, sqlColumns, sqlParenthesized] using hall
  tokens {ns ws} _ _ hws := by
    cases ns with
    | nil => exact hws.mono fun _ ht => List.mem_cons_of_mem _ ht
    | cons n ns => exact .cons List.mem_cons_self _

theorem columns_faithful {T : List Token} (hT : .symbol .leftParen ∉ T) :
    columnsPhrase.Faithful Insert.parseColumns T := by
  have hlist : namePhrase.list.enclosed.Faithful _ T :=
    ((name_faithful [.symbol .comma, .symbol .rightParen]).list (by decide)).enclosed
  have hfit : ∀ {ns : List String}, ns ≠ [] → namePhrase.list.enclosed.Fit ns :=
    fun hne => ⟨hne, fun _ _ => trivial⟩
  have hread : ∀ ns : List String, namePhrase.list.enclosed.Readable ns := fun _ _ _ => trivial
  have hnormal : ∀ ns : List String, namePhrase.list.enclosed.normal ns = ns := List.map_id
  refine ⟨?_, ?_, ?_, ?_⟩
  · intro ns rest _ _ hrest
    cases ns with
    | nil => exact Spells.nil
    | cons n ns =>
      have hall := Spells.space.append (hlist.spells (hfit (by simp)) (hread (n :: ns)) hrest)
      simpa [columnsPhrase, sqlColumns, sqlParenthesized, Phrase.enclosed, Phrase.list,
        namePhrase] using hall
  · intro ns _ _
    cases ns with
    | nil => exact List.not_mem_nil
    | cons n ns => exact hlist.plain (hfit (by simp)) (hread _)
  · intro ns ws _ _ hws
    unfold Insert.parseColumns
    cases ns with
    | nil =>
      exact run_bind_of_ok (run_takesSymbol_of_ne (hws.head_ne hT))
    | cons n ns =>
      have hrun := hlist.reads (hfit (by simp)) (hread (n :: ns)) hws
      obtain ⟨us, hus⟩ : ∃ us, namePhrase.list.enclosed.tokens (n :: ns) ++ ws =
          .symbol .leftParen :: us := ⟨_, rfl⟩
      rw [hus, run_bind_of_ok (run_needsSymbol_cons _), hnormal] at hrun
      rw [show columnsPhrase.tokens (n :: ns) ++ ws = _ from hus,
        run_bind_of_ok (run_takesSymbol_cons _)]
      exact hrun
  · intro ts ns mid hrun
    unfold Insert.parseColumns at hrun
    obtain ⟨b, ts₁, hopen, h₁⟩ := run_bind_eq_ok.mp hrun
    rcases run_takesSymbol_eq_ok.mp hopen with ⟨rfl, rfl⟩ | ⟨rfl, -, rfl⟩
    · have hne : ns ≠ [] := by
        obtain ⟨xs, ts₂, hitems, h₂⟩ := run_bind_eq_ok.mp h₁
        obtain ⟨_, ts₃, -, hpure⟩ := run_bind_eq_ok.mp h₂
        cases hpure
        obtain ⟨-, -, ps, hps, rfl, -⟩ := (name_faithful []).sound.list hitems
        simpa using hps
      obtain ⟨u, hu, -, hecho⟩ := hlist.sound ((run_bind_of_ok (run_needsSymbol_cons _)).trans h₁)
      refine ⟨u, hu, fun _ => trivial, ?_⟩
      rintro _ rest a - rfl hrest htame hscan
      obtain ⟨n, ns, rfl⟩ := List.exists_cons_of_ne_nil hne
      have hsql : (columnsPhrase.sql (n :: ns)).toList ++ rest =
          [' '] ++ ((namePhrase.list.enclosed.sql (n :: ns)).toList ++ rest) := by
        simp [columnsPhrase, sqlColumns, sqlParenthesized, Phrase.enclosed, Phrase.list, namePhrase]
      rw [hsql] at htame hscan
      obtain ⟨ws, hws, rfl⟩ := Spells.space.rest_of_ok hscan
      obtain ⟨-, hu, hend⟩ := hecho (hfit hne) (hnormal _) hrest htame.of_append hws
      exact ⟨trivial, hu, hend⟩
    · cases h₁
      refine ⟨[], rfl, fun _ => trivial, ?_⟩
      rintro _ rest a - rfl - - hscan
      exact ⟨trivial, rfl, hscan⟩

/-- The keyword in front of the rows. -/
def Insert.needsValues : TokenParser Unit := do
  unless ← takesWord "VALUES" do
    unless ← takesWord "VALUE" do missing "VALUES"

theorem opensWith_values {ts mid : List Token} {u : Unit}
    (h : Insert.needsValues.run ts = .ok (u, mid)) :
    ∃ t, ts = t :: mid ∧ (t.isKeyword "VALUES" = true ∨ t.isKeyword "VALUE" = true) := by
  unfold Insert.needsValues at h
  obtain ⟨b, ts₁, hword, h₁⟩ := run_bind_eq_ok.mp h
  rcases run_takesWord_eq_ok.mp hword with ⟨rfl, t, ht, rfl⟩ | ⟨rfl, -, rfl⟩
  · cases h₁
    exact ⟨t, rfl, .inl ht⟩
  · obtain ⟨b, ts₂, hword, h₂⟩ := run_bind_eq_ok.mp h₁
    rcases run_takesWord_eq_ok.mp hword with ⟨rfl, t, ht, rfl⟩ | ⟨rfl, -, rfl⟩
    · cases h₂
      exact ⟨t, rfl, .inr ht⟩
    · cases h₂

theorem marks_values : Marks " VALUES ".toList [.word "VALUES"] Insert.needsValues where
  spells _ := Spells.spaced (by decide : isPlainWord "VALUES".toList = true)
  plain := by simp
  reads _ := rfl
  sound := by
    intro ts _ mid hrun
    obtain ⟨t, rfl, -⟩ := opensWith_values hrun
    exact ⟨[t], rfl, rfl⟩

/-- The columns and rows of an INSERT. -/
def contentPhrase (k : Nat) : Phrase (List String × List (List Expr)) :=
  columnsPhrase.seq ((cellPhrase k).parens.list.after " VALUES " [.word "VALUES"])

theorem content_opens (k : Nat) (T : List Token) :
    (contentPhrase k).Opens (.symbol .leftParen :: .word "VALUES" :: T) T :=
  (columns_opens _).seq (Phrase.after_opens marks_values fun _ => .space (by decide))

theorem Insert.parseContent_eq (levels : Nat) : Insert.parseContent levels = do
    if ← takesWord "SET" then
      let assignments ← TokenParser.list (Assignment.parse levels)
      return (assignments.map (·.column.name), [assignments.map (·.value)])
    else
      let columns ← Insert.parseColumns
      if ← seesWord "SELECT" then fail (.unsupported .insertSelect)
      Insert.needsValues
      return (columns, ← TokenParser.list (Insert.parseRow levels)) := by
  unfold Insert.parseContent Insert.needsValues
  simp only [then_assoc, pure_then, ite_then]

theorem content_faithful (k : Nat) :
    (contentPhrase k).Faithful (Insert.parseContent (k + 1)) [.word "ON"] := by
  have hrows := ((row_faithful k _).list (T := [.word "ON"]) (by decide)).after marks_values
  have hcontent : (contentPhrase k).Faithful _ [.word "ON"] :=
    (columns_faithful (T := [.word "VALUES", .word "ON"]) (by decide)).seq hrows
      (Phrase.after_opens marks_values fun _ => .space (by decide))
  have hguarded : (contentPhrase k).Faithful (do
      let columns ← Insert.parseColumns
      if ← seesWord "SELECT" then fail (.unsupported .insertSelect)
      Insert.needsValues
      return (columns, ← TokenParser.list (Insert.parseRow (k + 1)))) [.word "ON"] := by
    apply hcontent.guarded
    · intro ts mid x hrun
      obtain ⟨columns, ts₁, hcolumns, h₁⟩ := run_bind_eq_ok.mp hrun
      obtain ⟨-, h₁⟩ := run_unless_word_eq_ok.mp h₁
      simp only [then_assoc]
      exact (run_bind_of_ok hcolumns).trans h₁
    · intro ts mid x _ hrun
      simp only [then_assoc] at hrun
      obtain ⟨columns, ts₁, hcolumns, h₁⟩ := run_bind_eq_ok.mp hrun
      obtain ⟨_, ts₂, hvalues, -⟩ := run_bind_eq_ok.mp h₁
      have hselect : ¬OpensWith "SELECT" ts₁ := by
        obtain ⟨t, rfl, ht | ht⟩ := opensWith_values hvalues
        · exact not_opensWith_of_isKeyword ht (by decide) _
        · exact not_opensWith_of_isKeyword ht (by decide) _
      exact (run_bind_of_ok hcolumns).trans (run_unless_word_eq_ok.mpr ⟨hselect, h₁⟩)
  have hset : Sound (do
      let assignments ← TokenParser.list (Assignment.parse (k + 1))
      return (assignments.map (·.column.name), [assignments.map (·.value)])) fun x u =>
        (∀ t ∈ u, t.Scanned) → (contentPhrase k).Fit x := by
    intro ts x mid hrun
    obtain ⟨as, ts₁, has, hpure⟩ := run_bind_eq_ok.mp hrun
    cases hpure
    have hassignments := (assignment_faithful k (T := [.symbol .comma]) (by decide)).list
      (T := []) (by decide)
    obtain ⟨u, rfl, hfit, -⟩ := hassignments.sound has
    refine ⟨u, rfl, fun hscanned => ⟨trivial, List.cons_ne_nil _ _, ?_⟩⟩
    intro row hrow c hc
    obtain rfl := List.mem_singleton.mp hrow
    obtain ⟨a, ha, rfl⟩ := List.mem_map.mp hc
    have hvalue : a.value.Written k := (hfit hscanned).2 a ha
    rw [show (cellPhrase k).Fit a.value = (valuePhrase k).Fit a.value.signed from rfl,
      hvalue.lexed.signed]
    exact .inr hvalue
  rw [Insert.parseContent_eq]
  exact hguarded.orBehind (content_opens k _) (by decide) hset

/-- The words in front of the table of an INSERT: whether it replaces, and whether it ignores. -/
def insertVerb (b : Bool × Bool) : String :=
  (if b.1 then "REPLACE " else "INSERT ") ++ sqlFlag b.2 "IGNORE " ++ "INTO "

def insertVerbTokens (b : Bool × Bool) : List Token :=
  .word (if b.1 then "REPLACE" else "INSERT") :: (flagTokens b.2 "IGNORE" ++ [.word "INTO"])

def Insert.parseVerb : TokenParser (Bool × Bool) := do
  let replace ← takesWord "REPLACE"
  unless replace do needsWord "INSERT"
  let ignore ← takesWord "IGNORE"
  let _ ← takesWord "INTO"
  return (replace, ignore)

/-- The first word tells whether an INSERT replaces. -/
theorem Insert.run_parseVerb_eq_ok {replace ignore : Bool} {ts mid : List Token}
    (h : Insert.parseVerb.run ts = .ok ((replace, ignore), mid)) :
    ∃ t ts₁ ts₂ into, ts = t :: ts₁ ∧
      t.isKeyword (if replace then "REPLACE" else "INSERT") = true ∧
      (takesWord "IGNORE").run ts₁ = .ok (ignore, ts₂) ∧
      (takesWord "INTO").run ts₂ = .ok (into, mid) := by
  unfold Insert.parseVerb at h
  obtain ⟨b, ts₁, hreplace, h₁⟩ := run_bind_eq_ok.mp h
  have hfirst : ∃ t us, ts = t :: us ∧ t.isKeyword (if b then "REPLACE" else "INSERT") = true ∧ (do
      let ignore ← takesWord "IGNORE"
      let _ ← takesWord "INTO"
      return (b, ignore) : TokenParser (Bool × Bool)).run us = .ok ((replace, ignore), mid) := by
    rcases run_takesWord_eq_ok.mp hreplace with ⟨rfl, t, ht, rfl⟩ | ⟨rfl, -, rfl⟩
    · exact ⟨t, ts₁, rfl, ht, h₁⟩
    · obtain ⟨_, ts₂, hinsert, h₂⟩ := run_bind_eq_ok.mp h₁
      obtain ⟨t, ht, rfl⟩ := run_needsWord_eq_ok.mp hinsert
      exact ⟨t, ts₂, rfl, ht, h₂⟩
  obtain ⟨t, us, rfl, ht, h₂⟩ := hfirst
  obtain ⟨b', ts₂, hignore, h₃⟩ := run_bind_eq_ok.mp h₂
  obtain ⟨into, ts₃, hinto, hpure⟩ := run_bind_eq_ok.mp h₃
  cases hpure
  exact ⟨t, us, ts₂, into, rfl, ht, hignore, hinto⟩

theorem verb_leads : Leads insertVerb insertVerbTokens Insert.parseVerb OpensName where
  spells := by
    rintro ⟨replace, ignore⟩ rest
    have hverb : Spells (if replace then "REPLACE " else "INSERT ").toList
        [.word (if replace then "REPLACE" else "INSERT")]
        ((sqlFlag ignore "IGNORE ").toList ++ "INTO ".toList ++ rest) := by
      cases replace with
      | true => exact Spells.keyword_space (by decide : isPlainWord "REPLACE".toList = true)
      | false => exact Spells.keyword_space (by decide : isPlainWord "INSERT".toList = true)
    have hflag : Spells (sqlFlag ignore "IGNORE ").toList (flagTokens ignore "IGNORE")
        ("INTO ".toList ++ rest) :=
      Spells.flag_space (by decide : isPlainWord "IGNORE".toList = true) (by decide) ignore
    have hinto : Spells "INTO ".toList [.word "INTO"] rest :=
      Spells.keyword_space (by decide : isPlainWord "INTO".toList = true)
    have hall := hverb.append (hflag.append hinto)
    simpa [insertVerb, insertVerbTokens] using hall
  plain := by
    rintro ⟨replace, _ | _⟩ <;> simp [insertVerbTokens, flagTokens]
  reads := by
    rintro ⟨_ | _, _ | _⟩ ws <;> rfl
  sound := by
    rintro ts ⟨replace, ignore⟩ mid hrun
    obtain ⟨t, ts₂, ts₃, into, rfl, -, hignore, hinto⟩ := Insert.run_parseVerb_eq_ok hrun
    obtain ⟨v, rfl, hv⟩ : ∃ v, ts₂ = v ++ ts₃ ∧ v.length = (flagTokens ignore "IGNORE").length := by
      rcases run_takesWord_eq_ok.mp hignore with ⟨rfl, t', -, rfl⟩ | ⟨rfl, -, rfl⟩
      · exact ⟨[t'], rfl, rfl⟩
      · exact ⟨[], rfl, rfl⟩
    -- without INTO the name of the table would be where it is printed
    rcases run_takesWord_eq_ok.mp hinto with ⟨rfl, t', -, rfl⟩ | ⟨rfl, -, rfl⟩
    · refine ⟨t :: (v ++ [t']), by simp, fun {vs ws} _ heq => ?_⟩
      refine (List.append_inj heq ?_).1
      simp [insertVerbTokens, hv]
    · refine ⟨t :: v, by simp, fun {vs ws} hname heq => ?_⟩
      obtain ⟨-, htail⟩ := head_eq heq
      rw [List.append_assoc] at htail
      obtain ⟨-, rfl⟩ := List.append_inj htail hv
      obtain ⟨_, ⟨⟩, n, hn⟩ := hname
      cases hn

namespace Insert

/-- An INSERT with the names of its functions in capitals, and with signs as operators. -/
def normal (i : Insert) : Insert :=
  { i with
    rows := i.rows.map (List.map fun c => c.signed.normal)
    onDuplicate := i.onDuplicate.map Assignment.normal }

/-- An INSERT of values that are read from scanned tokens, or are generated. -/
structure Written (k : Nat) (i : Insert) : Prop where
  nonempty : i.rows ≠ []
  rows : ∀ row ∈ i.rows, ∀ c ∈ row, c.signed = .defaultValue ∨ c.signed.Written k
  onDuplicate : ∀ a ∈ i.onDuplicate, a.value.Written k

/-- Whether an INSERT is read again from its text: its values are, and none of them starts with the
name DEFAULT. -/
structure Legible (i : Insert) : Prop where
  rows : ∀ row ∈ i.rows, ∀ c ∈ row, c.signed = .defaultValue ∨
    c.signed.Legible ∧ ¬OpensWith "DEFAULT" c.signed.tokens
  onDuplicate : ∀ a ∈ i.onDuplicate, a.value.Legible

/-- An INSERT as its parts. -/
def parts (i : Insert) : ((Bool × Bool) × TableName) × (List String × List (List Expr)) ×
    List Assignment :=
  (((i.replace, i.ignore), i.table), (i.columns, i.rows), i.onDuplicate)

end Insert

theorem marks_duplicate : Marks "DUPLICATE KEY UPDATE ".toList
    [.word "DUPLICATE", .word "KEY", .word "UPDATE"] (do
      needsWord "DUPLICATE"
      needsWord "KEY"
      needsWord "UPDATE") :=
  Marks.append (Marks.keyword (by decide : isPlainWord "DUPLICATE".toList = true) (by decide))
    (Marks.append (Marks.keyword (by decide : isPlainWord "KEY".toList = true) (by decide))
      (Marks.keyword (by decide : isPlainWord "UPDATE".toList = true) (by decide)))

/-- The parts of an INSERT in their order. -/
def insertParts (k : Nat) : Phrase (((Bool × Bool) × TableName) ×
    (List String × List (List Expr)) × List Assignment) :=
  (tableNamePhrase.behind insertVerb insertVerbTokens).seq ((contentPhrase k).seq
    ((assignmentPhrase k).optionalList " ON DUPLICATE KEY UPDATE " "ON"
      [.word "DUPLICATE", .word "KEY", .word "UPDATE"]))

def insertPhrase (k : Nat) : Phrase Insert where
  sql := Insert.sql
  tokens i := (insertParts k).tokens i.parts
  normal := Insert.normal
  Fit := Insert.Written k
  Readable := Insert.Legible

theorem insert_matches (k : Nat) : (insertPhrase k).Matches (insertParts k) Insert.parts
    (fun i => ⟨i.1.1.1, i.1.1.2, i.1.2, i.2.1.1, i.2.1.2, i.2.2⟩) where
  sql := by
    intro i _
    have hparts : (insertParts k).sql i.parts = insertVerb (i.replace, i.ignore) ++ i.table.sql ++
        ((sqlColumns i.columns ++ (" VALUES " ++
          commaSeparated (i.rows.map ((cellPhrase k).parens.sql)))) ++
        sqlListClause " ON DUPLICATE KEY UPDATE " (i.onDuplicate.map Assignment.sql)) := rfl
    have hrow : (cellPhrase k).parens.sql =
        fun row => sqlParenthesized (row.map Expr.sql) := by
      funext row
      simp [Phrase.parens, Phrase.enclosed, Phrase.list, cellPhrase, Phrase.printedAs, valuePhrase,
        sqlParenthesized]
    rw [hparts, hrow, show (insertPhrase k).sql i = i.sql from rfl]
    delta Insert.sql insertVerb
    simp only [String.append_assoc]
  fit := by
    intro i
    constructor
    · intro h
      exact ⟨trivial, ⟨trivial, h.nonempty, h.rows⟩, h.onDuplicate⟩
    · rintro ⟨-, ⟨-, hne, hrows⟩, honDuplicate⟩
      exact ⟨hne, hrows, honDuplicate⟩
  readable := by
    intro i
    constructor
    · intro h
      exact ⟨trivial, ⟨trivial, h.rows⟩, h.onDuplicate⟩
    · rintro ⟨-, ⟨-, hrows⟩, honDuplicate⟩
      exact ⟨hrows, honDuplicate⟩

theorem Insert.parse_eq (levels : Nat) : Insert.parse levels = do
    let verb ← Insert.parseVerb
    let table ← TableName.parse
    let content ← Insert.parseContent levels
    let onDuplicate ← Insert.parseOnDuplicate levels
    return ⟨verb.1, verb.2, table, content.1, content.2, onDuplicate⟩ := by
  unfold Insert.parse Insert.parseVerb
  simp only [then_assoc, pure_then, ite_then]

theorem insert_faithful (k : Nat) :
    (insertPhrase k).Faithful (Insert.parse (k + 1)) [] := by
  have honText : " ON DUPLICATE KEY UPDATE " = " ON " ++ "DUPLICATE KEY UPDATE " := rfl
  have honDuplicate := (assignment_faithful k (T := [.symbol .comma]) (by decide)).optionalList
    (T := []) (by decide) honText on_keyword marks_duplicate (by decide)
  have hopens : ((assignmentPhrase k).optionalList " ON DUPLICATE KEY UPDATE " "ON"
      [.word "DUPLICATE", .word "KEY", .word "UPDATE"]).Opens [.word "ON"] [] :=
    (assignmentPhrase k).optionalList_opens _ honText on_keyword
  have hcontent := (content_faithful k).seq honDuplicate hopens
  have htable := (tableName_faithful (T := [.symbol .leftParen, .word "VALUES", .word "ON"])
    (by decide)).behind verb_leads TableName.opensName
  have hparts := (htable.seq hcontent ((content_opens k _).seq hopens)).via (insert_matches k)
  rw [Insert.parse_eq]
  unfold Insert.parseOnDuplicate
  simpa only [then_assoc, pure_then, ite_then] using hparts

end ShardedSql.Sql
