import ShardedSql.Proofs.Sql.Items
import ShardedSql.Proofs.Sql.LeadingWord

namespace ShardedSql.Sql

open TokenParser
open Token (isPlainWord scan)

namespace JoinKind

def tokens : JoinKind → List Token
  | inner => [.word "JOIN"]
  | left => [.word "LEFT", .word "JOIN"]
  | right => [.word "RIGHT", .word "JOIN"]
  | cross => [.word "CROSS", .word "JOIN"]

/-- The words behind the first one of a join. -/
def rest (kind : JoinKind) (complete : Bool) : TokenParser Unit := do
  unless complete do
    if kind = .left ∨ kind = .right then
      let _ ← takesWord "OUTER"
    needsWord "JOIN"

def parse : TokenParser JoinKind := do
  match (← next).bind JoinKind.ofToken? with
  | some (kind, complete) =>
    kind.rest complete
    return kind
  | none => missing "JOIN"

theorem of_ofToken {t : Token} {kind : JoinKind} {complete : Bool}
    (h : ofToken? t = some (kind, complete)) :
    kind = .inner ∧ complete = true ∨ kind = .inner ∧ t.isKeyword "INNER" = true ∨
      kind ≠ .inner ∧ complete = false := by
  unfold ofToken? at h
  split at h
  · split at h <;> cases h <;> simp_all [Token.isKeyword]
  · cases h

theorem sound_rest (kind : JoinKind) (complete : Bool) : Sound (kind.rest complete) fun _ v =>
    complete = true ∧ v = [] ∨ complete = false ∧ ((∃ t', v = [t']) ∨
      ∃ t t', t.isKeyword "OUTER" = true ∧ v = [t, t']) := by
  intro ts _ mid hrun
  unfold rest at hrun
  cases complete with
  | true =>
    cases hrun
    exact ⟨[], rfl, .inl ⟨rfl, rfl⟩⟩
  | false =>
    simp only [Bool.false_eq_true, if_false] at hrun
    split at hrun
    · obtain ⟨outer, ts₁, houter, h₁⟩ := run_bind_eq_ok.mp hrun
      obtain ⟨t', -, rfl⟩ := run_needsWord_eq_ok.mp h₁
      rcases run_takesWord_eq_ok.mp houter with ⟨-, t, ht, rfl⟩ | ⟨-, -, rfl⟩
      · exact ⟨[t, t'], rfl, .inr ⟨rfl, .inr ⟨t, t', ht, rfl⟩⟩⟩
      · exact ⟨[t'], rfl, .inr ⟨rfl, .inl ⟨t', rfl⟩⟩⟩
    · obtain ⟨t', -, rfl⟩ := run_needsWord_eq_ok.mp hrun
      exact ⟨[t'], rfl, .inr ⟨rfl, .inl ⟨t', rfl⟩⟩⟩

theorem spells (kind : JoinKind) (cs : List Char) : Spells kind.sql.toList kind.tokens cs := by
  have hword : ∀ {kw : String}, isPlainWord kw.toList = true →
      Spells (' ' :: (kw.toList ++ [' ']) ++ ("JOIN".toList ++ [' ']))
        ([.word kw] ++ [.word "JOIN"]) cs := fun hkw =>
    (Spells.spaced hkw).append (Spells.keyword_space (by decide))
  cases kind with
  | inner => exact Spells.spaced (by decide : isPlainWord "JOIN".toList = true)
  | left => exact hword (by decide : isPlainWord "LEFT".toList = true)
  | right => exact hword (by decide : isPlainWord "RIGHT".toList = true)
  | cross => exact hword (by decide : isPlainWord "CROSS".toList = true)

theorem leads : Leads JoinKind.sql tokens parse fun _ => True where
  spells := spells
  plain kind := by cases kind <;> decide
  reads kind ws := by cases kind <;> rfl
  sound := by
    intro ts kind mid hrun
    unfold parse at hrun
    rw [run_next_bind] at hrun
    cases ts with
    | nil => cases hrun
    | cons t ts =>
      simp only [List.head?_cons, Option.bind_some, List.tail_cons] at hrun
      split at hrun
      · next kind' complete hsign =>
        obtain ⟨_, ts₁, hrest, hpure⟩ := run_bind_eq_ok.mp hrun
        cases hpure
        obtain ⟨v, rfl, hv⟩ := sound_rest kind complete hrest
        refine ⟨t :: v, rfl, fun {vs ws} _ heq => ?_⟩
        rcases of_ofToken hsign with ⟨rfl, rfl⟩ | ⟨rfl, hinner⟩ | ⟨hne, rfl⟩
        · obtain rfl : v = [] := by simpa using hv
          rw [(head_eq heq).1]
          rfl
        · rw [(head_eq heq).1] at hinner
          exact absurd hinner (by decide)
        · have hsecond : ∃ a, kind.tokens = [a, .word "JOIN"] := by
            cases kind <;> first | exact ⟨_, rfl⟩ | exact absurd rfl hne
          obtain ⟨a, ha⟩ := hsecond
          rw [ha] at heq ⊢
          obtain ⟨rfl, htail⟩ := head_eq heq
          rcases hv with ⟨⟨⟩, -⟩ | ⟨-, ⟨t', rfl⟩ | ⟨t₁, t', houter, rfl⟩⟩
          · rw [(head_eq htail).1]
          · rw [(head_eq htail).1] at houter
            exact absurd houter (by decide)
      · cases hrun

end JoinKind

def Join.tokens (j : Join) : List Token :=
  j.kind.tokens ++ (j.table.tokens ++ j.on.elim [] fun e => .word "ON" :: e.tokens)

def Join.normal (j : Join) : Join := { j with on := j.on.map Expr.normal }

def joinPhrase (k : Nat) : Phrase Join where
  sql := Join.sql
  tokens := Join.tokens
  normal := Join.normal
  Fit j := ∀ e ∈ j.on, e.Written k
  Readable j := ∀ e ∈ j.on, e.Legible

/-- A join, its first word among the tokens. -/
def Join.parseWhole (levels : Nat) : TokenParser Join := do
  match (← next).bind JoinKind.ofToken? with
  | some (kind, complete) => Join.parse levels kind complete
  | none => missing "JOIN"

theorem Join.parseWhole_eq (levels : Nat) : Join.parseWhole levels = do
    let kind ← JoinKind.parse
    let table ← TableRef.parse
    let on ← after? "ON" (Expr.parse levels)
    if on.isNone then
      if ← seesWord "USING" then fail (.unsupported .joinUsing)
    return ⟨kind, table, on⟩ := by
  unfold Join.parseWhole JoinKind.parse
  rw [then_assoc]
  refine congrArg _ (funext fun t => ?_)
  split
  · next kind complete _ =>
    rw [then_assoc]
    unfold Join.parse JoinKind.rest
    cases complete with
    | true => rfl
    | false =>
      simp only [Bool.false_eq_true, if_false]
      split
      · simp only [then_assoc, pure_then]
      · simp only [pure_then]
  · rfl

/-- The words that a join starts with. -/
def joinWords : List Token := [.word "JOIN", .word "LEFT", .word "RIGHT", .word "CROSS"]

theorem join_opens (k : Nat) (T T' : List Token) : (joinPhrase k).Opens (joinWords ++ T) T' := by
  have hfollows : ∀ (kind : JoinKind) (cs : List Char), Follows (kind.sql.toList ++ cs) := by
    intro kind cs
    cases kind <;> exact .space (by decide)
  have hfirst : ∀ kind : JoinKind, ∃ t us, kind.tokens = t :: us ∧ t ∈ joinWords := by
    intro kind
    cases kind <;> exact ⟨_, _, rfl, by decide⟩
  refine ⟨?_, ?_⟩
  · intro j rest _ _
    obtain ⟨t, us, htokens, ht⟩ := hfirst j.kind
    have hspells := JoinKind.spells j.kind
      ((j.table.sql ++ sqlClause " ON " (j.on.map Expr.sql)).toList ++ rest)
    rw [htokens] at hspells
    have hall := EndsTextAt.of_spells hspells (List.mem_append_left T ht) (hfollows _ _)
    simpa [joinPhrase, Join.sql] using hall
  · intro j ws _ _ _
    obtain ⟨t, us, htokens, ht⟩ := hfirst j.kind
    have hstart : (joinPhrase k).tokens j ++ ws = t :: (us ++ (j.table.tokens ++
        (j.on.elim [] fun e => .word "ON" :: e.tokens) ++ ws)) := by
      simp [joinPhrase, Join.tokens, htokens]
    rw [hstart]
    exact .cons (List.mem_append_left T ht) _

theorem join_faithful (k : Nat) {T : List Token} (hT : ∀ t ∈ T, t.strength = 0)
    (hnoAlias : NoAlias T) (hon : ∀ t ∈ T, t.isKeyword "ON" = false)
    (husing : ∀ t ∈ T, t.isKeyword "USING" = false) :
    (joinPhrase k).Faithful (Join.parseWhole (k + 1)) T := by
  have hdot : .symbol .dot ∉ T := fun hmem => absurd (hT _ hmem) (by decide)
  have htable := tableRef_faithful (T := .word "ON" :: T) (by simpa using hdot) (by
    intro t ht
    rcases List.mem_cons.mp ht with rfl | ht
    · decide
    · exact hnoAlias t ht)
  have hon' := ((expr_faithful k hT).optional on_keyword hon)
  have hbehind := htable.seq hon' (Phrase.optional_opens on_keyword)
  have hparts : (joinPhrase k).Faithful _ T :=
    (hbehind.behind JoinKind.leads (hbehind.sound.mono fun _ _ _ _ => trivial)).via
      (f := fun j : Join => (j.kind, j.table, j.on)) (g := fun j => ⟨j.1, j.2.1, j.2.2⟩)
      { sql := by
          intro j _
          simp [joinPhrase, Join.sql, Phrase.behind, Phrase.seq, Phrase.optional, tableRefPhrase,
            exprPhrase, String.append_assoc]
        fit := by
          simp [joinPhrase, Phrase.behind, Phrase.seq, Phrase.optional, tableRefPhrase, exprPhrase]
        readable := by
          simp [joinPhrase, Phrase.behind, Phrase.seq, Phrase.optional, tableRefPhrase,
            exprPhrase] }
  rw [Join.parseWhole_eq]
  apply hparts.guarded
  · intro ts mid j hrun
    obtain ⟨kind, ts₁, hkind, h₁⟩ := run_bind_eq_ok.mp hrun
    obtain ⟨table, ts₂, htable, h₂⟩ := run_bind_eq_ok.mp h₁
    obtain ⟨on, ts₃, hon, h₃⟩ := run_bind_eq_ok.mp h₂
    have hpure : ts₃ = mid ∧ ⟨kind, table, on⟩ = j := by
      split at h₃
      · obtain ⟨-, h₃⟩ := run_unless_word_eq_ok.mp h₃
        cases h₃
        exact ⟨rfl, rfl⟩
      · cases h₃
        exact ⟨rfl, rfl⟩
    obtain ⟨rfl, rfl⟩ := hpure
    simp only [then_assoc, pure_then]
    rw [run_bind_of_ok hkind, run_bind_of_ok htable, run_bind_of_ok hon]
    rfl
  · intro ts mid j hmid hrun
    simp only [then_assoc, pure_then] at hrun
    obtain ⟨kind, ts₁, hkind, h₁⟩ := run_bind_eq_ok.mp hrun
    obtain ⟨table, ts₂, htable, h₂⟩ := run_bind_eq_ok.mp h₁
    obtain ⟨on, ts₃, hon, hpure⟩ := run_bind_eq_ok.mp h₂
    cases hpure
    rw [run_bind_of_ok hkind, run_bind_of_ok htable, run_bind_of_ok hon]
    have hnot : ¬OpensWith "USING" mid := hmid.not_opensWith husing
    split
    · exact run_unless_word_eq_ok.mpr ⟨hnot, rfl⟩
    · rfl

/-- The tables and joins of a SELECT. -/
def fromPhrase (k : Nat) : Phrase (List TableRef × List Join) :=
  (tableRefPhrase.list.seq (joinPhrase k).many).clause (fun y => y.1.isEmpty && y.2.isEmpty)
    " FROM " "FROM"

theorem from_keyword : Phrase.KeywordText " FROM " "FROM" := ⟨by decide, by decide, by decide⟩

theorem from_opens (k : Nat) (T : List Token) : (fromPhrase k).Opens (.word "FROM" :: T) T :=
  Phrase.clause_opens from_keyword

/-- The words that stand behind the tables of a SELECT. -/
def wordsAfterFrom : List Token :=
  [.word "WHERE", .word "GROUP", .word "HAVING", .word "ORDER", .word "LIMIT", .word "FOR"]

theorem joins_faithful (k : Nat) :
    (joinPhrase k).many.Faithful (loop JoinKind.ofToken?
      (fun joins kind => do return joins ++ [← Join.parse (k + 1) kind.1 kind.2]) [])
      wordsAfterFrom := by
  have hnoAlias : NoAlias (joinWords ++ wordsAfterFrom) := by
    unfold NoAlias
    decide
  have hjoin := join_faithful k (T := joinWords ++ wordsAfterFrom) (by decide) hnoAlias (by decide)
    (by decide)
  have hstep : ∀ {t : Token} {kind : JoinKind × Bool}, JoinKind.ofToken? t = some kind →
      ∀ ts, (Join.parseWhole (k + 1)).run (t :: ts) =
        (Join.parse (k + 1) kind.1 kind.2).run ts := by
    intro t kind ht ts
    unfold Join.parseWhole
    simp only [run_next_bind, List.head?_cons, Option.bind_some, ht, List.tail_cons]
  have hhead : ∀ {j : Join}, (joinPhrase k).Fit j → (joinPhrase k).Readable j →
      ∃ t us kind, (joinPhrase k).tokens j = t :: us ∧ JoinKind.ofToken? t = some kind := by
    intro j _ _
    have hfirst : ∃ t us kind, j.kind.tokens = t :: us ∧ JoinKind.ofToken? t = some kind := by
      cases j.kind <;> exact ⟨_, _, _, rfl, rfl⟩
    obtain ⟨t, us, kind, htokens, hkind⟩ := hfirst
    have hall : (joinPhrase k).tokens j = t :: (us ++ (j.table.tokens ++
        j.on.elim [] fun e => .word "ON" :: e.tokens)) := by
      simp [joinPhrase, Join.tokens, htokens]
    exact ⟨t, _, kind, hall, hkind⟩
  exact hjoin.many (join_opens k _ _) hstep hhead (by decide)

/-- The tables and joins of a SELECT, its FROM read. -/
def Select.parseTables (levels : Nat) : TokenParser (List TableRef × List Join) := do
  let sources ← TokenParser.list TableRef.parse
  let joins ← loop JoinKind.ofToken?
    (fun joins k => do return joins ++ [← Join.parse levels k.1 k.2]) []
  return (sources, joins)

theorem from_faithful (k : Nat) :
    (fromPhrase k).Faithful (Select.parseFrom (k + 1)) wordsAfterFrom := by
  have hnoAlias : NoAlias (.symbol .comma :: (joinWords ++ wordsAfterFrom)) := by
    unfold NoAlias
    decide
  have htables := (tableRef_faithful (by decide) hnoAlias).list (by decide)
  have hparts : (tableRefPhrase.list.seq (joinPhrase k).many).Faithful
      (Select.parseTables (k + 1)) wordsAfterFrom :=
    htables.seq (joins_faithful k) (Phrase.many_opens (join_opens k _ _))
  have habsent : (tableRefPhrase.list.seq (joinPhrase k).many).Absence
      (fun y => y.1.isEmpty && y.2.isEmpty) ([], []) := by
    refine ⟨rfl, ?_, ?_⟩
    · rintro ⟨_ | ⟨y, ys⟩, _ | ⟨j, js⟩⟩ <;> rfl
    · rintro ⟨_ | ⟨y, ys⟩, _ | ⟨j, js⟩⟩ habsent <;> first | rfl | cases habsent
  have hfrom : (fromPhrase k).Faithful (do
      if ← takesWord "FROM" then
        if ← takesWord "DUAL" then return ([], []) else Select.parseTables (k + 1)
      else return ([], [])) wordsAfterFrom := by
    refine hparts.clauseOr habsent from_keyword (by decide) ?_ ?_
    · intro ts mid x hrun
      have hdual : ¬OpensWith "DUAL" ts := by
        obtain ⟨sources, ts₁, hsources, -⟩ := run_bind_eq_ok.mp hrun
        obtain ⟨source, ts₂, hsource, -⟩ := run_bind_eq_ok.mp hsources
        obtain ⟨u, rfl, hname⟩ := TableRef.opensName hsource
        exact (hname ts₂).not_opensWith (by decide)
      rw [run_bind_of_ok (run_takesWord_of_not_opens hdual)]
      exact hrun
    · intro ts mid x hrun
      obtain ⟨dual, ts₁, hword, h₁⟩ := run_bind_eq_ok.mp hrun
      rcases run_takesWord_eq_ok.mp hword with ⟨rfl, t, -, rfl⟩ | ⟨rfl, -, rfl⟩
      · cases h₁
        exact .inr ⟨rfl, [t], rfl⟩
      · exact .inl h₁
  have hparser : Select.parseFrom (k + 1) = do
      if ← takesWord "FROM" then
        if ← takesWord "DUAL" then return ([], []) else Select.parseTables (k + 1)
      else return ([], []) := by
    unfold Select.parseFrom Select.parseTables
    refine congrArg _ (funext fun b => ?_)
    cases b <;> rfl
  rw [hparser]
  exact hfrom

def forUpdateTokens (b : Bool) : List Token := if b then [.word "FOR", .word "UPDATE"] else []

def forUpdatePhrase : Phrase Bool where
  sql b := sqlFlag b " FOR UPDATE"
  tokens := forUpdateTokens
  normal := id
  Fit _ := True
  Readable _ := True

def Select.parseForUpdate : TokenParser Bool := do
  let forUpdate := (← after? "FOR" (needsWord "UPDATE")).isSome
  if ← seesWord "UNION" then fail (.unsupported .union)
  return forUpdate

theorem spells_forUpdate (b : Bool) {rest : List Char} (hrest : Token.EndsWord rest) :
    Spells (sqlFlag b " FOR UPDATE").toList (forUpdateTokens b) rest := by
  cases b with
  | true =>
    exact (Spells.space_keyword (by decide : isPlainWord "FOR".toList = true) Token.endsWord_space).append
      (Spells.space_keyword (by decide : isPlainWord "UPDATE".toList = true) hrest)
  | false => exact Spells.nil

theorem forUpdate_opens : forUpdatePhrase.Opens [.word "FOR"] [] where
  text {b rest} _ hrest := by
    cases b with
    | true =>
      exact .of_spells (spells_forUpdate true hrest.follows.endsWord) (by simp) (.space (by decide))
    | false => exact hrest.mono nofun
  tokens {b ws} _ _ hws := by
    cases b with
    | true => exact .cons (by simp) _
    | false => exact hws.mono nofun

theorem forUpdate_faithful : forUpdatePhrase.Faithful Select.parseForUpdate [] := by
  apply Phrase.Faithful.of_spelled
  · intro b rest _ hrest
    exact spells_forUpdate b hrest.follows.endsWord
  · rintro (_ | _) - <;> decide
  · rintro (_ | _) ws - hws
    · cases ws with
      | nil => rfl
      | cons t ws => exact absurd (hws t rfl) List.not_mem_nil
    · cases ws with
      | nil => rfl
      | cons t ws => exact absurd (hws t rfl) List.not_mem_nil
  · exact fun _ => trivial
  · intro ts x mid hrun
    unfold Select.parseForUpdate after? at hrun
    rw [then_assoc] at hrun
    obtain ⟨b, ts₁, hword, h₁⟩ := run_bind_eq_ok.mp hrun
    have hpure : ∀ {o : Option Unit} {ts : List Token}, (do
        if ← seesWord "UNION" then fail (.unsupported .union)
        return o.isSome : TokenParser Bool).run ts = .ok (x, mid) → x = o.isSome ∧ ts = mid := by
      intro o ts hrun
      obtain ⟨-, hrun⟩ := run_unless_word_eq_ok.mp hrun
      cases hrun
      exact ⟨rfl, rfl⟩
    rcases run_takesWord_eq_ok.mp hword with ⟨rfl, t, -, rfl⟩ | ⟨rfl, -, rfl⟩
    · simp only [if_true, then_assoc] at h₁
      obtain ⟨_, ts₂, hupdate, h₂⟩ := run_bind_eq_ok.mp h₁
      obtain ⟨t', -, rfl⟩ := run_needsWord_eq_ok.mp hupdate
      obtain ⟨rfl, rfl⟩ := hpure (o := some ()) h₂
      refine ⟨[t, t'], rfl, trivial, ?_⟩
      rintro _ vs ws - rfl - heq
      obtain ⟨rfl, htail⟩ := head_eq heq
      rw [(head_eq htail).1]
      rfl
    · obtain ⟨rfl, rfl⟩ := hpure (o := none) h₁
      refine ⟨[], rfl, trivial, ?_⟩
      rintro _ vs ws - rfl - -
      rfl

/-- The items of a SELECT, and whether they are distinct. The words DISTINCT and ALL in front of
them are never names of functions. -/
def selectionPhrase (k : Nat) : Phrase (Bool × List SelectItem) where
  sql y := sqlFlag y.1 "DISTINCT " ++ (selectItemPhrase k).list.sql y.2
  tokens y := flagTokens y.1 "DISTINCT" ++ (selectItemPhrase k).list.tokens y.2
  normal y := (y.1, (selectItemPhrase k).list.normal y.2)
  Fit y := (selectItemPhrase k).list.Fit y.2
  Readable y := (selectItemPhrase k).list.Readable y.2 ∧
    (y.1 = false → ¬OpensWith "DISTINCT" ((selectItemPhrase k).list.tokens y.2) ∧
      ¬OpensWith "ALL" ((selectItemPhrase k).list.tokens y.2))

def Select.parseSelection (levels : Nat) : TokenParser (Bool × List SelectItem) := do
  let distinct ← takesWord "DISTINCT"
  unless distinct do
    let _ ← takesWord "ALL"
  return (distinct, ← TokenParser.list (SelectItem.parse levels))

def wordsAfterItems : List Token := .word "FROM" :: wordsAfterFrom

theorem items_faithful (k : Nat) : (selectItemPhrase k).list.Faithful
    (TokenParser.list (SelectItem.parse (k + 1))) wordsAfterItems := by
  have hnoAlias : NoAlias (.symbol .comma :: wordsAfterItems) := by
    unfold NoAlias
    decide
  exact (selectItem_faithful k (by decide) hnoAlias).list (by decide)

/-- Items are read from some tokens. One that is read from a parenthesis on is printed with one in
front. -/
theorem sound_selectItem (k : Nat) : Sound (SelectItem.parse (k + 1)) fun x u => u ≠ [] ∧
    (u.head? = some (.symbol .leftParen) → ∃ e a, x = .expr e a ∧ e.sql.toList.head? = some '(') := by
  intro ts x mid hrun
  rcases selectItem_cases hrun with ⟨rfl, rfl⟩ | ⟨t, n, ht, rfl, rfl⟩ | ⟨e, a, rfl, hea⟩
  · exact ⟨[.symbol .star], rfl, by simp, by simp⟩
  · refine ⟨[t, .symbol .dot, .symbol .star], rfl, by simp, ?_⟩
    rintro ⟨⟩
    cases ht
  · obtain ⟨e', ts₁, he, h₁⟩ := run_bind_eq_ok.mp hea
    obtain ⟨a', ts₂, ha, hpure⟩ := run_bind_eq_ok.mp h₁
    cases hpure
    obtain ⟨u, rfl, hu⟩ := sound_parse k he
    obtain ⟨v, rfl, -⟩ := (alias_faithful (T := []) nofun).sound ha
    refine ⟨u ++ v, by simp, by simp [hu.ne_nil], fun hhead => ⟨e, a, rfl, hu.opens_paren ?_⟩⟩
    obtain ⟨t, us, rfl⟩ := List.exists_cons_of_ne_nil hu.ne_nil
    exact hhead

/-- The list of items, with the tokens of each. -/
theorem sound_items {k : Nat} {ts mid : List Token} {xs : List SelectItem}
    (hrun : (TokenParser.list (SelectItem.parse (k + 1))).run ts = .ok (xs, mid)) :
    ∃ (x : SelectItem) (xs' : List SelectItem) (u v : List Token), xs = x :: xs' ∧ u ≠ [] ∧
      ts = u ++ v ++ mid ∧
      (u.head? = some (.symbol .leftParen) →
        ∃ e a, x = .expr e a ∧ e.sql.toList.head? = some '(') := by
  obtain ⟨_, rfl, ps, hne, rfl, rfl, hps⟩ := (sound_selectItem k).list hrun
  obtain ⟨q, qs, rfl⟩ := List.exists_cons_of_ne_nil hne
  obtain ⟨hu, hparen⟩ := hps q (by simp)
  refine ⟨q.1, qs.map (·.1), q.2, (qs.map (·.2)).flatMap fun v => .symbol .comma :: v, rfl, hu,
    ?_, hparen⟩
  rw [List.map_cons, commaTokens_cons]

/-- What is printed with the word ALL in front is not read from behind it. -/
theorem items_ne_of_all {k : Nat} {ys : List SelectItem} (hfit : (selectItemPhrase k).list.Fit ys)
    {rest : List Char} (hrest : EndsTextAt wordsAfterItems rest)
    (htame : Tame (((selectItemPhrase k).list.sql ys).toList ++ rest)) {t : Token}
    {ts mid a : List Token} (ht : t.isKeyword "ALL" = true)
    (hrun : (TokenParser.list (SelectItem.parse (k + 1))).run (ts ++ mid) =
      .ok ((selectItemPhrase k).list.normal ys, mid)) :
    scan (((selectItemPhrase k).list.sql ys).toList ++ rest) ≠ .ok (t :: ts ++ a) := by
  intro hscan
  obtain ⟨x, xs, u, v, hxs, hne, htokens, hparen⟩ := sound_items hrun
  obtain rfl := List.append_cancel_right htokens
  obtain ⟨y, ys, rfl⟩ := List.exists_cons_of_ne_nil hfit.1
  obtain ⟨rfl, -⟩ := List.cons.inj hxs
  have hmore : ∃ more, ((selectItemPhrase k).list.sql (y :: ys)).toList ++ rest =
      y.sql.toList ++ more ∧ Follows more := by
    cases ys with
    | nil =>
      exact ⟨rest, by simp [Phrase.list, selectItemPhrase, commaSeparated], hrest.follows⟩
    | cons z zs =>
      refine ⟨',' :: ' ' :: ((commaSeparated ((z :: zs).map SelectItem.sql)).toList ++ rest), ?_,
        .comma⟩
      simp [Phrase.list, selectItemPhrase, commaSeparated, String.toList_intercalate]
  obtain ⟨more, htext, hmore⟩ := hmore
  rw [htext] at hscan htame
  cases y with
  | star =>
    have hstar : Spells ['*'] [.symbol .star] more := Spells.star
    exact hstar.scan_ne_keyword rfl ht hscan
  | tableStar n =>
    have hname : Spells (sqlName n).toList [.ofName n] ('.' :: ('*' :: more)) :=
      Spells.name n Token.endsWord_dot (by simp [Token.backquote])
    have htext : (SelectItem.tableStar n).sql.toList ++ more =
        (sqlName n).toList ++ '.' :: ('*' :: more) := by simp [SelectItem.sql]
    rw [htext] at hscan
    exact hname.scan_ne_keyword (isKeyword_of_name? (Token.name?_ofName n) (by decide)) ht hscan
  | expr e b =>
    have htext : (SelectItem.expr e b).sql.toList ++ more =
        e.sql.toList ++ ((sqlAlias b).toList ++ more) := by simp [SelectItem.sql]
    have hfollows : Follows ((sqlAlias b).toList ++ more) := by
      cases b with
      | none => exact hmore
      | some b =>
        have hspace := (EndsTextAt.space_keyword (T := [.word "AS"]) (by decide : isPlainWord "AS".toList = true)
          (by simp) ((sqlName b).toList ++ more)).follows
        simpa [sqlAlias] using hspace
    rw [htext] at hscan htame
    have hwritten : e.Written k := hfit.2 (.expr e b) List.mem_cons_self
    have hopen := hwritten.lexed.leading_all hfollows htame hscan ht
    have hhead : u.head? = some (.symbol .leftParen) := by
      obtain ⟨t', us, rfl⟩ := List.exists_cons_of_ne_nil hne
      exact hopen
    obtain ⟨e', a', hx, hopened⟩ := hparen hhead
    cases hx
    rw [Expr.normal_sql] at hopened
    obtain ⟨cs, hcs⟩ := List.head?_eq_some_iff.mp hopened
    rw [hcs] at hscan
    have hparens : Spells ['('] [.symbol .leftParen] (cs ++ ((sqlAlias b).toList ++ more)) :=
      Spells.leftParen
    exact hparens.scan_ne_keyword rfl ht hscan

theorem selection_faithful (k : Nat) :
    (selectionPhrase k).Faithful (Select.parseSelection (k + 1)) wordsAfterItems := by
  have hitems := items_faithful k
  have hsql : ∀ (y : Bool × List SelectItem) (rest : List Char),
      ((selectionPhrase k).sql y).toList ++ rest = (sqlFlag y.1 "DISTINCT ").toList ++
        (((selectItemPhrase k).list.sql y.2).toList ++ rest) := by
    intro y rest
    simp [selectionPhrase]
  have hdistinct : ∀ (b : Bool) (rest : List Char),
      Spells (sqlFlag b "DISTINCT ").toList (flagTokens b "DISTINCT") rest := fun b _ =>
    Spells.flag_space (by decide : isPlainWord "DISTINCT".toList = true) (by decide) b
  refine ⟨?_, ?_, ?_, ?_⟩
  · intro y rest hfit hread hrest
    have hall := (hdistinct y.1 _).append (hitems.spells hfit hread.1 hrest)
    simpa [selectionPhrase] using hall
  · rintro ⟨_ | _, ys⟩ hfit hread
    · exact hitems.plain hfit hread.1
    · simpa [selectionPhrase, flagTokens] using hitems.plain hfit hread.1
  · rintro ⟨b, ys⟩ ws hfit hread hws
    have hrun := hitems.reads hfit hread.1 hws
    have hne : (selectItemPhrase k).list.tokens ys ≠ [] := by
      obtain ⟨x, xs, u, v, -, hne, htokens, -⟩ := sound_items hrun
      rw [List.append_cancel_right htokens]
      simp [hne]
    unfold Select.parseSelection
    cases b with
    | true =>
      have hword : OpensWith "DISTINCT" (.word "DISTINCT" ::
          ((selectItemPhrase k).list.tokens ys ++ ws)) := (opensWith_cons _ _ _).mpr (by decide)
      refine (run_bind_of_ok (run_takesWord_of_opens hword)).trans ?_
      exact run_bind_of_ok hrun
    | false =>
      obtain ⟨hdist, hall⟩ := hread.2 rfl
      rw [← opensWith_append hne ws] at hdist hall
      refine (run_bind_of_ok (run_takesWord_of_not_opens hdist)).trans ?_
      refine (run_bind_of_ok (run_takesWord_of_not_opens hall)).trans ?_
      exact run_bind_of_ok hrun
  · intro ts x mid hrun
    unfold Select.parseSelection at hrun
    obtain ⟨b, ts₁, hword, h₁⟩ := run_bind_eq_ok.mp hrun
    rcases run_takesWord_eq_ok.mp hword with ⟨rfl, t, ht, rfl⟩ | ⟨rfl, hnot, rfl⟩
    · obtain ⟨xs, ts₂, hxs, hpure⟩ := run_bind_eq_ok.mp h₁
      cases hpure
      obtain ⟨u, rfl, hfit, hecho⟩ := hitems.sound hxs
      refine ⟨t :: u, rfl, fun hscanned => hfit fun t ht => hscanned t (by simp [ht]), ?_⟩
      rintro ⟨b, ys⟩ rest a hfity hy hrest htame hscan
      obtain ⟨rfl, rfl⟩ := Prod.mk.inj hy
      rw [hsql] at htame hscan
      obtain ⟨ws, hws, heq⟩ := (hdistinct true _).rest_of_ok hscan
      cases heq
      obtain ⟨hread, rfl, hend⟩ := hecho hfity rfl hrest htame.of_append hws
      exact ⟨⟨hread, by simp⟩, rfl, hend⟩
    · simp only [Bool.false_eq_true, if_false] at h₁
      obtain ⟨all, ts₂, hword, h₂⟩ := run_bind_eq_ok.mp h₁
      obtain ⟨xs, ts₃, hxs, hpure⟩ := run_bind_eq_ok.mp h₂
      cases hpure
      obtain ⟨u, rfl, hfit, hecho⟩ := hitems.sound hxs
      have hne : u ≠ [] := by
        obtain ⟨x, xs, u', v, -, hne, htokens, -⟩ := sound_items hxs
        rw [List.append_cancel_right htokens]
        simp [hne]
      rcases run_takesWord_eq_ok.mp hword with ⟨rfl, t, ht, rfl⟩ | ⟨rfl, hnotAll, rfl⟩
      · refine ⟨t :: u, rfl, fun hscanned => hfit fun t ht => hscanned t (by simp [ht]), ?_⟩
        rintro ⟨b, ys⟩ rest a hfity hy hrest htame hscan
        obtain ⟨rfl, rfl⟩ := Prod.mk.inj hy
        exact absurd hscan (items_ne_of_all hfity hrest htame ht hxs)
      · refine ⟨u, rfl, hfit, ?_⟩
        rintro ⟨b, ys⟩ rest a hfity hy hrest htame hscan
        obtain ⟨rfl, rfl⟩ := Prod.mk.inj hy
        rw [opensWith_append hne] at hnot hnotAll
        obtain ⟨hread, rfl, hend⟩ := hecho hfity rfl hrest htame hscan
        exact ⟨⟨hread, fun _ => ⟨hnot, hnotAll⟩⟩, rfl, hend⟩

namespace Select

/-- A SELECT with the names of its functions in capitals. -/
def normal (s : Select) : Select :=
  { s with
    items := s.items.map SelectItem.normal
    joins := s.joins.map Join.normal
    condition := s.condition.map Expr.normal
    groupBy := s.groupBy.map Expr.normal
    having := s.having.map Expr.normal
    orderBy := s.orderBy.map OrderItem.normal }

/-- A SELECT of expressions that are read from scanned tokens. -/
structure Written (k : Nat) (s : Select) : Prop where
  nonempty : s.items ≠ []
  items : ∀ i ∈ s.items, i.Written k
  sources : s.sources = [] → s.joins = []
  joins : ∀ j ∈ s.joins, ∀ e ∈ j.on, e.Written k
  condition : ∀ e ∈ s.condition, e.Written k
  groupBy : ∀ e ∈ s.groupBy, e.Written k
  having : ∀ e ∈ s.having, e.Written k
  orderBy : ∀ o ∈ s.orderBy, o.expr.Written k

/-- Whether a SELECT is read again from its text: its expressions are, and its items do not start
with a function that is named like one of the keywords that may stand in front of them. -/
structure Legible (s : Select) : Prop where
  items : ∀ i ∈ s.items, i.Legible
  opening : s.distinct = false →
    ¬OpensWith "DISTINCT" (commaTokens (s.items.map SelectItem.tokens)) ∧
      ¬OpensWith "ALL" (commaTokens (s.items.map SelectItem.tokens))
  joins : ∀ j ∈ s.joins, ∀ e ∈ j.on, e.Legible
  condition : ∀ e ∈ s.condition, e.Legible
  groupBy : ∀ e ∈ s.groupBy, e.Legible
  having : ∀ e ∈ s.having, e.Legible
  orderBy : ∀ o ∈ s.orderBy, o.expr.Legible

end Select

/-- The parts of a SELECT in their order. -/
def selectParts (k : Nat) : Phrase ((Bool × List SelectItem) × (List TableRef × List Join) ×
    Option Expr × List Expr × Option Expr × List OrderItem × Option Limit × Bool) :=
  ((selectionPhrase k).seq ((fromPhrase k).seq
    (((exprPhrase k).optional " WHERE " "WHERE").seq
    (((exprPhrase k).optionalList " GROUP BY " "GROUP" [.word "BY"]).seq
    (((exprPhrase k).optional " HAVING " "HAVING").seq
    (((orderItemPhrase k).optionalList " ORDER BY " "ORDER" [.word "BY"]).seq
    ((limitPhrase.optional " LIMIT " "LIMIT").seq forUpdatePhrase))))))).after
      "SELECT " [.word "SELECT"]

theorem marks_by : Marks "BY ".toList [.word "BY"] (needsWord "BY") :=
  Marks.keyword (by decide : isPlainWord "BY".toList = true) (by decide)

theorem selectParts_faithful (k : Nat) : ∃ p : TokenParser _, (selectParts k).Faithful p [] ∧
    p = do
      needsWord "SELECT"
      let selection ← Select.parseSelection (k + 1)
      let tables ← Select.parseFrom (k + 1)
      let condition ← after? "WHERE" (Expr.parse (k + 1))
      let groupBy ← listAfter "GROUP" "BY" (Expr.parse (k + 1))
      let having ← after? "HAVING" (Expr.parse (k + 1))
      let orderBy ← listAfter "ORDER" "BY" (OrderItem.parse (k + 1))
      let limit ← after? "LIMIT" Limit.parse
      let forUpdate ← Select.parseForUpdate
      return (selection, tables, condition, groupBy, having, orderBy, limit, forUpdate) := by
  have hgroup : Phrase.KeywordText " GROUP " "GROUP" := ⟨by decide, by decide, by decide⟩
  have hhaving : Phrase.KeywordText " HAVING " "HAVING" := ⟨by decide, by decide, by decide⟩
  have horder : Phrase.KeywordText " ORDER " "ORDER" := ⟨by decide, by decide, by decide⟩
  have hselect : Marks "SELECT ".toList [.word "SELECT"] (needsWord "SELECT") :=
    Marks.keyword (by decide : isPlainWord "SELECT".toList = true) (by decide)
  have hgroupText : " GROUP BY " = " GROUP " ++ "BY " := rfl
  have horderText : " ORDER BY " = " ORDER " ++ "BY " := rfl
  -- from the last clause to the first, each with what may follow it
  have h₇ := ((limit_faithful (T := [.word "FOR"]) (by decide) (by decide)).optional limit_keyword
    (by decide)).seq forUpdate_faithful forUpdate_opens
  have o₇ := (Phrase.optional_opens (F := limitPhrase) (T := [.word "FOR"]) limit_keyword).seq
    forUpdate_opens
  have h₆ := ((orderItem_faithful k (by decide) (by decide) (by decide)).optionalList (by decide)
    horderText horder marks_by (by decide)).seq h₇ o₇
  have o₆ := ((orderItemPhrase k).optionalList_opens [.word "BY"] horderText horder).seq o₇
  have h₅ := ((expr_faithful k (by decide)).optional hhaving (by decide)).seq h₆ o₆
  have o₅ := (Phrase.optional_opens (F := exprPhrase k) hhaving).seq o₆
  have h₄ := ((expr_faithful k (by decide)).optionalList (by decide)
    hgroupText hgroup marks_by (by decide)).seq h₅ o₅
  have o₄ := ((exprPhrase k).optionalList_opens [.word "BY"] hgroupText hgroup).seq o₅
  have h₃ := ((expr_faithful k (by decide)).optional where_keyword (by decide)).seq h₄ o₄
  have o₃ := (Phrase.optional_opens (F := exprPhrase k) where_keyword).seq o₄
  have h₂ := (from_faithful k).seq h₃ o₃
  have h₁ := (selection_faithful k).seq h₂ ((from_opens k _).seq o₃)
  refine ⟨_, h₁.after hselect, ?_⟩
  unfold listAfter
  simp only [then_assoc, pure_then]

/-- A SELECT as its parts. -/
def Select.parts (s : Select) : (Bool × List SelectItem) × (List TableRef × List Join) ×
    Option Expr × List Expr × Option Expr × List OrderItem × Option Limit × Bool :=
  ((s.distinct, s.items), (s.sources, s.joins), s.condition, s.groupBy, s.having, s.orderBy,
    s.limit, s.forUpdate)

def selectPhrase (k : Nat) : Phrase Select where
  sql := Select.sql
  tokens s := (selectParts k).tokens s.parts
  normal := Select.normal
  Fit := Select.Written k
  Readable := Select.Legible

theorem Select.parse_eq (levels : Nat) : Select.parse levels = do
    needsWord "SELECT"
    let selection ← Select.parseSelection levels
    let tables ← Select.parseFrom levels
    let condition ← after? "WHERE" (Expr.parse levels)
    let groupBy ← listAfter "GROUP" "BY" (Expr.parse levels)
    let having ← after? "HAVING" (Expr.parse levels)
    let orderBy ← listAfter "ORDER" "BY" (OrderItem.parse levels)
    let limit ← after? "LIMIT" Limit.parse
    let forUpdate ← Select.parseForUpdate
    return ⟨selection.1, selection.2, tables.1, tables.2, condition, groupBy, having, orderBy,
      limit, forUpdate⟩ := by
  unfold Select.parse Select.parseSelection Select.parseForUpdate
  refine congrArg _ (funext fun _ => ?_)
  simp only [then_assoc, pure_then, ite_then]

theorem from_fit (k : Nat) (sources : List TableRef) (joins : List Join) :
    (fromPhrase k).Fit (sources, joins) ↔
      (sources = [] → joins = []) ∧ ∀ j ∈ joins, ∀ e ∈ j.on, e.Written k := by
  cases sources <;> cases joins <;>
    simp [fromPhrase, Phrase.clause, Phrase.seq, Phrase.list, Phrase.many, tableRefPhrase,
      joinPhrase]

theorem from_readable (k : Nat) (sources : List TableRef) (joins : List Join) :
    (fromPhrase k).Readable (sources, joins) ↔ ∀ j ∈ joins, ∀ e ∈ j.on, e.Legible := by
  cases sources <;> cases joins <;>
    simp [fromPhrase, Phrase.clause, Phrase.seq, Phrase.list, Phrase.many, tableRefPhrase,
      joinPhrase]

theorem select_matches (k : Nat) : (selectPhrase k).Matches (selectParts k) Select.parts
    (fun s => ⟨s.1.1, s.1.2, s.2.1.1, s.2.1.2, s.2.2.1, s.2.2.2.1, s.2.2.2.2.1, s.2.2.2.2.2.1,
      s.2.2.2.2.2.2.1, s.2.2.2.2.2.2.2⟩) where
  sql := by
    intro s hs
    have hfrom : (fromPhrase k).sql (s.sources, s.joins) =
        sqlListClause " FROM " (s.sources.map TableRef.sql) ++
          String.join (s.joins.map Join.sql) := by
      cases hsources : s.sources with
      | nil => simp [fromPhrase, Phrase.clause, hs.sources hsources, sqlListClause]
      | cons x xs =>
        simp [fromPhrase, Phrase.clause, Phrase.seq, Phrase.list, Phrase.many, tableRefPhrase,
          joinPhrase, sqlListClause, String.append_assoc]
    have hparts : (selectParts k).sql s.parts = "SELECT " ++
        ((sqlFlag s.distinct "DISTINCT " ++ commaSeparated (s.items.map SelectItem.sql)) ++
        ((fromPhrase k).sql (s.sources, s.joins) ++
        (sqlClause " WHERE " (s.condition.map Expr.sql) ++
        (sqlListClause " GROUP BY " (s.groupBy.map Expr.sql) ++
        (sqlClause " HAVING " (s.having.map Expr.sql) ++
        (sqlListClause " ORDER BY " (s.orderBy.map OrderItem.sql) ++
        (sqlClause " LIMIT " (s.limit.map Limit.sql) ++
        sqlFlag s.forUpdate " FOR UPDATE"))))))) := rfl
    rw [hparts, hfrom, show (selectPhrase k).sql s = s.sql from rfl]
    delta Select.sql
    simp only [String.append_assoc]
  normal := by
    intro s
    simp [selectPhrase, selectParts, Select.parts, Phrase.after, Phrase.seq, Select.normal,
      selectionPhrase, fromPhrase, Phrase.clause, Phrase.list, Phrase.many, Phrase.optional,
      Phrase.optionalList, selectItemPhrase, exprPhrase, orderItemPhrase, limitPhrase,
      forUpdatePhrase, tableRefPhrase, joinPhrase]
  fit := by
    intro s
    constructor
    · intro h
      exact ⟨⟨h.nonempty, h.items⟩, (from_fit k _ _).mpr ⟨h.sources, h.joins⟩, h.condition,
        h.groupBy, h.having, h.orderBy, fun _ _ => trivial, trivial⟩
    · rintro ⟨⟨hne, hitems⟩, hfrom, hcondition, hgroupBy, hhaving, horderBy, -, -⟩
      obtain ⟨hsources, hjoins⟩ := (from_fit k _ _).mp hfrom
      exact ⟨hne, hitems, hsources, hjoins, hcondition, hgroupBy, hhaving, horderBy⟩
  readable := by
    intro s
    constructor
    · intro h
      exact ⟨⟨h.items, h.opening⟩, (from_readable k _ _).mpr h.joins, h.condition, h.groupBy,
        h.having, h.orderBy, fun _ _ => trivial, trivial⟩
    · rintro ⟨⟨hitems, hopening⟩, hfrom, hcondition, hgroupBy, hhaving, horderBy, -, -⟩
      exact ⟨hitems, hopening, (from_readable k _ _).mp hfrom, hcondition, hgroupBy, hhaving,
        horderBy⟩

theorem select_faithful (k : Nat) :
    (selectPhrase k).Faithful (Select.parse (k + 1)) [] := by
  obtain ⟨p, hparts, rfl⟩ := selectParts_faithful k
  rw [Select.parse_eq]
  have hall := hparts.via (select_matches k)
  simpa only [then_assoc, pure_then] using hall

/-- A SELECT of one value. -/
def Select.ofExpr (e : Expr) : Select where
  distinct := false
  items := [.expr e none]
  sources := []
  joins := []
  condition := none
  groupBy := []
  having := none
  orderBy := []
  limit := none
  forUpdate := false

namespace Select

variable {k : Nat} {e : Expr}

theorem written_ofExpr (h : e.Written k) : (ofExpr e).Written k := by
  constructor <;> simp [ofExpr, SelectItem.Written, h]

theorem legible_ofExpr (h : e.Legible) (hdistinct : ¬OpensWith "DISTINCT" e.tokens)
    (hall : ¬OpensWith "ALL" e.tokens) : (ofExpr e).Legible := by
  constructor <;>
    simp [ofExpr, SelectItem.Legible, SelectItem.tokens, aliasTokens, commaTokens, h, hdistinct, hall]

end Select

end ShardedSql.Sql
