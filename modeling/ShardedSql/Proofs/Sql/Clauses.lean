import ShardedSql.Proofs.Sql.Written
import ShardedSql.Sql.Statement.Print

namespace ShardedSql.Sql

open TokenParser
open Token (isPlainWord scan)

theorem head_eq {α : Type} {a b : α} {as bs cs ds : List α} (h : a :: as ++ cs = b :: bs ++ ds) :
    a = b ∧ as ++ cs = bs ++ ds := List.cons.inj h

def namePhrase : Phrase String where
  sql := sqlName
  tokens n := [.ofName n]
  normal := id
  Fit _ := True
  Readable _ := True

theorem ofName_ne_symbol (n : String) (s : Symbol) : .symbol s ≠ Token.ofName n :=
  ne_of_part? (Token.part?_ofName n) s

theorem name_faithful (T : List Token) : namePhrase.Faithful name T := by
  apply Phrase.Faithful.of_spelled
  · intro n rest _ hrest
    exact Spells.name n hrest.follows.endsWord (hrest.follows.head_ne (by decide))
  · intro n _
    simpa [namePhrase] using ofName_ne_symbol n _
  · intro n ws _ _
    exact Token.run_name_ofName n _
  · exact fun _ => trivial
  · intro ts n mid hrun
    obtain ⟨t, ht, rfl⟩ := run_name_eq_ok.mp hrun
    refine ⟨[t], rfl, trivial, ?_⟩
    rintro m vs ws - - - heq
    rw [(head_eq heq).1]
    rfl

/-- A name behind the name of what it belongs to, if that is there. -/
def namesPhrase : Phrase (Option String × String) where
  sql n := sqlQualified n.1 n.2
  tokens n := nameTokens n.1 n.2
  normal := id
  Fit _ := True
  Readable _ := True

theorem names_faithful {T : List Token} (hT : .symbol .dot ∉ T) :
    namesPhrase.Faithful qualifiedName T := by
  apply Phrase.Faithful.of_spelled
  · intro n rest _ hrest
    exact Spells.names n.1 n.2 hrest.follows
  · rintro ⟨_ | q, n⟩ -
    · simpa [namesPhrase, nameTokens] using ofName_ne_symbol n _
    · simpa [namesPhrase, nameTokens] using ⟨ofName_ne_symbol q _, ofName_ne_symbol n _⟩
  · rintro ⟨q, n⟩ ws - hws
    unfold qualifiedName
    cases q with
    | none =>
      have hname : name.run (.ofName n :: ws) = .ok (n, ws) := Token.run_name_ofName n ws
      simp only [namesPhrase, nameTokens, List.cons_append, List.nil_append]
      rw [run_bind_of_ok hname, run_bind_of_ok (run_takesSymbol_of_ne (hws.head_ne hT))]
      rfl
    | some q =>
      have hname : name.run (.ofName q :: .symbol .dot :: .ofName n :: ws) = .ok (q, _) :=
        Token.run_name_ofName q _
      have hpart : nameAfterDot.run (.ofName n :: ws) = .ok (n, ws) :=
        run_nameAfterDot_eq_ok.mpr ⟨_, Token.part?_ofName n, rfl⟩
      simp only [namesPhrase, nameTokens, List.cons_append, List.nil_append]
      rw [run_bind_of_ok hname, run_bind_of_ok (run_takesSymbol_cons _)]
      simp only [if_true]
      rw [run_bind_of_ok hpart]
      rfl
  · exact fun _ => trivial
  · intro ts x mid hrun
    unfold qualifiedName at hrun
    obtain ⟨first, ts₁, hfirst, h₁⟩ := run_bind_eq_ok.mp hrun
    obtain ⟨dot, ts₂, hdot, h₂⟩ := run_bind_eq_ok.mp h₁
    obtain ⟨t, -, rfl⟩ := run_name_eq_ok.mp hfirst
    rcases run_takesSymbol_eq_ok.mp hdot with ⟨rfl, rfl⟩ | ⟨rfl, -, rfl⟩
    · obtain ⟨n, ts₃, hn, hpure⟩ := run_bind_eq_ok.mp h₂
      cases hpure
      obtain ⟨t', -, rfl⟩ := run_nameAfterDot_eq_ok.mp hn
      refine ⟨[t, .symbol .dot, t'], rfl, trivial, ?_⟩
      rintro _ vs ws - rfl - heq
      simp only [namesPhrase, nameTokens, List.cons_append, List.cons.injEq] at heq ⊢
      exact ⟨heq.1, trivial, heq.2.2.1, trivial⟩
    · cases h₂
      refine ⟨[t], rfl, trivial, ?_⟩
      rintro _ vs ws - rfl - heq
      rw [(head_eq heq).1]
      rfl

def tableNamePhrase : Phrase TableName where
  sql := TableName.sql
  tokens t := nameTokens t.schema t.name
  normal := id
  Fit _ := True
  Readable _ := True

theorem tableName_faithful {T : List Token} (hT : .symbol .dot ∉ T) :
    tableNamePhrase.Faithful TableName.parse T :=
  (names_faithful hT).via (f := fun t : TableName => (t.schema, t.name))
    (g := fun n => ⟨n.1, n.2⟩) {}

def columnNamePhrase : Phrase ColumnName where
  sql := ColumnName.sql
  tokens c := nameTokens c.table c.name
  normal := id
  Fit _ := True
  Readable _ := True

theorem columnName_faithful {T : List Token} (hT : .symbol .dot ∉ T) :
    columnNamePhrase.Faithful ColumnName.parse T :=
  (names_faithful hT).via (f := fun c : ColumnName => (c.table, c.name))
    (g := fun n => ⟨n.1, n.2⟩) {}

/-- Whether tokens start with a name. -/
def OpensName (ts : List Token) : Prop := ∃ t ∈ ts.head?, ∃ n, t.name? = some n

theorem TableName.opensName : Sound TableName.parse fun _ u => ∀ a, OpensName (u ++ a) := by
  intro ts x mid hrun
  obtain ⟨u, hu, -⟩ := (tableName_faithful (T := []) List.not_mem_nil).sound hrun
  simp only [TableName.parse, qualifiedName, then_assoc] at hrun
  obtain ⟨n, ts₁, hname, h₁⟩ := run_bind_eq_ok.mp hrun
  obtain ⟨t, ht, rfl⟩ := run_name_eq_ok.mp hname
  have hshort : mid.length ≤ ts₁.length := TokenParser.shrinks _ h₁
  cases u with
  | nil =>
    have hlength := congrArg List.length hu
    simp only [List.length_cons, List.nil_append] at hlength
    omega
  | cons t' u =>
    obtain ⟨rfl, -⟩ := List.cons.inj hu
    exact ⟨t :: u, hu, fun _ => ⟨t, rfl, n, ht⟩⟩

theorem isKeyword_of_name? {t : Token} {n kw : String} (h : t.name? = some n)
    (hkw : reservedWords.contains kw = true) : t.isKeyword kw = false := by
  cases t with
  | word w =>
    simp only [Token.name?] at h
    split at h
    · cases h
    · next hw =>
      apply Bool.eq_false_iff.mpr
      intro hupper
      rw [isReserved, eq_of_beq hupper] at hw
      exact hw hkw
  | _ => rfl

theorem OpensName.not_opensWith {ts : List Token} (h : OpensName ts) {kw : String}
    (hkw : reservedWords.contains kw = true) : ¬OpensWith kw ts := by
  obtain ⟨t, ht, n, hn⟩ := h
  obtain ⟨us, rfl⟩ := List.head?_eq_some_iff.mp ht
  rw [opensWith_cons, isKeyword_of_name? hn hkw]
  exact Bool.false_ne_true

theorem OpensName.head_ne {ts : List Token} (h : OpensName ts) (s : Symbol) :
    ts.head? ≠ some (.symbol s) := by
  obtain ⟨t, ht, n, hn⟩ := h
  rw [show ts.head? = some t from ht]
  rintro ⟨⟩
  cases hn

def aliasTokens : Option String → List Token
  | none => []
  | some a => [.word "AS", .ofName a]

def aliasPhrase : Phrase (Option String) where
  sql := sqlAlias
  tokens := aliasTokens
  normal := id
  Fit _ := True
  Readable _ := True

theorem alias_opens (T : List Token) : aliasPhrase.Opens (.word "AS" :: T) T where
  text {a rest} _ hrest := by
    cases a with
    | none => exact hrest.mono fun _ ht => List.mem_cons_of_mem _ ht
    | some a =>
      have hspace := EndsTextAt.space_keyword (by decide : isPlainWord "AS".toList = true)
        (List.mem_cons_self : .word "AS" ∈ .word "AS" :: T) ((sqlName a).toList ++ rest)
      simpa [aliasPhrase, sqlAlias] using hspace
  tokens {a ws} _ _ hws := by
    cases a with
    | none => exact hws.mono fun _ ht => List.mem_cons_of_mem _ ht
    | some a => exact .cons List.mem_cons_self _

/-- Whether no token that may follow is read as an alias. -/
def NoAlias (T : List Token) : Prop :=
  ∀ t ∈ T, t.isKeyword "AS" = false ∧ t.name? = none

/-- An alias stands behind AS, or on its own if it is a name. -/
theorem run_aliasName?_eq_ok {a : Option String} {ts mid : List Token} :
    aliasName?.run ts = .ok (a, mid) ↔
      (∃ t t' n, t.isKeyword "AS" = true ∧ (t' = .word n ∨ t' = .quoted n ∨ t' = .str n) ∧
        ts = t :: t' :: mid ∧ a = some n) ∨
      (¬OpensWith "AS" ts ∧ ∃ t n, t.name? = some n ∧ ts = t :: mid ∧ a = some n) ∨
      (¬OpensWith "AS" ts ∧ ts.head?.bind Token.name? = none ∧ ts = mid ∧ a = none) := by
  unfold aliasName?
  constructor
  · intro hrun
    obtain ⟨has, ts₁, hword, h₁⟩ := run_bind_eq_ok.mp hrun
    rcases run_takesWord_eq_ok.mp hword with ⟨rfl, t, ht, rfl⟩ | ⟨rfl, hnot, rfl⟩
    · simp only [if_true, run_next_bind] at h₁
      cases ts₁ with
      | nil => cases h₁
      | cons t' ts₁ =>
        cases t' with
        | word n | quoted n | str n =>
          cases h₁
          exact .inl ⟨t, _, n, ht, by simp, rfl, rfl⟩
        | _ => cases h₁
    · simp only [Bool.false_eq_true, if_false, run_ahead_bind] at h₁
      cases hname : ts.head?.bind Token.name? with
      | none =>
        rw [hname] at h₁
        cases h₁
        exact .inr (.inr ⟨hnot, rfl, rfl, rfl⟩)
      | some n =>
        rw [hname] at h₁
        cases h₁
        obtain ⟨t, ht, hn⟩ := Option.bind_eq_some_iff.mp hname
        obtain ⟨us, rfl⟩ := List.head?_eq_some_iff.mp ht
        exact .inr (.inl ⟨hnot, t, n, hn, rfl, rfl⟩)
  · rintro (⟨t, t', n, ht, hn, rfl, rfl⟩ | ⟨hnot, t, n, ht, rfl, rfl⟩ | ⟨hnot, hnone, rfl, rfl⟩)
    · rw [run_bind_of_ok (run_takesWord_of_opens ((opensWith_cons _ _ _).mpr ht))]
      rcases hn with rfl | rfl | rfl <;> rfl
    · rw [run_bind_of_ok (run_takesWord_of_not_opens hnot)]
      simp [ht]
    · rw [run_bind_of_ok (run_takesWord_of_not_opens hnot)]
      simp [hnone]

theorem alias_faithful {T : List Token} (hT : NoAlias T) : aliasPhrase.Faithful aliasName? T := by
  apply Phrase.Faithful.of_spelled
  · intro a rest _ hrest
    cases a with
    | none => exact Spells.nil
    | some a =>
      have hall := (Spells.spaced (by decide : isPlainWord "AS".toList = true)).append
        (Spells.name a hrest.follows.endsWord (hrest.follows.head_ne (by decide)))
      simpa [aliasPhrase, sqlAlias, aliasTokens] using hall
  · rintro (_ | a) -
    · exact List.not_mem_nil
    · simpa [aliasPhrase, aliasTokens] using ofName_ne_symbol a _
  · rintro (_ | a) ws - hws
    · have has : ¬OpensWith "AS" ws := hws.not_opensWith fun t ht => (hT t ht).1
      have hnone : ws.head?.bind Token.name? = none := by
        cases ws with
        | nil => rfl
        | cons t ws => exact (hT t (hws t rfl)).2
      exact run_aliasName?_eq_ok.mpr (.inr (.inr ⟨has, hnone, rfl, rfl⟩))
    · have hname : Token.ofName a = .word a ∨ Token.ofName a = .quoted a ∨
          Token.ofName a = .str a := by
        unfold Token.ofName
        split <;> simp
      exact run_aliasName?_eq_ok.mpr (.inl ⟨.word "AS", _, a, by decide, hname, rfl, rfl⟩)
  · exact fun _ => trivial
  · intro ts x mid hrun
    rcases run_aliasName?_eq_ok.mp hrun with
      ⟨t, t', a, -, -, rfl, rfl⟩ | ⟨-, t, a, hname, rfl, rfl⟩ | ⟨-, -, rfl, rfl⟩
    · refine ⟨[t, t'], rfl, trivial, ?_⟩
      rintro _ vs ws - rfl - heq
      simp only [aliasPhrase, aliasTokens, List.cons_append, List.nil_append, List.cons.injEq]
        at heq ⊢
      exact ⟨heq.1, heq.2.1, trivial⟩
    · -- An alias is printed behind AS, which is no name.
      refine ⟨[t], rfl, trivial, ?_⟩
      rintro _ vs ws - rfl - heq
      rw [(head_eq heq).1] at hname
      cases hname
    · refine ⟨[], rfl, trivial, ?_⟩
      rintro _ vs ws - rfl - -
      rfl

def TableRef.tokens (t : TableRef) : List Token :=
  nameTokens t.table.schema t.table.name ++ aliasTokens t.aliasName

def tableRefPhrase : Phrase TableRef where
  sql := TableRef.sql
  tokens := TableRef.tokens
  normal := id
  Fit _ := True
  Readable _ := True

theorem tableRef_faithful {T : List Token} (hdot : .symbol .dot ∉ T) (hT : NoAlias T) :
    tableRefPhrase.Faithful TableRef.parse T := by
  have hparts : tableRefPhrase.Faithful _ T :=
    ((tableName_faithful (by simpa using hdot)).seq (alias_faithful hT) (alias_opens T)).via
      (f := fun t : TableRef => (t.table, t.aliasName)) (g := fun t => ⟨t.1, t.2⟩)
      { fit := by simp [tableRefPhrase, Phrase.seq, tableNamePhrase, aliasPhrase]
        readable := by simp [tableRefPhrase, Phrase.seq, tableNamePhrase, aliasPhrase] }
  apply hparts.guarded
  · intro ts mid x hrun
    unfold TableRef.parse at hrun
    obtain ⟨-, hrun⟩ := run_unless_symbol_eq_ok.mp hrun
    simpa only [then_assoc, pure_then] using hrun
  · intro ts mid x _ hrun
    have hhead : ts.head? ≠ some (.symbol .leftParen) := by
      simp only [then_assoc] at hrun
      obtain ⟨table, ts₁, htable, -⟩ := run_bind_eq_ok.mp hrun
      obtain ⟨u, rfl, hname⟩ := TableName.opensName htable
      exact (hname ts₁).head_ne _
    unfold TableRef.parse
    exact run_unless_symbol_eq_ok.mpr ⟨hhead, by simpa only [then_assoc, pure_then] using hrun⟩

theorem TableRef.opensName : Sound TableRef.parse fun _ u => ∀ a, OpensName (u ++ a) := by
  intro ts x mid hrun
  unfold TableRef.parse at hrun
  obtain ⟨-, hrun⟩ := run_unless_symbol_eq_ok.mp hrun
  obtain ⟨table, ts₁, htable, h₁⟩ := run_bind_eq_ok.mp hrun
  obtain ⟨a, ts₂, halias, hpure⟩ := run_bind_eq_ok.mp h₁
  cases hpure
  obtain ⟨u, rfl, hname⟩ := TableName.opensName htable
  obtain ⟨v, rfl, -⟩ := (alias_faithful (T := []) nofun).sound halias
  refine ⟨u ++ v, by simp, fun a => ?_⟩
  rw [List.append_assoc]
  exact hname (v ++ a)

def unsignedPhrase : Phrase UInt64 where
  sql := sqlUnsigned
  tokens n := [.number (Text.decimal n.toNat)]
  normal := id
  Fit _ := True
  Readable _ := True

theorem run_unsigned_eq_ok {n : UInt64} {ts mid : List Token} :
    unsigned.run ts = .ok (n, mid) ↔
      ∃ text, Text.readUInt64? text = some n ∧ ts = .number text :: mid := by
  unfold unsigned
  rw [run_next_bind]
  cases ts with
  | nil => simp
  | cons t ts =>
    cases t with
    | number text =>
      simp only [List.head?_cons, List.tail_cons, List.cons.injEq, Token.number.injEq]
      constructor
      · intro hrun
        split at hrun
        · cases hrun
          exact ⟨text, by assumption, rfl, rfl⟩
        · cases hrun
      · rintro ⟨_, htext, rfl, rfl⟩
        rw [htext]
        rfl
    | _ => simp

theorem unsigned_faithful (T : List Token) : unsignedPhrase.Faithful unsigned T := by
  apply Phrase.Faithful.of_spelled
  · intro n rest _ hrest
    exact Spells.number (numberText_decimal (Int.natCast_nonneg _)) hrest.follows.endsWord
      (hrest.follows.head_ne (by decide))
  · simp [unsignedPhrase]
  · intro n ws _ _
    exact run_unsigned_eq_ok.mpr ⟨_, Text.readUInt64?_decimal n, rfl⟩
  · exact fun _ => trivial
  · intro ts n mid hrun
    obtain ⟨text, -, rfl⟩ := run_unsigned_eq_ok.mp hrun
    refine ⟨[.number text], rfl, trivial, ?_⟩
    rintro m vs ws - - - heq
    rw [(head_eq heq).1]
    rfl

def Limit.tokens (l : Limit) : List Token :=
  match l.offset with
  | none => unsignedPhrase.tokens l.count
  | some offset => unsignedPhrase.tokens offset ++ .symbol .comma :: unsignedPhrase.tokens l.count

def limitPhrase : Phrase Limit where
  sql := Limit.sql
  tokens := Limit.tokens
  normal := id
  Fit _ := True
  Readable _ := True

theorem limit_faithful {T : List Token} (hcomma : .symbol .comma ∉ T)
    (hoffset : ∀ t ∈ T, t.isKeyword "OFFSET" = false) : limitPhrase.Faithful Limit.parse T := by
  have hnumber : ∀ (n : UInt64) (ws : List Token),
      unsigned.run (unsignedPhrase.tokens n ++ ws) = .ok (n, ws) :=
    fun n ws => run_unsigned_eq_ok.mpr ⟨_, Text.readUInt64?_decimal n, rfl⟩
  apply Phrase.Faithful.of_spelled
  · rintro ⟨_ | offset, count⟩ rest - hrest
    · exact (unsigned_faithful T).spells trivial trivial hrest
    · have hfirst := (unsigned_faithful [.symbol .comma]).spells (y := offset) trivial trivial
        (.comma (by simp) (' ' :: ((sqlUnsigned count).toList ++ rest)))
      have hall := hfirst.append (Spells.comma_space.append
        ((unsigned_faithful T).spells (y := count) trivial trivial hrest))
      simpa [limitPhrase, Limit.sql, Limit.tokens, unsignedPhrase] using hall
  · rintro ⟨_ | offset, count⟩ - <;> simp [limitPhrase, Limit.tokens, unsignedPhrase]
  · rintro ⟨_ | offset, count⟩ ws - hws
    · unfold Limit.parse
      simp only [limitPhrase, Limit.tokens]
      rw [run_bind_of_ok (hnumber count ws),
        run_bind_of_ok (run_takesSymbol_of_ne (hws.head_ne hcomma))]
      simp only [Bool.false_eq_true, if_false]
      rw [run_bind_of_ok (run_takesWord_of_not_opens (hws.not_opensWith hoffset))]
      rfl
    · unfold Limit.parse
      simp only [limitPhrase, Limit.tokens, List.append_assoc, List.cons_append]
      rw [run_bind_of_ok (hnumber offset _), run_bind_of_ok (run_takesSymbol_cons _)]
      simp only [if_true]
      rw [run_bind_of_ok (hnumber count ws)]
      rfl
  · exact fun _ => trivial
  · intro ts x mid hrun
    unfold Limit.parse at hrun
    obtain ⟨first, ts₁, hfirst, h₁⟩ := run_bind_eq_ok.mp hrun
    obtain ⟨text, -, rfl⟩ := run_unsigned_eq_ok.mp hfirst
    obtain ⟨comma, ts₂, hcommaRun, h₂⟩ := run_bind_eq_ok.mp h₁
    rcases run_takesSymbol_eq_ok.mp hcommaRun with ⟨rfl, rfl⟩ | ⟨rfl, -, rfl⟩
    · obtain ⟨count, ts₃, hcount, hpure⟩ := run_bind_eq_ok.mp h₂
      obtain ⟨text', -, rfl⟩ := run_unsigned_eq_ok.mp hcount
      cases hpure
      refine ⟨[.number text, .symbol .comma, .number text'], rfl, trivial, ?_⟩
      rintro _ vs ws - rfl - heq
      simp only [limitPhrase, Limit.tokens, unsignedPhrase, List.cons_append, List.nil_append,
        List.cons.injEq] at heq ⊢
      exact ⟨heq.1, trivial, heq.2.2.1, trivial⟩
    · obtain ⟨offset, ts₃, hoffsetRun, h₃⟩ := run_bind_eq_ok.mp h₂
      rcases run_takesWord_eq_ok.mp hoffsetRun with ⟨rfl, t, ht, rfl⟩ | ⟨rfl, -, rfl⟩
      · obtain ⟨offset, ts₄, hoffset, hpure⟩ := run_bind_eq_ok.mp h₃
        obtain ⟨text', -, rfl⟩ := run_unsigned_eq_ok.mp hoffset
        cases hpure
        refine ⟨[.number text, t, .number text'], rfl, trivial, ?_⟩
        rintro _ vs ws - rfl - heq
        simp only [limitPhrase, Limit.tokens, unsignedPhrase, List.cons_append, List.nil_append,
          List.cons.injEq] at heq
        exact absurd heq.2.1.symm (ne_of_isKeyword ht _)
      · cases h₃
        refine ⟨[.number text], rfl, trivial, ?_⟩
        rintro _ vs ws - rfl - heq
        rw [(head_eq heq).1]
        rfl

theorem on_keyword : Phrase.KeywordText " ON " "ON" := ⟨by decide, by decide, by decide⟩

end ShardedSql.Sql
