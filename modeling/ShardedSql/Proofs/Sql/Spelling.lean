import ShardedSql.Proofs.Sql.Grammar
import ShardedSql.Proofs.Sql.Lexing

namespace ShardedSql.Sql

open Text (isBlank isWordChar)
open Token (EndsWord NumberText WordText backquote isPlainWord scan)

/-- Blanks and backquotes, which no token starts with that is not a quoted name. -/
def isThin (c : Char) : Bool := isBlank c || c == backquote

/-- What may be printed behind an expression. -/
structure Follows (rest : List Char) : Prop where
  head : ∀ c ∈ rest.head?, c = ' ' ∨ c = ',' ∨ c = ')'
  thin : (rest.takeWhile isThin).length ≤ 1

namespace Follows

variable {cs rest : List Char}

theorem nil : Follows [] := ⟨nofun, by decide⟩

theorem space {c : Char} (h : isThin c = false) : Follows (' ' :: c :: cs) := by
  have hblank : isThin ' ' = true := by decide
  refine ⟨?_, ?_⟩
  · rintro _ ⟨⟩
    exact .inl rfl
  · simp [hblank, h]

theorem comma : Follows (',' :: cs) := by
  refine ⟨?_, ?_⟩
  · rintro _ ⟨⟩
    exact .inr (.inl rfl)
  · rw [List.takeWhile_cons_of_neg (by decide)]
    decide

theorem rightParen : Follows (')' :: cs) := by
  refine ⟨?_, ?_⟩
  · rintro _ ⟨⟩
    exact .inr (.inr rfl)
  · rw [List.takeWhile_cons_of_neg (by decide)]
    decide

theorem endsWord (h : Follows rest) : EndsWord rest := by
  intro c hc
  rcases h.head c hc with rfl | rfl | rfl <;> decide

theorem head_ne (h : Follows rest) {c : Char} (hc : c ≠ ' ' ∧ c ≠ ',' ∧ c ≠ ')') :
    rest.head? ≠ some c := by
  intro hhead
  rcases h.head c hhead with rfl | rfl | rfl <;> simp at hc

end Follows

/-- Whether the lexer reads a text as these tokens in front of another text. -/
def Spells (cs : List Char) (ts : List Token) (rest : List Char) : Prop :=
  scan (cs ++ rest) = (scan rest).map (ts ++ ·)

namespace Spells

variable {cs ds rest : List Char} {ts us : List Token}

theorem nil : Spells [] [] rest := by
  unfold Spells
  rw [List.nil_append]
  cases scan rest <;> rfl

theorem append (h : Spells cs ts (ds ++ rest)) (h' : Spells ds us rest) :
    Spells (cs ++ ds) (ts ++ us) rest := by
  unfold Spells at h h' ⊢
  rw [List.append_assoc, h, h']
  cases scan rest with
  | error e => rfl
  | ok ws => exact congrArg Except.ok (List.append_assoc ts us ws).symm

theorem ok (h : Spells cs ts rest) {ws : List Token} (hws : scan rest = .ok ws) :
    scan (cs ++ rest) = .ok (ts ++ ws) := by
  rw [h, hws]
  rfl

/-- What is read of the whole text is read of what follows. -/
theorem rest_of_ok (h : Spells cs ts rest) {vs : List Token} (hvs : scan (cs ++ rest) = .ok vs) :
    ∃ ws, scan rest = .ok ws ∧ vs = ts ++ ws := by
  rw [h] at hvs
  cases hrest : scan rest with
  | error e =>
    rw [hrest] at hvs
    cases hvs
  | ok ws =>
    rw [hrest] at hvs
    cases hvs
    exact ⟨ws, rfl, rfl⟩

theorem scan_ne_keyword {t t' : Token} {kw : String} (h : Spells cs (t :: us) rest)
    (ht : t.isKeyword kw = false) (ht' : t'.isKeyword kw = true) :
    scan (cs ++ rest) ≠ .ok (t' :: ts) := by
  intro hscan
  obtain ⟨ws, -, heq⟩ := h.rest_of_ok hscan
  rw [(List.cons.inj heq).1, ht] at ht'
  cases ht'

theorem space : Spells [' '] [] rest := by
  unfold Spells
  rw [List.cons_append, Token.scan_space, List.nil_append]
  cases scan rest <;> rfl

theorem keyword {kw : String} (h : isPlainWord kw.toList = true) (hrest : EndsWord rest) :
    Spells kw.toList [.word kw] rest := Token.scan_keyword h hrest

theorem keyword_space {kw : String} (h : isPlainWord kw.toList = true) :
    Spells (kw.toList ++ [' ']) [.word kw] rest :=
  (keyword h Token.endsWord_space).append space

theorem space_keyword {kw : String} (h : isPlainWord kw.toList = true) (hrest : EndsWord rest) :
    Spells (' ' :: kw.toList) [.word kw] rest := space.append (keyword h hrest)

/-- A keyword between blanks. -/
theorem spaced {kw : String} (h : isPlainWord kw.toList = true) :
    Spells (' ' :: (kw.toList ++ [' '])) [.word kw] rest := space.append (keyword_space h)

theorem leftParen : Spells ['('] [.symbol .leftParen] rest := Token.scan_leftParen

theorem rightParen : Spells [')'] [.symbol .rightParen] rest := Token.scan_rightParen

theorem star : Spells ['*'] [.symbol .star] rest := Token.scan_star

theorem comma_space : Spells [',', ' '] [.symbol .comma] rest := by
  have hcomma : Spells [','] [.symbol .comma] (' ' :: rest) := Token.scan_comma
  exact hcomma.append space

theorem symbol_space (s : Symbol) : Spells (s.text.toList ++ [' ']) [.symbol s] rest := by
  have hsymbol : Spells s.text.toList [.symbol s] (' ' :: rest) := by
    cases s <;> exact Token.scan_token_of_first (by rfl)
  exact hsymbol.append space

theorem name (n : String) (hrest : EndsWord rest) (hback : rest.head? ≠ some backquote) :
    Spells (sqlName n).toList [.ofName n] rest :=
  Token.scan_sqlName n hrest.not_isWordChar hback

theorem dot_name (n : String) (hrest : Follows rest) :
    Spells ('.' :: (sqlName n).toList) [.symbol .dot, .ofName n] rest := by
  have hdot : Spells ['.'] [.symbol .dot] ((sqlName n).toList ++ rest) :=
    Token.scan_dot (Token.startsWithDigit_sqlName n rest)
  exact hdot.append (name n hrest.endsWord (hrest.head_ne (by decide)))

/-- A list is spelled if each of its items is, in front of whatever follows it. -/
theorem list {α : Type} {sql : α → String} {tokens : α → List Token} {xs : List α}
    {Before : List Char → Prop} (hcomma : ∀ cs, Before (',' :: cs))
    (h : ∀ x ∈ xs, ∀ {rest}, Before rest → Spells (sql x).toList (tokens x) rest)
    (hrest : Before rest) :
    Spells (commaSeparated (xs.map sql)).toList (commaTokens (xs.map tokens)) rest := by
  induction xs with
  | nil => exact nil
  | cons x xs ih =>
    cases xs with
    | nil =>
      have hx := h x (by simp) hrest
      simpa [commaSeparated, commaTokens, String.toList_intercalate] using hx
    | cons y ys =>
      have hx : Spells (sql x).toList (tokens x)
          ([',', ' '] ++ (commaSeparated ((y :: ys).map sql)).toList ++ rest) :=
        h x (by simp) (hcomma _)
      have hall := hx.append (comma_space.append (ih fun z hz => h z (by simp [hz])))
      simpa [commaSeparated, commaTokens, String.toList_intercalate,
        List.intercalate_cons_cons] using hall

end Spells

end ShardedSql.Sql
