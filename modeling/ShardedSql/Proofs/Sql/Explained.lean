import ShardedSql.Proofs.Sql.CanonicalForm
import ShardedSql.Proofs.Sql.Levels

namespace ShardedSql.Sql.Statement

open TokenParser (OpensWith run_bind)
open Token (scan)

variable {levels : Nat} {text : String} {ts : List Token}

/-- Reads the tokens of a statement with so many levels of nesting. -/
def ofTokensWithin? (levels : Nat) (tokens : List Token) : Except Error Statement :=
  match dropSemicolons tokens with
  | [] => .error (.parse .emptyStatement)
  | t :: ts =>
    match (parseWithin levels).run (t :: ts) with
    | .error e => .error e
    | .ok (stmt, []) => .ok stmt
    | .ok (_, t :: _) => .error (.parse (.trailing t))

/-- Reads a text with so many levels of nesting. -/
def ofStringWithin? (levels : Nat) (text : String) : Except Error Statement :=
  match Token.ofString? text with
  | .error e => .error (.parse (.scan e))
  | .ok tokens => ofTokensWithin? levels tokens

theorem ofStringWithin?_maxLevels (text : String) :
    ofStringWithin? maxLevels text = ofString? text := rfl

/-- Whether a text is given up on when so many levels of nesting may be taken. -/
def NestedDeeper (levels : Nat) (text : String) : Prop :=
  ofStringWithin? levels text = .error (.parse .tooDeep)

instance (levels : Nat) (text : String) : Decidable (NestedDeeper levels text) :=
  inferInstanceAs (Decidable (_ = _))

/-- Tokens are read alike with any number of levels that is enough for them, which the number of the
tokens is. -/
theorem ofTokensWithin?_of_le {m n : Nat} (h : m ≤ n) (tokens : List Token) :
    ofTokensWithin? m tokens = ofTokensWithin? n tokens ∨
      ofTokensWithin? m tokens = .error (.parse .tooDeep) ∧ m ≤ tokens.length := by
  unfold ofTokensWithin?
  have hlength := (dropSemicolons_isPrefix tokens).length_le
  cases hdrop : dropSemicolons tokens with
  | nil => exact .inl rfl
  | cons t ts =>
    rcases agrees_parseWithin_of_le h (t :: ts) with heq | ⟨hdeep, hlevels⟩
    · simp only [heq, true_or]
    · rw [hdrop] at hlength
      refine .inr ⟨?_, Nat.le_trans hlevels hlength⟩
      simp only [hdeep]

/-- EXPLAIN in front of a statement takes one level. -/
theorem ofTokensWithin?_explain {kw : String} (hkw : kw ∈ takenApart) (h : OpensWith kw ts) :
    ofTokensWithin? (levels + 1) (.word "EXPLAIN" :: ts) =
      (ofTokensWithin? levels ts).map explain := by
  have hsplit : dropSemicolons ([.word "EXPLAIN"] ++ ts) = _ := dropSemicolons_append (by simp) ts
  cases ts with
  | nil => exact absurd h (TokenParser.not_opensWith_nil kw)
  | cons t ts =>
    cases t with
    | word w =>
      have hw : Text.upper w = kw := by simpa [Token.isKeyword] using h
      have hrest : dropSemicolons ([.word w] ++ ts) = _ := dropSemicolons_append (by simp) ts
      have hexplainable : isExplainable (.word w) = true := by
        have hall : ∀ kw ∈ takenApart, explainable.contains kw = true := by decide
        rw [isExplainable, hw]
        exact hall kw hkw
      have hrun : (parseWithin (levels + 1)).run (.word "EXPLAIN" :: .word w :: dropSemicolons ts) =
          (do return explain (← parseWithin levels)).run (.word w :: dropSemicolons ts) := by
        have hopening : isExplain "EXPLAIN" = true := by decide
        rw [parseWithin]
        simp [hopening, hexplainable]
      unfold ofTokensWithin?
      rw [List.singleton_append] at hsplit hrest
      simp only [hsplit, hrest, List.cons_append, List.nil_append]
      rw [hrun, run_bind]
      cases hinner : (parseWithin levels).run (.word w :: dropSemicolons ts) with
      | error e => rfl
      | ok r =>
        obtain ⟨inner, _ | ⟨t, rest⟩⟩ := r
        · rfl
        · rfl
    | _ => cases h

/-- The texts of statements that EXPLAIN may stand in front of and that are taken apart: their first
word is one of those. -/
def OpensTakenApart (text : String) : Prop :=
  ∀ ts, Token.ofString? text = .ok ts → ∃ kw ∈ takenApart, OpensWith kw ts

theorem ofString?_explain (h : OpensTakenApart text) :
    ofString? ("EXPLAIN " ++ text) = (ofStringWithin? (maxLevels - 1) text).map explain := by
  have hspells : Spells "EXPLAIN ".toList [.word "EXPLAIN"] text.toList :=
    Spells.keyword_space (by decide : Token.isPlainWord "EXPLAIN".toList = true)
  have hscan : Token.ofString? ("EXPLAIN " ++ text) =
      (Token.ofString? text).map ([.word "EXPLAIN"] ++ ·) := by
    rw [Token.ofString?, String.toList_append]
    exact hspells
  unfold ofString? ofStringWithin?
  rw [hscan]
  cases htokens : Token.ofString? text with
  | error e => rfl
  | ok ts =>
    obtain ⟨kw, hkw, hopens⟩ := h ts htokens
    exact ofTokensWithin?_explain hkw hopens

theorem ofStringWithin?_of_le {m n : Nat} (h : m ≤ n) (text : String) :
    ofStringWithin? m text = ofStringWithin? n text ∨
      NestedDeeper m text ∧ ∀ ts, Token.ofString? text = .ok ts → m ≤ ts.length := by
  unfold NestedDeeper ofStringWithin?
  cases Token.ofString? text with
  | error e => exact .inl rfl
  | ok tokens =>
    refine (ofTokensWithin?_of_le h tokens).imp_right fun hdeep => ⟨hdeep.1, ?_⟩
    rintro ts ⟨⟩
    exact hdeep.2

/-- EXPLAIN reads what is read without it, but for a statement that leaves no level of nesting for
it, which takes at least as many tokens. -/
theorem explain_reads_alike (text : String) (h : OpensTakenApart text) :
    (¬NestedDeeper (maxLevels - 1) text →
      ofString? ("EXPLAIN " ++ text) = (ofString? text).map explain) ∧
    (NestedDeeper (maxLevels - 1) text →
      ofString? ("EXPLAIN " ++ text) = .error (.parse .tooDeep)) ∧
    (∀ ts, Token.ofString? text = .ok ts → ts.length < maxLevels - 1 →
      ofString? ("EXPLAIN " ++ text) = (ofString? text).map explain) := by
  rw [ofString?_explain h]
  have hlevels := ofStringWithin?_of_le (Nat.sub_le maxLevels 1) text
  rw [ofStringWithin?_maxLevels] at hlevels
  refine ⟨fun hnot => ?_, fun hdeep => ?_, fun ts hts hlength => ?_⟩
  · rw [hlevels.resolve_right fun hdeep => hnot hdeep.1]
  · rw [hdeep]
    rfl
  · refine congrArg _ (hlevels.resolve_right fun hdeep => ?_)
    have := hdeep.2 ts hts
    omega

/-- `SELECT 1` with so many parentheses around the number. -/
def enclosedOneText (n : Nat) : String :=
  "SELECT " ++ String.ofList (List.replicate n '(' ++ '1' :: List.replicate n ')')

def enclosedOne (n : Nat) : Select :=
  .ofExpr (Nat.repeat Expr.paren n (.literal (.integer 1)))

theorem opensTakenApart_enclosedOne (n : Nat) : OpensTakenApart (enclosedOneText n) := by
  intro ts hts
  have hspells : Spells "SELECT ".toList [.word "SELECT"]
      (String.ofList (List.replicate n '(' ++ '1' :: List.replicate n ')')).toList :=
    Spells.keyword_space (by decide : Token.isPlainWord "SELECT".toList = true)
  rw [Token.ofString?, enclosedOneText, String.toList_append] at hts
  obtain ⟨us, -, rfl⟩ := hspells.rest_of_ok hts
  exact ⟨"SELECT", by decide, (TokenParser.opensWith_cons _ _ _).mpr (by decide)⟩

/-- With 62 parentheses there is a level left for EXPLAIN. -/
theorem deep_statement_is_explained : OpensTakenApart (enclosedOneText 62) ∧
    ¬NestedDeeper (maxLevels - 1) (enclosedOneText 62) ∧
    ofString? ("EXPLAIN " ++ enclosedOneText 62) = .ok (explain (select (enclosedOne 62))) := by
  have hfirst := opensTakenApart_enclosedOne 62
  have hlevel : ¬NestedDeeper (maxLevels - 1) (enclosedOneText 62) := by decide +kernel
  have hread : ofString? (enclosedOneText 62) = .ok (select (enclosedOne 62)) := by decide +kernel
  refine ⟨hfirst, hlevel, ?_⟩
  rw [(explain_reads_alike (enclosedOneText 62) hfirst).1 hlevel, hread]
  rfl

/-- With a parenthesis for every level but the first, none is left for EXPLAIN. -/
theorem deepest_statement_is_not_explained : OpensTakenApart (enclosedOneText 63) ∧
    ofString? (enclosedOneText 63) = .ok (select (enclosedOne 63)) ∧
    ofString? ("EXPLAIN " ++ enclosedOneText 63) = .error (.parse .tooDeep) :=
  ⟨opensTakenApart_enclosedOne 63, by decide +kernel, by decide +kernel⟩

end ShardedSql.Sql.Statement
