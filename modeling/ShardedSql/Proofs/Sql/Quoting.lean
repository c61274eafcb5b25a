import ShardedSql.Proofs.Sql.Lexing
import Mathlib.Data.List.Basic

namespace ShardedSql.Sql.Token

open Text (isWordChar)

theorem ofName_cases (n : String) :
    (ofName n = word n ∧ isReserved n = false) ∨ ofName n = quoted n := by
  unfold ofName
  split
  · next h => exact .inl ⟨rfl, not_isReserved_of_isBareName h⟩
  · exact .inr rfl

/-- What is quoted does not get out of its quotes. Whatever the string and the text behind it, which
may not start with the quote itself, the literal is one token that holds the string, and the text is
scanned as it is alone. A name is likewise one token, in front of a text that does not go on with
it, and it is read as that name again. -/
theorem quoted_texts_stay_closed (s v : String) :
    (v.toList.head? ≠ some '\x27' →
      ofString? (sqlString s ++ v) = (ofString? v).map (str s :: ·)) ∧
    (v.toList.head? ≠ some backquote → (∀ c ∈ v.toList.head?, isWordChar c = false) →
      ∃ t, ofString? (sqlName s ++ v) = (ofString? v).map (t :: ·) ∧
        ((t = word s ∧ isReserved s = false) ∨ t = quoted s) ∧
        ∀ rest, TokenParser.name.run (t :: rest) = .ok (s, rest)) := by
  unfold ofString?
  rw [String.toList_append, String.toList_append]
  exact ⟨scan_sqlString s, fun hback hword =>
    ⟨ofName s, scan_sqlName s hword hback, ofName_cases s, run_name_ofName s⟩⟩

theorem injected_texts_stay_closed :
    ofString? (sqlString "\x27; DROP TABLE t -- " ++ " OR a") =
      .ok [str "\x27; DROP TABLE t -- ", .word "OR", .word "a"] ∧
    ∃ t, ofString? (sqlName "a\x60; DROP TABLE t" ++ " OR a") = .ok [t, .word "OR", .word "a"] ∧
      ∀ rest, TokenParser.name.run (t :: rest) = .ok ("a\x60; DROP TABLE t", rest) := by
  have hbehind : ofString? " OR a" = .ok [.word "OR", .word "a"] := by decide +kernel
  have hstring := (quoted_texts_stay_closed "\x27; DROP TABLE t -- " " OR a").1 (by decide)
  obtain ⟨t, hname, -, hread⟩ := (quoted_texts_stay_closed "a\x60; DROP TABLE t" " OR a").2
    (by decide) (by rintro c ⟨⟩; decide)
  rw [hbehind] at hstring hname
  exact ⟨hstring, t, hname, hread⟩

end ShardedSql.Sql.Token
