import ShardedSql.Proofs.Sql.Clauses

namespace ShardedSql.Sql

open TokenParser
open Token (isPlainWord scan)

namespace Expr

mutual

theorem normal_sql : ∀ e : Expr, e.normal.sql = e.sql
  | column _ | literal _ | placeholder | var _ | defaultValue | star => rfl
  | not e | negate e | isNull e _ | paren e => by simp [normal, sql, normal_sql e]
  | binary l _ r | like l r _ => by simp [normal, sql, normal_sql l, normal_sql r]
  | inList e items _ => by simp [normal, sql, normal_sql e, normalEach_sqlEach items]
  | between e low high _ => by
    simp [normal, sql, normal_sql e, normal_sql low, normal_sql high]
  | call f args _ => by simp [normal, sql, normalEach_sqlEach args, upper_upper]

theorem normalEach_sqlEach : ∀ es : List Expr, sqlEach (normalEach es) = sqlEach es
  | [] => rfl
  | e :: es => by simp [normalEach, sqlEach, normal_sql e, normalEach_sqlEach es]

end

end Expr

theorem head_toList_append {a : String} {c : Char} (h : a.toList.head? = some c) (b : String) :
    (a ++ b).toList.head? = some c := by
  obtain ⟨cs, hcs⟩ := List.head?_eq_some_iff.mp h
  simp [hcs]

/-- What is read from a parenthesis on is printed with one in front. -/
theorem Derives.opens_paren {k : Nat} {r : Rank} {e : Expr} {u : List Token}
    (h : Derives k r e u) (hu : u.head? = some (.symbol .leftParen)) :
    e.sql.toList.head? = some '(' := by
  have hleft : ∀ {l vs : List Token}, l ≠ [] → (l ++ vs).head? = some (.symbol .leftParen) →
      l.head? = some (.symbol .leftParen) := by
    intro l vs hne hhead
    cases l with
    | nil => exact absurd rfl hne
    | cons t l => exact hhead
  induction h with
  | column ht | qualified ht =>
    exact absurd (Option.some.inj hu).symm (ne_of_part? (part?_of_name? ht) _)
  | word | number | text | placeholder | callStar | callNone | call | var | negate | plus =>
    cases hu
  | paren => simp [Expr.sql]
  | chain _ _ hl _ ih | comparison _ hl _ ih =>
    have hhead := ih (hleft hl.ne_nil hu)
    simp only [Expr.sql, String.append_assoc]
    exact head_toList_append hhead _
  | isNull _ _ _ h ih | like _ _ h _ ih =>
    rw [List.append_assoc] at hu
    have hhead := ih (hleft h.ne_nil hu)
    simp only [Expr.sql, String.append_assoc]
    exact head_toList_append hhead _
  | inList _ _ _ h _ _ ih | between _ _ _ h _ _ ih =>
    simp only [List.append_assoc] at hu
    have hhead := ih (hleft h.ne_nil hu)
    simp only [Expr.sql, String.append_assoc]
    exact head_toList_append hhead _
  | not ht => exact absurd (Option.some.inj hu).symm (ne_of_isKeyword ht _)
  | tighter _ _ _ ih => exact ih hu

/-- The reserved word ALL stands at the front of an expression only as the name of a function. -/
theorem Expr.Lexed.leading_all {e : Expr} (h : e.Lexed) {rest : List Char} (hrest : Follows rest)
    (htame : Tame (e.sql.toList ++ rest)) {t : Token} {ts : List Token}
    (hscan : scan (e.sql.toList ++ rest) = .ok (t :: ts)) (ht : t.isKeyword "ALL" = true) :
    ts.head? = some (.symbol .leftParen) := by
  induction h generalizing rest with
  | column c =>
    have hspells := Spells.names c.table c.name hrest
    have hname : ∃ n us, nameTokens c.table c.name = .ofName n :: us := by
      obtain ⟨_ | q, n⟩ := c <;> exact ⟨_, _, rfl⟩
    obtain ⟨n, us, hus⟩ := hname
    rw [hus] at hspells
    have hall : (Token.ofName n).isKeyword "ALL" = false :=
      isKeyword_of_name? (Token.name?_ofName n) (by decide)
    exact absurd hscan (hspells.scan_ne_keyword hall ht)
  | null => exact absurd hscan ((Spells.literal .null hrest).scan_ne_keyword (by decide) ht)
  | boolean b =>
    have hall : (Literal.token (.boolean b)).isKeyword "ALL" = false := by cases b <;> decide
    exact absurd hscan ((Spells.literal (.boolean b) hrest).scan_ne_keyword hall ht)
  | integer hi => exact absurd hscan ((Spells.literal (.integer hi) hrest).scan_ne_keyword rfl ht)
  | number hn hbig =>
    exact absurd hscan ((Spells.literal (.number hn hbig) hrest).scan_ne_keyword rfl ht)
  | text s => exact absurd hscan ((Spells.literal (.text s) hrest).scan_ne_keyword rfl ht)
  | placeholder =>
    have hmark : Spells ['?'] [.placeholder] rest := Token.scan_questionMark
    exact absurd hscan (hmark.scan_ne_keyword rfl ht)
  | @var n hn =>
    obtain ⟨cs, hcs⟩ := List.head?_eq_some_iff.mp hn
    have hat : Spells ['@'] [.symbol .atSign] (cs ++ rest) := Token.scan_token_of_first rfl
    rw [show (Expr.var n).sql.toList ++ rest = ['@'] ++ (cs ++ rest) by simp [Expr.sql, hcs]]
      at hscan
    exact absurd hscan (hat.scan_ne_keyword rfl ht)
  | star => exact absurd hscan (Spells.star.scan_ne_keyword rfl ht)
  | @not e h ih =>
    have hnot : Spells "NOT ".toList [.word "NOT"] (e.sql.toList ++ rest) :=
      Spells.keyword_space (by decide : isPlainWord "NOT".toList = true)
    rw [Expr.toList_sql_not] at hscan
    exact absurd hscan (hnot.scan_ne_keyword (by decide) ht)
  | @negate e h ih =>
    rw [Expr.toList_sql_negate] at hscan htame
    by_cases hminus : (e.sql.toList ++ rest).head? = some '-'
    · obtain ⟨cs, hcs⟩ := List.head?_eq_some_iff.mp hminus
      rw [hcs] at hscan htame
      have hline : '\n' ∉ cs := fun hmem =>
        htame.line (List.mem_cons_of_mem _ (List.mem_cons_of_mem _ hmem))
      rw [Token.scan_doubleMinus hline] at hscan
      cases hscan
    · have hsign : Spells ['-'] [.symbol .minus] (e.sql.toList ++ rest) := Token.scan_minus hminus
      exact absurd hscan (hsign.scan_ne_keyword rfl ht)
  | paren =>
    rw [Expr.toList_sql_paren] at hscan
    exact absurd hscan (Spells.leftParen.scan_ne_keyword rfl ht)
  -- The others start with the text of their first operand.
  | @binary l r op hl _ ih _ =>
    rw [Expr.toList_sql_binary] at hscan htame
    refine ih ?_ htame hscan
    cases op <;> exact .space (by decide)
  | inList _ _ ih _ =>
    rw [Expr.toList_sql_inList] at hscan htame
    exact ih (.not _ (.space (by decide))) htame hscan
  | between _ _ _ ih _ _ =>
    rw [Expr.toList_sql_between] at hscan htame
    exact ih (.not _ (.space (by decide))) htame hscan
  | isNull _ ih =>
    rw [Expr.toList_sql_isNull] at hscan htame
    exact ih (.space (by decide)) htame hscan
  | like _ _ ih _ =>
    rw [Expr.toList_sql_like] at hscan htame
    exact ih (.not _ (.space (by decide))) htame hscan
  | call hf _ _ =>
    rw [Expr.toList_sql_call] at hscan
    obtain ⟨ws, hws, heq⟩ := (Spells.word hf.upper Token.endsWord_leftParen).rest_of_ok hscan
    obtain ⟨vs, -, rfl⟩ := Spells.leftParen.rest_of_ok hws
    rw [(List.cons.inj heq).2]
    rfl

end ShardedSql.Sql
