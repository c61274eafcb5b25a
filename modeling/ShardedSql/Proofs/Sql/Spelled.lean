import ShardedSql.Proofs.Sql.Printed

namespace ShardedSql.Sql

open Text (isBlank isWordChar)
open Token (EndsWord NumberText WordText backquote isPlainWord scan)

theorem numberText_decimal {i : Int} (h : 0 ≤ i) : NumberText (Text.decimal i).toList := by
  rw [Text.toList_decimal_of_nonneg h]
  have hdigits := Text.isDigit_toDigits i.toNat
  have hnumber : ∀ c ∈ Nat.toDigits 10 i.toNat, Token.isNumberChar c = true := by
    intro c hc
    simp [Token.isNumberChar, hdigits c hc]
  refine ⟨?_, ?_⟩
  · obtain ⟨c, cs, hcs⟩ := List.exists_cons_of_ne_nil (Nat.toDigits_ne_nil (b := 10) (n := i.toNat))
    rw [hcs] at hdigits ⊢
    simp [Token.startsNumber, hdigits c (by simp)]
  · have htake : (Nat.toDigits 10 i.toNat ++ []).takeWhile Token.isNumberChar = _ :=
      takeWhile_append_of_head_of_all hnumber (by simp)
    have hdrop : (Nat.toDigits 10 i.toNat ++ []).dropWhile Token.isNumberChar = _ :=
      dropWhile_append_of_head_of_all hnumber (by simp)
    rw [List.append_nil] at htake hdrop
    simp [Token.numeral, htake, hdrop, Token.exponent]

namespace Spells

variable {cs ds rest : List Char} {ts us : List Token}

/-- An operator between blanks. -/
theorem op (op : BinaryOp) : Spells (" " ++ op.sql ++ " ").toList [op.token] rest := by
  cases op with
  | and => exact spaced (by decide : isPlainWord "AND".toList = true)
  | or => exact spaced (by decide : isPlainWord "OR".toList = true)
  | equal => exact space.append (symbol_space .equal)
  | nullSafeEqual => exact space.append (symbol_space .nullSafeEqual)
  | notEqual => exact space.append (symbol_space .bangEqual)
  | less => exact space.append (symbol_space .less)
  | lessEqual => exact space.append (symbol_space .lessEqual)
  | greater => exact space.append (symbol_space .greater)
  | greaterEqual => exact space.append (symbol_space .greaterEqual)
  | plus => exact space.append (symbol_space .plus)
  | minus => exact space.append (symbol_space .minus)
  | times => exact space.append (symbol_space .star)
  | divide => exact space.append (symbol_space .slash)
  | modulo => exact space.append (symbol_space .percent)

theorem flag {kw : String} (h : isPlainWord kw.toList = true) {word : String}
    (hword : word.toList = ' ' :: kw.toList) (b : Bool) (hrest : EndsWord rest) :
    Spells (sqlFlag b word).toList (flagTokens b kw) rest := by
  cases b with
  | true =>
    rw [sqlFlag, if_pos rfl, hword]
    exact space_keyword h hrest
  | false => exact nil

theorem not (b : Bool) (hrest : EndsWord rest) :
    Spells (sqlFlag b " NOT").toList (flagTokens b "NOT") rest :=
  flag (by decide) (by decide) b hrest

theorem in_paren : Spells " IN (".toList [.word "IN", .symbol .leftParen] rest :=
  (spaced (by decide : isPlainWord "IN".toList = true)).append leftParen

theorem flag_space {kw : String} (h : isPlainWord kw.toList = true) {word : String}
    (hword : word.toList = kw.toList ++ [' ']) (b : Bool) :
    Spells (sqlFlag b word).toList (flagTokens b kw) rest := by
  cases b with
  | true =>
    rw [sqlFlag, if_pos rfl, hword]
    exact keyword_space h
  | false => exact nil

theorem names (q : Option String) (n : String) (hrest : Follows rest) :
    Spells (sqlQualified q n).toList (nameTokens q n) rest := by
  cases q with
  | none => exact name n hrest.endsWord (hrest.head_ne (by decide))
  | some q =>
    have hfirst : Spells (sqlName q).toList [.ofName q] ('.' :: (sqlName n).toList ++ rest) :=
      name q Token.endsWord_dot (by simp [backquote])
    have hall := hfirst.append (dot_name n hrest)
    simpa [sqlQualified, nameTokens] using hall

theorem word {w : String} (h : WordText w.toList) (hrest : EndsWord rest) :
    Spells w.toList [.word w] rest := by
  have hscan := Token.scan_word h hrest
  rwa [String.ofList_toList] at hscan

theorem number {n : String} (h : NumberText n.toList) (hrest : EndsWord rest)
    (hdot : rest.head? ≠ some '.') : Spells n.toList [.number n] rest := by
  have hscan := Token.scan_number h hrest hdot
  rwa [String.ofList_toList] at hscan

theorem literal {l : Literal} (h : Expr.Lexed (.literal l)) (hrest : Follows rest) :
    Spells l.sql.toList [l.token] rest := by
  cases h with
  | null => exact keyword (by decide : isPlainWord "NULL".toList = true) hrest.endsWord
  | boolean b =>
    cases b with
    | true => exact keyword (by decide : isPlainWord "TRUE".toList = true) hrest.endsWord
    | false => exact keyword (by decide : isPlainWord "FALSE".toList = true) hrest.endsWord
  | integer hi =>
    exact number (numberText_decimal hi) hrest.endsWord (hrest.head_ne (by decide))
  | number hn => exact number hn hrest.endsWord (hrest.head_ne (by decide))
  | text s => exact Token.scan_sqlString s (hrest.head_ne (by decide))

end Spells

theorem Follows.flag {b : Bool} {word : String} {c : Char}
    {ds rest : List Char}
    (hword : word.toList = ' ' :: c :: ds) (hc : isThin c = false) (hrest : Follows rest) :
    Follows ((sqlFlag b word).toList ++ rest) := by
  cases b with
  | true =>
    rw [sqlFlag, if_pos rfl, hword]
    exact .space hc
  | false => exact hrest

theorem Follows.not (b : Bool) {rest : List Char} (hrest : Follows rest) :
    Follows ((sqlFlag b " NOT").toList ++ rest) := .flag rfl (by decide) hrest

namespace Expr

variable {rest : List Char}

theorem toList_sql_not (e : Expr) :
    (not e).sql.toList ++ rest = "NOT ".toList ++ (e.sql.toList ++ rest) := by
  change ("NOT " ++ e.sql).toList ++ rest = _
  simp

theorem toList_sql_negate (e : Expr) :
    (negate e).sql.toList ++ rest = '-' :: (e.sql.toList ++ rest) := by
  change ("-" ++ e.sql).toList ++ rest = _
  simp

theorem toList_sql_paren (e : Expr) :
    (paren e).sql.toList ++ rest = ['('] ++ (e.sql.toList ++ (')' :: rest)) := by
  change ("(" ++ e.sql ++ ")").toList ++ rest = _
  simp

theorem toList_sql_binary (l e : Expr) (op : BinaryOp) : (binary l op e).sql.toList ++ rest =
    l.sql.toList ++ ((" " ++ op.sql ++ " ").toList ++ (e.sql.toList ++ rest)) := by
  change (l.sql ++ " " ++ op.sql ++ " " ++ e.sql).toList ++ rest = _
  simp

theorem toList_sql_isNull (e : Expr) (n : Bool) : (isNull e n).sql.toList ++ rest =
    e.sql.toList ++ (" IS".toList ++ ((sqlFlag n " NOT").toList ++ (" NULL".toList ++ rest))) := by
  change (e.sql ++ " IS" ++ sqlFlag n " NOT" ++ " NULL").toList ++ rest = _
  simp

theorem toList_sql_inList (e : Expr) (items : List Expr) (n : Bool) :
    (inList e items n).sql.toList ++ rest =
      e.sql.toList ++ ((sqlFlag n " NOT").toList ++ (" IN (".toList ++
        ((commaSeparated (items.map sql)).toList ++ ')' :: rest))) := by
  rw [← sqlEach_eq_map]
  change (e.sql ++ sqlFlag n " NOT" ++ " IN (" ++ commaSeparated (sqlEach items) ++ ")").toList ++
    rest = _
  simp

theorem toList_sql_between (e low high : Expr) (n : Bool) :
    (between e low high n).sql.toList ++ rest =
      e.sql.toList ++ ((sqlFlag n " NOT").toList ++ (" BETWEEN ".toList ++
        (low.sql.toList ++ (" AND ".toList ++ (high.sql.toList ++ rest))))) := by
  change (e.sql ++ sqlFlag n " NOT" ++ " BETWEEN " ++ low.sql ++ " AND " ++ high.sql).toList ++
    rest = _
  simp

theorem toList_sql_like (e p : Expr) (n : Bool) : (like e p n).sql.toList ++ rest =
    e.sql.toList ++ ((sqlFlag n " NOT").toList ++ (" LIKE ".toList ++ (p.sql.toList ++ rest))) := by
  change (e.sql ++ sqlFlag n " NOT" ++ " LIKE " ++ p.sql).toList ++ rest = _
  simp

theorem toList_sql_call (f : String) (args : List Expr) (d : Bool) :
    (call f args d).sql.toList ++ rest =
      (Text.upper f).toList ++ (['('] ++ ((sqlFlag d "DISTINCT ").toList ++
        ((commaSeparated (args.map sql)).toList ++ ')' :: rest))) := by
  rw [← sqlEach_eq_map]
  change (Text.upper f ++ "(" ++ sqlFlag d "DISTINCT " ++ commaSeparated (sqlEach args) ++
    ")").toList ++ rest = _
  simp

end Expr

/-- A readable expression is spelled with its tokens. -/
theorem Expr.Lexed.spells {e : Expr} (h : e.Lexed) (hr : e.Readable) {rest : List Char}
    (hrest : Follows rest) : Spells e.sql.toList e.tokens rest := by
  have heach : ∀ {es : List Expr}, (∀ e ∈ es, e.Readable → ∀ {rest : List Char}, Follows rest →
      Spells e.sql.toList e.tokens rest) → ReadableEach es → ∀ {rest : List Char}, Follows rest →
        Spells (commaSeparated (sqlEach es)).toList (commaTokens (tokensEach es)) rest := by
    intro es ih hes rest hrest
    rw [sqlEach_eq_map, tokensEach_eq_map]
    apply Spells.list (fun _ => Follows.comma) _ hrest
    intro e he rest hrest
    exact ih e he ((readableEach_iff es).mp hes e he).1 hrest
  induction h generalizing rest with
  | column c => exact Spells.names c.table c.name hrest
  | null => exact Spells.literal .null hrest
  | boolean b => exact Spells.literal (.boolean b) hrest
  | integer hi => exact Spells.literal (.integer hi) hrest
  | number hn hbig => exact Spells.literal (.number hn hbig) hrest
  | text s => exact Spells.literal (.text s) hrest
  | placeholder => exact Token.scan_questionMark
  | var =>
    obtain ⟨us, -, -, hspells⟩ := ReadableVar.varTokens hr
    exact hspells hrest.endsWord
  | star => exact Spells.star
  | @not e h ih =>
    have hnot : Spells "NOT ".toList [.word "NOT"] (e.sql.toList ++ rest) :=
      Spells.keyword_space (by decide : isPlainWord "NOT".toList = true)
    have hall := hnot.append (ih hr.1 hrest)
    simpa [Expr.sql, Expr.tokens] using hall
  | @negate e h ih =>
    have hhead : (e.sql.toList ++ rest).head? ≠ some '-' := by
      cases htext : e.sql.toList with
      | nil => exact hrest.head_ne (by decide)
      | cons c cs => simpa [htext] using hr.2
    have hminus : Spells "-".toList [.symbol .minus] (e.sql.toList ++ rest) :=
      Token.scan_minus hhead
    have hall := hminus.append (ih hr.1 hrest)
    simpa [Expr.sql, Expr.tokens] using hall
  | @binary l r op hl hr' ihl ihr =>
    have hfollows : Follows ((" " ++ op.sql ++ " ").toList ++ r.sql.toList ++ rest) := by
      cases op <;> exact .space (by decide)
    have hall := (ihl hr.1 hfollows).append ((Spells.op op).append (ihr hr.2.1 hrest))
    simpa [Expr.sql, Expr.tokens] using hall
  | @inList e items n h hitems ih ihitems =>
    have hlist := (heach ihitems hr.2.1 .rightParen).append (Spells.rightParen : Spells _ _ rest)
    have hin := (Spells.in_paren).append hlist
    have hnot := (Spells.not n (Follows.space (by decide)).endsWord).append hin
    have hfollows : Follows ((sqlFlag n " NOT").toList ++ (" IN (".toList ++
        ((commaSeparated (sqlEach items)).toList ++ [')'])) ++ rest) := by
      rw [List.append_assoc]
      exact .not n (.space (by decide))
    have hall := (ih hr.1 hfollows).append hnot
    simpa [Expr.sql, Expr.tokens] using hall
  | @between e low high n h hlow hhigh ih ihlow ihhigh =>
    have hand := (Spells.spaced (by decide : isPlainWord "AND".toList = true)).append
      (ihhigh hr.2.2 hrest)
    have htest := (Spells.spaced (by decide : isPlainWord "BETWEEN".toList = true)).append
      ((ihlow hr.2.1 (.space (by decide))).append hand)
    have hnot := (Spells.not n (Follows.space (by decide)).endsWord).append htest
    have hfollows : Follows ((sqlFlag n " NOT").toList ++ (" BETWEEN ".toList ++
        (low.sql.toList ++ (" AND ".toList ++ high.sql.toList))) ++ rest) := by
      rw [List.append_assoc]
      exact .not n (.space (by decide))
    have hall := (ih hr.1 hfollows).append hnot
    simpa [Expr.sql, Expr.tokens] using hall
  | @isNull e n h ih =>
    have hnull := Spells.space_keyword (by decide : isPlainWord "NULL".toList = true) hrest.endsWord
    have hnot := (Spells.not n (Follows.space (by decide)).endsWord).append hnull
    have hends : EndsWord ((sqlFlag n " NOT").toList ++ " NULL".toList ++ rest) := by
      rw [List.append_assoc]
      exact (Follows.not n (.space (by decide))).endsWord
    have his := (Spells.space_keyword (by decide : isPlainWord "IS".toList = true) hends).append hnot
    have hall := (ih hr (.space (by decide))).append his
    simpa [Expr.sql, Expr.tokens] using hall
  | @like e p n h hp ih ihp =>
    have hlike := (Spells.spaced (by decide : isPlainWord "LIKE".toList = true)).append
      (ihp hr.2 hrest)
    have hnot := (Spells.not n (Follows.space (by decide)).endsWord).append hlike
    have hfollows : Follows ((sqlFlag n " NOT").toList ++ (" LIKE ".toList ++ p.sql.toList)
        ++ rest) := by
      rw [List.append_assoc]
      exact .not n (.space (by decide))
    have hall := (ih hr.1 hfollows).append hnot
    simpa [Expr.sql, Expr.tokens] using hall
  | @call f args d hf hargs ih =>
    have hlist := (heach ih hr.1 .rightParen).append (Spells.rightParen : Spells _ _ rest)
    have hdistinct := (Spells.flag_space (by decide : isPlainWord "DISTINCT".toList = true)
      (by decide : "DISTINCT ".toList = "DISTINCT".toList ++ [' ']) d).append hlist
    have hopen := Spells.leftParen.append hdistinct
    have hall := (Spells.word hf.upper Token.endsWord_leftParen).append hopen
    simpa [Expr.sql, Expr.tokens] using hall
  | @paren e h ih =>
    have hinner := (ih hr.1 .rightParen).append (Spells.rightParen : Spells _ _ rest)
    have hall := Spells.leftParen.append hinner
    simpa [Expr.sql, Expr.tokens] using hall

end ShardedSql.Sql
