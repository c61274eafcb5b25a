import ShardedSql.Proofs.Sql.Printed

namespace ShardedSql.Sql

open TokenParser (OpensWith)
open Sql.Expr (Lexed)

theorem upper_upper (w : String) : Text.upper (Text.upper w) = Text.upper w := by
  have hchar : ∀ c : Char, c.toUpper.toUpper = c.toUpper := by
    intro c
    rcases Text.toUpper_cases c with h | h
    · rw [h, h]
    · exact Text.of_lowerLetter h (by decide)
  have hcomp : Char.toUpper ∘ Char.toUpper = Char.toUpper := funext hchar
  simp [Text.upper, hcomp]

theorem literalWord?_upper (w : String) : literalWord? (Text.upper w) = literalWord? w := by
  simp only [literalWord?, upper_upper]

theorem flag_flagTokens {kw : String} (h : Text.upper kw = kw) (b : Bool) :
    Flag kw b (flagTokens b kw) := by
  cases b with
  | true => exact .on (beq_iff_eq.mpr h)
  | false => exact .off

theorem chainOp_token {r : Rank} {t : Token} {op : BinaryOp} (h : r.chainOp? t = some op) :
    r.chainOp? op.token = some op ∧ (r.level ≤ 3 ↔ op.IsLogical) := by
  cases r with
  | disjunction =>
    simp only [Rank.chainOp?, Expr.orOp?] at h
    split at h <;> cases h
    exact ⟨by decide, by simp [Rank.level, BinaryOp.IsLogical]⟩
  | conjunction =>
    simp only [Rank.chainOp?, Expr.andOp?] at h
    split at h <;> cases h
    exact ⟨by decide, by simp [Rank.level, BinaryOp.IsLogical]⟩
  | sum =>
    simp only [Rank.chainOp?, Expr.sumOp?] at h
    split at h <;> cases h <;> exact ⟨rfl, by simp [Rank.level, BinaryOp.IsLogical]⟩
  | product =>
    simp only [Rank.chainOp?, Expr.productOp?] at h
    have hproduct : op = .times ∨ op = .divide ∨ op = .modulo := by
      split at h
      · cases h; simp
      · cases h; simp
      · cases h; simp
      · split at h <;> cases h
        simp
    rcases hproduct with rfl | rfl | rfl <;>
      exact ⟨rfl, by simp [Rank.level, BinaryOp.IsLogical]⟩
  | _ => cases h

theorem comparisonOp_token {t : Token} {op : BinaryOp} (h : Expr.comparisonOp? t = some op) :
    Expr.comparisonOp? op.token = some op ∧ ¬op.IsLogical := by
  unfold Expr.comparisonOp? at h
  split at h <;> cases h <;> exact ⟨rfl, by simp [BinaryOp.IsLogical]⟩

namespace Derives

variable {k : Nat} {r : Rank} {e : Expr} {u : List Token}

theorem succ (h : Derives k r e u) : Derives (k + 1) r e u := by
  induction h with
  | column ht => exact .column ht
  | qualified ht ht' => exact .qualified ht ht'
  | word hw => exact .word hw
  | number he => exact .number he
  | text => exact .text
  | placeholder => exact .placeholder
  | var hn => exact .var hn
  | callStar hw hd => exact .callStar hw hd
  | callNone hw hd => exact .callNone hw hd
  | call hw hd hne _ hpos ih => exact .call hw hd hne ih hpos
  | paren _ hpos ih => exact .paren ih hpos
  | negate _ ih => exact .negate ih
  | plus _ ih => exact .plus ih
  | chain hs ht _ _ ihl ihe => exact .chain hs ht ihl ihe
  | comparison ht _ _ ihl ihe => exact .comparison ht ihl ihe
  | isNull ht ht' hn _ ih => exact .isNull ht ht' hn ih
  | inList ht hn hne _ _ hpos ih ihps => exact .inList ht hn hne ih ihps hpos
  | between ht ht' hn _ _ _ ih ihlow ihhigh => exact .between ht ht' hn ih ihlow ihhigh
  | like ht hn _ _ ih ihp => exact .like ht hn ih ihp
  | not ht _ ih => exact .not ht ih
  | tighter hs _ hpos ih => exact .tighter hs ih hpos

/-- NOT, AND and OR stand in the layers of conditions only. -/
theorem not_isCondition (h : Derives k r e u) (f : ColumnName → ColumnName) (hr : 3 < r.level) :
    ¬(e.mapColumns f).IsCondition := by
  induction h with
  | chain hs ht hl he =>
    intro hop
    have := (chainOp_token ht).2.mpr hop
    omega
  | comparison ht => exact (comparisonOp_token ht).2
  | not => exact absurd hr (by decide)
  | plus _ ih => exact ih hr
  | tighter hs _ _ ih =>
    apply ih
    have := Rank.level_above hs
    omega
  | number he =>
    rw [he]
    unfold Expr.ofNumber
    split <;> exact id
  | _ => exact id

theorem literal {l : Literal} (h : Lexed (.literal l)) :
    Derives k .primary (.literal l) [l.token] := by
  cases h with
  | null => exact .word rfl
  | boolean b => cases b <;> exact .word rfl
  | @integer i hi =>
    apply Derives.number
    rw [Expr.ofNumber, Text.readInt64?_decimal hi, Text.toInt64?_toInt]
  | @number n _ hbig =>
    apply Derives.number
    rw [Expr.ofNumber, hbig]
  | text => exact .text

theorem name (q : Option String) (n : String) :
    Derives k .primary (.column ⟨q, n⟩) (nameTokens q n) := by
  cases q with
  | none => exact .column (Token.name?_ofName n)
  | some q => exact .qualified (Token.name?_ofName q) (Token.part?_ofName n)

/-- A readable expression, its columns renamed, is derived from the tokens that it is printed as. -/
theorem printed (h : Derives k r e u) (f : ColumnName → ColumnName)
    (hl : (e.mapColumns f).Lexed) (hr : (e.mapColumns f).Readable)
    (hc : r.level ≤ 3 → (e.mapColumns f).StandsAlone) :
    Derives k r (e.mapColumns f).normal (e.mapColumns f).tokens := by
  have heach : ∀ {j : Nat} {ps : List (Expr × List Token)},
      (∀ p ∈ ps, (p.1.mapColumns f).Lexed → (p.1.mapColumns f).Readable →
        ((1 : Nat) ≤ 3 → (p.1.mapColumns f).StandsAlone) →
        Derives j .disjunction (p.1.mapColumns f).normal (p.1.mapColumns f).tokens) →
      (∀ e ∈ (ps.map (·.1)).map (Expr.mapColumns f), e.Lexed) →
      (∀ e ∈ (ps.map (·.1)).map (Expr.mapColumns f), e.Readable ∧ e.StandsAlone) →
      ∀ q ∈ ps.map fun p => ((p.1.mapColumns f).normal, (p.1.mapColumns f).tokens),
        Derives j .disjunction q.1 q.2 := by
    intro j ps ih hlexed hreadable q hq
    obtain ⟨p, hp, rfl⟩ := List.mem_map.mp hq
    have hmem : p.1.mapColumns f ∈ (ps.map (·.1)).map (Expr.mapColumns f) :=
      List.mem_map_of_mem (List.mem_map_of_mem hp)
    exact ih p hp (hlexed _ hmem) (hreadable _ hmem).1 fun _ => (hreadable _ hmem).2
  induction h with
  | column | qualified => exact name _ _
  | word => exact literal hl
  | @number k n e he =>
    have hliteral : ∃ l, e = .literal l := by
      rw [he]
      unfold Expr.ofNumber
      split <;> exact ⟨_, rfl⟩
    obtain ⟨l, rfl⟩ := hliteral
    exact literal hl
  | text => exact literal hl
  | placeholder => exact .placeholder
  | @var k n us hn =>
    obtain ⟨vs, hvs, hn, -⟩ := ReadableVar.varTokens hr
    simp only [Expr.mapColumns, Expr.normal, Expr.tokens, hvs]
    exact .var hn
  | @callStar k w d us hw hd =>
    have hcall := callStar (k := k) ((literalWord?_upper w).trans hw)
      (flag_flagTokens (by decide : Text.upper "DISTINCT" = "DISTINCT") d)
    simpa [Expr.mapColumns, Expr.mapColumnsAll, Expr.normal, Expr.normalEach, Expr.tokens,
      Expr.tokensEach, commaTokens] using hcall
  | @callNone k w d us hw hd =>
    have hcall := callNone (k := k) ((literalWord?_upper w).trans hw)
      (flag_flagTokens (by decide : Text.upper "DISTINCT" = "DISTINCT") d)
    simpa [Expr.mapColumns, Expr.mapColumnsAll, Expr.normal, Expr.normalEach, Expr.tokens,
      Expr.tokensEach, commaTokens] using hcall
  | @call k w d us ps hw hd hne hps hpos ih =>
    simp only [Expr.mapColumns, Expr.mapColumnsAll_eq_map] at hl hr ⊢
    cases hl with
    | call _ hargs =>
    simp only [Expr.Readable, Expr.readableEach_iff, Expr.tokensEach_eq_map] at hr
    have hcall := Derives.call ((literalWord?_upper w).trans hw)
      (flag_flagTokens (by decide : Text.upper "DISTINCT" = "DISTINCT") d) (by simpa using hne)
      (heach ih hargs hr.1) (by simpa [Function.comp_def] using hr.2)
    simpa [Expr.normal, Expr.normalEach_eq_map, Expr.tokens, Expr.tokensEach_eq_map,
      Function.comp_def] using hcall
  | paren h hpos ih =>
    simp only [Expr.mapColumns] at hl hr ⊢
    cases hl with
    | paren hl =>
    exact .paren (ih hl hr.1 fun _ => hr.2.1) hr.2.2
  | negate h ih =>
    simp only [Expr.mapColumns] at hl hr ⊢
    cases hl with
    | negate hl =>
    exact .negate (ih hl hr.1 fun h => absurd h (by decide))
  | plus h ih => exact (ih hl hr hc).succ
  | @chain k r s l e op t u v hs ht h he ihl ihe =>
    simp only [Expr.mapColumns] at hl hr ⊢
    cases hl with
    | binary hleft hright =>
    have hop := chainOp_token ht
    have hsides (hrank : r.level ≤ 3) := hr.2.2 (hop.2.mp hrank)
    have hlevel := Rank.level_above hs
    exact .chain hs hop.1 (ihl hleft hr.1 fun hrank => (hsides hrank).1)
      (ihe hright hr.2.1 fun hrank => (hsides (by omega)).2)
  | comparison ht h he ihl ihe =>
    simp only [Expr.mapColumns] at hl hr ⊢
    cases hl with
    | binary hleft hright =>
    exact .comparison (comparisonOp_token ht).1
      (ihl hleft hr.1 fun h => absurd h (by decide))
      (ihe hright hr.2.1 fun h => absurd h (by decide))
  | @isNull k e n t t' u us ht ht' hn h ih =>
    simp only [Expr.mapColumns] at hl hr ⊢
    cases hl with
    | isNull hl =>
    exact .isNull (by decide : Token.isKeyword "IS" (.word "IS") = true)
      (by decide : Token.isKeyword "NULL" (.word "NULL") = true)
      (flag_flagTokens (by decide) n) (ih hl hr fun h => absurd h (by decide))
  | @inList k e n t u us ps ht hn hne h hps hpos ih ihps =>
    simp only [Expr.mapColumns, Expr.mapColumnsAll_eq_map] at hl hr ⊢
    cases hl with
    | inList hl hitems =>
    simp only [Expr.Readable, Expr.readableEach_iff, Expr.tokensEach_eq_map] at hr
    have hin := Derives.inList (by decide : Token.isKeyword "IN" (.word "IN") = true)
      (flag_flagTokens (by decide : Text.upper "NOT" = "NOT") n) (by simpa using hne)
      (ih hl hr.1 fun h => absurd h (by decide)) (heach ihps hitems hr.2.1)
      (by simpa [Function.comp_def] using hr.2.2)
    simpa [Expr.normal, Expr.normalEach_eq_map, Expr.tokens, Expr.tokensEach_eq_map,
      Function.comp_def] using hin
  | @between k e low high n t t' u us v w ht ht' hn h hlow hhigh ih ihlow ihhigh =>
    simp only [Expr.mapColumns] at hl hr ⊢
    cases hl with
    | between hl hllow hlhigh =>
    exact .between (by decide : Token.isKeyword "BETWEEN" (.word "BETWEEN") = true)
      (by decide : Token.isKeyword "AND" (.word "AND") = true) (flag_flagTokens (by decide) n)
      (ih hl hr.1 fun h => absurd h (by decide)) (ihlow hllow hr.2.1 fun h => absurd h (by decide))
      (ihhigh hlhigh hr.2.2 fun h => absurd h (by decide))
  | @like k e p n t u us v ht hn h hp ih ihp =>
    simp only [Expr.mapColumns] at hl hr ⊢
    cases hl with
    | like hl hlp =>
    exact .like (by decide : Token.isKeyword "LIKE" (.word "LIKE") = true)
      (flag_flagTokens (by decide) n) (ih hl hr.1 fun h => absurd h (by decide))
      (ihp hlp hr.2 fun h => absurd h (by decide))
  | not ht h ih =>
    simp only [Expr.mapColumns] at hl hr ⊢
    cases hl with
    | not hl =>
    exact .not (by decide : Token.isKeyword "NOT" (.word "NOT") = true) (ih hl hr.1 fun _ => hr.2)
  | @tighter k r s e u hs h hpos ih =>
    have hlevel := Rank.level_above hs
    refine .tighter hs (ih hl hr fun hrank => hc (by omega)) ?_
    rintro rfl
    cases hs
    exact (hc (by decide)).resolve_left (h.not_isCondition f (by decide))

end Derives

end ShardedSql.Sql
