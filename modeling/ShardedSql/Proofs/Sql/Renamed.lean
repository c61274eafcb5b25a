import ShardedSql.Proofs.Sql.Clauses

namespace ShardedSql.Sql

open TokenParser
open Token (backquote)

/-- Whether two lists are empty alike, and start alike as far as a test can tell. -/
structure SameFront {α : Type} (P : α → Prop) (xs ys : List α) : Prop where
  nil_iff : xs = [] ↔ ys = []
  head_iff : (∃ x ∈ xs.head?, P x) ↔ ∃ y ∈ ys.head?, P y

namespace SameFront

variable {α : Type} {P : α → Prop} {xs ys xs' ys' : List α}

theorem refl (xs : List α) : SameFront P xs xs := ⟨.rfl, .rfl⟩

theorem cons (x : α) (xs ys : List α) : SameFront P (x :: xs) (x :: ys) := ⟨by simp, by simp⟩

theorem append (h : SameFront P xs ys) (h' : SameFront P xs' ys') :
    SameFront P (xs ++ xs') (ys ++ ys') := by
  cases xs with
  | nil =>
    obtain rfl := h.nil_iff.mp rfl
    exact h'
  | cons x xs =>
    obtain ⟨y, ys, rfl⟩ := List.exists_cons_of_ne_nil (mt h.nil_iff.mpr (List.cons_ne_nil x xs))
    exact ⟨by simp, h.head_iff⟩

/-- Behind something that is there, nothing counts. -/
theorem front {zs : List α} (h : zs ≠ []) (xs ys : List α) : SameFront P (zs ++ xs) (zs ++ ys) := by
  obtain ⟨z, zs, rfl⟩ := List.exists_cons_of_ne_nil h
  exact .cons z _ _

/-- Lists that start with something that fails the test. -/
theorem of_not {x y : α} (hx : ¬P x) (hy : ¬P y) : SameFront P (x :: xs) (y :: ys) :=
  ⟨by simp, by simp [hx, hy]⟩

theorem opensWith_iff {kw : String} {us vs : List Token}
    (h : SameFront (fun t => t.isKeyword kw = true) us vs) : OpensWith kw us ↔ OpensWith kw vs := by
  simpa [OpensWith, Option.any_eq_true] using h.head_iff

theorem head_eq_iff {c : Char} {cs ds : List Char} (h : SameFront (· = c) cs ds) :
    cs.head? = some c ↔ ds.head? = some c := by
  simpa using h.head_iff

theorem commaTokens {β : Type} {P : Token → Prop} {f g : β → List Token} {xs : List β}
    (h : ∀ x ∈ xs, SameFront P (f x) (g x)) :
    SameFront P (Sql.commaTokens (xs.map f)) (Sql.commaTokens (xs.map g)) := by
  cases xs with
  | nil => exact .refl _
  | cons x xs =>
    rw [List.map_cons, List.map_cons, commaTokens_cons, commaTokens_cons]
    refine (h x List.mem_cons_self).append ?_
    cases xs with
    | nil => exact .refl _
    | cons y ys => exact .cons _ _ _

end SameFront

theorem sameFront_nameTokens {P : Token → Prop} (hP : ∀ n, ¬P (.ofName n)) (c c' : ColumnName) :
    SameFront P (nameTokens c.table c.name) (nameTokens c'.table c'.name) := by
  obtain ⟨_ | q, n⟩ := c <;> obtain ⟨_ | q', n'⟩ := c' <;> exact .of_not (hP _) (hP _)

theorem sqlName_head (n : String) : ∃ c cs, (sqlName n).toList = c :: cs ∧ c ≠ '-' := by
  unfold sqlName
  split
  · next hbare =>
    unfold isBareName at hbare
    split at hbare
    · cases hbare
    · next c cs hcs =>
      simp only [Bool.and_eq_true] at hbare
      exact ⟨c, cs, hcs, Token.ne_of_isWordChar (Text.isWordChar_of_isNameStart hbare.1.1) (by decide)⟩
  · rw [String.toList_ofList]
    exact ⟨backquote, _, rfl, by decide⟩

theorem columnName_head (c : ColumnName) : ∃ d ds, c.sql.toList = d :: ds ∧ d ≠ '-' := by
  obtain ⟨_ | q, n⟩ := c
  · exact sqlName_head n
  · obtain ⟨d, ds, hds, hne⟩ := sqlName_head q
    exact ⟨d, ds ++ ("." ++ sqlName n).toList, by simp [ColumnName.sql, sqlQualified, hds], hne⟩

namespace Expr

variable (f : ColumnName → ColumnName)

/-- Renaming columns changes no token at the front but a name. -/
theorem tokens_sameFront {P : Token → Prop} (hP : ∀ n, ¬P (.ofName n)) :
    ∀ e : Expr, SameFront P (e.mapColumns f).tokens e.tokens
  | column _ => sameFront_nameTokens hP _ _
  | literal _ | placeholder | var _ | defaultValue | star => .refl _
  | not _ | negate _ | call .. | paren _ => .cons _ _ _
  | binary l _ _ => (tokens_sameFront hP l).append (.cons _ _ _)
  | inList e _ _ =>
    (((tokens_sameFront hP e).append (.refl _)).append (.cons _ _ _)).append (.refl _)
  | between e _ _ _ =>
    (((tokens_sameFront hP e).append (.refl _)).append (.cons _ _ _)).append (.cons _ _ _)
  | isNull e _ => ((tokens_sameFront hP e).append (.cons _ _ _)).append (.refl _)
  | like e _ _ => ((tokens_sameFront hP e).append (.refl _)).append (.cons _ _ _)

theorem opensWith_mapColumns {kw : String} (hkw : reservedWords.contains kw = true) (e : Expr) :
    OpensWith kw (e.mapColumns f).tokens ↔ OpensWith kw e.tokens := by
  refine (tokens_sameFront f (fun n hn => ?_) e).opensWith_iff
  rw [isKeyword_of_name? (Token.name?_ofName n) hkw] at hn
  cases hn

theorem opensWith_mapColumnsAll {kw : String} (hkw : reservedWords.contains kw = true)
    (es : List Expr) : OpensWith kw (commaTokens (tokensEach (mapColumnsAll f es))) ↔
      OpensWith kw (commaTokens (tokensEach es)) := by
  have hfront : SameFront (fun t => t.isKeyword kw = true)
      (commaTokens (es.map fun e => (e.mapColumns f).tokens)) (commaTokens (es.map tokens)) := by
    refine .commaTokens fun e _ => tokens_sameFront f (fun n hn => ?_) e
    rw [isKeyword_of_name? (Token.name?_ofName n) hkw] at hn
    cases hn
  simpa [tokensEach_eq_map, mapColumnsAll_eq_map, Function.comp_def] using hfront.opensWith_iff

/-- Renaming columns puts no minus in front of the text, and takes none away. -/
theorem sql_sameFront : ∀ e : Expr, SameFront (· = '-') (e.mapColumns f).sql.toList e.sql.toList
  | column c => by
    obtain ⟨d, ds, hds, hd⟩ := columnName_head c
    obtain ⟨d', ds', hds', hd'⟩ := columnName_head (f c)
    rw [mapColumns, sql, sql, hds, hds']
    exact .of_not hd' hd
  | literal _ | placeholder | var _ | defaultValue | star => .refl _
  | not _ | negate _ | paren _ => by
    simp only [mapColumns, sql, String.toList_append, List.append_assoc]
    exact .front (by simp) _ _
  | call .. => by
    simp only [mapColumns, sql, String.toList_append, List.append_assoc]
    exact (SameFront.refl _).append (.front (by simp) _ _)
  | binary l _ _ => by
    simp only [mapColumns, sql, String.toList_append, List.append_assoc]
    exact (sql_sameFront l).append (.front (by simp) _ _)
  | isNull e _ => by
    simp only [mapColumns, sql, String.toList_append, List.append_assoc]
    exact (sql_sameFront e).append (.front (by simp) _ _)
  | inList e _ _ | between e _ _ _ | like e _ _ => by
    simp only [mapColumns, sql, String.toList_append, List.append_assoc]
    exact (sql_sameFront e).append ((SameFront.refl _).append (.front (by simp) _ _))

theorem standsAlone_mapColumns (e : Expr) : (e.mapColumns f).StandsAlone ↔ e.StandsAlone := by
  have hcondition : (e.mapColumns f).IsCondition ↔ e.IsCondition := by cases e <;> rfl
  rw [StandsAlone, StandsAlone, hcondition, opensWith_mapColumns f (by decide)]

mutual

theorem readable_mapColumns : ∀ e : Expr, (e.mapColumns f).Readable ↔ e.Readable
  | column _ | literal _ | placeholder | var _ | defaultValue | star => .rfl
  | not e => by simp only [mapColumns, Readable, readable_mapColumns e, standsAlone_mapColumns]
  | negate e => by
    simp only [mapColumns, Readable, readable_mapColumns e, ne_eq, (sql_sameFront f e).head_eq_iff]
  | binary l _ r => by
    simp only [mapColumns, Readable, readable_mapColumns l, readable_mapColumns r,
      standsAlone_mapColumns]
  | inList e items _ => by
    simp only [mapColumns, Readable, readable_mapColumns e, readableEach_mapColumns items,
      opensWith_mapColumnsAll f (by decide : reservedWords.contains "SELECT" = true)]
  | between e low high _ => by
    simp only [mapColumns, Readable, readable_mapColumns e, readable_mapColumns low,
      readable_mapColumns high]
  | isNull e _ => by simp only [mapColumns, Readable, readable_mapColumns e]
  | like e p _ => by
    simp only [mapColumns, Readable, readable_mapColumns e, readable_mapColumns p]
  | call _ args _ => by
    simp only [mapColumns, Readable, readableEach_mapColumns args,
      opensWith_mapColumnsAll f (by decide : reservedWords.contains "DISTINCT" = true)]
  | paren e => by
    simp only [mapColumns, Readable, readable_mapColumns e, standsAlone_mapColumns,
      opensWith_mapColumns f (by decide : reservedWords.contains "SELECT" = true)]

theorem readableEach_mapColumns :
    ∀ es : List Expr, ReadableEach (mapColumnsAll f es) ↔ ReadableEach es
  | [] => .rfl
  | e :: es => by
    simp only [mapColumnsAll, ReadableEach, readable_mapColumns e, standsAlone_mapColumns,
      readableEach_mapColumns es]

end

/-- Renaming columns leaves an expression as legible as it is. -/
theorem legible_mapColumns (e : Expr) : (e.mapColumns f).Legible ↔ e.Legible := by
  rw [Legible, Legible, readable_mapColumns, standsAlone_mapColumns]

end Expr

end ShardedSql.Sql
