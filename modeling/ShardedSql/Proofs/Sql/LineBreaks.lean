import ShardedSql.Proofs.Sql.Spelling
import Mathlib.Data.List.Basic

namespace ShardedSql.Sql

open Text (isBlank isWordChar)

variable {c : Char} {cs rest v : List Char}

theorem head?_append_line {d : Char} (hd : d ≠ '\n') :
    (cs ++ '\n' :: v).head? = some d ↔ cs.head? = some d := by
  cases cs with
  | nil => simpa using hd.symm
  | cons c cs => rfl

/-- A symbol does not go on behind a line break. -/
theorem Symbol.atFront?_append_line {s : Symbol} (h : Symbol.atFront? cs = some (s, rest)) :
    Symbol.atFront? (cs ++ '\n' :: v) = some (s, rest ++ '\n' :: v) := by
  revert h
  fun_cases Symbol.atFront? cs with
  | case4 | case7 | case8 =>
    rintro ⟨⟩
    cases rest <;> simp_all [Symbol.atFront?]
  | case20 =>
    intro h
    cases h
  | _ =>
    rintro ⟨⟩
    rfl

namespace Token

theorem afterComment_append (h : afterComment cs = some rest) :
    afterComment (cs ++ v) = some (rest ++ v) := by
  fun_induction afterComment cs with
  | case1 =>
    cases h
    rfl
  | case2 c cs hnot ih =>
    rw [List.cons_append, afterComment.eq_2, ih h]
    rintro tail rfl htail
    cases cs with
    | nil => cases h
    | cons d cs =>
      cases htail
      exact hnot cs rfl rfl
  | case3 => cases h

/-- A string that is closed stays closed in front of another text, if this does not double the
quote. -/
theorem stringBody_append {quote : Char} {r : List Char × List Char} (hv : v.head? ≠ some quote)
    (h : stringBody quote cs = some r) : stringBody quote (cs ++ v) = some (r.1, r.2 ++ v) := by
  fun_induction stringBody quote cs generalizing r with
  | case1 | case2 => cases h
  | case3 d cs ih =>
    obtain ⟨q, hq, rfl⟩ := Option.map_eq_some_iff.mp h
    simp [stringBody, ih hq]
  | case4 hslash =>
    cases h
    cases v with
    | nil => simp [stringBody, hslash]
    | cons d v =>
      have hd : d ≠ quote := fun hd => hv (by simp [hd])
      simp [stringBody, hslash, hd]
  | case5 cs hslash ih =>
    obtain ⟨q, hq, rfl⟩ := Option.map_eq_some_iff.mp h
    simp [stringBody, hslash, ih hq]
  | case6 d cs hd hslash =>
    cases h
    simp [stringBody, hslash, hd]
  | case7 d cs hslash hquote ih =>
    obtain ⟨q, hq, rfl⟩ := Option.map_eq_some_iff.mp h
    rw [List.cons_append, stringBody_of_ne hslash hquote, ih hq]
    rfl

theorem nameBody_append {r : List Char × List Char} (hv : v.head? ≠ some backquote)
    (h : nameBody cs = some r) : nameBody (cs ++ v) = some (r.1, r.2 ++ v) := by
  fun_induction nameBody cs generalizing r with
  | case1 => cases h
  | case2 =>
    cases h
    cases v with
    | nil => simp [nameBody]
    | cons d v =>
      have hd : d ≠ backquote := fun hd => hv (by simp [hd])
      simp [nameBody, hd]
  | case3 cs ih =>
    obtain ⟨q, hq, rfl⟩ := Option.map_eq_some_iff.mp h
    simp [nameBody, ih hq]
  | case4 d cs hd =>
    cases h
    simp [nameBody, hd]
  | case5 d cs hd ih =>
    obtain ⟨q, hq, rfl⟩ := Option.map_eq_some_iff.mp h
    rw [List.cons_append, nameBody_of_ne hd, ih hq]
    rfl

theorem endsWord_line : EndsWord ('\n' :: v) := by
  rintro c ⟨⟩
  decide

/-- A comment to the end of its line leaves what follows the line break. -/
theorem dropWhile_append_line :
    (cs ++ '\n' :: v).dropWhile (· ≠ '\n') = cs.dropWhile (· ≠ '\n') ++ '\n' :: v :=
  dropWhile_append_of_head (by rintro c ⟨⟩; decide)

/-- What a text starts with does not reach across a line break. -/
theorem first_append_line {t : Option Token} (h : first c cs = .ok (t, rest)) :
    first c (cs ++ '\n' :: v) = .ok (t, rest ++ '\n' :: v) := by
  have hminus : (cs ++ '\n' :: v).head? = some '-' ↔ _ := head?_append_line (by decide)
  have hstar : (cs ++ '\n' :: v).head? = some '*' ↔ _ := head?_append_line (by decide)
  have hline : ('\n' :: v).head? ≠ some '.' := by simp
  unfold first at h ⊢
  simp only [hminus, hstar, startsWithDigit_append endsWord_line]
  split at h
  · next hblank =>
    cases h
    rw [if_pos hblank]
  next hblank =>
  rw [if_neg hblank]
  split at h
  · next hcomment =>
    cases h
    rw [if_pos hcomment, dropWhile_append_line]
  next hcomment =>
  rw [if_neg hcomment]
  split at h
  · next hopen =>
    have hne : cs ≠ [] := by
      rintro rfl
      simp at hopen
    rw [if_pos hopen, List.tail_append_of_ne_nil hne]
    split at h
    · next hafter =>
      cases h
      rw [afterComment_append hafter]
    · cases h
  next hopen =>
  rw [if_neg hopen]
  split at h
  · next hquote =>
    have hbreak : ('\n' :: v).head? ≠ some c := by
      rcases hquote with rfl | rfl <;> simp
    rw [if_pos hquote]
    split at h
    · next hbody =>
      cases h
      rw [stringBody_append hbreak hbody]
    · cases h
  next hquote =>
  rw [if_neg hquote]
  split at h
  · next hback =>
    rw [if_pos hback]
    split at h
    · next hbody =>
      cases h
      rw [nameBody_append (by simp [backquote]) hbody]
    · cases h
  next hback =>
  rw [if_neg hback]
  split at h
  · next hnumber =>
    cases h
    rw [if_pos hnumber, ← List.cons_append, numberOrWord_append endsWord_line hline]
  next hnumber =>
  rw [if_neg hnumber]
  split at h
  · next hword =>
    have hends := (endsWord_line (v := v)).not_isWordChar
    cases h
    rw [if_pos hword, takeWhile_append_of_head hends, dropWhile_append_of_head hends]
  next hword =>
  rw [if_neg hword]
  split at h
  · next hmark =>
    cases h
    rw [if_pos hmark]
  next hmark =>
  rw [if_neg hmark]
  split at h
  · next hsymbol =>
    cases h
    rw [← List.cons_append, Symbol.atFront?_append_line hsymbol]
  · cases h

/-- What stands on the lines behind a text that is scanned changes nothing about it. -/
theorem spells_line {ts : List Token} (h : scan cs = .ok ts) : Spells cs ts ('\n' :: v) := by
  fun_induction scan cs generalizing ts with
  | case1 =>
    cases h
    exact Spells.nil
  | case2 => cases h
  | case3 => cases h
  | case4 c cs found rest hfirst ts' hscan ih =>
    cases h
    have hrest := ih hscan
    unfold Spells at hrest ⊢
    rw [List.cons_append, scan_of_first (first_append_line hfirst), hrest]
    cases scan ('\n' :: v) with
    | error e => rfl
    | ok us => simp [Except.map]

/-- Scanning is local. A line break ends whatever a text ends with, be it a comment, a number or a
symbol, so that two lines are scanned apart, also where the second is refused. -/
theorem lines_scan_apart {u : String} {ts : List Token} (h : ofString? u = .ok ts) (v : String) :
    ofString? (u ++ "\n" ++ v) = (ofString? v).map (ts ++ ·) := by
  have hline : scan (u.toList ++ '\n' :: v.toList) = _ := spells_line h
  rw [scan_blank (by decide)] at hline
  simpa [ofString?] using hline

theorem exponent_ends_with_its_line :
    ofString? "SELECT 1e" = .ok [.word "SELECT", .word "1e"] ∧
    ofString? ("SELECT 1e" ++ "\n" ++ "+5 -- years") =
      .ok [.word "SELECT", .word "1e", .symbol .plus, .number "5"] := by
  have hfirst : ofString? "SELECT 1e" = .ok [.word "SELECT", .word "1e"] := by decide +kernel
  have hsecond : ofString? "+5 -- years" = .ok [.symbol .plus, .number "5"] := by decide +kernel
  exact ⟨hfirst, by rw [lines_scan_apart hfirst, hsecond]; rfl⟩

end Token

end ShardedSql.Sql
