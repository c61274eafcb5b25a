import ShardedSql.Proofs.Sql.Inserts
import ShardedSql.Proofs.Sql.Selects
import ShardedSql.Proofs.Sql.Writes

namespace ShardedSql.Sql

open TokenParser
open Token (scan)

namespace Statement

/-- A statement with the names of its functions in capitals, and with signs as operators. -/
def normal : Statement → Statement
  | select s => select s.normal
  | insert i => insert i.normal
  | update u => update u.normal
  | delete d => delete d.normal
  | explain inner => explain inner
  | other tokens => other tokens

/-- A SELECT, INSERT, UPDATE or DELETE of expressions that are read from scanned tokens. -/
def Written : Statement → Prop
  | select s => s.Written (maxLevels - 1)
  | insert i => i.Written (maxLevels - 1)
  | update u => u.Written (maxLevels - 1)
  | delete d => d.Written (maxLevels - 1)
  | explain _ | other _ => False

/-- Whether a SELECT, INSERT, UPDATE or DELETE is read again from its text. -/
def Legible : Statement → Prop
  | select s => s.Legible
  | insert i => i.Legible
  | update u => u.Legible
  | delete d => d.Legible
  | explain _ | other _ => False

theorem run_parseDirect {levels : Nat} {w : String} {rest : List Token}
    (h : isExplain w = false) :
    (parseWithin levels).run (.word w :: rest) = (parseDirect levels w).run (.word w :: rest) := by
  unfold parseWithin
  simp [h]

/-- What a statement is read by, if it is of one of the kinds that are taken apart. -/
theorem run_parseWithin_eq_ok {levels : Nat} {ts rest : List Token} {stmt : Statement}
    (h : (parseWithin levels).run ts = .ok (stmt, rest)) :
    match stmt with
    | select s => (Select.parse levels).run ts = .ok (s, rest)
    | insert i => (Insert.parse levels).run ts = .ok (i, rest)
    | update u => (Update.parse levels).run ts = .ok (u, rest)
    | delete d => (Delete.parse levels).run ts = .ok (d, rest)
    | explain _ | other _ => True := by
  have hother : ∀ {ts : List Token}, parseOther.run ts = .ok (stmt, rest) → ∃ us, stmt = other us := by
    intro ts hrun
    cases hrun
    exact ⟨_, rfl⟩
  unfold parseWithin at h
  simp only [run_ahead_bind] at h
  split at h
  · cases h
  · next w us =>
    split at h
    · split at h
      · simp only [run_skip_bind] at h
        cases levels with
        | zero => cases h
        | succ levels =>
          obtain ⟨inner, ts₁, -, hpure⟩ := run_bind_eq_ok.mp h
          cases hpure
          trivial
      · obtain ⟨us, rfl⟩ := hother h
        trivial
    · unfold parseDirect at h
      split at h
      all_goals first
        | (obtain ⟨x, ts₁, hx, hpure⟩ := run_bind_eq_ok.mp h
           cases hpure
           exact hx)
        | (obtain ⟨us, rfl⟩ := hother h
           trivial)
  · obtain ⟨us, rfl⟩ := hother h
    trivial

/-- Whether a parser reads statements of one kind, and no other parser does. -/
structure ReadBy {α : Type} (wrap : α → Statement) (p : TokenParser α) (levels : Nat) : Prop where
  run_iff : ∀ {ts rest : List Token} {x : α},
    (parseWithin levels).run ts = .ok (wrap x, rest) ↔ p.run ts = .ok (x, rest)
  ne_nil : ∀ {ts rest : List Token} {x : α}, p.run ts = .ok (x, rest) → ts ≠ []

theorem ReadBy.of_keywords {α : Type} {wrap : α → Statement} {p : TokenParser α} {levels : Nat}
    {K : List String} (hK : ∀ kw ∈ K, ["EXPLAIN", "DESC", "DESCRIBE"].contains kw = false)
    (hread : ∀ {ts rest : List Token} {x : α},
      (parseWithin levels).run ts = .ok (wrap x, rest) → p.run ts = .ok (x, rest))
    (hfirst : ∀ {ts rest : List Token} {x : α},
      p.run ts = .ok (x, rest) → ∃ kw ∈ K, OpensWith kw ts)
    (hdirect : ∀ kw ∈ K, ∀ w, Text.upper w = kw →
      parseDirect levels w = do return wrap (← p)) : ReadBy wrap p levels := by
  have hne : ∀ {ts rest : List Token} {x : α}, p.run ts = .ok (x, rest) → ts ≠ [] := by
    rintro _ rest x h rfl
    obtain ⟨kw, -, hopens⟩ := hfirst h
    exact not_opensWith_nil kw hopens
  refine ⟨fun {ts rest x} => ⟨hread, fun h => ?_⟩, hne⟩
  obtain ⟨kw, hkw, hopens⟩ := hfirst h
  cases ts with
  | nil => exact absurd hopens (not_opensWith_nil kw)
  | cons t ts =>
    rw [opensWith_cons] at hopens
    cases t with
    | word w =>
      have hw : Text.upper w = kw := beq_iff_eq.mp hopens
      rw [run_parseDirect (by rw [isExplain, hw, hK kw hkw]), hdirect kw hkw w hw]
      exact run_bind_of_ok h
    | _ => cases hopens

theorem opensWith_of_needsWord {α : Type} {kw : String} {f : Unit → TokenParser α}
    {ts rest : List Token} {x : α} (h : (needsWord kw >>= f).run ts = .ok (x, rest)) :
    OpensWith kw ts := by
  obtain ⟨_, ts₁, hword, -⟩ := run_bind_eq_ok.mp h
  obtain ⟨t, ht, rfl⟩ := run_needsWord_eq_ok.mp hword
  exact (opensWith_cons _ _ _).mpr ht

theorem select_readBy (levels : Nat) : ReadBy select (Select.parse levels) levels := by
  refine .of_keywords (K := ["SELECT"]) (by decide) run_parseWithin_eq_ok ?_ ?_
  · exact fun h => ⟨_, List.mem_singleton_self _, opensWith_of_needsWord h⟩
  · intro kw hkw w hw
    rw [parseDirect, hw, List.mem_singleton.mp hkw]
    rfl

theorem insert_readBy (levels : Nat) : ReadBy insert (Insert.parse levels) levels := by
  refine .of_keywords (K := ["REPLACE", "INSERT"]) (by decide) run_parseWithin_eq_ok ?_ ?_
  · intro ts rest x h
    obtain ⟨replace, ts₁, hreplace, h₁⟩ := run_bind_eq_ok.mp h
    rcases run_takesWord_eq_ok.mp hreplace with ⟨rfl, t, ht, rfl⟩ | ⟨rfl, -, rfl⟩
    · exact ⟨"REPLACE", by simp, (opensWith_cons _ _ _).mpr ht⟩
    · exact ⟨"INSERT", by simp, opensWith_of_needsWord h₁⟩
  · intro kw hkw w hw
    rw [parseDirect, hw]
    rcases List.mem_cons.mp hkw with rfl | hkw
    · rfl
    · rw [List.mem_singleton.mp hkw]
      rfl

theorem update_readBy (levels : Nat) : ReadBy update (Update.parse levels) levels := by
  refine .of_keywords (K := ["UPDATE"]) (by decide) run_parseWithin_eq_ok ?_ ?_
  · exact fun h => ⟨_, List.mem_singleton_self _, opensWith_of_needsWord h⟩
  · intro kw hkw w hw
    rw [parseDirect, hw, List.mem_singleton.mp hkw]
    rfl

theorem delete_readBy (levels : Nat) : ReadBy delete (Delete.parse levels) levels := by
  refine .of_keywords (K := ["DELETE"]) (by decide) run_parseWithin_eq_ok ?_ ?_
  · exact fun h => ⟨_, List.mem_singleton_self _, opensWith_of_needsWord h⟩
  · intro kw hkw w hw
    rw [parseDirect, hw, List.mem_singleton.mp hkw]
    rfl

/-- A statement takes all tokens but the semicolons at the end. -/
theorem ofTokens?_eq_ok_iff {tokens : List Token} {stmt : Statement} :
    ofTokens? tokens = .ok stmt ↔ dropSemicolons tokens ≠ [] ∧
      (parseWithin maxLevels).run (dropSemicolons tokens) = .ok (stmt, []) := by
  unfold ofTokens?
  split
  · next hdrop => simp [hdrop]
  · next t ts hdrop =>
    rw [hdrop]
    simp only [ne_eq, reduceCtorEq, not_false_eq_true, true_and]
    split
    · next e hrun => simp [hrun]
    · next stmt' hrun => simp [hrun]
    · next stmt' t' ts' hrun => simp [hrun]

/-- What is read from a text: its tokens up to some semicolons. -/
theorem ofString?_eq_ok {text : String} {stmt : Statement} (h : ofString? text = .ok stmt) :
    ∃ ts semicolons, scan text.toList = .ok (ts ++ semicolons) ∧
      (parseWithin maxLevels).run ts = .ok (stmt, []) := by
  unfold ofString? Token.ofString? at h
  split at h
  · cases h
  · next tokens hscan =>
    refine ⟨dropSemicolons tokens, (tokens.reverse.takeWhile (·.isSymbol .semicolon)).reverse, ?_,
      (ofTokens?_eq_ok_iff.mp h).2⟩
    rw [hscan, dropSemicolons, ← List.reverse_append, List.takeWhile_append_dropWhile,
      List.reverse_reverse]

theorem ofString?_of_tokens {text : String} {stmt : Statement} {ts : List Token}
    (hscan : scan text.toList = .ok ts) (hplain : .symbol .semicolon ∉ ts)
    (hrun : (parseWithin maxLevels).run ts = .ok (stmt, [])) (hne : ts ≠ []) :
    ofString? text = .ok stmt := by
  have hdrop : dropSemicolons ts = ts := by
    unfold dropSemicolons
    rw [dropWhile_eq_self, List.reverse_reverse]
    intro t ht
    apply Bool.eq_false_iff.mpr
    intro hsemicolon
    rw [beq_iff_eq.mp hsemicolon] at ht
    exact hplain (List.mem_reverse.mp (List.mem_of_mem_head? ht))
  unfold ofString? Token.ofString?
  rw [hscan]
  exact ofTokens?_eq_ok_iff.mpr (hdrop.symm ▸ ⟨hne, hrun⟩)

section ReadBy

variable {α : Type} {wrap : α → Statement} {F : Phrase α} {p : TokenParser α} {y : α}

/-- What is read is made of scanned tokens. -/
theorem ReadBy.fit_of_run {levels : Nat} (hby : ReadBy wrap p levels) (h : F.Faithful p [])
    {ts rest : List Token} (hts : ∀ t ∈ ts, t.Scanned)
    (hrun : (parseWithin levels).run ts = .ok (wrap y, rest)) : F.Fit y := by
  obtain ⟨u, rfl, hfit, -⟩ := h.sound (hby.run_iff.mp hrun)
  exact hfit fun t ht => hts t (List.mem_append_left _ ht)

/-- What is printed is read again if it is readable. -/
theorem ReadBy.ofString?_sql (hby : ReadBy wrap p maxLevels) (h : F.Faithful p [])
    (hfit : F.Fit y) (hread : F.Readable y) : ofString? (F.sql y) = .ok (wrap (F.normal y)) := by
  have hspells := h.spells hfit hread .nil
  have hscan : scan (F.sql y).toList = .ok (F.tokens y) := by
    have hall := hspells.ok (show scan [] = .ok [] by rw [scan])
    simpa using hall
  have hrun : p.run (F.tokens y) = .ok (F.normal y, []) := by
    have hall := h.reads hfit hread (.nil : EndsAt [] [])
    simpa using hall
  exact ofString?_of_tokens hscan (h.plain hfit hread) (hby.run_iff.mpr hrun) (hby.ne_nil hrun)

/-- What is printed is readable if it is read again. -/
theorem ReadBy.readable_of_ofString? (hby : ReadBy wrap p maxLevels) (h : F.Faithful p [])
    (hfit : F.Fit y) (htame : Tame (F.sql y).toList)
    (htext : ofString? (F.sql y) = .ok (wrap (F.normal y))) : F.Readable y := by
  obtain ⟨ts, semicolons, hscan, hrun⟩ := ofString?_eq_ok htext
  obtain ⟨u, rfl, -, hecho⟩ := h.sound (hby.run_iff.mp hrun)
  have hall := @hecho y [] semicolons hfit rfl .nil (by simpa using htame) (by simpa using hscan)
  exact hall.1

end ReadBy

theorem select_faithful_most : (selectPhrase (maxLevels - 1)).Faithful (Select.parse maxLevels) [] :=
  select_faithful (maxLevels - 1)

theorem insert_faithful_most : (insertPhrase (maxLevels - 1)).Faithful (Insert.parse maxLevels) [] :=
  insert_faithful (maxLevels - 1)

theorem update_faithful_most : (updatePhrase (maxLevels - 1)).Faithful (Update.parse maxLevels) [] :=
  update_faithful (maxLevels - 1)

theorem delete_faithful_most : (deletePhrase (maxLevels - 1)).Faithful (Delete.parse maxLevels) [] :=
  delete_faithful (maxLevels - 1)

/-- A statement that is read from scanned tokens is written, unless it is not taken apart. -/
theorem written_of_run {ts rest : List Token} {stmt : Statement} (hts : ∀ t ∈ ts, t.Scanned)
    (h : (parseWithin maxLevels).run ts = .ok (stmt, rest)) :
    stmt.Written ∨ (∃ inner, stmt = explain inner) ∨ ∃ tokens, stmt = other tokens := by
  cases stmt with
  | select s =>
    have hfit := (select_readBy maxLevels).fit_of_run select_faithful_most hts h
    exact .inl hfit
  | insert i =>
    have hfit := (insert_readBy maxLevels).fit_of_run insert_faithful_most hts h
    exact .inl hfit
  | update u =>
    have hfit := (update_readBy maxLevels).fit_of_run update_faithful_most hts h
    exact .inl hfit
  | delete d =>
    have hfit := (delete_readBy maxLevels).fit_of_run delete_faithful_most hts h
    exact .inl hfit
  | explain inner => exact .inr (.inl ⟨inner, rfl⟩)
  | other tokens => exact .inr (.inr ⟨tokens, rfl⟩)

theorem written_of_ofString? {text : String} {stmt : Statement} (h : ofString? text = .ok stmt) :
    stmt.Written ∨ (∃ inner, stmt = explain inner) ∨ ∃ tokens, stmt = other tokens := by
  obtain ⟨ts, semicolons, hscan, hrun⟩ := ofString?_eq_ok h
  refine written_of_run (fun t ht => Token.scanned_of_mem_scan hscan t ?_) hrun
  exact List.mem_append_left _ ht

/-- The text of a legible statement is read as the statement. -/
theorem ofString?_sql {stmt : Statement} (h : stmt.Written) (hread : stmt.Legible) :
    ofString? stmt.sql = .ok stmt.normal := by
  cases stmt with
  | select s =>
    have hagain := (select_readBy maxLevels).ofString?_sql select_faithful_most h hread
    exact hagain
  | insert i =>
    have hagain := (insert_readBy maxLevels).ofString?_sql insert_faithful_most h hread
    exact hagain
  | update u =>
    have hagain := (update_readBy maxLevels).ofString?_sql update_faithful_most h hread
    exact hagain
  | delete d =>
    have hagain := (delete_readBy maxLevels).ofString?_sql delete_faithful_most h hread
    exact hagain
  | explain _ | other _ => cases h

/-- A statement is legible if its text is read as the statement, and no name or string in the text
has a line break or the start of a comment. -/
theorem legible_of_ofString? {stmt : Statement} (h : stmt.Written) (htame : Tame stmt.sql.toList)
    (htext : ofString? stmt.sql = .ok stmt.normal) : stmt.Legible := by
  cases stmt with
  | select s =>
    have hread := (select_readBy maxLevels).readable_of_ofString? select_faithful_most h htame htext
    exact hread
  | insert i =>
    have hread := (insert_readBy maxLevels).readable_of_ofString? insert_faithful_most h htame htext
    exact hread
  | update u =>
    have hread := (update_readBy maxLevels).readable_of_ofString? update_faithful_most h htame htext
    exact hread
  | delete d =>
    have hread := (delete_readBy maxLevels).readable_of_ofString? delete_faithful_most h htame htext
    exact hread
  | explain _ | other _ => cases h

end Statement

end ShardedSql.Sql
