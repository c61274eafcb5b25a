import ShardedSql.Proofs.Sql.Phrases
import ShardedSql.Sql.Statement.Print

namespace ShardedSql.Sql

open TokenParser
open Token (isPlainWord scan)

namespace Phrase

variable {α σ : Type} {F : Phrase α} {p p' : TokenParser α} {H T : List Token}

/-- A list with commas between. -/
def list (F : Phrase α) : Phrase (List α) where
  sql ys := commaSeparated (ys.map F.sql)
  tokens ys := commaTokens (ys.map F.tokens)
  normal := List.map F.normal
  Fit ys := ys ≠ [] ∧ ∀ y ∈ ys, F.Fit y
  Readable ys := ∀ y ∈ ys, F.Readable y

theorem Faithful.list (h : F.Faithful p (.symbol .comma :: T)) (hT : .symbol .comma ∉ T) :
    F.list.Faithful (TokenParser.list p) T where
  spells {ys rest} hfit hread hrest :=
    Spells.list (EndsTextAt.comma (List.mem_cons_self ..))
      (fun y hy _ hrest => h.spells (hfit.2 y hy) (hread y hy) hrest)
      (hrest.mono fun _ ht => List.mem_cons_of_mem _ ht)
  plain {ys} hfit hread hmem := by
    rcases eq_or_mem_of_mem_commaTokens hmem with ⟨⟨⟩⟩ | ⟨u, hu, hmem⟩
    obtain ⟨y, hy, rfl⟩ := List.mem_map.mp hu
    exact h.plain (hfit.2 y hy) (hread y hy) hmem
  reads {ys ws} hfit hread hws := by
    have hne : ys.map (fun y => (F.normal y, F.tokens y)) ≠ [] := by simpa using hfit.1
    have hitem : ∀ q ∈ ys.map (fun y => (F.normal y, F.tokens y)), ∀ rest,
        EndsAt (.symbol .comma :: T) rest → p.run (q.2 ++ rest) = .ok (q.1, rest) := by
      intro q hq rest hrest
      obtain ⟨y, hy, rfl⟩ := List.mem_map.mp hq
      exact h.reads (hfit.2 y hy) (hread y hy) hrest
    have hrun := run_list (EndsAt (.symbol .comma :: T)) hne hitem (.cons (by simp))
      (hws.mono fun _ ht => List.mem_cons_of_mem _ ht) (hws.head_ne hT)
    simpa [Phrase.list, Function.comp_def] using hrun
  sound := by
    refine h.sound.list.mono ?_
    rintro xs u ⟨ps, hne, rfl, rfl, hps⟩
    refine ⟨?_, ?_⟩
    · intro hscanned
      refine ⟨by simpa using hne, ?_⟩
      intro x hx
      obtain ⟨q, hq, rfl⟩ := List.mem_map.mp hx
      exact (hps q hq).1 fun t ht => hscanned t (mem_commaTokens (List.mem_map_of_mem hq) ht)
    · intro ys rest a hfit hys hrest htame hscan
      obtain ⟨hread, hu, hafter⟩ := Echo.list (.comma (by simp)) (fun q hq => (hps q hq).2)
        hfit.2 hys (hrest.mono fun _ ht => List.mem_cons_of_mem _ ht) htame hscan
      exact ⟨hread, congrArg commaTokens hu, hafter⟩

/-- A thing between parentheses. -/
def enclosed (F : Phrase α) : Phrase α where
  sql y := "(" ++ F.sql y ++ ")"
  tokens y := .symbol .leftParen :: F.tokens y ++ [.symbol .rightParen]
  normal := F.normal
  Fit := F.Fit
  Readable := F.Readable

theorem Faithful.enclosed (h : F.Faithful p [.symbol .rightParen]) :
    F.enclosed.Faithful (do
      needsSymbol .leftParen
      let y ← p
      needsSymbol .rightParen
      return y) T where
  spells {y rest} hfit hread hrest := by
    have hinner := h.spells hfit hread (.rightParen (by simp) rest)
    have hall := Spells.leftParen.append (hinner.append (Spells.rightParen : Spells _ _ rest))
    simpa [Phrase.enclosed] using hall
  plain hfit hread := by simp [Phrase.enclosed, h.plain hfit hread]
  reads {y ws} hfit hread hws := by
    have hrun := h.reads hfit hread
      (.cons (by simp) ws : EndsAt [.symbol .rightParen] (.symbol .rightParen :: ws))
    simp only [Phrase.enclosed, List.cons_append, List.append_assoc, List.nil_append]
    rw [run_bind_of_ok (run_needsSymbol_cons _), run_bind_of_ok hrun,
      run_bind_of_ok (run_needsSymbol_cons _)]
    rfl
  sound := by
    intro ts x mid hrun
    obtain ⟨_, ts₁, hopen, h₁⟩ := run_bind_eq_ok.mp hrun
    obtain rfl := run_needsSymbol_eq_ok.mp hopen
    obtain ⟨x, ts₂, hp, h₂⟩ := run_bind_eq_ok.mp h₁
    obtain ⟨_, ts₃, hclose, hpure⟩ := run_bind_eq_ok.mp h₂
    obtain rfl := run_needsSymbol_eq_ok.mp hclose
    cases hpure
    obtain ⟨u, rfl, hfit, hecho⟩ := h.sound hp
    refine ⟨.symbol .leftParen :: u ++ [.symbol .rightParen], by simp,
      fun hscanned => hfit fun t ht => hscanned t (by simp [ht]), ?_⟩
    intro y rest a hfity hy hrest htame hscan
    have hsql : (F.enclosed.sql y).toList ++ rest = ['('] ++ ((F.sql y).toList ++ ')' :: rest) := by
      simp [Phrase.enclosed]
    rw [hsql] at htame hscan
    obtain ⟨ws, hws, heq⟩ := Spells.leftParen.rest_of_ok hscan
    simp only [List.cons_append, List.append_assoc, List.nil_append, List.cons.injEq,
      true_and] at heq
    subst heq
    obtain ⟨hread, rfl, hclosed⟩ := hecho hfity hy (.rightParen (by simp) rest) htame.of_append hws
    obtain ⟨ws, hend, heq⟩ := Spells.rightParen.rest_of_ok hclosed
    cases heq
    exact ⟨hread, rfl, hend⟩

/-- A list between parentheses that may be empty. -/
def parens (F : Phrase α) : Phrase (List α) where
  sql := F.list.enclosed.sql
  tokens := F.list.enclosed.tokens
  normal := F.list.normal
  Fit ys := ∀ y ∈ ys, F.Fit y
  Readable := F.list.Readable

theorem Faithful.parens (h : F.Faithful p [.symbol .comma, .symbol .rightParen])
    (hhead : ∀ {y : α}, F.Fit y → F.Readable y → ∃ t us, F.tokens y = t :: us ∧
      t ≠ .symbol .rightParen) :
    F.parens.Faithful (do
      needsSymbol .leftParen
      let ys ← if ← seesSymbol .rightParen then pure [] else TokenParser.list p
      needsSymbol .rightParen
      return ys) T := by
  have hlist : F.list.enclosed.Faithful (do
      needsSymbol .leftParen
      let ys ← TokenParser.list p
      needsSymbol .rightParen
      return ys) T := (h.list (by decide)).enclosed
  have hempty : ∀ rest : List Char, Spells (F.parens.sql []).toList (F.parens.tokens []) rest := by
    intro rest
    have hall : Spells (['('] ++ [')']) _ rest := Spells.leftParen.append Spells.rightParen
    simpa [Phrase.parens, Phrase.enclosed, Phrase.list, commaSeparated, commaTokens] using hall
  refine ⟨?_, ?_, ?_, ?_⟩
  · intro ys rest hfit hread hrest
    by_cases hne : ys = []
    · subst hne
      exact hempty rest
    · exact hlist.spells ⟨hne, hfit⟩ hread hrest
  · intro ys hfit hread
    by_cases hne : ys = []
    · subst hne
      simp [Phrase.parens, Phrase.enclosed, Phrase.list, commaTokens]
    · exact hlist.plain ⟨hne, hfit⟩ hread
  · intro ys ws hfit hread hws
    cases ys with
    | nil => rfl
    | cons y ys =>
      have hrun := hlist.reads ⟨by simp, hfit⟩ hread hws
      obtain ⟨t, us, htokens, hne⟩ := hhead (hfit y (by simp)) (hread y (by simp))
      have hfirst : ∃ vs, F.parens.tokens (y :: ys) ++ ws = .symbol .leftParen :: t :: vs := by
        simp only [Phrase.parens, Phrase.enclosed, Phrase.list, List.map_cons, commaTokens_cons,
          htokens]
        exact ⟨_, rfl⟩
      obtain ⟨vs, hvs⟩ := hfirst
      change (_ : TokenParser (List α)).run (F.parens.tokens (y :: ys) ++ ws) = _ at hrun
      rw [hvs, run_bind_of_ok (run_needsSymbol_cons _)] at hrun ⊢
      rw [run_seesSymbol_bind]
      simpa [hne, Phrase.parens, Phrase.enclosed, Phrase.list] using hrun
  · intro ts xs mid hrun
    obtain ⟨_, ts₁, hopen, h₁⟩ := run_bind_eq_ok.mp hrun
    obtain rfl := run_needsSymbol_eq_ok.mp hopen
    rw [run_seesSymbol_bind] at h₁
    by_cases hclosed : ts₁.head? = some (.symbol .rightParen)
    · obtain ⟨ts₂, rfl⟩ := List.head?_eq_some_iff.mp hclosed
      cases h₁
      refine ⟨F.parens.tokens [], rfl, fun _ y hy => absurd hy List.not_mem_nil, ?_⟩
      intro ys rest a hfit hys hrest htame hscan
      obtain rfl : ys = [] := List.map_eq_nil_iff.mp hys
      obtain ⟨ws, hend, heq⟩ := (hempty rest).rest_of_ok hscan
      rw [List.append_cancel_left heq]
      exact ⟨fun y hy => absurd hy List.not_mem_nil, rfl, hend⟩
    · simp only [hclosed, decide_false, Bool.false_eq_true, if_false] at h₁
      obtain ⟨u, hu, hfit, hecho⟩ :=
        hlist.sound ((run_bind_of_ok (run_needsSymbol_cons _)).trans h₁)
      refine ⟨u, hu, fun hscanned => (hfit hscanned).2, ?_⟩
      intro ys rest a hfity hys hrest htame hscan
      have hne : ys ≠ [] := by
        rintro rfl
        obtain ⟨xs', ts₂, hitems, h₂⟩ := run_bind_eq_ok.mp h₁
        obtain ⟨_, ts₃, -, hpure⟩ := run_bind_eq_ok.mp h₂
        cases hpure
        obtain ⟨-, -, ps, hps, hmap, -⟩ := h.sound.list hitems
        exact hps (List.map_eq_nil_iff.mp (hmap.symm.trans hys.symm))
      exact hecho ⟨hne, hfity⟩ hys hrest htame hscan

/-- What stands behind a keyword, and may be absent with it. -/
def clause (F : Phrase α) (absent : α → Bool) (text kw : String) : Phrase α where
  sql y := if absent y then "" else text ++ F.sql y
  tokens y := if absent y then [] else .word kw :: F.tokens y
  normal := F.normal
  Fit y := absent y = false → F.Fit y
  Readable y := absent y = false → F.Readable y

/-- Whether there is just one form of an absent clause, and no other is read as one. -/
structure Absence (F : Phrase α) (absent : α → Bool) (a : α) : Prop where
  at_default : absent a = true
  normal : ∀ y, absent (F.normal y) = absent y
  eq : ∀ y, absent y = true → F.normal y = a

structure KeywordText (text kw : String) : Prop where
  plain : isPlainWord kw.toList = true
  upper : Text.upper kw = kw
  text : text.toList = ' ' :: (kw.toList ++ [' '])

section Clause

variable {absent : α → Bool} {default : α} {text kw : String}

theorem clause_opens (hkw : KeywordText text kw) :
    (F.clause absent text kw).Opens (.word kw :: T) T where
  text {y rest} _ hrest := by
    by_cases hy : absent y = true
    · simpa [Phrase.clause, hy] using hrest.mono fun _ ht => List.mem_cons_of_mem _ ht
    · have hspace := EndsTextAt.space_keyword hkw.plain (List.mem_cons_self : .word kw ∈ .word kw :: T)
        ((F.sql y).toList ++ rest)
      simpa [Phrase.clause, hy, hkw.text] using hspace
  tokens {y ws} _ _ hws := by
    by_cases hy : absent y = true
    · simpa [Phrase.clause, hy] using hws.mono fun _ ht => List.mem_cons_of_mem _ ht
    · simpa [Phrase.clause, hy] using EndsAt.cons (List.mem_cons_self) (F.tokens y ++ ws)

/-- A clause is read if what stands behind its keyword is. It may also be left out behind the
keyword. -/
theorem Faithful.clauseOr (h : F.Faithful p T) (habsent : F.Absence absent default)
    (hkw : KeywordText text kw) (hT : ∀ t ∈ T, t.isKeyword kw = false)
    (hge : ∀ {ts mid : List Token} {x : α}, p.run ts = .ok (x, mid) → p'.run ts = .ok (x, mid))
    (hsound : ∀ {ts mid : List Token} {x : α}, p'.run ts = .ok (x, mid) →
      p.run ts = .ok (x, mid) ∨ absent x = true ∧ ∃ u, ts = u ++ mid) :
    (F.clause absent text kw).Faithful (do if ← takesWord kw then p' else return default) T where
  spells {y rest} hfit hread hrest := by
    by_cases hy : absent y = true
    · simpa [Phrase.clause, hy] using Spells.nil
    · have hy := Bool.eq_false_iff.mpr hy
      have hall := (Spells.spaced hkw.plain).append (h.spells (hfit hy) (hread hy) hrest)
      simpa [Phrase.clause, hy, hkw.text] using hall
  plain {y} hfit hread := by
    by_cases hy : absent y = true
    · simp [Phrase.clause, hy]
    · have hy := Bool.eq_false_iff.mpr hy
      simp [Phrase.clause, hy, h.plain (hfit hy) (hread hy)]
  reads {y ws} hfit hread hws := by
    by_cases hy : absent y = true
    · simp only [Phrase.clause, hy, if_true, List.nil_append]
      rw [run_bind_of_ok (run_takesWord_of_not_opens (hws.not_opensWith hT)), habsent.eq y hy]
      rfl
    · have hy := Bool.eq_false_iff.mpr hy
      have hopens : OpensWith kw (.word kw :: (F.tokens y ++ ws)) :=
        (opensWith_cons _ _ _).mpr (beq_iff_eq.mpr hkw.upper)
      simp only [Phrase.clause, hy, Bool.false_eq_true, if_false, List.cons_append]
      rw [run_bind_of_ok (run_takesWord_of_opens hopens)]
      exact hge (h.reads (hfit hy) (hread hy) hws)
  sound := by
    intro ts x mid hrun
    obtain ⟨b, ts₁, hword, h₁⟩ := run_bind_eq_ok.mp hrun
    rcases run_takesWord_eq_ok.mp hword with ⟨rfl, t, ht, rfl⟩ | ⟨rfl, -, rfl⟩
    · -- a text without the clause goes on with what ends the clause, and not with its keyword
      have hthere : ∀ {y : α} {rest : List Char} {ws : List Token}, EndsTextAt T rest →
          scan (((F.clause absent text kw).sql y).toList ++ rest) = .ok (t :: ws) →
            absent y = false := by
        intro y rest ws hrest hscan
        apply Bool.eq_false_iff.mpr
        intro hy
        rw [show (F.clause absent text kw).sql y = "" by simp [Phrase.clause, hy]] at hscan
        have hfalse := hT t (hrest.ends hscan t rfl)
        rw [ht] at hfalse
        cases hfalse
      rcases hsound h₁ with hp | ⟨hx, u, rfl⟩
      · obtain ⟨u, rfl, hfit, hecho⟩ := h.sound hp
        refine ⟨t :: u, rfl, fun hscanned _ => hfit fun t ht => hscanned t (by simp [ht]), ?_⟩
        intro y rest a hfity hy hrest htame hscan
        have hpresent := hthere hrest hscan
        have hsql : ((F.clause absent text kw).sql y).toList ++ rest =
            ' ' :: (kw.toList ++ [' ']) ++ ((F.sql y).toList ++ rest) := by
          simp [Phrase.clause, hpresent, hkw.text]
        rw [hsql] at htame hscan
        obtain ⟨ws, hws, heq⟩ := (Spells.spaced hkw.plain).rest_of_ok hscan
        cases heq
        obtain ⟨hread, rfl, hend⟩ := hecho (hfity hpresent) hy hrest htame.of_append hws
        exact ⟨fun _ => hread, by simp [Phrase.clause, hpresent], hend⟩
      · refine ⟨t :: u, rfl, fun _ hnot => absurd hx (by simp [hnot]), ?_⟩
        intro y rest a hfity hy hrest htame hscan
        have hpresent := hthere hrest hscan
        rw [← habsent.normal, show F.normal y = x from hy, hx] at hpresent
        cases hpresent
    · cases h₁
      refine ⟨[], rfl, fun _ hnot => absurd habsent.at_default (by simp [hnot]), ?_⟩
      intro y rest a hfit hy hrest htame hscan
      have hy' : absent y = true := by
        rw [← habsent.normal, show F.normal y = default from hy, habsent.at_default]
      refine ⟨fun h => absurd h (by simp [hy']), by simp [Phrase.clause, hy'], ?_⟩
      simpa [Phrase.clause, hy'] using hscan

theorem Faithful.clause (h : F.Faithful p T) (habsent : F.Absence absent default)
    (hkw : KeywordText text kw) (hT : ∀ t ∈ T, t.isKeyword kw = false) :
    (F.clause absent text kw).Faithful (do if ← takesWord kw then p else return default) T :=
  h.clauseOr habsent hkw hT (fun hrun => hrun) fun hrun => .inl hrun

end Clause

/-- What is there if a choice was made. -/
def present (F : Phrase α) : Phrase (Option α) where
  sql o := o.elim "" F.sql
  tokens o := o.elim [] F.tokens
  normal := Option.map F.normal
  Fit o := ∃ y ∈ o, F.Fit y
  Readable o := ∀ y ∈ o, F.Readable y

theorem Faithful.present (h : F.Faithful p T) :
    F.present.Faithful (do return some (← p)) T where
  spells := by
    rintro _ rest ⟨y, rfl, hfit⟩ hread hrest
    exact h.spells hfit (hread y rfl) hrest
  plain := by
    rintro _ ⟨y, rfl, hfit⟩ hread
    exact h.plain hfit (hread y rfl)
  reads := by
    rintro _ ws ⟨y, rfl, hfit⟩ hread hws
    exact run_bind_of_ok (h.reads hfit (hread y rfl) hws)
  sound := by
    intro ts x mid hrun
    obtain ⟨x, ts₁, hx, hpure⟩ := run_bind_eq_ok.mp hrun
    cases hpure
    obtain ⟨u, rfl, hfit, hecho⟩ := h.sound hx
    refine ⟨u, rfl, fun hscanned => ⟨x, rfl, hfit hscanned⟩, ?_⟩
    rintro _ rest a ⟨y, rfl, hfity⟩ hy hrest htame hscan
    obtain ⟨hread, hu, hend⟩ := hecho hfity (Option.some.inj hy) hrest htame hscan
    refine ⟨?_, hu, hend⟩
    rintro _ ⟨⟩
    exact hread

/-- A thing behind a keyword, if it is there. -/
def optional (F : Phrase α) (text kw : String) : Phrase (Option α) where
  sql o := sqlClause text (o.map F.sql)
  tokens o := o.elim [] fun y => .word kw :: F.tokens y
  normal := Option.map F.normal
  Fit o := ∀ y ∈ o, F.Fit y
  Readable o := ∀ y ∈ o, F.Readable y

theorem optional_matches (F : Phrase α) (text kw : String) : (F.optional text kw).Matches
    (F.present.clause Option.isNone text kw) id id where
  sql o _ := by cases o <;> rfl
  tokens o := by cases o <;> rfl
  fit o := by cases o <;> simp [Phrase.optional, Phrase.clause, Phrase.present]
  readable o := by cases o <;> simp [Phrase.optional, Phrase.clause, Phrase.present]

theorem optional_opens {text kw : String} (hkw : KeywordText text kw) :
    (F.optional text kw).Opens (.word kw :: T) T :=
  (optional_matches F text kw).opens (clause_opens hkw)

theorem Faithful.optional (h : F.Faithful p T) {text kw : String} (hkw : KeywordText text kw)
    (hT : ∀ t ∈ T, t.isKeyword kw = false) : (F.optional text kw).Faithful (after? kw p) T := by
  have habsent : F.present.Absence Option.isNone none := by
    refine ⟨rfl, ?_, ?_⟩
    · rintro (_ | y) <;> rfl
    · rintro (_ | y) hy
      · rfl
      · cases hy
  have hclause := (h.present.clause habsent hkw hT).via (optional_matches F text kw)
  unfold after?
  simpa only [id, then_pure] using hclause

/-- A list behind a keyword, if it is not empty. Some text that is always there may follow the
keyword. -/
def optionalList (F : Phrase α) (text kw : String) (us : List Token) : Phrase (List α) where
  sql ys := sqlListClause text (ys.map F.sql)
  tokens ys := if ys.isEmpty then [] else .word kw :: (us ++ F.list.tokens ys)
  normal := List.map F.normal
  Fit ys := ∀ y ∈ ys, F.Fit y
  Readable ys := ∀ y ∈ ys, F.Readable y

theorem optionalList_matches (F : Phrase α) {text first more kw : String} (us : List Token)
    (htext : text = first ++ more) : (F.optionalList text kw us).Matches
      ((F.list.after more us).clause List.isEmpty first kw) id id where
  sql ys _ := by
    cases ys with
    | nil => rfl
    | cons y ys =>
      simp [Phrase.optionalList, Phrase.clause, Phrase.after, Phrase.list, sqlListClause, htext,
        String.append_assoc]
  fit ys := by
    cases ys <;> simp [Phrase.optionalList, Phrase.clause, Phrase.after, Phrase.list]
  readable ys := by
    cases ys <;> simp [Phrase.optionalList, Phrase.clause, Phrase.after, Phrase.list]

theorem optionalList_opens (F : Phrase α) {text first more kw : String} (us : List Token)
    (htext : text = first ++ more) (hkw : KeywordText first kw) :
    (F.optionalList text kw us).Opens (.word kw :: T) T :=
  (optionalList_matches F us htext).opens (clause_opens hkw)

theorem Faithful.optionalList (h : F.Faithful p (.symbol .comma :: T)) (hcomma : .symbol .comma ∉ T)
    {text first more kw : String} {us : List Token} {prelude : TokenParser Unit}
    (htext : text = first ++ more) (hkw : KeywordText first kw)
    (hmarks : Marks more.toList us prelude) (hT : ∀ t ∈ T, t.isKeyword kw = false) :
    (F.optionalList text kw us).Faithful (do
      if ← takesWord kw then
        prelude
        TokenParser.list p
      else
        return []) T := by
  have habsent : (F.list.after more us).Absence List.isEmpty [] := by
    refine ⟨rfl, ?_, ?_⟩
    · rintro (_ | ⟨y, ys⟩) <;> rfl
    · rintro (_ | ⟨y, ys⟩) hys
      · rfl
      · cases hys
  have hclause := (((h.list hcomma).after hmarks).clause habsent hkw hT).via
    (optionalList_matches F us htext)
  simpa only [id, then_pure] using hclause

/-- Things one behind the other. -/
def many (F : Phrase α) : Phrase (List α) where
  sql ys := String.join (ys.map F.sql)
  tokens ys := (ys.map F.tokens).flatten
  normal := List.map F.normal
  Fit ys := ∀ y ∈ ys, F.Fit y
  Readable ys := ∀ y ∈ ys, F.Readable y

theorem toList_many_cons (y : α) (ys : List α) (rest : List Char) :
    (F.many.sql (y :: ys)).toList ++ rest = (F.sql y).toList ++ ((F.many.sql ys).toList ++ rest) := by
  simp [many, String.toList_join]

theorem many_opens (h : F.Opens (H ++ T) (H ++ T)) : F.many.Opens (H ++ T) T where
  text {ys rest} hfit hrest := by
    induction ys with
    | nil => exact hrest.mono fun _ ht => List.mem_append_right H ht
    | cons y ys ih =>
      rw [toList_many_cons]
      exact h.text (hfit y (by simp)) (ih fun z hz => hfit z (by simp [hz]))
  tokens {ys ws} hfit hread hws := by
    induction ys with
    | nil => exact hws.mono fun _ ht => List.mem_append_right H ht
    | cons y ys ih =>
      have htail := ih (fun z hz => hfit z (by simp [hz])) fun z hz => hread z (by simp [hz])
      have hall := h.tokens (hfit y (by simp)) (hread y (by simp)) htail
      simpa [many] using hall

theorem Echo.many {ps : List (α × List Token)} (hopens : F.Opens (H ++ T) (H ++ T))
    (h : ∀ p ∈ ps, F.Echo (EndsTextAt (H ++ T)) p.1 p.2) :
    F.many.Echo (EndsTextAt T) (ps.map (·.1)) (ps.map (·.2)).flatten := by
  intro ys rest a hfit hys hrest htame hscan
  induction ys generalizing ps with
  | nil =>
    obtain rfl : ps = [] := List.map_eq_nil_iff.mp hys.symm
    exact ⟨nofun, rfl, hscan⟩
  | cons y ys ih =>
    cases ps with
    | nil => cases hys
    | cons p ps =>
      obtain ⟨hy, hys⟩ := List.cons.inj hys
      have hfits : ∀ z ∈ ys, F.Fit z := fun z hz => hfit z (by simp [hz])
      rw [toList_many_cons] at htame hscan
      rw [List.map_cons, List.flatten_cons, List.append_assoc] at hscan
      obtain ⟨hread, hu, hafter⟩ := h p (by simp) (hfit y (by simp)) hy
        ((many_opens hopens).text hfits hrest) htame hscan
      obtain ⟨hreads, hus, hend⟩ :=
        ih (fun q hq => h q (by simp [hq])) hfits hys htame.of_append hafter
      refine ⟨?_, ?_, hend⟩
      · rintro z (_ | ⟨_, hz⟩)
        · exact hread
        · exact hreads z hz
      · rw [List.map_cons, List.flatten_cons, hu, hus]
        rfl

/-- What things that stand one behind the other are read from. -/
def ReadMany (F : Phrase α) (T : List Token) (xs : List α) (u : List Token) : Prop :=
  ∃ ps : List (α × List Token), xs = ps.map (·.1) ∧ u = (ps.map (·.2)).flatten ∧
    ∀ p ∈ ps, ((∀ t ∈ p.2, t.Scanned) → F.Fit p.1) ∧ F.Echo (EndsTextAt T) p.1 p.2

theorem Faithful.round (h : F.Faithful p T) {sign : Token → Option σ} {step : σ → TokenParser α}
    (hstep : ∀ {t : Token} {s : σ}, sign t = some s → ∀ ts, p.run (t :: ts) = (step s).run ts)
    {xs : List α} {s : σ} {t : Token} {u : List Token} (hs : sign t = some s)
    (hxs : F.ReadMany T xs u) :
    Sound (do return xs ++ [← step s]) fun xs' v => F.ReadMany T xs' (u ++ t :: v) := by
  obtain ⟨ps, rfl, rfl, hps⟩ := hxs
  intro ts xs' mid hrun
  obtain ⟨x, ts₁, hx, hpure⟩ := run_bind_eq_ok.mp hrun
  cases hpure
  obtain ⟨v, hv, hsound⟩ := h.sound ((hstep hs ts).trans hx)
  cases v with
  | nil =>
    have hshort := (step s).shrinks hx
    rw [show mid = t :: ts from hv.symm, List.length_cons] at hshort
    omega
  | cons t' v =>
    obtain ⟨rfl, rfl⟩ := List.cons.inj hv
    refine ⟨v, rfl, ps ++ [(x, t :: v)], by simp, by simp, ?_⟩
    intro q hq
    rcases List.mem_append.mp hq with hq | hq
    · exact hps q hq
    · obtain rfl := List.mem_singleton.mp hq
      exact hsound

/-- Things are read one behind the other as long as there is a sign that another one follows. -/
theorem Faithful.many (h : F.Faithful p (H ++ T)) (hopens : F.Opens (H ++ T) (H ++ T))
    {sign : Token → Option σ} {step : σ → TokenParser α}
    (hstep : ∀ {t : Token} {s : σ}, sign t = some s → ∀ ts, p.run (t :: ts) = (step s).run ts)
    (hhead : ∀ {y : α}, F.Fit y → F.Readable y → ∃ t us s, F.tokens y = t :: us ∧ sign t = some s)
    (hT : ∀ t ∈ T, sign t = none) :
    F.many.Faithful (loop sign (fun ys s => do return ys ++ [← step s]) []) T where
  spells {ys rest} hfit hread hrest := by
    induction ys with
    | nil => exact Spells.nil
    | cons y ys ih =>
      have hfits : ∀ z ∈ ys, F.Fit z := fun z hz => hfit z (by simp [hz])
      have htail := ih hfits fun z hz => hread z (by simp [hz])
      have hfirst := h.spells (hfit y (by simp)) (hread y (by simp))
        ((many_opens hopens).text hfits hrest)
      simpa [Phrase.many, String.toList_join] using hfirst.append htail
  plain {ys} hfit hread hmem := by
    obtain ⟨u, hu, hmem⟩ := List.mem_flatten.mp hmem
    obtain ⟨y, hy, rfl⟩ := List.mem_map.mp hu
    exact h.plain (hfit y hy) (hread y hy) hmem
  reads {ys ws} hfit hread hws := by
    rw [run_loop]
    suffices hrun : ∀ xs : List α, loopRun sign (fun ys s => do return ys ++ [← step s]) xs
        (F.many.tokens ys ++ ws) = .ok (xs ++ F.many.normal ys, ws) from hrun []
    induction ys with
    | nil =>
      intro xs
      simp only [Phrase.many, List.map_nil, List.flatten_nil, List.nil_append, List.append_nil]
      exact loopRun_of_none fun t ht => hT t (hws t ht)
    | cons y ys ih =>
      intro xs
      have hfits : ∀ z ∈ ys, F.Fit z := fun z hz => hfit z (by simp [hz])
      have hreads : ∀ z ∈ ys, F.Readable z := fun z hz => hread z (by simp [hz])
      obtain ⟨t, us, s, htokens, hs⟩ := hhead (hfit y (by simp)) (hread y (by simp))
      have hrun := h.reads (hfit y (by simp)) (hread y (by simp))
        ((many_opens hopens).tokens hfits hreads hws)
      rw [htokens, List.cons_append, hstep hs] at hrun
      have hround : (do return xs ++ [← step s] : TokenParser (List α)).run
          (us ++ (F.many.tokens ys ++ ws)) = .ok (xs ++ [F.normal y], F.many.tokens ys ++ ws) :=
        run_bind_of_ok hrun
      have hfirst : F.many.tokens (y :: ys) ++ ws = t :: (us ++ (F.many.tokens ys ++ ws)) := by
        simp [Phrase.many, htokens]
      rw [hfirst, loopRun_of_some hs hround, ih hfits hreads]
      simp [Phrase.many]
  sound := by
    intro ts xs mid hrun
    have hempty : F.ReadMany (H ++ T) [] [] := ⟨[], rfl, rfl, nofun⟩
    obtain ⟨u, rfl, ps, rfl, hu, hps⟩ :=
      Sound.loopRun (I := F.ReadMany (H ++ T)) (h.round hstep) hrun hempty
    rw [List.nil_append] at hu
    subst hu
    refine ⟨_, rfl, ?_, Echo.many hopens fun q hq => (hps q hq).2⟩
    intro hscanned x hx
    obtain ⟨q, hq, rfl⟩ := List.mem_map.mp hx
    exact (hps q hq).1 fun t ht => hscanned t (List.mem_flatten_of_mem (List.mem_map_of_mem hq) ht)

end Phrase

theorem where_keyword : Phrase.KeywordText " WHERE " "WHERE" := ⟨by decide, by decide, by decide⟩

theorem limit_keyword : Phrase.KeywordText " LIMIT " "LIMIT" := ⟨by decide, by decide, by decide⟩

end ShardedSql.Sql
