import ShardedSql.Proofs.Sql.Echo
import ShardedSql.Proofs.Sql.ParserComplete
import ShardedSql.Proofs.Sql.ParserSound

namespace ShardedSql.Sql

open TokenParser
open Token (isPlainWord scan)

/-- Whether a list of tokens is empty or starts with one of some tokens. -/
def EndsAt (T ts : List Token) : Prop := ∀ t ∈ ts.head?, t ∈ T

namespace EndsAt

variable {T T' ts : List Token}

theorem nil : EndsAt T [] := nofun

theorem cons {t : Token} (h : t ∈ T) (ts : List Token) : EndsAt T (t :: ts) := by
  rintro _ ⟨⟩
  exact h

theorem mono (h : EndsAt T ts) (hT : ∀ t ∈ T, t ∈ T') : EndsAt T' ts :=
  fun t ht => hT t (h t ht)

theorem not_opensWith (h : EndsAt T ts) {kw : String} (hT : ∀ t ∈ T, t.isKeyword kw = false) :
    ¬OpensWith kw ts := by
  cases ts with
  | nil => exact not_opensWith_nil kw
  | cons t ts =>
    rw [opensWith_cons, hT t (h t rfl)]
    exact Bool.false_ne_true

theorem head_ne (h : EndsAt T ts) {t : Token} (ht : t ∉ T) : ts.head? ≠ some t :=
  fun hhead => ht (h t hhead)

theorem stops (h : EndsAt T ts) (hT : ∀ t ∈ T, t.strength = 0) (r : Rank) : Stops r ts := by
  cases ts with
  | nil => exact stops_nil r
  | cons t ts => exact .of_strength_zero (hT t (h t rfl)) ts

end EndsAt

theorem isThin_of_isWordChar {c : Char} (h : Text.isWordChar c = true) : isThin c = false := by
  have hne : c ≠ Token.backquote := Token.ne_of_isWordChar h (by decide)
  simp [isThin, Text.isBlank_of_isWordChar h, hne]

/-- What may be printed behind a phrase that ends in front of some tokens. -/
structure EndsTextAt (T : List Token) (rest : List Char) : Prop where
  follows : Follows rest
  ends : ∀ ⦃ts : List Token⦄, scan rest = .ok ts → EndsAt T ts

namespace EndsTextAt

variable {T T' : List Token} {cs rest : List Char}

theorem nil : EndsTextAt T [] := by
  refine ⟨.nil, fun ts h => ?_⟩
  rw [scan] at h
  cases h
  exact .nil

theorem mono (h : EndsTextAt T rest) (hT : ∀ t ∈ T, t ∈ T') : EndsTextAt T' rest :=
  ⟨h.follows, fun _ hts => (h.ends hts).mono hT⟩

theorem of_spells {t : Token} {us : List Token} (h : Spells cs (t :: us) rest) (ht : t ∈ T)
    (hfollows : Follows (cs ++ rest)) : EndsTextAt T (cs ++ rest) := by
  refine ⟨hfollows, fun ts hts => ?_⟩
  obtain ⟨ws, -, rfl⟩ := h.rest_of_ok hts
  exact .cons ht _

theorem comma (h : .symbol .comma ∈ T) (cs : List Char) : EndsTextAt T (',' :: cs) :=
  of_spells (show Spells [','] [.symbol .comma] cs from Token.scan_comma) h .comma

theorem rightParen (h : .symbol .rightParen ∈ T) (cs : List Char) : EndsTextAt T (')' :: cs) :=
  of_spells (show Spells [')'] [.symbol .rightParen] cs from Spells.rightParen) h .rightParen

theorem space_keyword {kw : String} (hkw : isPlainWord kw.toList = true) (h : .word kw ∈ T)
    (cs : List Char) : EndsTextAt T (' ' :: (kw.toList ++ [' ']) ++ cs) := by
  refine of_spells (Spells.spaced hkw) h ?_
  unfold isPlainWord at hkw
  split at hkw
  · cases hkw
  · next c ds hds =>
    simp only [Bool.and_eq_true] at hkw
    rw [hds]
    exact .space (isThin_of_isWordChar hkw.1.1)

end EndsTextAt

theorem eq_or_mem_of_mem_commaTokens {us : List (List Token)} {t : Token}
    (h : t ∈ commaTokens us) : t = .symbol .comma ∨ ∃ u ∈ us, t ∈ u := by
  cases us with
  | nil => cases h
  | cons u us =>
    rw [commaTokens_cons] at h
    rcases List.mem_append.mp h with h | h
    · exact .inr ⟨u, by simp, h⟩
    · obtain ⟨v, hv, ht⟩ := List.mem_flatMap.mp h
      rcases List.mem_cons.mp ht with rfl | ht
      · exact .inl rfl
      · exact .inr ⟨v, by simp [hv], ht⟩

/-- Whether a parser reads what is printed, in front of some tokens, just if it is readable, and
what it reads can be printed. -/
structure Phrase.Faithful {α : Type} (F : Phrase α) (p : TokenParser α) (T : List Token) :
    Prop where
  spells : ∀ {y : α} {rest : List Char}, F.Fit y → F.Readable y → EndsTextAt T rest →
    Spells (F.sql y).toList (F.tokens y) rest
  plain : ∀ {y : α}, F.Fit y → F.Readable y → .symbol .semicolon ∉ F.tokens y
  reads : ∀ {y : α} {ws : List Token}, F.Fit y → F.Readable y → EndsAt T ws →
    p.run (F.tokens y ++ ws) = .ok (F.normal y, ws)
  sound : Sound p fun x u =>
    ((∀ t ∈ u, t.Scanned) → F.Fit x) ∧ F.Echo (EndsTextAt T) x u

/-- Text that is always there, and what reads its tokens. -/
structure Marks (cs : List Char) (us : List Token) (p : TokenParser Unit) : Prop where
  spells : ∀ rest : List Char, Spells cs us rest
  plain : .symbol .semicolon ∉ us
  reads : ∀ ws : List Token, p.run (us ++ ws) = .ok ((), ws)
  sound : Sound p fun _ u => u.length = us.length

theorem Marks.keyword {kw : String} (hkw : isPlainWord kw.toList = true)
    (hupper : Text.upper kw = kw) : Marks (kw.toList ++ [' ']) [.word kw] (needsWord kw) where
  spells _ := Spells.keyword_space hkw
  plain := by simp
  reads _ := run_needsWord_cons (beq_iff_eq.mpr hupper)
  sound := by
    intro ts _ mid hrun
    obtain ⟨t, -, rfl⟩ := run_needsWord_eq_ok.mp hrun
    exact ⟨[t], rfl, rfl⟩

theorem Marks.append {cs ds : List Char} {us vs : List Token} {p q : TokenParser Unit}
    (h : Marks cs us p) (h' : Marks ds vs q) : Marks (cs ++ ds) (us ++ vs) (do p; q) where
  spells rest := (h.spells (ds ++ rest)).append (h'.spells rest)
  plain := by simp [h.plain, h'.plain]
  reads ws := by
    rw [List.append_assoc, run_bind_of_ok (h.reads _)]
    exact h'.reads ws
  sound := by
    intro ts _ mid hrun
    obtain ⟨_, ts₁, hp, hq⟩ := run_bind_eq_ok.mp hrun
    obtain ⟨u, rfl, hu⟩ := h.sound hp
    obtain ⟨v, rfl, hv⟩ := h'.sound hq
    exact ⟨u ++ v, by simp, by simp [hu, hv]⟩

/-- Text that is there in some forms, and what tells them apart by their tokens where the tokens
behind them are such as may follow. -/
structure Leads {β : Type} (sql : β → String) (tokens : β → List Token) (p : TokenParser β)
    (Behind : List Token → Prop) : Prop where
  spells : ∀ (b : β) (rest : List Char), Spells (sql b).toList (tokens b) rest
  plain : ∀ b : β, .symbol .semicolon ∉ tokens b
  reads : ∀ (b : β) (ws : List Token), p.run (tokens b ++ ws) = .ok (b, ws)
  sound : Sound p fun b u =>
    ∀ {vs ws : List Token}, Behind vs → u ++ vs = tokens b ++ ws → u = tokens b

theorem Marks.leads {text : String} {us : List Token} {p : TokenParser Unit}
    (h : Marks text.toList us p) : Leads (fun _ => text) (fun _ => us) p fun _ => True where
  spells _ := h.spells
  plain _ := h.plain
  reads _ := h.reads
  sound := h.sound.mono fun _ _ hlength _ _ _ heq => (List.append_inj heq hlength).1

namespace Phrase

variable {α β : Type} {F : Phrase α} {G : Phrase β} {p p' : TokenParser α} {q : TokenParser β}
  {T T' : List Token}

/-- A parser may look ahead as long as that makes no difference in front of what may follow. -/
theorem Faithful.guarded (h : F.Faithful p T)
    (hle : ∀ {ts mid : List Token} {x : α}, p'.run ts = .ok (x, mid) → p.run ts = .ok (x, mid))
    (hge : ∀ {ts mid : List Token} {x : α}, EndsAt T mid → p.run ts = .ok (x, mid) →
      p'.run ts = .ok (x, mid)) : F.Faithful p' T where
  spells := h.spells
  plain := h.plain
  reads hfit hread hws := hge hws (h.reads hfit hread hws)
  sound _ _ _ hrun := h.sound (hle hrun)

/-- What is always readable is read if its tokens are all that can be read of its text. -/
theorem Faithful.of_spelled
    (hspells : ∀ {y : α} {rest : List Char}, F.Fit y → EndsTextAt T rest →
      Spells (F.sql y).toList (F.tokens y) rest)
    (hplain : ∀ {y : α}, F.Fit y → .symbol .semicolon ∉ F.tokens y)
    (hreads : ∀ {y : α} {ws : List Token}, F.Fit y → EndsAt T ws →
      p.run (F.tokens y ++ ws) = .ok (F.normal y, ws))
    (hreadable : ∀ {y : α}, F.Fit y → F.Readable y)
    (hsound : Sound p fun x u => F.Fit x ∧ ∀ {y : α} {vs ws : List Token}, F.Fit y →
      F.normal y = x → EndsAt T ws → u ++ vs = F.tokens y ++ ws → u = F.tokens y) :
    F.Faithful p T where
  spells hfit _ hrest := hspells hfit hrest
  plain hfit _ := hplain hfit
  reads hfit _ hws := hreads hfit hws
  sound := by
    refine hsound.mono ?_
    rintro x u ⟨hfitx, hu⟩
    refine ⟨fun _ => hfitx, ?_⟩
    intro y rest a hfit hy hrest htame hscan
    obtain ⟨ws, hws, heq⟩ := (hspells hfit hrest).rest_of_ok hscan
    obtain rfl := hu hfit hy (hrest.ends hws) heq
    obtain rfl := List.append_cancel_left heq
    exact ⟨hreadable hfit, rfl, hws⟩

/-- One thing behind another. -/
def seq (F : Phrase α) (G : Phrase β) : Phrase (α × β) where
  sql y := F.sql y.1 ++ G.sql y.2
  tokens y := F.tokens y.1 ++ G.tokens y.2
  normal y := (F.normal y.1, G.normal y.2)
  Fit y := F.Fit y.1 ∧ G.Fit y.2
  Readable y := F.Readable y.1 ∧ G.Readable y.2

/-- Whether a phrase in front of some tokens may stand behind one that ends in front of others. -/
structure Opens (G : Phrase β) (T T' : List Token) : Prop where
  text : ∀ {y : β} {rest : List Char}, G.Fit y → EndsTextAt T' rest →
    EndsTextAt T ((G.sql y).toList ++ rest)
  tokens : ∀ {y : β} {ws : List Token}, G.Fit y → G.Readable y → EndsAt T' ws →
    EndsAt T (G.tokens y ++ ws)

theorem Opens.seq {T₀ : List Token} (hF : F.Opens T₀ T) (hG : G.Opens T T') :
    (F.seq G).Opens T₀ T' where
  text {y rest} hfit hrest := by
    have hall := hF.text hfit.1 (hG.text hfit.2 hrest)
    simpa [Phrase.seq] using hall
  tokens {y ws} hfit hread hws := by
    have hall := hF.tokens hfit.1 hread.1 (hG.tokens hfit.2 hread.2 hws)
    simpa [Phrase.seq] using hall

theorem Faithful.seq (hF : F.Faithful p T) (hG : G.Faithful q T') (hopens : G.Opens T T') :
    (F.seq G).Faithful (do return (← p, ← q)) T' where
  spells hfit hread hrest := by
    have hall := (hF.spells hfit.1 hread.1 (hopens.text hfit.2 hrest)).append
      (hG.spells hfit.2 hread.2 hrest)
    simpa [Phrase.seq] using hall
  plain hfit hread := by
    simp [Phrase.seq, hF.plain hfit.1 hread.1, hG.plain hfit.2 hread.2]
  reads hfit hread hws := by
    have hfirst := hF.reads hfit.1 hread.1 (hopens.tokens hfit.2 hread.2 hws)
    simp only [Phrase.seq, List.append_assoc]
    rw [run_bind_of_ok hfirst, run_bind_of_ok (hG.reads hfit.2 hread.2 hws)]
    rfl
  sound := by
    intro ts x mid hrun
    obtain ⟨x₁, ts₁, hp, h₁⟩ := run_bind_eq_ok.mp hrun
    obtain ⟨x₂, ts₂, hq, hpure⟩ := run_bind_eq_ok.mp h₁
    cases hpure
    obtain ⟨u, rfl, hfitF, hechoF⟩ := hF.sound hp
    obtain ⟨v, rfl, hfitG, hechoG⟩ := hG.sound hq
    refine ⟨u ++ v, by simp, ?_, ?_⟩
    · intro hscanned
      exact ⟨hfitF fun t ht => hscanned t (by simp [ht]),
        hfitG fun t ht => hscanned t (by simp [ht])⟩
    · rintro ⟨y₁, y₂⟩ rest a hfit hy hrest htame hscan
      obtain ⟨rfl, rfl⟩ := Prod.mk.inj hy
      simp only [Phrase.seq, String.toList_append, List.append_assoc] at htame hscan
      obtain ⟨hread₁, rfl, hafter⟩ :=
        hechoF hfit.1 rfl (hopens.text hfit.2 hrest) htame hscan
      obtain ⟨hread₂, rfl, hend⟩ := hechoG hfit.2 rfl hrest htame.of_append hafter
      exact ⟨⟨hread₁, hread₂⟩, rfl, hend⟩

/-- Text that is there in some form in front of a thing. -/
def behind (F : Phrase α) (sql : β → String) (tokens : β → List Token) : Phrase (β × α) where
  sql y := sql y.1 ++ F.sql y.2
  tokens y := tokens y.1 ++ F.tokens y.2
  normal y := (y.1, F.normal y.2)
  Fit y := F.Fit y.2
  Readable y := F.Readable y.2

theorem Faithful.behind (h : F.Faithful p T) {sql : β → String} {tokens : β → List Token}
    {Behind : List Token → Prop} (hleads : Leads sql tokens q Behind)
    (hbehind : Sound p fun _ u => ∀ a, Behind (u ++ a)) :
    (F.behind sql tokens).Faithful (do return (← q, ← p)) T where
  spells {y rest} hfit hread hrest := by
    have hall := (hleads.spells y.1 _).append (h.spells hfit hread hrest)
    simpa [Phrase.behind] using hall
  plain {y} hfit hread := by simp [Phrase.behind, hleads.plain y.1, h.plain hfit hread]
  reads {y ws} hfit hread hws := by
    simp only [Phrase.behind, List.append_assoc]
    rw [run_bind_of_ok (hleads.reads y.1 _), run_bind_of_ok (h.reads hfit hread hws)]
    rfl
  sound := by
    intro ts x mid hrun
    obtain ⟨b, ts₁, hq, h₁⟩ := run_bind_eq_ok.mp hrun
    obtain ⟨x, ts₂, hp, hpure⟩ := run_bind_eq_ok.mp h₁
    cases hpure
    obtain ⟨u, rfl, hu⟩ := hleads.sound hq
    obtain ⟨v, rfl, hfit, hecho⟩ := h.sound hp
    obtain ⟨v', hv', hafter⟩ := hbehind hp
    obtain rfl := List.append_cancel_right hv'
    refine ⟨u ++ v, by simp, fun hscanned => hfit fun t ht => hscanned t (by simp [ht]), ?_⟩
    rintro ⟨b', y⟩ rest a hfity hy hrest htame hscan
    obtain ⟨rfl, rfl⟩ := Prod.mk.inj hy
    simp only [Phrase.behind, String.toList_append, List.append_assoc] at htame hscan
    obtain ⟨ws, hws, heq⟩ := (hleads.spells b' _).rest_of_ok hscan
    obtain rfl := hu (hafter a) heq
    obtain rfl := List.append_cancel_left heq
    obtain ⟨hread, rfl, hend⟩ := hecho hfity rfl hrest htame.of_append hws
    exact ⟨hread, rfl, hend⟩

/-- Whether things are printed and read like those of another phrase that stand for them. -/
structure Matches {γ : Type} (H : Phrase γ) (F : Phrase α) (f : γ → α) (g : α → γ) : Prop where
  there : ∀ x, f (g x) = x := by intro; rfl
  back : ∀ y, g (f y) = y := by intro; rfl
  sql : ∀ y, H.Fit y → H.sql y = F.sql (f y) := by intros; rfl
  tokens : ∀ y, H.tokens y = F.tokens (f y) := by intro; rfl
  normal : ∀ y, f (H.normal y) = F.normal (f y) := by intro; rfl
  fit : ∀ y, H.Fit y ↔ F.Fit (f y) := by intro; rfl
  readable : ∀ y, H.Readable y ↔ F.Readable (f y) := by intro; rfl

theorem Faithful.via {γ : Type} {H : Phrase γ} {f : γ → α} {g : α → γ} (h : F.Faithful p T)
    (hmatches : H.Matches F f g) : H.Faithful (do return g (← p)) T where
  spells {y rest} hfit hread hrest := by
    rw [hmatches.sql y hfit, hmatches.tokens]
    exact h.spells ((hmatches.fit y).mp hfit) ((hmatches.readable y).mp hread) hrest
  plain {y} hfit hread := by
    rw [hmatches.tokens]
    exact h.plain ((hmatches.fit y).mp hfit) ((hmatches.readable y).mp hread)
  reads {y ws} hfit hread hws := by
    have hrun := h.reads ((hmatches.fit y).mp hfit) ((hmatches.readable y).mp hread) hws
    rw [hmatches.tokens, run_bind_of_ok hrun, ← hmatches.normal, hmatches.back]
    rfl
  sound := by
    intro ts x mid hrun
    obtain ⟨x, ts₁, hp, hpure⟩ := run_bind_eq_ok.mp hrun
    cases hpure
    obtain ⟨u, rfl, hfit, hecho⟩ := h.sound hp
    refine ⟨u, rfl, ?_, ?_⟩
    · intro hscanned
      rw [hmatches.fit, hmatches.there]
      exact hfit hscanned
    · intro y rest a hfity hy hrest htame hscan
      rw [hmatches.sql y hfity] at htame hscan
      have hnormal : F.normal (f y) = x := by
        rw [← hmatches.normal, hy, hmatches.there]
      obtain ⟨hread, hu, hend⟩ :=
        hecho ((hmatches.fit y).mp hfity) hnormal hrest htame hscan
      exact ⟨(hmatches.readable y).mpr hread, hu.trans (hmatches.tokens y).symm, hend⟩

theorem Matches.opens {γ : Type} {H : Phrase γ} {f : γ → α} {g : α → γ} (hmatches : H.Matches F f g)
    (h : F.Opens T T') : H.Opens T T' where
  text {y rest} hfit hrest := by
    rw [hmatches.sql y hfit]
    exact h.text ((hmatches.fit y).mp hfit) hrest
  tokens {y ws} hfit hread hws := by
    rw [hmatches.tokens]
    exact h.tokens ((hmatches.fit y).mp hfit) ((hmatches.readable y).mp hread) hws

/-- Things that are printed as others of their kind. -/
def printedAs (F : Phrase α) (f : α → α) : Phrase α where
  sql y := F.sql (f y)
  tokens y := F.tokens (f y)
  normal y := F.normal (f y)
  Fit y := F.Fit (f y)
  Readable y := F.Readable (f y)

theorem Faithful.printedAs (h : F.Faithful p T) {f : α → α} (hf : ∀ x, F.Fit x → F.Fit (f x)) :
    (F.printedAs f).Faithful p T where
  spells := h.spells
  plain := h.plain
  reads := h.reads
  sound := h.sound.mono fun x _ hx =>
    ⟨fun hscanned => hf x (hx.1 hscanned), fun _ _ _ hfit hy hrest htame hscan =>
      hx.2 hfit hy hrest htame hscan⟩

/-- Text that is always there in front of a thing. -/
def after (F : Phrase α) (text : String) (us : List Token) : Phrase α where
  sql y := text ++ F.sql y
  tokens y := us ++ F.tokens y
  normal := F.normal
  Fit := F.Fit
  Readable := F.Readable

theorem Faithful.after (h : F.Faithful p T) {text : String} {us : List Token}
    {prelude : TokenParser Unit} (hmarks : Marks text.toList us prelude) :
    (F.after text us).Faithful (do prelude; p) T := by
  have hparts : (F.after text us).Faithful _ T :=
    (h.behind hmarks.leads (h.sound.mono fun _ _ _ _ => trivial)).via
      (f := fun y : α => ((), y)) (g := fun y => y.2) {}
  simpa only [then_assoc, pure_then, then_pure] using hparts

/-- What is never printed may be read behind a keyword that no printed text starts with. -/
theorem Faithful.orBehind (h : F.Faithful p T) (hopens : F.Opens T' T) {kw : String}
    (hT' : ∀ t ∈ T', t.isKeyword kw = false)
    (hfit : Sound p' fun x u => (∀ t ∈ u, t.Scanned) → F.Fit x) :
    F.Faithful (do if ← takesWord kw then p' else p) T where
  spells := h.spells
  plain := h.plain
  reads hfit hread hws := by
    have hnot := (hopens.tokens hfit hread hws).not_opensWith hT'
    rw [run_bind_of_ok (run_takesWord_of_not_opens hnot)]
    exact h.reads hfit hread hws
  sound := by
    intro ts x mid hrun
    obtain ⟨b, ts₁, hword, h₁⟩ := run_bind_eq_ok.mp hrun
    rcases run_takesWord_eq_ok.mp hword with ⟨rfl, t, ht, rfl⟩ | ⟨rfl, -, rfl⟩
    · obtain ⟨u, rfl, hu⟩ := hfit h₁
      refine ⟨t :: u, rfl, fun hscanned => hu fun t ht => hscanned t (by simp [ht]), ?_⟩
      intro y rest a hfity _ hrest _ hscan
      have hfalse := hT' t ((hopens.text hfity hrest).ends hscan t rfl)
      rw [ht] at hfalse
      cases hfalse
    · exact h.sound h₁

theorem after_opens {text : String} {t : Token} {us : List Token} {prelude : TokenParser Unit}
    (hmarks : Marks text.toList (t :: us) prelude)
    (hfollows : ∀ cs : List Char, Follows (text.toList ++ cs)) :
    (F.after text (t :: us)).Opens (t :: T) T' where
  text {y rest} _ _ := by
    have hall := EndsTextAt.of_spells (hmarks.spells ((F.sql y).toList ++ rest))
      (List.mem_cons_self : t ∈ t :: T) (hfollows _)
    simpa [Phrase.after] using hall
  tokens _ _ _ := .cons List.mem_cons_self _

end Phrase

end ShardedSql.Sql
