import ShardedSql.Proofs.Sql.PhraseForms

namespace ShardedSql.Sql

open TokenParser
open Token (isPlainWord scan)

/-- Expressions that are read from scanned tokens, up to the names of columns. -/
def Expr.Written (k : Nat) (e : Expr) : Prop :=
  ∃ (x : Expr) (u : List Token) (f : ColumnName → ColumnName), Derives k .disjunction x u ∧
    (∀ t ∈ u, t.Scanned) ∧ e = x.mapColumns f

/-- Whether an expression is read again where an expression is expected. -/
def Expr.Legible (e : Expr) : Prop := e.Readable ∧ e.StandsAlone

namespace Expr.Written

variable {k : Nat} {e : Expr}

theorem mapColumns (h : e.Written k) (f : ColumnName → ColumnName) :
    (e.mapColumns f).Written k := by
  obtain ⟨x, u, g, hx, hu, rfl⟩ := h
  exact ⟨x, u, f ∘ g, hx, hu, mapColumns_mapColumns g f x⟩

theorem of_derives {u : List Token} (h : Derives k .disjunction e u) (hu : ∀ t ∈ u, t.Scanned) :
    e.Written k := ⟨e, u, id, h, hu, (mapColumns_id e).symm⟩

theorem lexed (h : e.Written k) : e.Lexed := by
  obtain ⟨x, u, f, hx, hu, rfl⟩ := h
  exact (hx.lexed hu).mapColumns f

theorem derives (h : e.Written k) (hread : e.Legible) :
    Derives k .disjunction e.normal e.tokens := by
  have hlexed := h.lexed
  obtain ⟨x, u, f, hx, -, rfl⟩ := h
  exact hx.printed f hlexed hread.1 fun _ => hread.2

end Expr.Written

theorem ne_of_isKeyword {t : Token} {kw : String} (h : t.isKeyword kw = true) (s : Symbol) :
    .symbol s ≠ t := by
  rintro rfl
  cases h

theorem ne_of_part? {t : Token} {n : String} (h : t.part? = some n) (s : Symbol) :
    .symbol s ≠ t := by
  rintro rfl
  cases h

theorem Flag.plain {kw : String} {b : Bool} {us : List Token} (h : Flag kw b us) (s : Symbol) :
    .symbol s ∉ us := by
  cases h with
  | on ht => simpa using ne_of_isKeyword ht s
  | off => exact List.not_mem_nil

theorem VarTokens.plain {n : String} {us : List Token} (h : VarTokens n us) :
    .symbol .semicolon ∉ us := by
  induction h with
  | single ht => simpa using ne_of_part? ht _
  | double ht => simpa using ne_of_part? ht _
  | dotted _ ht ih => simpa [ih] using ne_of_part? ht _

theorem commaTokens_plain {us : List (List Token)} (h : ∀ u ∈ us, .symbol .semicolon ∉ u) :
    .symbol .semicolon ∉ commaTokens us := by
  intro hmem
  rcases eq_or_mem_of_mem_commaTokens hmem with ⟨⟨⟩⟩ | ⟨u, hu, hmem⟩
  exact h u hu hmem

/-- No expression has a semicolon in it. -/
theorem Derives.plain {k : Nat} {r : Rank} {e : Expr} {u : List Token} (h : Derives k r e u) :
    .symbol .semicolon ∉ u := by
  have hitems : ∀ {ps : List (Expr × List Token)}, (∀ p ∈ ps, .symbol .semicolon ∉ p.2) →
      .symbol .semicolon ∉ commaTokens (ps.map (·.2)) := by
    intro ps hps
    apply commaTokens_plain
    intro u hu
    obtain ⟨p, hp, rfl⟩ := List.mem_map.mp hu
    exact hps p hp
  have hstrength : ∀ {t : Token}, 0 < t.strength → .symbol .semicolon ≠ t := by
    rintro t ht rfl
    cases ht
  induction h with
  | column ht => simpa using ne_of_part? (part?_of_name? ht) _
  | qualified ht ht' =>
    simpa using ⟨ne_of_part? (part?_of_name? ht) _, ne_of_part? ht' _⟩
  | word | number | text | placeholder => simp
  | var hn => simpa using hn.plain
  | callStar _ hd => simpa using hd.plain _
  | callNone _ hd => simpa using hd.plain _
  | call _ hd _ _ _ ih => simpa using ⟨hd.plain _, hitems ih⟩
  | paren _ _ ih => simpa using ih
  | negate _ ih | plus _ ih => simpa using ih
  | @chain k r s l e op t u v _ ht _ _ ihl ihe =>
    have hlevel : 0 < r.level := by cases r <;> decide
    simpa using ⟨ihl, hstrength (strength_of_chainOp ht ▸ hlevel), ihe⟩
  | comparison ht _ _ ihl ihe =>
    simpa using ⟨ihl, hstrength (strength_of_comparisonOp ht ▸ by decide), ihe⟩
  | isNull ht ht' hn _ ih =>
    simpa using ⟨ih, ne_of_isKeyword ht _, hn.plain _, ne_of_isKeyword ht' _⟩
  | inList ht hn _ _ _ _ ih ihps =>
    simpa using ⟨ih, hn.plain _, ne_of_isKeyword ht _, hitems ihps⟩
  | between ht ht' hn _ _ _ ih ihlow ihhigh =>
    simpa using ⟨ih, hn.plain _, ne_of_isKeyword ht _, ihlow, ne_of_isKeyword ht' _, ihhigh⟩
  | like ht hn _ _ ih ihp => simpa using ⟨ih, hn.plain _, ne_of_isKeyword ht _, ihp⟩
  | not ht _ ih => simpa using ⟨ne_of_isKeyword ht _, ih⟩
  | tighter _ _ _ ih => exact ih

def exprPhrase (k : Nat) : Phrase Expr where
  sql := Expr.sql
  tokens := Expr.tokens
  normal := Expr.normal
  Fit := Expr.Written k
  Readable := Expr.Legible

theorem expr_faithful (k : Nat) {T : List Token} (hT : ∀ t ∈ T, t.strength = 0) :
    (exprPhrase k).Faithful (Expr.parse (k + 1)) T where
  spells hfit hread hrest := hfit.lexed.spells hread.1 hrest.follows
  plain hfit hread := (hfit.derives hread).plain
  reads hfit hread hws := (hfit.derives hread).run_parse (hws.stops hT _)
  sound := by
    refine (sound_parse k).mono ?_
    intro x u hx
    refine ⟨Expr.Written.of_derives hx, ?_⟩
    intro e rest a hfit he hrest htame hscan
    obtain ⟨⟨hread, halone⟩, hu, hend⟩ := hx.echo hfit.lexed he hrest.follows htame hscan
    exact ⟨⟨hread, halone (by decide)⟩, hu, hend⟩

end ShardedSql.Sql
