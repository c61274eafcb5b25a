import ShardedSql.Proofs.Sql.Spelled
import ShardedSql.Sql.Statement.Print
import Mathlib.Data.List.Forall2

namespace ShardedSql.Sql.Token

variable {cs rest : List Char} {t u : Token} {ts : List Token}

/-- Whether two neighbours stay two when they are printed. There are no blanks around a dot, so that
next to digits it would be the point of a number. -/
def Apart : Token → Token → Prop
  | number _, symbol .dot | symbol .dot, number _ => False
  | symbol .dot, word w => startsWithDigit w.toList = false
  | _, _ => True

/-- What may become of a token that is printed and read again. A keyword is put in capitals, and a
name may lose its quotes. -/
inductive Kept : Token → Token → Prop
  | same {t : Token} : Kept t t
  | capitals {w : String} (h : isReserved w = true ∨ Text.upper w ∈ commonKeywords) :
      Kept (word w) (word (Text.upper w))
  | bare {q : String} (h : isReserved q = false) : Kept (quoted q) (word q)

/-- What a printed token reads as. -/
def reread : Token → Token
  | word w => word (word w).sql
  | quoted q => ofName q
  | t => t

theorem kept_reread (t : Token) : Kept t t.reread := by
  cases t with
  | word w =>
    simp only [reread, sql]
    split
    · next h => exact .capitals (by simpa using h)
    · exact .same
  | quoted q =>
    simp only [reread, ofName]
    split
    · next h => exact .bare (not_isReserved_of_isBareName h)
    · exact .same
  | _ => exact .same

/-- The symbols that no blank is written behind. -/
def opens : Token → Bool
  | symbol .leftParen | symbol .dot | symbol .atSign => true
  | _ => false

/-- Whether a text starts with a character that ends what stands before it. -/
def Breaks (rest : List Char) : Prop :=
  ∀ c ∈ rest.head?, c = ' ' ∨ c = ',' ∨ c = ')' ∨ c = '.' ∨ c = ';' ∨ c = '('

namespace Breaks

theorem endsWord (h : Breaks rest) : EndsWord rest := by
  intro c hc
  rcases h c hc with rfl | rfl | rfl | rfl | rfl | rfl <;> decide

theorem head_ne (h : Breaks rest) {c : Char}
    (hc : c ≠ ' ' ∧ c ≠ ',' ∧ c ≠ ')' ∧ c ≠ '.' ∧ c ≠ ';' ∧ c ≠ '(') : rest.head? ≠ some c := by
  intro hhead
  rcases h c hhead with rfl | rfl | rfl | rfl | rfl | rfl <;> simp at hc

theorem symbol (h : Breaks rest) {s : Symbol} (hs : opens (.symbol s) = false) :
    Spells s.text.toList [.symbol s] rest := by
  cases s with
  | leftParen | dot | atSign => cases hs
  | less | greater | lessEqual | minus | slash =>
    -- These go on as another symbol or as a comment where the next character lets them.
    cases rest with
    | nil => exact scan_token_of_first (by rfl)
    | cons c cs =>
      rcases h c rfl with rfl | rfl | rfl | rfl | rfl | rfl <;>
        exact scan_token_of_first (by rfl)
  | _ => exact scan_token_of_first (by rfl)

end Breaks

/-- Whether a text may stand behind a printed token. -/
structure Precedes (t : Token) (rest : List Char) : Prop where
  breaks : t.opens = false → Breaks rest
  dot : t = symbol .dot → startsWithDigit rest = false
  number : ∀ n, t = .number n → rest.head? ≠ some '.'

theorem wordText_sql {w : String} (h : WordText w.toList) : WordText (word w).sql.toList := by
  simp only [sql]
  split
  · exact h.upper
  · exact h

/-- What the lexer gave is printed as one token. -/
theorem Scanned.spells (h : t.Scanned) (hrest : t.Precedes rest) :
    Spells t.sql.toList [t.reread] rest := by
  cases t with
  | word w => exact Spells.word (wordText_sql h) (hrest.breaks rfl).endsWord
  | quoted q =>
    have hbreaks := hrest.breaks rfl
    exact Spells.name q hbreaks.endsWord (hbreaks.head_ne (by decide))
  | str s => exact scan_sqlString s ((hrest.breaks rfl).head_ne (by decide))
  | number n => exact Spells.number h (hrest.breaks rfl).endsWord (hrest.number n rfl)
  | placeholder => exact scan_questionMark
  | symbol s =>
    cases s with
    | leftParen => exact scan_leftParen
    | dot => exact scan_dot (hrest.dot rfl)
    | atSign => exact scan_atSign
    | _ => exact (hrest.breaks rfl).symbol rfl

/-- The printer leaves out the blank behind a token that is not open only where the next one is a
sign that ends it. -/
theorem breaks_of_joined (ht : t.opens = false) (h : joined t u = true) :
    Breaks (u.sql.toList ++ cs) := by
  unfold joined at h
  split at h
  case h_5 | h_6 | h_7 => cases ht
  case h_10 => cases h
  all_goals
    rintro c ⟨⟩
    decide

/-- What is printed behind a dot does not make it the point of a number. -/
theorem Scanned.startsWithDigit_sql (h : u.Scanned) (hdot : Apart (symbol .dot) u) :
    startsWithDigit (u.sql.toList ++ cs) = false := by
  cases u with
  | word w =>
    rw [startsWithDigit_append_of_ne_nil (WordText.ne_nil (wordText_sql h))]
    simp only [sql]
    split
    · rw [Text.upper, String.toList_ofList, startsWithDigit_map_toUpper]
      exact hdot
    · exact hdot
  | quoted q => exact startsWithDigit_sqlName q cs
  | number n => exact hdot.elim
  | str s =>
    rw [sql, sqlString, String.toList_ofList]
    rfl
  | placeholder => rfl
  | symbol s => cases s <;> rfl

theorem precedes_space : t.Precedes (' ' :: cs) where
  breaks := by
    rintro - c ⟨⟩
    decide
  dot _ := rfl
  number := by simp

theorem precedes_sqlAfter (hts : ∀ u ∈ ts, u.Scanned) (hapart : (t :: ts).IsChain Apart) :
    t.Precedes (sqlAfter t ts).toList := by
  cases ts with
  | nil => exact ⟨fun _ => nofun, fun _ => rfl, fun _ _ => nofun⟩
  | cons u us =>
    have hpair : Apart t u := (List.isChain_cons_cons.mp hapart).1
    cases hjoined : joined t u with
    | false => simpa [sqlAfter, hjoined] using precedes_space
    | true =>
      have htext : (sqlAfter t (u :: us)).toList = u.sql.toList ++ (sqlAfter u us).toList := by
        simp [sqlAfter, hjoined]
      rw [htext]
      refine ⟨fun ht => breaks_of_joined ht hjoined, ?_, ?_⟩
      · rintro rfl
        exact (hts u (by simp)).startsWithDigit_sql hpair
      · rintro n rfl
        unfold joined at hjoined
        split at hjoined <;> simp_all [Apart, sql, Symbol.text]

/-- What is printed behind a token is read token for token. -/
theorem scan_sqlAfter (hts : ∀ u ∈ ts, u.Scanned) (hapart : (t :: ts).IsChain Apart) :
    scan (sqlAfter t ts).toList = .ok (ts.map reread) := by
  induction ts generalizing t with
  | nil =>
    rw [sqlAfter, String.toList_empty, scan]
    rfl
  | cons u us ih =>
    have hus : ∀ v ∈ us, v.Scanned := fun v hv => hts v (List.mem_cons_of_mem u hv)
    have htail := (List.isChain_cons_cons.mp hapart).2
    have hsql : scan (u.sql.toList ++ (sqlAfter u us).toList) = .ok ((u :: us).map reread) :=
      ((hts u (by simp)).spells (precedes_sqlAfter hus htail)).ok (ih hus htail)
    cases hjoined : joined t u with
    | false => simpa [sqlAfter, hjoined, scan_space] using hsql
    | true => simpa [sqlAfter, hjoined] using hsql

theorem scan_sqlList (hts : ∀ t ∈ ts, t.Scanned) (hapart : ts.IsChain Apart) :
    scan (sqlList ts).toList = .ok (ts.map reread) := by
  cases ts with
  | nil =>
    rw [sqlList, String.toList_empty, scan]
    rfl
  | cons t ts =>
    have hafter : ∀ u ∈ ts, u.Scanned := fun u hu => hts u (List.mem_cons_of_mem t hu)
    rw [sqlList, String.toList_append]
    exact ((hts t (by simp)).spells (precedes_sqlAfter hafter hapart)).ok
      (scan_sqlAfter hafter hapart)

/-- A statement that is passed on by its tokens keeps them. What the lexer gave is printed so that it
is read again token for token, unless a dot stands next to a number or in front of a word that
starts with a digit. -/
theorem passed_on_token_for_token {text : String} (h : ofString? text = .ok ts)
    (hapart : ts.IsChain Apart) :
    ∃ us, ofString? (Statement.other ts).sql = .ok us ∧ List.Forall₂ Kept ts us := by
  have hscan : ofString? (Statement.other ts).sql = .ok (ts.map reread) :=
    scan_sqlList (scanned_of_mem_scan h) hapart
  exact ⟨ts.map reread, hscan,
    List.forall₂_map_right_iff.mpr (List.forall₂_same.mpr fun t _ => kept_reread t)⟩

def grantTokens : List Token :=
  [word "grant", word "all", word "on", quoted "s", symbol .dot, word "t", word "to", word "a",
    symbol .atSign, str "b"]

theorem grant_is_passed_on :
    ofString? "grant all on \x60s\x60 . t to a @ 'b'" = .ok grantTokens ∧
    ∃ us, ofString? (Statement.other grantTokens).sql = .ok us ∧
      List.Forall₂ Kept grantTokens us := by
  have hscan : ofString? "grant all on \x60s\x60 . t to a @ 'b'" = .ok grantTokens := by
    decide +kernel
  have hapart : grantTokens.IsChain Apart := by
    simp only [grantTokens, List.isChain_cons_cons, List.IsChain.singleton, Apart]
    decide
  exact ⟨hscan, passed_on_token_for_token hscan hapart⟩

/-- A dot that is printed next to a number becomes its point. -/
example : ofString? "t . 5" = .ok [word "t", symbol .dot, number "5"] ∧
    ofString? (sqlList [word "t", symbol .dot, number "5"]) = .ok [word "t", number ".5"] := by
  decide +kernel

end ShardedSql.Sql.Token
