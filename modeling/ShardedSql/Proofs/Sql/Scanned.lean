import ShardedSql.Sql.Token.Print

namespace ShardedSql.Text

theorem isBlank_of_isWordChar {c : Char} (h : isWordChar c = true) : isBlank c = false := by
  have hblanks : ∀ n ∈ [0x9, 0xA, 0xB, 0xC, 0xD, 0x20, 0x85, 0xA0, 0x1680, 0x2000, 0x2001, 0x2002,
      0x2003, 0x2004, 0x2005, 0x2006, 0x2007, 0x2008, 0x2009, 0x200A, 0x2028, 0x2029, 0x202F,
      0x205F, 0x3000], isWordChar (Char.ofNat n) = false := by decide +kernel
  cases hb : isBlank c with
  | false => rfl
  | true =>
    obtain ⟨r, hr, hlow, hhigh⟩ := (Ranges.contains_iff _ _).mp hb
    have hc := hblanks c.toNat (by
      simp only [whiteSpace, List.mem_cons, List.not_mem_nil, or_false] at hr ⊢
      rcases hr with rfl | rfl | rfl | rfl | rfl | rfl | rfl | rfl | rfl | rfl <;> simp at * <;>
        omega)
    rw [Char.ofNat_toNat, h] at hc
    cases hc

/-- Capitals change lower case ASCII letters only. -/
theorem toUpper_cases (c : Char) : c.toUpper = c ∨ c ∈ "abcdefghijklmnopqrstuvwxyz".toList := by
  by_cases h : 'a'.val ≤ c.val ∧ c.val ≤ 'z'.val
  · right
    have hcodes : ∀ n ∈ List.range' 97 26,
        Char.ofNat n ∈ "abcdefghijklmnopqrstuvwxyz".toList := by decide
    have hlow : 97 ≤ c.toNat := UInt32.le_iff_toNat_le.mp h.1
    have hhigh : c.toNat ≤ 122 := UInt32.le_iff_toNat_le.mp h.2
    have hc := hcodes c.toNat (by simp only [List.mem_range'_1]; omega)
    rwa [Char.ofNat_toNat] at hc
  · left
    exact dif_neg h

@[elab_as_elim]
theorem of_lowerLetter {p : Char → Prop} [DecidablePred p] {c : Char}
    (h : c ∈ "abcdefghijklmnopqrstuvwxyz".toList)
    (hall : "abcdefghijklmnopqrstuvwxyz".toList.all (fun d => decide (p d)) = true) : p c :=
  of_decide_eq_true (List.all_eq_true.mp hall c h)

theorem isWordChar_toUpper (c : Char) : isWordChar c.toUpper = isWordChar c := by
  rcases toUpper_cases c with h | h
  · rw [h]
  · exact of_lowerLetter h (by decide)

theorem isDigit_toUpper (c : Char) : c.toUpper.isDigit = c.isDigit := by
  rcases toUpper_cases c with h | h
  · rw [h]
  · exact of_lowerLetter h (by decide)

end ShardedSql.Text

namespace ShardedSql.Sql

open Text (isBlank isWordChar isNameStart)

section

variable {α : Type} {p : α → Bool} {xs rest : List α}

theorem takeWhile_append_of_head (h : ∀ c ∈ rest.head?, p c = false) :
    (xs ++ rest).takeWhile p = xs.takeWhile p := by
  induction xs with
  | nil =>
    cases rest with
    | nil => rfl
    | cons c rest => simp [h c rfl]
  | cons x xs ih => cases hx : p x <;> simp [hx, ih]

theorem dropWhile_append_of_head (h : ∀ c ∈ rest.head?, p c = false) :
    (xs ++ rest).dropWhile p = xs.dropWhile p ++ rest := by
  induction xs with
  | nil =>
    cases rest with
    | nil => rfl
    | cons c rest => simp [h c rfl]
  | cons x xs ih => cases hx : p x <;> simp [hx, ih]

theorem takeWhile_append_of_dropWhile (h : xs.dropWhile p ≠ []) (rest : List α) :
    (xs ++ rest).takeWhile p = xs.takeWhile p := by
  induction xs with
  | nil => exact absurd rfl h
  | cons x xs ih =>
    cases hx : p x with
    | false => simp [hx]
    | true =>
      rw [List.dropWhile_cons_of_pos hx] at h
      simp [hx, ih h]

theorem dropWhile_append_of_dropWhile (h : xs.dropWhile p ≠ []) (rest : List α) :
    (xs ++ rest).dropWhile p = xs.dropWhile p ++ rest := by
  rw [List.dropWhile_append, if_neg (by simpa using h)]

theorem head_takeWhile {c : α} (h : c ∈ (xs.takeWhile p).head?) : c ∈ xs.head? ∧ p c = true := by
  cases xs with
  | nil => cases h
  | cons x xs => cases hx : p x <;> simp_all

theorem head_append_takeWhile {c : α} (h : c ∈ (rest ++ xs.takeWhile p).head?) :
    c ∈ (rest ++ xs).head? := by
  cases rest with
  | nil => exact (head_takeWhile h).1
  | cons x rest => exact h

theorem takeWhile_eq_nil (h : ∀ c ∈ xs.head?, p c = false) : xs.takeWhile p = [] := by
  cases xs with
  | nil => rfl
  | cons x xs => simp [h x rfl]

theorem dropWhile_eq_self (h : ∀ c ∈ xs.head?, p c = false) : xs.dropWhile p = xs := by
  cases xs with
  | nil => rfl
  | cons x xs => simp [h x rfl]

theorem takeWhile_append_of_head_of_all (hxs : ∀ c ∈ xs, p c = true)
    (h : ∀ c ∈ rest.head?, p c = false) : (xs ++ rest).takeWhile p = xs := by
  rw [List.takeWhile_append_of_pos hxs, takeWhile_eq_nil h, List.append_nil]

theorem dropWhile_append_of_head_of_all (hxs : ∀ c ∈ xs, p c = true)
    (h : ∀ c ∈ rest.head?, p c = false) : (xs ++ rest).dropWhile p = rest := by
  rw [List.dropWhile_append_of_pos hxs, dropWhile_eq_self h]

theorem head_dropWhile : ∀ c ∈ (xs.dropWhile p).head?, p c = false := by
  induction xs with
  | nil => nofun
  | cons x xs ih =>
    cases hx : p x with
    | false => simp [hx]
    | true => simpa [hx] using ih

end

namespace Token

variable {cs rest : List Char}

def startsNumber : List Char → Bool
  | [] => false
  | c :: cs => c.isDigit || (c == '.' && startsWithDigit cs)

/-- The texts that read as a number. -/
structure NumberText (cs : List Char) : Prop where
  starts : startsNumber cs = true
  ends : numeral cs = (cs, [])

/-- The texts that read as a word: word characters, of which the first is no digit, or a number that
they follow. -/
inductive WordText : List Char → Prop
  | plain {c : Char} {cs : List Char} (hc : isWordChar c = true) (hd : c.isDigit = false)
      (hcs : ∀ d ∈ cs, isWordChar d = true) : WordText (c :: cs)
  | numeric {cs : List Char} (hstarts : startsNumber cs = true) (hne : (numeral cs).2 ≠ [])
      (hcs : ∀ d ∈ (numeral cs).2, isWordChar d = true) : WordText cs

/-- A word or a number as the lexer gives it. -/
def Scanned : Token → Prop
  | word w => WordText w.toList
  | number n => NumberText n.toList
  | _ => True

/-- Whether no word goes on and no exponent starts here. -/
def EndsWord (rest : List Char) : Prop :=
  ∀ c ∈ rest.head?, isWordChar c = false ∧ c ≠ '+' ∧ c ≠ '-'

theorem EndsWord.not_isDigit (h : EndsWord rest) : ∀ c ∈ rest.head?, c.isDigit = false := by
  intro c hc
  cases hd : c.isDigit with
  | false => rfl
  | true =>
    have := (h c hc).1
    rw [Text.isWordChar_of_isDigit hd] at this
    cases this

theorem EndsWord.splitSign (h : EndsWord rest) : splitSign rest = ([], rest) := by
  unfold Token.splitSign
  split
  · exact absurd rfl (h '+' rfl).2.1
  · exact absurd rfl (h '-' rfl).2.2
  · rfl

theorem EndsWord.startsWithDigit (h : EndsWord rest) : startsWithDigit rest = false := by
  cases rest with
  | nil => rfl
  | cons c rest => simpa [Token.startsWithDigit] using h.not_isDigit c rfl

theorem splitSign_append (hcs : cs ≠ []) :
    splitSign (cs ++ rest) = ((splitSign cs).1, (splitSign cs).2 ++ rest) := by
  obtain ⟨c, cs, rfl⟩ := List.exists_cons_of_ne_nil hcs
  rw [List.cons_append]
  unfold splitSign
  split <;> simp_all

theorem startsWithDigit_append (h : EndsWord rest) :
    startsWithDigit (cs ++ rest) = startsWithDigit cs := by
  cases cs with
  | nil => exact h.startsWithDigit
  | cons c cs => rfl

theorem splitSign_of_isWordChar (h : ∀ c ∈ cs.head?, isWordChar c = true) :
    splitSign cs = ([], cs) := by
  unfold splitSign
  split
  · exact absurd (h '+' rfl) (by decide)
  · exact absurd (h '-' rfl) (by decide)
  · rfl

theorem exponent_append (hcs : cs ≠ []) (h : EndsWord rest) :
    exponent (cs ++ rest) = ((exponent cs).1, (exponent cs).2 ++ rest) := by
  obtain ⟨e, cs, rfl⟩ := List.exists_cons_of_ne_nil hcs
  have hsign : (splitSign (cs ++ rest)).1 = (splitSign cs).1 ∧
      (splitSign (cs ++ rest)).2 = (splitSign cs).2 ++ rest := by
    cases cs with
    | nil =>
      rw [List.nil_append, h.splitSign]
      exact ⟨rfl, rfl⟩
    | cons c cs =>
      rw [splitSign_append (by simp)]
      exact ⟨rfl, rfl⟩
  simp only [List.cons_append, exponent, hsign, startsWithDigit_append h,
    takeWhile_append_of_head h.not_isDigit, dropWhile_append_of_head h.not_isDigit]
  split <;> rfl

theorem exponent_nil_append (h : EndsWord rest) : exponent rest = ([], rest) := by
  cases rest with
  | nil => rfl
  | cons e rest =>
    have he : ¬(e = 'e' ∨ e = 'E') := by
      rintro (rfl | rfl)
      · exact absurd (h 'e' rfl).1 (by decide)
      · exact absurd (h 'E' rfl).1 (by decide)
    rw [exponent, if_neg fun hc => he hc.1]

theorem not_isNumberChar (h : EndsWord rest) (hdot : rest.head? ≠ some '.') :
    ∀ c ∈ rest.head?, isNumberChar c = false := by
  intro c hc
  have hne : c ≠ '.' := by
    rintro rfl
    exact hdot hc
  simp [isNumberChar, h.not_isDigit c hc, hne]

/-- What follows a number or a word changes nothing about it. -/
theorem numeral_append (h : EndsWord rest) (hdot : (numeral cs).2 = [] → rest.head? ≠ some '.') :
    numeral (cs ++ rest) = ((numeral cs).1, (numeral cs).2 ++ rest) := by
  unfold numeral
  simp only []
  cases hd : cs.dropWhile isNumberChar with
  | nil =>
    have hnil : (numeral cs).2 = [] := by simp [numeral, hd, exponent]
    have hhead := not_isNumberChar h (hdot hnil)
    rw [takeWhile_append_of_head hhead, dropWhile_append_of_head hhead, hd, List.nil_append,
      exponent_nil_append h]
    rfl
  | cons e d =>
    have hne : cs.dropWhile isNumberChar ≠ [] := by simp [hd]
    rw [takeWhile_append_of_dropWhile hne, dropWhile_append_of_dropWhile hne, hd,
      exponent_append (by simp) h]

theorem splitSign_split (cs : List Char) : (splitSign cs).1 ++ (splitSign cs).2 = cs := by
  unfold splitSign
  split <;> rfl

theorem exponent_split (cs : List Char) : (exponent cs).1 ++ (exponent cs).2 = cs := by
  unfold exponent
  split
  · rfl
  · split
    · next e cs _ => simp [List.takeWhile_append_dropWhile, splitSign_split cs]
    · rfl

theorem numeral_split (cs : List Char) : (numeral cs).1 ++ (numeral cs).2 = cs := by
  simp only [numeral, List.append_assoc, exponent_split, List.takeWhile_append_dropWhile]

theorem splitSign_append_of_startsWithDigit {ds : List Char} (h : startsWithDigit ds = true) :
    splitSign ((splitSign cs).1 ++ ds) = ((splitSign cs).1, ds) := by
  have hds : splitSign ds = ([], ds) := by
    apply splitSign_of_isWordChar
    intro c hc
    apply Text.isWordChar_of_isDigit
    simpa [startsWithDigit, Option.mem_def.mp hc] using h
  have hcs : (splitSign cs).1 = ['+'] ∨ (splitSign cs).1 = ['-'] ∨ (splitSign cs).1 = [] := by
    unfold splitSign
    split <;> simp
  rcases hcs with h' | h' | h' <;> rw [h']
  · rfl
  · rfl
  · exact hds

theorem exponent_of_digits {e : Char} (he : e = 'e' ∨ e = 'E')
    (h : startsWithDigit (splitSign cs).2 = true) :
    exponent (e :: cs) = (e :: ((splitSign cs).1 ++ (splitSign cs).2.takeWhile Char.isDigit),
      (splitSign cs).2.dropWhile Char.isDigit) := by
  rw [exponent.eq_def]
  exact if_pos ⟨he, h⟩

theorem exponent_of_not {e : Char}
    (h : ¬((e = 'e' ∨ e = 'E') ∧ startsWithDigit (splitSign cs).2 = true)) :
    exponent (e :: cs) = ([], e :: cs) := by
  rw [exponent.eq_def]
  exact if_neg h

theorem exponent_word (cs : List Char) :
    exponent ((exponent cs).1 ++ (exponent cs).2.takeWhile isWordChar) =
      ((exponent cs).1, (exponent cs).2.takeWhile isWordChar) := by
  cases cs with
  | nil => rfl
  | cons e cs =>
    by_cases h : (e = 'e' ∨ e = 'E') ∧ startsWithDigit (splitSign cs).2 = true
    · rw [exponent_of_digits h.1 h.2]
      generalize hds : (splitSign cs).2 = ds at h ⊢
      have hdigits : ∀ c ∈ ds.takeWhile Char.isDigit, c.isDigit = true :=
        fun c hc => List.all_eq_true.mp List.all_takeWhile c hc
      have hws : ∀ c ∈ ((ds.dropWhile Char.isDigit).takeWhile isWordChar).head?,
          c.isDigit = false := fun c hc => head_dropWhile c (head_takeWhile hc).1
      have hstarts : startsWithDigit (ds.takeWhile Char.isDigit ++
          (ds.dropWhile Char.isDigit).takeWhile isWordChar) = true := by
        cases ds with
        | nil => cases h.2
        | cons d ds =>
          have hd : d.isDigit = true := by simpa [startsWithDigit] using h.2
          simp [startsWithDigit, hd]
      have hsign : splitSign ((splitSign cs).1 ++ (ds.takeWhile Char.isDigit ++
          (ds.dropWhile Char.isDigit).takeWhile isWordChar)) = ((splitSign cs).1, _) :=
        splitSign_append_of_startsWithDigit hstarts
      simp only [List.cons_append, List.append_assoc]
      rw [exponent_of_digits h.1 (by rw [hsign]; exact hstarts), hsign,
        takeWhile_append_of_head_of_all hdigits hws, dropWhile_append_of_head_of_all hdigits hws]
    · rw [exponent_of_not h]
      simp only [List.nil_append]
      cases he : isWordChar e with
      | false =>
        rw [List.takeWhile_cons_of_neg (by simp [he])]
        rfl
      | true =>
        have hsign : splitSign (cs.takeWhile isWordChar) = ([], cs.takeWhile isWordChar) :=
          splitSign_of_isWordChar fun c hc => (head_takeWhile hc).2
        rw [List.takeWhile_cons_of_pos he]
        apply exponent_of_not
        rintro ⟨hexp, hdigit⟩
        apply h
        refine ⟨hexp, ?_⟩
        rw [hsign] at hdigit
        cases cs with
        | nil => cases hdigit
        | cons c cs =>
          have hc : c.isDigit = true := by
            cases hw : isWordChar c with
            | false => simp [startsWithDigit, hw] at hdigit
            | true => simpa [startsWithDigit, hw] using hdigit
          have hword : splitSign (c :: cs) = ([], c :: cs) := by
            apply splitSign_of_isWordChar
            rintro _ ⟨⟩
            exact Text.isWordChar_of_isDigit hc
          simpa [hword, startsWithDigit] using hc

/-- A number reads alike where nothing follows it but the word characters that are there. -/
theorem numeral_word (cs : List Char) :
    numeral ((numeral cs).1 ++ (numeral cs).2.takeWhile isWordChar) =
      ((numeral cs).1, (numeral cs).2.takeWhile isWordChar) := by
  simp only [numeral, List.append_assoc]
  have hall : ∀ c ∈ cs.takeWhile isNumberChar, isNumberChar c = true :=
    fun c hc => List.all_eq_true.mp List.all_takeWhile c hc
  have hhead : ∀ c ∈ ((exponent (cs.dropWhile isNumberChar)).1 ++
      (exponent (cs.dropWhile isNumberChar)).2.takeWhile isWordChar).head?,
        isNumberChar c = false := by
    intro c hc
    have hd : c ∈ (cs.dropWhile isNumberChar).head? := by
      rw [← exponent_split (cs.dropWhile isNumberChar)]
      exact head_append_takeWhile hc
    exact head_dropWhile c hd
  rw [takeWhile_append_of_head_of_all hall hhead, dropWhile_append_of_head_of_all hall hhead,
    exponent_word]

theorem startsNumber_numeral (h : startsNumber cs = true) (rest : List Char) :
    startsNumber ((numeral cs).1 ++ rest) = true := by
  cases cs with
  | nil => cases h
  | cons c cs =>
    simp only [startsNumber, Bool.or_eq_true, Bool.and_eq_true, beq_iff_eq] at h
    rcases h with hc | ⟨rfl, hcs⟩
    · simp [numeral, startsNumber, isNumberChar, hc]
    · cases cs with
      | nil => cases hcs
      | cons d cs =>
        have hd : d.isDigit = true := by simpa [startsWithDigit] using hcs
        simp [numeral, startsNumber, startsWithDigit, isNumberChar, hd]

/-- What the lexer takes for a number, or for a word that starts as one, has such a text. -/
theorem scanned_numberOrWord (h : startsNumber cs = true) : (numberOrWord cs).1.Scanned := by
  have hword := numeral_word cs
  have hstarts := startsNumber_numeral h ((numeral cs).2.takeWhile isWordChar)
  unfold numberOrWord
  simp only []
  split
  · next hnext =>
    have hne : (numeral cs).2.takeWhile isWordChar ≠ [] := by
      cases hrest : (numeral cs).2 with
      | nil => simp [hrest] at hnext
      | cons c rest =>
        have hc : isWordChar c = true := by simpa [hrest] using hnext
        simp [hc]
    refine WordText.numeric ?_ ?_ ?_ <;> simp only [String.toList_ofList]
    · exact hstarts
    · rwa [hword]
    · rw [hword]
      exact fun c hc => List.all_eq_true.mp List.all_takeWhile c hc
  · next hnext =>
    have hnil : (numeral cs).2.takeWhile isWordChar = [] := by
      apply takeWhile_eq_nil
      intro c hc
      simpa [Option.mem_def.mp hc] using hnext
    rw [hnil, List.append_nil] at hword hstarts
    refine ⟨?_, ?_⟩ <;> simp only [String.toList_ofList]
    · exact hstarts
    · exact hword

theorem scanned_first {c : Char} {t : Token} (h : first c cs = .ok (some t, rest)) : t.Scanned := by
  cases front_of_first h with
  | text | name | mark | symbol => trivial
  | number hnumber hfound =>
    obtain rfl : (numberOrWord (c :: cs)).1 = t := by rw [hfound]
    apply scanned_numberOrWord
    rcases hnumber with hc | ⟨rfl, hcs⟩ <;> simp [startsNumber, *]
  | word hword hd =>
    simp only [Scanned, String.toList_ofList]
    exact .plain hword hd fun d hd => List.all_eq_true.mp List.all_takeWhile d hd

theorem scanned_of_mem_scan {ts : List Token} (h : scan cs = .ok ts) : ∀ t ∈ ts, t.Scanned := by
  fun_induction scan cs generalizing ts with
  | case1 => cases h; simp
  | case2 => cases h
  | case3 => cases h
  | case4 c cs found rest hfirst ts' hscan ih =>
    cases h
    intro t ht
    rcases List.mem_append.mp ht with ht | ht
    · obtain rfl := Option.mem_toList.mp ht
      exact scanned_first hfirst
    · exact ih hscan t ht

theorem startsWithDigit_map_toUpper (cs : List Char) :
    startsWithDigit (cs.map Char.toUpper) = startsWithDigit cs := by
  cases cs with
  | nil => rfl
  | cons c cs => simp [startsWithDigit, Text.isDigit_toUpper]

theorem toUpper_eq_iff {c d : Char} (hd : d ∉ "ABCDEFGHIJKLMNOPQRSTUVWXYZ".toList)
    (hd' : d ∉ "abcdefghijklmnopqrstuvwxyz".toList) : c.toUpper = d ↔ c = d := by
  rcases Text.toUpper_cases c with h | h
  · rw [h]
  · constructor
    · rintro rfl
      have hupper : c.toUpper ∈ "ABCDEFGHIJKLMNOPQRSTUVWXYZ".toList :=
        Text.of_lowerLetter h (by decide)
      exact absurd hupper hd
    · rintro rfl
      exact absurd h hd'

theorem isNumberChar_toUpper (c : Char) : isNumberChar c.toUpper = isNumberChar c := by
  have hdot : c.toUpper = '.' ↔ c = '.' := toUpper_eq_iff (by decide) (by decide)
  simp only [isNumberChar, Text.isDigit_toUpper, Bool.beq_eq_decide_eq, hdot]

theorem splitSign_map_toUpper (cs : List Char) : splitSign (cs.map Char.toUpper) =
    ((splitSign cs).1, (splitSign cs).2.map Char.toUpper) := by
  cases cs with
  | nil => rfl
  | cons c cs =>
    have hplus : c.toUpper = '+' ↔ c = '+' := toUpper_eq_iff (by decide) (by decide)
    have hminus : c.toUpper = '-' ↔ c = '-' := toUpper_eq_iff (by decide) (by decide)
    by_cases h : c = '+'
    · subst h
      rfl
    by_cases h' : c = '-'
    · subst h'
      rfl
    have hmapped := mt hplus.mp h
    have hmapped' := mt hminus.mp h'
    rw [List.map_cons]
    unfold splitSign
    split <;> simp_all

theorem exponent_map_toUpper (cs : List Char) : exponent (cs.map Char.toUpper) =
    ((exponent cs).1.map Char.toUpper, (exponent cs).2.map Char.toUpper) := by
  cases cs with
  | nil => rfl
  | cons e cs =>
    have he : (e.toUpper = 'e' ∨ e.toUpper = 'E') ↔ (e = 'e' ∨ e = 'E') := by
      rcases Text.toUpper_cases e with h | h
      · rw [h]
      · exact Text.of_lowerLetter h (by decide)
    have hdigits : Char.isDigit ∘ Char.toUpper = Char.isDigit := funext Text.isDigit_toUpper
    have hsign : (splitSign cs).1.map Char.toUpper = (splitSign cs).1 := by
      unfold splitSign
      split <;> rfl
    by_cases h : (e = 'e' ∨ e = 'E') ∧ startsWithDigit (splitSign cs).2 = true
    · have hmapped : startsWithDigit (splitSign (cs.map Char.toUpper)).2 = true := by
        rw [splitSign_map_toUpper, startsWithDigit_map_toUpper]
        exact h.2
      rw [List.map_cons, exponent_of_digits (he.mpr h.1) hmapped, exponent_of_digits h.1 h.2,
        splitSign_map_toUpper]
      simp [List.takeWhile_map, List.dropWhile_map, hdigits, hsign]
    · rw [List.map_cons, exponent_of_not, exponent_of_not h]
      · rfl
      · rwa [he, splitSign_map_toUpper, startsWithDigit_map_toUpper]

theorem numeral_map_toUpper (cs : List Char) : numeral (cs.map Char.toUpper) =
    ((numeral cs).1.map Char.toUpper, (numeral cs).2.map Char.toUpper) := by
  have hnumber : isNumberChar ∘ Char.toUpper = isNumberChar := funext isNumberChar_toUpper
  simp [numeral, List.takeWhile_map, List.dropWhile_map, hnumber, exponent_map_toUpper]

theorem startsNumber_map_toUpper (cs : List Char) :
    startsNumber (cs.map Char.toUpper) = startsNumber cs := by
  cases cs with
  | nil => rfl
  | cons c cs =>
    have hdot : c.toUpper = '.' ↔ c = '.' := toUpper_eq_iff (by decide) (by decide)
    simp only [List.map_cons, startsNumber, Text.isDigit_toUpper, Bool.beq_eq_decide_eq, hdot,
      startsWithDigit_map_toUpper]

/-- A word in capitals is a word. -/
theorem WordText.upper {w : String} (h : WordText w.toList) : WordText (Text.upper w).toList := by
  rw [Text.upper, String.toList_ofList]
  generalize w.toList = cs at h
  cases h with
  | plain hc hd hcs =>
    refine .plain ?_ ?_ ?_
    · rwa [Text.isWordChar_toUpper]
    · rwa [Text.isDigit_toUpper]
    · intro d hd
      obtain ⟨c, hc, rfl⟩ := List.mem_map.mp hd
      rw [Text.isWordChar_toUpper]
      exact hcs c hc
  | numeric hstarts hne hcs =>
    refine .numeric ?_ ?_ ?_
    · rwa [startsNumber_map_toUpper]
    · rw [numeral_map_toUpper]
      simpa using hne
    · rw [numeral_map_toUpper]
      intro d hd
      obtain ⟨c, hc, rfl⟩ := List.mem_map.mp hd
      rw [Text.isWordChar_toUpper]
      exact hcs c hc

end Token

end ShardedSql.Sql
