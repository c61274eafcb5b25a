import ShardedSql.Proofs.Sql.Levels

namespace ShardedSql.Sql

open TokenParser
open Token (scan)

namespace Expr

mutual

/-- The height of an expression where the left operand of an operator adds so much. -/
def heightBy (left : Nat) : Expr → Nat
  | column _ | literal _ | placeholder | var _ | defaultValue | star => 0
  | not e | negate e | isNull e _ | paren e => e.heightBy left + 1
  | binary l _ r => max (l.heightBy left + left) (r.heightBy left + 1)
  | inList e items _ => max (e.heightBy left) (heightsBy left items) + 1
  | between e low high _ =>
    max (e.heightBy left) (max (low.heightBy left) (high.heightBy left)) + 1
  | like e p _ => max (e.heightBy left) (p.heightBy left) + 1
  | call _ args _ => heightsBy left args + 1

def heightsBy (left : Nat) : List Expr → Nat
  | [] => 0
  | e :: es => max (e.heightBy left) (heightsBy left es)

end

/-- The height of an expression as a tree. -/
def height (e : Expr) : Nat := e.heightBy 1

/-- The number of operators that an expression is a chain of. -/
def chainLength : Expr → Nat
  | binary l _ _ => l.chainLength + 1
  | _ => 0

mutual

/-- The length of the longest chain of operators in an expression. -/
def longestChain : Expr → Nat
  | column _ | literal _ | placeholder | var _ | defaultValue | star => 0
  | not e | negate e | isNull e _ | paren e => e.longestChain
  | binary l _ r => max (l.chainLength + 1) (max l.longestChain r.longestChain)
  | inList e items _ => max e.longestChain (longestChains items)
  | between e low high _ => max e.longestChain (max low.longestChain high.longestChain)
  | like e p _ => max e.longestChain p.longestChain
  | call _ args _ => longestChains args

def longestChains : List Expr → Nat
  | [] => 0
  | e :: es => max e.longestChain (longestChains es)

end

theorem heightsBy_le_iff {left n : Nat} {es : List Expr} :
    heightsBy left es ≤ n ↔ ∀ e ∈ es, e.heightBy left ≤ n := by
  induction es with
  | nil => simp [heightsBy]
  | cons e es ih => rw [heightsBy, Nat.max_le, ih, List.forall_mem_cons]

theorem chainLength_le_longestChain : ∀ e : Expr, e.chainLength ≤ e.longestChain
  | binary _ _ _ => Nat.le_max_left _ _
  | column _ | literal _ | placeholder | var _ | defaultValue | star | not _ | negate _
  | isNull _ _ | paren _ | inList _ _ _ | between _ _ _ _ | like _ _ _ | call _ _ _ => Nat.zero_le _

theorem chainLength_le_height : ∀ e : Expr, e.chainLength ≤ e.heightBy 1
  | binary l _ r => by
    have hl := chainLength_le_height l
    rw [chainLength, heightBy]
    omega
  | column _ | literal _ | placeholder | var _ | defaultValue | star | not _ | negate _
  | isNull _ _ | paren _ | inList _ _ _ | between _ _ _ _ | like _ _ _ | call _ _ _ => Nat.zero_le _

mutual

/-- A chain of operators is as high as it is long. -/
theorem longestChain_le_height : ∀ e : Expr, e.longestChain ≤ e.heightBy 1
  | column _ | literal _ | placeholder | var _ | defaultValue | star => Nat.le_refl _
  | not e | negate e | isNull e _ | paren e => Nat.le_succ_of_le (longestChain_le_height e)
  | binary l _ r => by
    have hl := longestChain_le_height l
    have hr := longestChain_le_height r
    have hchain := chainLength_le_height l
    simp only [longestChain, heightBy]
    omega
  | inList e items _ => by
    have he := longestChain_le_height e
    have hitems := longestChains_le_heights items
    simp only [longestChain, heightBy]
    omega
  | between e low high _ => by
    have he := longestChain_le_height e
    have hlow := longestChain_le_height low
    have hhigh := longestChain_le_height high
    simp only [longestChain, heightBy]
    omega
  | like e p _ => by
    have he := longestChain_le_height e
    have hp := longestChain_le_height p
    simp only [longestChain, heightBy]
    omega
  | call _ args _ => Nat.le_succ_of_le (longestChains_le_heights args)

theorem longestChains_le_heights : ∀ es : List Expr, longestChains es ≤ heightsBy 1 es
  | [] => Nat.le_refl _
  | e :: es => by
    have he := longestChain_le_height e
    have hes := longestChains_le_heights es
    simp only [longestChains, heightsBy]
    omega

end

theorem succ_le_mul_of_le {h c s t n : Nat} (hh : h ≤ c + s * (n + 1)) (hc : c ≤ n)
    (hs : s + 1 ≤ t) : h + 1 ≤ t * (n + 1) :=
  calc h + 1 ≤ (s + 1) * (n + 1) := by rw [Nat.succ_mul]; omega
    _ ≤ t * (n + 1) := Nat.mul_le_mul_right _ hs

mutual

/-- Each step to the left stays in a chain of operators, and each other step starts a new one. -/
theorem height_le_of_longestChain_le {n : Nat} :
    ∀ e : Expr, e.longestChain ≤ n → e.heightBy 1 ≤ e.chainLength + e.heightBy 0 * (n + 1)
  | column _, _ | literal _, _ | placeholder, _ | var _, _ | defaultValue, _ | star, _ =>
    Nat.zero_le _
  | not e, h | negate e, h | isNull e _, h | paren e, h => by
    have he := step_le_of_longestChain_le e h (Nat.le_refl _)
    simpa [heightBy, chainLength] using he
  | binary l op r, h => by
    simp only [longestChain, Nat.max_le] at h
    have hl := height_le_of_longestChain_le l h.2.1
    have hside : l.heightBy 0 * (n + 1) ≤ (binary l op r).heightBy 0 * (n + 1) :=
      Nat.mul_le_mul_right _ (Nat.le_max_left _ _)
    have hr := step_le_of_longestChain_le r h.2.2
      (show r.heightBy 0 + 1 ≤ (binary l op r).heightBy 0 from Nat.le_max_right _ _)
    rw [heightBy, chainLength]
    omega
  | inList e items b, h => by
    simp only [longestChain, Nat.max_le] at h
    have he := step_le_of_longestChain_le e h.1
      (show e.heightBy 0 + 1 ≤ (inList e items b).heightBy 0 by rw [heightBy]; omega)
    have hitems := steps_le_of_longestChains_le items h.2
      (show heightsBy 0 items + 1 ≤ (inList e items b).heightBy 0 by rw [heightBy]; omega)
    rw [heightBy]
    omega
  | between e low high b, h => by
    simp only [longestChain, Nat.max_le] at h
    have he := step_le_of_longestChain_le e h.1
      (show e.heightBy 0 + 1 ≤ (between e low high b).heightBy 0 by rw [heightBy]; omega)
    have hlow := step_le_of_longestChain_le low h.2.1
      (show low.heightBy 0 + 1 ≤ (between e low high b).heightBy 0 by rw [heightBy]; omega)
    have hhigh := step_le_of_longestChain_le high h.2.2
      (show high.heightBy 0 + 1 ≤ (between e low high b).heightBy 0 by rw [heightBy]; omega)
    rw [heightBy]
    omega
  | like e p b, h => by
    simp only [longestChain, Nat.max_le] at h
    have he := step_le_of_longestChain_le e h.1
      (show e.heightBy 0 + 1 ≤ (like e p b).heightBy 0 by rw [heightBy]; omega)
    have hp := step_le_of_longestChain_le p h.2
      (show p.heightBy 0 + 1 ≤ (like e p b).heightBy 0 by rw [heightBy]; omega)
    rw [heightBy]
    omega
  | call _ args _, h => by
    have hargs := steps_le_of_longestChains_le args h (Nat.le_refl _)
    simpa [heightBy, chainLength] using hargs

theorem step_le_of_longestChain_le {n t : Nat} (e : Expr) (h : e.longestChain ≤ n)
    (ht : e.heightBy 0 + 1 ≤ t) : e.heightBy 1 + 1 ≤ t * (n + 1) :=
  succ_le_mul_of_le (height_le_of_longestChain_le e h)
    (Nat.le_trans (chainLength_le_longestChain e) h) ht

theorem steps_le_of_longestChains_le {n t : Nat} : ∀ es : List Expr, longestChains es ≤ n →
    heightsBy 0 es + 1 ≤ t → heightsBy 1 es + 1 ≤ t * (n + 1)
  | [], _, ht => by
    have := Nat.mul_le_mul_right (n + 1) ht
    simp only [heightsBy] at this ⊢
    omega
  | e :: es, h, ht => by
    simp only [longestChains, Nat.max_le] at h
    simp only [heightsBy] at ht ⊢
    have he := step_le_of_longestChain_le e h.1 (t := t) (by omega)
    have hes := steps_le_of_longestChains_le es h.2 (t := t) (by omega)
    omega

end

mutual

@[simp] theorem heightBy_mapColumns (left : Nat) (f : ColumnName → ColumnName) :
    ∀ e : Expr, (e.mapColumns f).heightBy left = e.heightBy left
  | column _ | literal _ | placeholder | var _ | defaultValue | star => rfl
  | not e | negate e | isNull e _ | paren e => by
    simp [mapColumns, heightBy, heightBy_mapColumns left f e]
  | binary l _ r | like l r _ => by
    simp [mapColumns, heightBy, heightBy_mapColumns left f l, heightBy_mapColumns left f r]
  | inList e items _ => by
    simp [mapColumns, heightBy, heightBy_mapColumns left f e, heightsBy_mapColumnsAll left f items]
  | between e low high _ => by
    simp [mapColumns, heightBy, heightBy_mapColumns left f e, heightBy_mapColumns left f low,
      heightBy_mapColumns left f high]
  | call _ args _ => by simp [mapColumns, heightBy, heightsBy_mapColumnsAll left f args]

@[simp] theorem heightsBy_mapColumnsAll (left : Nat) (f : ColumnName → ColumnName) :
    ∀ es : List Expr, heightsBy left (mapColumnsAll f es) = heightsBy left es
  | [] => rfl
  | e :: es => by
    simp [mapColumnsAll, heightsBy, heightBy_mapColumns left f e, heightsBy_mapColumnsAll left f es]

end

theorem heightBy_le_signed (left : Nat) (e : Expr) : e.heightBy left ≤ e.signed.heightBy left := by
  unfold signed
  split
  · exact Nat.zero_le _
  · exact Nat.le_refl _

end Expr

/-- The right operand of an operator binds more than the operator does, so that it takes levels of
nesting to get deeper than there are layers without going to the left. -/
theorem Derives.heightBy_le {k : Nat} {r : Rank} {e : Expr} {u : List Token} (h : Derives k r e u) :
    e.heightBy 0 + r.level ≤ 8 * (k + 1) + 1 := by
  have hitems : ∀ {k : Nat} {ps : List (Expr × List Token)},
      (∀ p ∈ ps, p.1.heightBy 0 + Rank.disjunction.level ≤ 8 * (k + 1) + 1) →
        Expr.heightsBy 0 (ps.map (·.1)) ≤ 8 * (k + 1) := by
    intro k ps hps
    rw [Expr.heightsBy_le_iff]
    intro e he
    obtain ⟨p, hp, rfl⟩ := List.mem_map.mp he
    exact Nat.le_of_succ_le_succ (hps p hp)
  induction h with
  | column | qualified | word | text | placeholder | var =>
    simp only [Expr.heightBy, Rank.level]
    omega
  | number h =>
    subst h
    unfold Expr.ofNumber
    split <;> simp only [Expr.heightBy, Rank.level] <;> omega
  | callStar | callNone =>
    simp only [Expr.heightBy, Expr.heightsBy, Rank.level]
    omega
  | call _ _ _ _ _ ih =>
    have hargs := hitems ih
    simp only [Expr.heightBy, Rank.level]
    omega
  | paren _ _ ih | negate _ ih | plus _ ih | not _ _ ih =>
    simp only [Expr.heightBy, Rank.level] at ih ⊢
    omega
  | chain hs _ _ _ ihl ihe =>
    rw [Rank.level_above hs] at ihe
    rw [Expr.heightBy]
    omega
  | comparison _ _ _ ihl ihe | like _ _ _ _ ihl ihe =>
    simp only [Expr.heightBy, Rank.level] at ihl ihe ⊢
    omega
  | isNull _ _ _ _ ih =>
    simp only [Expr.heightBy, Rank.level] at ih ⊢
    omega
  | inList _ _ _ _ _ _ ih ihps =>
    have hlist := hitems ihps
    simp only [Expr.heightBy, Rank.level] at ih ⊢
    omega
  | between _ _ _ _ _ _ ih ihlow ihhigh =>
    simp only [Expr.heightBy, Rank.level] at ih ihlow ihhigh ⊢
    omega
  | tighter hs _ _ ih =>
    rw [Rank.level_above hs] at ih
    omega

theorem Expr.Written.heightBy_le {k : Nat} {e : Expr} (h : e.Written k) :
    e.heightBy 0 ≤ 8 * (k + 1) := by
  obtain ⟨x, u, f, hx, -, rfl⟩ := h
  rw [Expr.heightBy_mapColumns]
  exact Nat.le_of_succ_le_succ hx.heightBy_le

def SelectItem.exprs : SelectItem → List Expr
  | star | tableStar _ => []
  | expr e _ => [e]

def Select.exprs (s : Select) : List Expr :=
  s.items.flatMap SelectItem.exprs ++ s.joins.filterMap (·.on) ++ s.condition.toList ++ s.groupBy
    ++ s.having.toList ++ s.orderBy.map (·.expr)

def Insert.exprs (i : Insert) : List Expr := i.rows.flatten ++ i.onDuplicate.map (·.value)

def Update.exprs (u : Update) : List Expr := u.assignments.map (·.value) ++ u.condition.toList

namespace Statement

/-- The expressions of a statement that is taken apart. -/
def exprs : Statement → List Expr
  | select s => s.exprs
  | insert i => i.exprs
  | update u => u.exprs
  | delete d => d.condition.toList
  | explain inner => inner.exprs
  | other _ => []

theorem Written.heightBy_le {stmt : Statement} (h : stmt.Written) {e : Expr} (he : e ∈ stmt.exprs) :
    e.heightBy 0 ≤ 8 * maxLevels := by
  have hexpr : ∀ {e : Expr}, e.Written (maxLevels - 1) → e.heightBy 0 ≤ 8 * maxLevels :=
    fun h => h.heightBy_le
  cases stmt with
  | select s =>
    have hitem : ∀ i ∈ s.items, e ∈ i.exprs → e.Written (maxLevels - 1) := by
      intro i hi he
      have hwritten := h.items i hi
      cases i with
      | expr e' a =>
        rw [List.mem_singleton.mp he]
        exact hwritten
      | _ => cases he
    simp only [exprs, Select.exprs, List.mem_append, List.mem_flatMap, List.mem_filterMap,
      Option.mem_toList, List.mem_map] at he
    rcases he with ((((⟨i, hi, he⟩ | ⟨j, hj, he⟩) | he) | he) | he) | ⟨o, ho, rfl⟩
    · exact hexpr (hitem i hi he)
    · exact hexpr (h.joins j hj e he)
    · exact hexpr (h.condition e he)
    · exact hexpr (h.groupBy e he)
    · exact hexpr (h.having e he)
    · exact hexpr (h.orderBy o ho)
  | insert i =>
    simp only [exprs, Insert.exprs, List.mem_append, List.mem_flatten, List.mem_map] at he
    rcases he with ⟨row, hrow, he⟩ | ⟨a, ha, rfl⟩
    · refine Nat.le_trans (e.heightBy_le_signed 0) ?_
      rcases h.rows row hrow e he with hdefault | hwritten
      · rw [hdefault]
        exact Nat.zero_le _
      · exact hexpr hwritten
    · exact hexpr (h.onDuplicate a ha)
  | update u =>
    simp only [exprs, Update.exprs, List.mem_append, List.mem_map, Option.mem_toList] at he
    rcases he with ⟨a, ha, rfl⟩ | he
    · exact hexpr (h.assignments a ha)
    · exact hexpr (h.condition e he)
  | delete d => exact hexpr (h e (Option.mem_toList.mp he))
  | explain _ | other _ => cases h

theorem exprs_innermost (stmt : Statement) : stmt.innermost.exprs = stmt.exprs := by
  induction stmt with
  | explain inner ih => exact ih
  | _ => rfl

/-- The expressions of a statement are as high as their longest chain of operators, up to a factor
that the levels of nesting fix. -/
theorem height_of_read (text : String) (stmt : Statement) (h : ofString? text = .ok stmt) :
    ∀ e ∈ stmt.exprs, e.longestChain ≤ e.height ∧
      e.height ≤ e.longestChain + 8 * maxLevels * (e.longestChain + 1) := by
  intro e he
  rw [← exprs_innermost] at he
  have hside : e.heightBy 0 ≤ 8 * maxLevels := by
    rcases written_innermost_of_ofString? h with hwritten | ⟨tokens, hother⟩
    · exact hwritten.heightBy_le he
    · rw [hother] at he
      cases he
  refine ⟨e.longestChain_le_height, ?_⟩
  calc e.height ≤ e.chainLength + e.heightBy 0 * (e.longestChain + 1) :=
        e.height_le_of_longestChain_le (Nat.le_refl _)
    _ ≤ e.longestChain + 8 * maxLevels * (e.longestChain + 1) :=
        Nat.add_le_add e.chainLength_le_longestChain (Nat.mul_le_mul_right _ hside)

/-- The sum of so many ones and another one. -/
def onesAdded : Nat → Expr
  | 0 => .literal (.integer 1)
  | n + 1 => .binary (onesAdded n) .plus (.literal (.integer 1))

theorem height_onesAdded (n : Nat) : (onesAdded n).height = n := by
  unfold Expr.height
  induction n with
  | zero => rfl
  | succ n ih =>
    rw [onesAdded, Expr.heightBy, ih]
    simp [Expr.heightBy]

theorem normal_onesAdded (n : Nat) : (onesAdded n).normal = onesAdded n := by
  induction n with
  | zero => rfl
  | succ n ih =>
    rw [onesAdded, Expr.normal, ih]
    rfl

theorem derives_onesAdded (k n : Nat) : Derives k .sum (onesAdded n) (onesAdded n).tokens := by
  have hone : Derives k .product (.literal (.integer 1)) [.number "1"] :=
    .tighter rfl (.tighter rfl (Derives.literal (.integer (by decide))) nofun) nofun
  induction n with
  | zero => exact .tighter rfl hone nofun
  | succ n ih => exact .chain rfl rfl ih hone

theorem tokens_onesAdded (n : Nat) : ∃ us, (onesAdded n).tokens = .number "1" :: us ∧
    ∀ t ∈ us, t = .symbol .plus ∨ t = .number "1" := by
  induction n with
  | zero => exact ⟨[], rfl, nofun⟩
  | succ n ih =>
    obtain ⟨us, hus, hmem⟩ := ih
    refine ⟨us ++ [.symbol .plus, .number "1"], ?_, ?_⟩
    · rw [onesAdded, Expr.tokens, hus]
      rfl
    · intro t ht
      rcases List.mem_append.mp ht with ht | ht
      · exact hmem t ht
      · simpa using ht

theorem readable_onesAdded (n : Nat) : (onesAdded n).Readable := by
  induction n with
  | zero => trivial
  | succ n ih => exact ⟨ih, trivial, nofun⟩

theorem ofString?_onesAdded (n : Nat) :
    ofString? (select (.ofExpr (onesAdded n))).sql = .ok (select (.ofExpr (onesAdded n))) := by
  obtain ⟨us, htokens, hmem⟩ := tokens_onesAdded n
  have hopens : ∀ kw, ¬OpensWith kw (onesAdded n).tokens := by
    intro kw
    rw [htokens, opensWith_cons]
    exact Bool.false_ne_true
  have hone : (Token.number "1").Scanned := numberText_decimal (i := 1) (by decide)
  have hscanned : ∀ t ∈ (onesAdded n).tokens, t.Scanned := by
    rw [htokens]
    intro t ht
    rcases List.mem_cons.mp ht with rfl | ht
    · exact hone
    · rcases hmem t ht with rfl | rfl
      · trivial
      · exact hone
  have hderives : Derives (maxLevels - 1) .disjunction (onesAdded n) (onesAdded n).tokens :=
    .tighter rfl (.tighter rfl (.tighter rfl (.tighter rfl (derives_onesAdded _ n) nofun)
      fun _ => hopens "NOT") nofun) nofun
  have hwritten : Statement.Written (select (.ofExpr (onesAdded n))) :=
    Select.written_ofExpr (.of_derives hderives hscanned)
  have hlegible : Statement.Legible (select (.ofExpr (onesAdded n))) :=
    Select.legible_ofExpr ⟨readable_onesAdded n, .inr (hopens "NOT")⟩ (hopens _) (hopens _)
  have hnormal : normal (select (.ofExpr (onesAdded n))) =
      select (.ofExpr (onesAdded n).normal) := rfl
  rw [ofString?_sql hwritten hlegible, hnormal, normal_onesAdded]

/-- The height of `1 + 1 + 1 + 1` is that of its chain. -/
theorem height_of_four_ones :
    ofString? "SELECT 1 + 1 + 1 + 1" = .ok (select (.ofExpr (onesAdded 3))) ∧
    ∀ e ∈ (select (.ofExpr (onesAdded 3))).exprs, e.longestChain = 3 ∧ e.longestChain ≤ e.height ∧
      e.height ≤ e.longestChain + 8 * maxLevels * (e.longestChain + 1) := by
  have htext : (select (.ofExpr (onesAdded 3))).sql = "SELECT 1 + 1 + 1 + 1" := rfl
  have hread := ofString?_onesAdded 3
  rw [htext] at hread
  refine ⟨hread, fun e he => ⟨?_, height_of_read _ _ hread e he⟩⟩
  obtain rfl : e = onesAdded 3 := by
    simpa [exprs, Select.exprs, Select.ofExpr, SelectItem.exprs] using he
  rfl

/-- No number of levels bounds the height of the expressions: a sum takes no level. -/
theorem height_is_unbounded : ¬∃ bound : Nat, ∀ (text : String) (stmt : Statement),
    ofString? text = .ok stmt → ∀ e ∈ stmt.exprs, e.height ≤ bound := by
  rintro ⟨bound, h⟩
  have hheight := h _ _ (ofString?_onesAdded (bound + 1)) (onesAdded (bound + 1))
    (by simp [exprs, Select.exprs, Select.ofExpr, SelectItem.exprs])
  rw [height_onesAdded] at hheight
  omega

end Statement

end ShardedSql.Sql
