import ShardedSql.Result.Sorting

namespace ShardedSql.Result

variable {α : Type} {le : α → α → Bool}

/-- Puts an item before the first of those that it is not above. -/
def insertInFront (le : α → α → Bool) (x : α) : List α → List α
  | [] => [x]
  | y :: ys => if le x y then x :: y :: ys else y :: insertInFront le x ys

theorem insertInFront_cons_pos {x y : α} (h : le x y = true) (ys : List α) :
    insertInFront le x (y :: ys) = x :: y :: ys := if_pos h

theorem insertInFront_cons_neg {x y : α} (h : ¬le x y = true) (ys : List α) :
    insertInFront le x (y :: ys) = y :: insertInFront le x ys := if_neg h

theorem insertInFront_append {x : α} {xs ys : List α} (hxs : ∀ y ∈ xs, le x y = false)
    (hys : ∀ y ∈ ys, le x y = true) : insertInFront le x (xs ++ ys) = xs ++ x :: ys := by
  induction xs with
  | nil =>
    cases ys with
    | nil => rfl
    | cons y ys => simp [insertInFront, hys y]
  | cons y xs ih =>
    simp only [List.cons_append, insertInFront]
    rw [if_neg (by simp [hxs y]), ih fun z hz => hxs z (by simp [hz])]

/-- The first items of a merge come from the first items of its parts. -/
theorem take_merge (le : α → α → Bool) (n : Nat) (xs ys : List α) :
    (xs.merge ys le).take n = ((xs.take n).merge (ys.take n) le).take n := by
  induction n generalizing xs ys with
  | zero => simp
  | succ n ih =>
    cases xs with
    | nil => simp [List.take_take]
    | cons x xs =>
      cases ys with
      | nil => simp [List.take_take]
      | cons y ys =>
        rw [List.take_succ_cons, List.take_succ_cons]
        by_cases h : le x y = true
        · rw [List.cons_merge_cons_pos _ _ _ h, List.cons_merge_cons_pos _ _ _ h,
            List.take_succ_cons, List.take_succ_cons]
          rw [ih xs (y :: ys), ih (xs.take n) (y :: ys.take n)]
          cases n with
          | zero => simp
          | succ n => simp [List.take_take]
        · rw [List.cons_merge_cons_neg _ _ _ h, List.cons_merge_cons_neg _ _ _ h,
            List.take_succ_cons, List.take_succ_cons]
          rw [ih (x :: xs) ys, ih (x :: xs.take n) (ys.take n)]
          cases n with
          | zero => simp
          | succ n => simp [List.take_take]

theorem mergeSort_congr {r s : α → α → Bool} {xs : List α}
    (h : ∀ a ∈ xs, ∀ b ∈ xs, r a b = s a b) : xs.mergeSort r = xs.mergeSort s := by
  have hmap := List.map_mergeSort (f := id) h
  simpa using hmap

theorem insertBelow_congr {r s : α → α → Bool} {x : α} {ys : List α}
    (h : ∀ y ∈ ys, r x y = s x y) : insertBelow r x ys = insertBelow s x ys := by
  induction ys with
  | nil => rfl
  | cons y ys ih =>
    unfold insertBelow
    rw [h y (by simp), ih fun z hz => h z (by simp [hz])]

theorem stableSort_congr {r s : α → α → Bool} {xs : List α}
    (h : ∀ a ∈ xs, ∀ b ∈ xs, r a b = s a b) : stableSort r xs = stableSort s xs := by
  have hfold (rest sorted : List α) (hrest : ∀ x ∈ rest, x ∈ xs) (hsorted : ∀ x ∈ sorted, x ∈ xs) :
      rest.foldl (fun sorted x => insertBelow r x sorted) sorted =
        rest.foldl (fun sorted x => insertBelow s x sorted) sorted := by
    induction rest generalizing sorted with
    | nil => rfl
    | cons x rest ih =>
      have hx := hrest x (by simp)
      rw [List.foldl_cons, List.foldl_cons,
        insertBelow_congr fun y hy => h x hx y (hsorted y hy)]
      refine ih _ (fun y hy => hrest y (by simp [hy])) fun y hy => ?_
      rcases List.mem_cons.mp ((perm_insertBelow s x sorted).mem_iff.mp hy) with rfl | hy
      · exact hx
      · exact hsorted y hy
  exact congrArg List.reverse (hfold xs [] (fun _ h => h) (by simp))

section Preorder

variable (trans : ∀ a b c, le a b = true → le b c = true → le a c = true)
  (total : ∀ a b, (le a b || le b a) = true)

include trans total

theorem mergeSort_cons_eq_insertInFront (a : α) (xs : List α) :
    (a :: xs).mergeSort le = insertInFront le a (xs.mergeSort le) := by
  obtain ⟨l₁, l₂, h₁, h₂, hbefore⟩ := List.mergeSort_cons trans total a xs
  have hsorted := List.pairwise_mergeSort trans total (a :: xs)
  rw [h₁] at hsorted ⊢
  have hafter := (List.pairwise_cons.mp (List.pairwise_append.mp hsorted).2.1).1
  rw [h₂, insertInFront_append (fun y hy => by simpa using hbefore y hy) hafter]

theorem insertInFront_merge (a : α) (xs ys : List α) :
    insertInFront le a (xs.merge ys le) = (insertInFront le a xs).merge ys le := by
  induction xs generalizing ys with
  | nil =>
    induction ys with
    | nil => simp [insertInFront]
    | cons y ys ih =>
      simp only [List.nil_merge, insertInFront, List.cons_merge_cons] at ih ⊢
      rw [ih]
  | cons x xs ihx =>
    induction ys with
    | nil => simp
    | cons y ys ihy =>
      by_cases hxy : le x y = true
      · rw [List.cons_merge_cons_pos _ _ _ hxy]
        by_cases hax : le a x = true
        · have hay := trans a x y hax hxy
          rw [insertInFront_cons_pos hax, insertInFront_cons_pos hax,
            List.cons_merge_cons_pos _ _ _ hay, List.cons_merge_cons_pos _ _ _ hxy]
        · rw [insertInFront_cons_neg hax, insertInFront_cons_neg hax,
            List.cons_merge_cons_pos _ _ _ hxy, ihx]
      · have hyx : le y x = true := by simpa [hxy] using total x y
        rw [List.cons_merge_cons_neg _ _ _ hxy]
        by_cases hay : le a y = true
        · have hax := trans a y x hay hyx
          rw [insertInFront_cons_pos hay, insertInFront_cons_pos hax,
            List.cons_merge_cons_pos _ _ _ hay, List.cons_merge_cons_neg _ _ _ hxy]
        · rw [insertInFront_cons_neg hay, ihy]
          by_cases hax : le a x = true
          · rw [insertInFront_cons_pos hax, List.cons_merge_cons_neg _ _ _ hay]
          · rw [insertInFront_cons_neg hax, List.cons_merge_cons_neg _ _ _ hxy]

theorem mergeSort_append (xs ys : List α) :
    (xs ++ ys).mergeSort le = (xs.mergeSort le).merge (ys.mergeSort le) le := by
  induction xs with
  | nil => simp
  | cons x xs ih =>
    rw [List.cons_append, mergeSort_cons_eq_insertInFront trans total, ih,
      insertInFront_merge trans total, ← mergeSort_cons_eq_insertInFront trans total]

/-- Cutting sorted lists to a length does not change what comes first when they are sorted
together. -/
theorem take_mergeSort_flatten (n : Nat) {lists : List (List α)}
    (h : ∀ l ∈ lists, l.Pairwise fun a b => le a b = true) :
    ((lists.map (·.take n)).flatten.mergeSort le).take n =
      (lists.flatten.mergeSort le).take n := by
  induction lists with
  | nil => rfl
  | cons l lists ih =>
    have hl := h l (by simp)
    have hrest := ih fun m hm => h m (by simp [hm])
    simp only [List.map_cons, List.flatten_cons]
    rw [mergeSort_append trans total, mergeSort_append trans total,
      List.mergeSort_of_pairwise hl, List.mergeSort_of_pairwise (hl.sublist (List.take_sublist n l)),
      take_merge, take_merge le n l, hrest, List.take_take, Nat.min_self]

omit trans total in
theorem merge_singleton_append {x y : α} (h : le y x = false) (xs : List α) :
    (xs ++ [y]).merge [x] le = xs.merge [x] le ++ [y] := by
  induction xs with
  | nil => simp [h]
  | cons z xs ih =>
    by_cases hz : le z x = true
    · simp [hz, ih]
    · simp [hz]

omit total in
/-- Inserting into a list that runs downwards is merging into the one that runs upwards. -/
theorem reverse_insertBelow (x : α) {ys : List α}
    (h : ys.reverse.Pairwise fun a b => le a b = true) :
    (insertBelow (fun a b => !le b a) x ys).reverse = ys.reverse.merge [x] le := by
  induction ys with
  | nil => simp [insertBelow]
  | cons y ys ih =>
    rw [List.reverse_cons] at h ⊢
    obtain ⟨hys, -, hlast⟩ := List.pairwise_append.mp h
    unfold insertBelow
    by_cases hyx : le y x = true
    · rw [if_neg (by simp [hyx]), List.merge_of_le]
      · simp
      · intro a b ha hb
        obtain rfl := List.mem_singleton.mp hb
        rcases List.mem_append.mp ha with ha | ha
        · exact trans a y b (hlast a ha y (by simp)) hyx
        · obtain rfl := List.mem_singleton.mp ha
          exact hyx
    · have hneg : le y x = false := by simpa using hyx
      rw [if_pos (by simp [hneg]), List.reverse_cons, ih hys, merge_singleton_append hneg]

/-- The insertions amount to the sort of the library. -/
theorem stableSort_eq_mergeSort (xs : List α) :
    stableSort (fun a b => !le b a) xs = xs.mergeSort le := by
  have h (before ys : List α) (hys : ys.reverse = before.mergeSort le) :
      (xs.foldl (fun sorted x => insertBelow (fun a b => !le b a) x sorted) ys).reverse =
        (before ++ xs).mergeSort le := by
    induction xs generalizing before ys with
    | nil => simpa using hys
    | cons x xs ih =>
      rw [List.foldl_cons, ih (before ++ [x]), List.append_assoc, List.singleton_append]
      rw [reverse_insertBelow trans x (hys ▸ List.pairwise_mergeSort trans total before), hys,
        mergeSort_append trans total, List.mergeSort_singleton]
  exact h [] [] (by simp)

end Preorder

end ShardedSql.Result
