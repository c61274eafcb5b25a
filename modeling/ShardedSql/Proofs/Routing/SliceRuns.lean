import ShardedSql.Proofs.Routing.Arithmetic

namespace ShardedSql.Routing

theorem countP_between {a b : Nat} (h : a ≤ b) (N : Nat) :
    (List.range N).countP (fun n => a ≤ n ∧ n < b) = min b N - min a N := by
  induction N with
  | zero => simp
  | succ N ih =>
    rw [List.range_succ, List.countP_append, ih, List.countP_singleton]
    split <;> simp_all <;> omega

namespace Rule

variable {r : Rule} {n p : Nat}

/-- The first shard on a slice or, where a slice is empty, on the next one that is not. -/
def firstOnSlice (r : Rule) (p : Nat) : Nat :=
  (p * r.count.toNat + (r.slices.length - 1)) / r.slices.length

theorem firstOnSlice_le_iff (hslices : 0 < r.slices.length) :
    r.firstOnSlice p ≤ n ↔ p * r.count.toNat ≤ n * r.slices.length := by
  have hdiv : r.firstOnSlice p < n + 1 ↔ _ := Nat.div_lt_iff_lt_mul hslices
  rw [← Nat.lt_succ_iff, hdiv, Nat.add_mul]
  omega

theorem firstOnSlice_mono {q : Nat} (h : p ≤ q) : r.firstOnSlice p ≤ r.firstOnSlice q :=
  Nat.div_le_div_right (Nat.add_le_add_right (Nat.mul_le_mul_right _ h) _)

theorem firstOnSlice_slices (hslices : 0 < r.slices.length) :
    r.firstOnSlice r.slices.length = r.count.toNat := by
  rw [firstOnSlice, Nat.mul_add_div hslices, Nat.div_eq_of_lt (by omega), Nat.add_zero]

/-- The shards of a slice are those from its first one up to that of the next slice. -/
theorem slicePosition_eq_iff (hcheck : r.check = .ok ())
    (hfits : n * r.slices.length < UInt64.size) :
    r.slicePosition n = p ↔ r.firstOnSlice p ≤ n ∧ n < r.firstOnSlice (p + 1) := by
  have hpos := count_pos (count_ne_zero_of_check hcheck)
  have hslices := slices_pos hcheck
  rw [slicePosition_eq hfits, ← Nat.not_le, firstOnSlice_le_iff hslices,
    firstOnSlice_le_iff hslices, Nat.div_eq_iff hpos, Nat.add_mul]
  omega

/-- From the first shard of a slice to that of the next there are as many as the count divided by
the slices, rounded down or up. -/
theorem firstOnSlice_succ (hslices : 0 < r.slices.length) (p : Nat) :
    r.firstOnSlice (p + 1) = r.firstOnSlice p + r.count.toNat / r.slices.length ∨
      r.firstOnSlice (p + 1) = r.firstOnSlice p +
        (r.count.toNat + (r.slices.length - 1)) / r.slices.length := by
  generalize hN : r.count.toNat = N
  generalize hS : r.slices.length = S at hslices ⊢
  have hnext : r.firstOnSlice (p + 1) = (p * N + (S - 1) + N) / S := by
    rw [firstOnSlice, hN, hS, Nat.add_mul]
    congr 1
    omega
  have hthis : r.firstOnSlice p = (p * N + (S - 1)) / S := by rw [firstOnSlice, hN, hS]
  have hup : (N + (S - 1)) / S = N / S + if S ≤ N % S + (S - 1) then 1 else 0 := by
    rw [Nat.add_div hslices, Nat.div_eq_of_lt (by omega : S - 1 < S),
      Nat.mod_eq_of_lt (by omega : S - 1 < S), Nat.add_zero]
  rw [hnext, hthis, hup, Nat.add_div hslices]
  have hlt := Nat.mod_lt (p * N + (S - 1)) hslices
  split <;> split <;> omega

theorem slicePosition_mono {m : Nat} (h : m ≤ n) (hfits : n * r.slices.length < UInt64.size) :
    r.slicePosition m ≤ r.slicePosition n := by
  have hproduct : m * r.slices.length ≤ n * r.slices.length := Nat.mul_le_mul_right _ h
  rw [slicePosition_eq hfits, slicePosition_eq (by omega)]
  exact Nat.div_le_div_right hproduct

theorem countP_slicePosition (hcheck : r.check = .ok ())
    (hfits : r.count.toNat * r.slices.length < UInt64.size) (hp : p < r.slices.length) :
    (List.range r.count.toNat).countP (fun n => r.slicePosition n = p) =
      r.firstOnSlice (p + 1) - r.firstOnSlice p := by
  have hlast : r.firstOnSlice (p + 1) ≤ r.count.toNat := by
    rw [← firstOnSlice_slices (slices_pos hcheck)]
    exact firstOnSlice_mono hp
  have hmono : r.firstOnSlice p ≤ r.firstOnSlice (p + 1) :=
    firstOnSlice_mono (Nat.le_add_right p 1)
  calc (List.range r.count.toNat).countP (fun n => r.slicePosition n = p)
    _ = (List.range r.count.toNat).countP
          (fun n => r.firstOnSlice p ≤ n ∧ n < r.firstOnSlice (p + 1)) := by
      apply List.countP_congr
      intro n hn
      have hle : n * r.slices.length ≤ r.count.toNat * r.slices.length :=
        Nat.mul_le_mul_right _ (Nat.le_of_lt (List.mem_range.mp hn))
      simpa using slicePosition_eq_iff hcheck (Nat.lt_of_le_of_lt hle hfits)
    _ = r.firstOnSlice (p + 1) - r.firstOnSlice p := by
      rw [countP_between hmono]
      omega

/-- A slice position gets its share of the shards. -/
theorem countP_slicePosition_cases (hcheck : r.check = .ok ())
    (hfits : r.count.toNat * r.slices.length < UInt64.size) (hp : p < r.slices.length) :
    (List.range r.count.toNat).countP (fun n => r.slicePosition n = p) =
        r.count.toNat / r.slices.length ∨
      (List.range r.count.toNat).countP (fun n => r.slicePosition n = p) =
        (r.count.toNat + (r.slices.length - 1)) / r.slices.length := by
  rw [countP_slicePosition hcheck hfits hp]
  rcases firstOnSlice_succ (slices_pos hcheck) p with h | h <;> simp [h]

theorem exists_slicePosition_eq (hcheck : r.check = .ok ())
    (hfits : r.count.toNat * r.slices.length < UInt64.size) (hp : p < r.slices.length)
    (hmany : r.slices.length ≤ r.count.toNat) :
    ∃ n < r.count.toNat, r.slicePosition n = p := by
  have hdown : 0 < r.count.toNat / r.slices.length := Nat.div_pos hmany (slices_pos hcheck)
  have hup : 0 < (r.count.toNat + (r.slices.length - 1)) / r.slices.length :=
    Nat.div_pos (by omega) (slices_pos hcheck)
  have hsome : 0 < (List.range r.count.toNat).countP (fun n => r.slicePosition n = p) := by
    rcases countP_slicePosition_cases hcheck hfits hp with h | h <;> rw [h] <;> assumption
  simpa using List.countP_pos_iff.mp hsome

end Rule

namespace RuleTable

/-- The shards of an accepted rule are spread over its slices in balanced runs. Along the route to
all of them the slice position, by which each shard has its slice, does not decrease. Each position
gets the count divided by the slices, rounded down or up, so that no slice is left empty where there
are enough shards. -/
theorem shards_spread_evenly {rules : RuleTable} (hgrown : rules.Grown) {db table : String}
    {r : Rule} (hfind : rules.find? db table = some r)
    (hfits : r.count.toNat * r.slices.length < UInt64.size) :
    ∃ all, rules.route db table .all = .ok all ∧ all.length = r.count.toNat ∧
      (∀ s ∈ all, r.slices[r.slicePosition s.index]? = some s.slice) ∧
      (all.map fun s => r.slicePosition s.index).Pairwise (· ≤ ·) ∧
      ∀ p < r.slices.length,
        (all.countP (fun s => r.slicePosition s.index = p) = r.count.toNat / r.slices.length ∨
          all.countP (fun s => r.slicePosition s.index = p) =
            (r.count.toNat + (r.slices.length - 1)) / r.slices.length) ∧
        (r.slices.length ≤ r.count.toNat → ∃ s ∈ all, r.slicePosition s.index = p) := by
  have hcheck := hgrown.check r (List.mem_of_find?_eq_some hfind)
  refine ⟨_, route_of_indexes hfind r.indexes_all, by simp, ?_, ?_, fun p hp => ⟨?_, ?_⟩⟩
  · intro s hs
    obtain ⟨n, hn, rfl⟩ := List.mem_map.mp hs
    have hlt := Rule.slicePosition_lt hcheck (List.mem_range.mp hn)
    simp [Rule.shard, hlt]
  · rw [List.map_map, List.pairwise_map]
    refine List.pairwise_lt_range.imp_of_mem ?_
    intro m n _ hn hmn
    have hle : n * r.slices.length ≤ r.count.toNat * r.slices.length :=
      Nat.mul_le_mul_right _ (Nat.le_of_lt (List.mem_range.mp hn))
    exact Rule.slicePosition_mono (Nat.le_of_lt hmn) (Nat.lt_of_le_of_lt hle hfits)
  · rw [List.countP_map]
    exact Rule.countP_slicePosition_cases hcheck hfits hp
  · intro hmany
    obtain ⟨n, hn, hposition⟩ := Rule.exists_slicePosition_eq hcheck hfits hp hmany
    exact ⟨r.shard db n, List.mem_map_of_mem (List.mem_range.mpr hn), hposition⟩

/-- Eight shards on three slices. -/
def linesOnThreeSlices : Rule :=
  { Rule.new "shop" "lines" "oid" 8 with slices := ["a", "b", "c"] }

theorem eight_shards_on_three_slices :
    Grown ⟨[linesOnThreeSlices]⟩ ∧
    find? ⟨[linesOnThreeSlices]⟩ "shop" "lines" = some linesOnThreeSlices ∧
    linesOnThreeSlices.count.toNat * linesOnThreeSlices.slices.length < UInt64.size ∧
    ∃ all, route ⟨[linesOnThreeSlices]⟩ "shop" "lines" .all = .ok all ∧
      all.map (·.slice) = ["a", "a", "a", "b", "b", "b", "c", "c"] ∧
      ∀ p < 3, all.countP (fun s => linesOnThreeSlices.slicePosition s.index = p) = 2 ∨
        all.countP (fun s => linesOnThreeSlices.slicePosition s.index = p) = 3 := by
  have hadd : empty.add linesOnThreeSlices = .ok ⟨[linesOnThreeSlices]⟩ := by decide
  have hgrown : Grown ⟨[linesOnThreeSlices]⟩ := .add .empty hadd
  have hfind : find? ⟨[linesOnThreeSlices]⟩ "shop" "lines" = some linesOnThreeSlices := by decide
  have hfits : linesOnThreeSlices.count.toNat * linesOnThreeSlices.slices.length < UInt64.size := by
    decide
  obtain ⟨all, hroute, -, -, -, hshare⟩ := shards_spread_evenly hgrown hfind hfits
  have hnames : (route ⟨[linesOnThreeSlices]⟩ "shop" "lines" .all).map (·.map (·.slice)) =
      .ok ["a", "a", "a", "b", "b", "b", "c", "c"] := by decide
  rw [hroute] at hnames
  exact ⟨hgrown, hfind, hfits, all, hroute, Except.ok.inj hnames, fun p hp => (hshare p hp).1⟩

end RuleTable

end ShardedSql.Routing
