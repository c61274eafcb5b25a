import ShardedSql.Planning.Insert

namespace ShardedSql.Planning

/-- The groups that rows form so far: by increasing index, each the rows of its index in order, and
none of them empty. -/
structure Grouped (placed : List PlacedRow) (groups : List RowGroup) : Prop where
  ordered : groups.Pairwise fun g h => g.shard.index < h.shard.index
  rows : ∀ g ∈ groups,
    g.rows = (placed.filter fun p => p.shard.index = g.shard.index).map (·.row.cells)
  source : ∀ g ∈ groups, ∃ p ∈ placed, p.shard = g.shard
  all : ∀ p ∈ placed, ∃ g ∈ groups, g.shard.index = p.shard.index

/-- What a row does to the groups: it goes to the end of the group of its index, or makes a new
one. -/
theorem mem_addRow {p : PlacedRow} {groups : List RowGroup}
    (h : groups.Pairwise fun g h => g.shard.index < h.shard.index) {g : RowGroup} :
    g ∈ addRow p groups ↔ (g ∈ groups ∧ g.shard.index ≠ p.shard.index) ∨
      (∃ g' ∈ groups, g'.shard.index = p.shard.index ∧
        g = { g' with rows := g'.rows ++ [p.row.cells] }) ∨
      ((∀ g' ∈ groups, g'.shard.index ≠ p.shard.index) ∧ g = ⟨p.shard, [p.row.cells]⟩) := by
  induction groups with
  | nil => simp [addRow]
  | cons a groups ih =>
    obtain ⟨ha, hgroups⟩ := List.pairwise_cons.mp h
    unfold addRow
    split
    · next hlt =>
      have hne : ∀ b ∈ a :: groups, b.shard.index ≠ p.shard.index := by
        intro b hb
        rcases List.mem_cons.mp hb with rfl | hb
        · omega
        · have := ha b hb
          omega
      constructor
      · intro hg
        rcases List.mem_cons.mp hg with rfl | hg
        · exact .inr (.inr ⟨hne, rfl⟩)
        · exact .inl ⟨hg, hne g hg⟩
      · rintro (⟨hg, -⟩ | ⟨b, hb, he, -⟩ | ⟨-, rfl⟩)
        · exact List.mem_cons_of_mem _ hg
        · exact absurd he (hne b hb)
        · exact List.mem_cons_self
    · split
      · next heq =>
        have hne : ∀ b ∈ groups, b.shard.index ≠ p.shard.index := by
          intro b hb
          have := ha b hb
          omega
        constructor
        · intro hg
          rcases List.mem_cons.mp hg with rfl | hg
          · exact .inr (.inl ⟨a, by simp, heq.symm, rfl⟩)
          · exact .inl ⟨List.mem_cons_of_mem _ hg, hne g hg⟩
        · rintro (⟨hg, hn⟩ | ⟨b, hb, he, rfl⟩ | ⟨hall, -⟩)
          · rcases List.mem_cons.mp hg with rfl | hg
            · exact absurd heq.symm hn
            · exact List.mem_cons_of_mem _ hg
          · rcases List.mem_cons.mp hb with rfl | hb
            · exact List.mem_cons_self
            · exact absurd he (hne b hb)
          · exact absurd heq.symm (hall a (by simp))
      · next hlt hne =>
        rw [List.mem_cons, ih hgroups]
        constructor
        · rintro (rfl | ⟨hg, hn⟩ | ⟨b, hb, he, rfl⟩ | ⟨hall, rfl⟩)
          · exact .inl ⟨by simp, fun e => hne e.symm⟩
          · exact .inl ⟨by simp [hg], hn⟩
          · exact .inr (.inl ⟨b, by simp [hb], he, rfl⟩)
          · refine .inr (.inr ⟨fun b hb => ?_, rfl⟩)
            rcases List.mem_cons.mp hb with rfl | hb
            · exact fun e => hne e.symm
            · exact hall b hb
        · rintro (⟨hg, hn⟩ | ⟨b, hb, he, rfl⟩ | ⟨hall, rfl⟩)
          · rcases List.mem_cons.mp hg with rfl | hg
            · exact .inl rfl
            · exact .inr (.inl ⟨hg, hn⟩)
          · rcases List.mem_cons.mp hb with rfl | hb
            · exact absurd he fun e => hne e.symm
            · exact .inr (.inr (.inl ⟨b, hb, he, rfl⟩))
          · exact .inr (.inr (.inr ⟨fun b hb => hall b (by simp [hb]), rfl⟩))

theorem index_of_mem_addRow {p : PlacedRow} {groups : List RowGroup} {g : RowGroup}
    (h : groups.Pairwise fun g h => g.shard.index < h.shard.index) (hg : g ∈ addRow p groups) :
    g.shard.index = p.shard.index ∨ ∃ g' ∈ groups, g'.shard.index = g.shard.index := by
  rcases (mem_addRow h).mp hg with ⟨hg, -⟩ | ⟨g', hg', -, rfl⟩ | ⟨-, rfl⟩
  · exact .inr ⟨g, hg, rfl⟩
  · exact .inr ⟨g', hg', rfl⟩
  · exact .inl rfl

theorem pairwise_addRow (p : PlacedRow) {groups : List RowGroup}
    (h : groups.Pairwise fun g h => g.shard.index < h.shard.index) :
    (addRow p groups).Pairwise fun g h => g.shard.index < h.shard.index := by
  induction groups with
  | nil => exact List.pairwise_singleton _ _
  | cons a groups ih =>
    obtain ⟨ha, hgroups⟩ := List.pairwise_cons.mp h
    unfold addRow
    split
    · next hlt =>
      refine .cons (fun b hb => ?_) h
      rcases List.mem_cons.mp hb with rfl | hb
      · exact hlt
      · exact Nat.lt_trans hlt (ha b hb)
    · split
      · exact .cons ha hgroups
      · next hlt hne =>
        refine .cons (fun b hb => ?_) (ih hgroups)
        rcases index_of_mem_addRow hgroups hb with he | ⟨c, hc, he⟩
        · omega
        · exact he ▸ ha c hc

namespace Grouped

theorem nil : Grouped [] [] := ⟨.nil, by simp, by simp, by simp⟩

theorem add {placed : List PlacedRow} {groups : List RowGroup} (h : Grouped placed groups)
    (p : PlacedRow) : Grouped (placed ++ [p]) (addRow p groups) where
  ordered := pairwise_addRow p h.ordered
  rows := by
    intro g hg
    rw [List.filter_append, List.map_append]
    rcases (mem_addRow h.ordered).mp hg with ⟨hg, hn⟩ | ⟨g', hg', he, rfl⟩ | ⟨hall, rfl⟩
    · rw [h.rows g hg, List.filter_cons_of_neg (by simpa using fun e => hn e.symm)]
      simp
    · rw [h.rows g' hg', List.filter_cons_of_pos (by simpa using he.symm)]
      simp
    · have hnone : placed.filter (fun q => decide (q.shard.index = p.shard.index)) = [] := by
        rw [List.filter_eq_nil_iff]
        intro q hq hqp
        obtain ⟨g, hg, he⟩ := h.all q hq
        exact hall g hg (he.trans (of_decide_eq_true hqp))
      simp [hnone]
  source := by
    intro g hg
    rcases (mem_addRow h.ordered).mp hg with ⟨hg, -⟩ | ⟨g', hg', -, rfl⟩ | ⟨-, rfl⟩
    · obtain ⟨q, hq, he⟩ := h.source g hg
      exact ⟨q, by simp [hq], he⟩
    · obtain ⟨q, hq, he⟩ := h.source g' hg'
      exact ⟨q, by simp [hq], he⟩
    · exact ⟨p, by simp, rfl⟩
  all := by
    intro q hq
    by_cases hp : q.shard.index = p.shard.index
    · by_cases hg : ∃ g ∈ groups, g.shard.index = p.shard.index
      · obtain ⟨g, hg, he⟩ := hg
        exact ⟨_, (mem_addRow h.ordered).mpr (.inr (.inl ⟨g, hg, he, rfl⟩)), he.trans hp.symm⟩
      · exact ⟨_, (mem_addRow h.ordered).mpr (.inr (.inr ⟨by simpa using hg, rfl⟩)), hp.symm⟩
    · have hq' : q ∈ placed := by
        rcases List.mem_append.mp hq with hq | hq
        · exact hq
        · exact absurd (congrArg (·.shard.index) (List.mem_singleton.mp hq)) hp
      obtain ⟨g, hg, he⟩ := h.all q hq'
      exact ⟨g, (mem_addRow h.ordered).mpr (.inl ⟨hg, he ▸ hp⟩), he⟩

end Grouped

theorem grouped_groupRows (placed : List PlacedRow) : Grouped placed (groupRows placed) := by
  have h (before : List PlacedRow) (groups : List RowGroup) (hb : Grouped before groups) :
      Grouped (before ++ placed) (placed.foldl (fun groups p => addRow p groups) groups) := by
    induction placed generalizing before groups with
    | nil => simpa using hb
    | cons p placed ih => simpa using ih _ _ (hb.add p)
  exact h [] [] .nil

end ShardedSql.Planning
