import ShardedSql.Planning.Colocation
import ShardedSql.Proofs.Lists
import ShardedSql.Proofs.Planning.Steps
import ShardedSql.Proofs.Routing.Routes

namespace ShardedSql.Planning

open Routing (KeyHint Rule RuleTable Shard ordersById)

/-- Whether two shards lie on one slice and in one database. -/
def LiesWith (s s' : Shard) : Prop := s.slice = s'.slice ∧ s.db = s'.db

namespace RoutedTable

/-- Whether a table has the shards that a hint is routed to. -/
def RoutedFor (rules : RuleTable) (hint : KeyHint) (t : RoutedTable) : Prop :=
  rules.route t.table.db t.table.name hint = .ok t.shards

/-- Whether a shard is the one of an index among those that a table is routed to. -/
def Offers (t : RoutedTable) (k : Nat) (s : Shard) : Prop := s ∈ t.shards ∧ s.index = k

/-- The table with all the shards of its rule. -/
def unpruned (rules : RuleTable) (t : RoutedTable) : RoutedTable :=
  match rules.route t.table.db t.table.name .all with
  | .ok all => { t with shards := all }
  | .error _ => t

end RoutedTable

section

variable (tables : List RoutedTable) (k : Nat)

/-- Whether all tables are routed to an index. -/
def IsCommon : Prop := ∀ t ∈ tables, ∃ s, t.Offers k s

/-- Whether two shards of an index that tables are routed to do not lie together. -/
def Apart (s s' : Shard) : Prop :=
  ∃ t ∈ tables, ∃ t' ∈ tables, t.Offers k s ∧ t'.Offers k s' ∧ ¬ LiesWith s s'

/-- Whether all shards of an index that tables are routed to lie together. -/
def LieTogether : Prop :=
  ∀ t ∈ tables, ∀ t' ∈ tables, ∀ s s', t.Offers k s → t'.Offers k s' → LiesWith s s'

/-- Whether a group has the shard of an index of each table, in the order of the tables, and lies
where they all do. -/
structure ShardGroup.Aligns (g : ShardGroup) : Prop where
  offered : List.Forall₂ (fun t s => t.Offers k s) tables g.shards
  together : ∀ s ∈ g.shards, s.slice = g.slice ∧ s.db = g.db

/-- Whether groups are those of the indexes that all tables are routed to, by increasing index. -/
def AlignsCommon (groups : List ShardGroup) : Prop :=
  ∃ ks : List Nat, ks.Pairwise (· < ·) ∧ (∀ k, k ∈ ks ↔ IsCommon tables k) ∧
    List.Forall₂ (fun k g => g.Aligns tables k) ks groups

end

/-- Whether two groups lie at one place and have the same shards in whatever order. -/
def ShardGroup.Permutes (g g' : ShardGroup) : Prop :=
  g.slice = g'.slice ∧ g.db = g'.db ∧ g.shards.Perm g'.shards

variable {rules : RuleTable} {first : RoutedTable} {others tables : List RoutedTable} {k : Nat}

theorem shardsAt_cases (first : RoutedTable) (tables : List RoutedTable) (k : Nat) :
    (∃ shards, shardsAt first tables k = .ok shards ∧
      List.Forall₂ (fun t s => t.Offers k s) tables shards) ∨
    ∃ t ∈ tables, (∀ s, ¬ t.Offers k s) ∧ shardsAt first tables k =
      .error (.unsupported (.notColocated first.table.name t.table.name)) := by
  unfold shardsAt
  rcases mapM_cases _ tables with ⟨shards, hshards, hall⟩ | ⟨t, ht, e, he, herror⟩
  · refine .inl ⟨shards, hshards, hall.imp fun t s hs => ?_⟩
    split at hs
    · next s' hfind =>
      cases hs
      exact ⟨List.mem_of_find?_eq_some hfind, by simpa using List.find?_some hfind⟩
    · cases hs
  · split at he
    · cases he
    · next hfind =>
      cases he
      refine .inr ⟨t, ht, fun s hs => ?_, herror⟩
      have hnone := List.find?_eq_none.mp hfind s hs.1
      simp [hs.2] at hnone

/-- What putting the shards of an index together comes to. -/
theorem at?_cases (first : RoutedTable) (tables : List RoutedTable) (k : Nat) :
    (∃ g, ShardGroup.at? first tables k = .ok g ∧ g.Aligns tables k) ∨
    (∃ t ∈ tables, (∀ s, ¬ t.Offers k s) ∧ ShardGroup.at? first tables k =
      .error (.unsupported (.notColocated first.table.name t.table.name))) ∨
    ∃ s s', Apart tables k s s' ∧
      ShardGroup.at? first tables k = .error (.unsupported (.splitJoin s s')) := by
  unfold ShardGroup.at?
  rcases shardsAt_cases first tables k with ⟨shards, hshards, hall⟩ | ⟨t, ht, hnone, herror⟩
  · rw [hshards]
    cases hall with
    | nil => exact .inl ⟨_, rfl, .nil, nofun⟩
    | @cons t lead ts rest hlead hrest =>
      change (∃ g, ShardGroup.ofShards? lead rest = .ok g ∧ _) ∨ (∃ t ∈ _, _ ∧
        ShardGroup.ofShards? lead rest = _) ∨ ∃ s s', _ ∧ ShardGroup.ofShards? lead rest = _
      unfold ShardGroup.ofShards?
      cases hfind : rest.find? fun s => s.slice ≠ lead.slice || s.db ≠ lead.db with
      | some stray =>
        obtain ⟨t', ht', hstray⟩ := exists_of_forall₂ hrest.flip (List.mem_of_find?_eq_some hfind)
        have happart : ¬ LiesWith lead stray := by
          rintro ⟨hslice, hdb⟩
          have hfound := List.find?_some hfind
          simp [hslice, hdb] at hfound
        exact .inr (.inr ⟨lead, stray, ⟨t, List.mem_cons_self, t', List.mem_cons_of_mem _ ht',
          hlead, hstray, happart⟩, rfl⟩)
      | none =>
        refine .inl ⟨_, rfl, .cons hlead hrest, fun s hs => ?_⟩
        rcases List.mem_cons.mp hs with rfl | hs
        · exact ⟨rfl, rfl⟩
        · simpa using List.find?_eq_none.mp hfind s hs
  · rw [herror]
    exact .inr (.inl ⟨t, ht, hnone, rfl⟩)

theorem mem_commonIndexes : k ∈ commonIndexes first others ↔ IsCommon (first :: others) k := by
  have hoffers (t : RoutedTable) :
      (t.shards.any fun s => decide (s.index = k)) = true ↔ ∃ s, t.Offers k s := by
    simp [RoutedTable.Offers]
  unfold commonIndexes IsCommon
  rw [List.mem_filter, Routing.mem_increasing, List.mem_map, List.all_eq_true,
    List.forall_mem_cons]
  exact and_congr Iff.rfl (forall₂_congr fun t _ => hoffers t)

theorem pairwise_commonIndexes (first : RoutedTable) (others : List RoutedTable) :
    (commonIndexes first others).Pairwise (· < ·) := (Routing.pairwise_increasing _).filter _

namespace RoutedTable

variable {t : RoutedTable} {hint : KeyHint}

/-- A table has one shard of an index at most. -/
theorem RoutedFor.offers_unique (h : t.RoutedFor rules hint) {s s' : Shard} (hs : t.Offers k s)
    (hs' : t.Offers k s') : s = s' := by
  obtain ⟨r, -, hshards⟩ := RuleTable.route_eq_ok h
  have hshard {s : Shard} (hs : t.Offers k s) : s = r.shard t.table.db k := by
    obtain ⟨hmem, hindex⟩ := hs
    rw [hshards] at hmem
    obtain ⟨n, -, rfl⟩ := List.mem_map.mp hmem
    rw [← hindex]
    rfl
  rw [hshard hs, hshard hs']

theorem RoutedFor.unpruned_eq (h : t.RoutedFor rules hint) : ∃ all,
    rules.route t.table.db t.table.name .all = .ok all ∧ t.unpruned rules = ⟨t.table, all⟩ := by
  obtain ⟨all, hall⟩ := RuleTable.route_all h
  exact ⟨all, hall, by rw [unpruned, hall]⟩

@[simp] theorem table_unpruned (rules : RuleTable) (t : RoutedTable) :
    (t.unpruned rules).table = t.table := by
  unfold unpruned
  split <;> rfl

end RoutedTable

theorem LieTogether.of_aligns (hrouted : ∀ t ∈ tables, ∃ hint, t.RoutedFor rules hint)
    {g : ShardGroup} (h : g.Aligns tables k) : LieTogether tables k := by
  have hlies : ∀ t ∈ tables, ∀ s, t.Offers k s → s.slice = g.slice ∧ s.db = g.db := by
    intro t ht s hs
    obtain ⟨hint, hroute⟩ := hrouted t ht
    obtain ⟨s', hs', hoffered⟩ := exists_of_forall₂ h.offered ht
    rw [hroute.offers_unique hs hoffered]
    exact h.together s' hs'
  intro t ht t' ht' s s' hs hs'
  obtain ⟨hslice, hdb⟩ := hlies t ht s hs
  obtain ⟨hslice', hdb'⟩ := hlies t' ht' s' hs'
  exact ⟨hslice.trans hslice'.symm, hdb.trans hdb'.symm⟩

/-- Groups for common indexes are refused only if the shards of one of them lie apart. -/
theorem mapM_at?_cases (first : RoutedTable) {ks : List Nat} (hks : ∀ k ∈ ks, IsCommon tables k) :
    (∃ groups, ks.mapM (ShardGroup.at? first tables) = .ok groups ∧
      List.Forall₂ (fun k g => g.Aligns tables k) ks groups) ∨
    ∃ k ∈ ks, ∃ s s', Apart tables k s s' ∧
      ks.mapM (ShardGroup.at? first tables) = .error (.unsupported (.splitJoin s s')) := by
  rcases mapM_cases (ShardGroup.at? first tables) ks with
    ⟨groups, hgroups, hall⟩ | ⟨k, hk, e, he, herror⟩
  · refine .inl ⟨groups, hgroups, hall.imp fun k g hg => ?_⟩
    rcases at?_cases first tables k with ⟨g', hg', haligns⟩ | ⟨_, _, _, herror⟩ | ⟨_, _, _, herror⟩
    · cases hg.symm.trans hg'
      exact haligns
    · cases hg.symm.trans herror
    · cases hg.symm.trans herror
  · rcases at?_cases first tables k with ⟨g, hg, -⟩ | ⟨t, ht, hnone, -⟩ | ⟨s, s', hapart, hsplit⟩
    · cases hg.symm.trans he
    · obtain ⟨s, hs⟩ := hks k hk t ht
      exact absurd hs (hnone s)
    · cases hsplit.symm.trans he
      exact .inr ⟨k, hk, s, s', hapart, herror⟩

variable {σ : Type} {nextKey : String → Planner σ Int64} {st : σ}

theorem colocate_of_common (services : Services σ) (hcommon : ∃ k, IsCommon (first :: others) k) :
    (colocate services first others).outcome st =
      ((commonIndexes first others).mapM (ShardGroup.at? first (first :: others)), st) := by
  obtain ⟨k, hk⟩ := hcommon
  have hmem := mem_commonIndexes.mpr hk
  unfold colocate
  split
  · next hnil =>
    rw [hnil] at hmem
    cases hmem
  · rfl

theorem commonIndexes_eq_nil (hnone : ¬ ∃ k, IsCommon (first :: others) k) :
    commonIndexes first others = [] :=
  List.eq_nil_iff_forall_not_mem.mpr fun k hk => hnone ⟨k, mem_commonIndexes.mp hk⟩

theorem colocate_of_no_shards (services : Services σ)
    (hnone : ¬ ∃ k, IsCommon (first :: others) k) (hfirst : first.shards = []) :
    (colocate services first others).outcome st =
      (.error (.route (.noShard first.table.db first.table.name)), st) := by
  unfold colocate
  rw [commonIndexes_eq_nil hnone, hfirst]
  rfl

theorem withAllShards_of_routed (hrouted : ∀ t ∈ tables, ∃ hint, t.RoutedFor rules hint) :
    (withAllShards (.ofRules rules nextKey) tables).outcome st =
      (.ok (tables.map (RoutedTable.unpruned rules)), st) := by
  unfold withAllShards
  induction tables with
  | nil => rfl
  | cons t ts ih =>
    obtain ⟨hint, hroute⟩ := hrouted t List.mem_cons_self
    obtain ⟨all, hall, hunpruned⟩ := hroute.unpruned_eq
    have hstep : ((Services.ofRules rules nextKey).route t.table.db t.table.name .all).outcome st =
        (.ok all, st) := congrArg (·, st) hall
    rw [List.mapM_cons, bind_assoc, Planner.outcome_bind_of_ok hstep, pure_bind,
      Planner.outcome_bind_of_ok (ih fun u hu => hrouted u (List.mem_cons_of_mem _ hu)),
      List.map_cons, hunpruned]
    rfl

/-- What aligning tables that have an index in common comes to. -/
theorem colocate_common_cases (services : Services σ) (st : σ)
    (hcommon : ∃ k, IsCommon (first :: others) k) :
    (∃ groups, (colocate services first others).outcome st = (.ok groups, st) ∧
      AlignsCommon (first :: others) groups) ∨
    ∃ k s s', IsCommon (first :: others) k ∧ Apart (first :: others) k s s' ∧
      (colocate services first others).outcome st =
        (.error (.unsupported (.splitJoin s s')), st) := by
  rw [colocate_of_common services hcommon]
  rcases mapM_at?_cases first fun k hk => mem_commonIndexes.mp hk with
    ⟨groups, hgroups, haligns⟩ | ⟨k, hk, s, s', hapart, herror⟩
  · exact .inl ⟨groups, by rw [hgroups], _, pairwise_commonIndexes first others,
      fun _ => mem_commonIndexes, haligns⟩
  · exact .inr ⟨k, s, s', mem_commonIndexes.mp hk, hapart, by rw [herror]⟩

/-- Aligning tables that have no index in common comes to what their shards of the first index of
the first table do. -/
theorem colocate_disjoint (nextKey : String → Planner σ Int64) (st : σ)
    (hrouted : ∀ t ∈ first :: others, ∃ hint, t.RoutedFor rules hint)
    (hnone : ¬ ∃ k, IsCommon (first :: others) k) {s : Shard} {rest : List Shard}
    (hfirst : first.shards = s :: rest) :
    (colocate (.ofRules rules nextKey) first others).outcome st =
      ((ShardGroup.at? first ((first :: others).map (RoutedTable.unpruned rules)) s.index).map ([·]),
        st) := by
  unfold colocate
  rw [commonIndexes_eq_nil hnone, hfirst]
  dsimp only
  rw [Planner.outcome_bind_of_ok (withAllShards_of_routed hrouted), Planner.outcome_bind,
    Planner.outcome_liftExcept]
  cases ShardGroup.at? first ((first :: others).map (RoutedTable.unpruned rules)) s.index <;> rfl

theorem RoutedTable.RoutedFor.find?_of_offers {t : RoutedTable} {hint : KeyHint}
    (h : t.RoutedFor rules hint) {s : Shard} (hs : t.Offers k s) :
    t.shards.find? (fun s => s.index = k) = some s := by
  cases hfind : t.shards.find? fun s => decide (s.index = k) with
  | none =>
    have hnone := List.find?_eq_none.mp hfind s hs.1
    simp [hs.2] at hnone
  | some s' =>
    have hs' : t.Offers k s' :=
      ⟨List.mem_of_find?_eq_some hfind, by simpa using List.find?_some hfind⟩
    rw [h.offers_unique hs hs']

theorem shards_eq_filterMap (hrouted : ∀ t ∈ tables, ∃ hint, t.RoutedFor rules hint)
    {shards : List Shard} (h : List.Forall₂ (fun t s => t.Offers k s) tables shards) :
    shards = tables.filterMap fun t => t.shards.find? (fun s => s.index = k) := by
  induction h with
  | nil => rfl
  | @cons t s ts ss hs _ ih =>
    obtain ⟨hint, hroute⟩ := hrouted t List.mem_cons_self
    rw [List.filterMap_cons, hroute.find?_of_offers hs,
      ← ih fun u hu => hrouted u (List.mem_cons_of_mem _ hu)]

section

variable {tables' : List RoutedTable} {g g' : ShardGroup} {groups groups' : List ShardGroup}

theorem IsCommon.perm (hperm : tables.Perm tables') (h : IsCommon tables k) : IsCommon tables' k :=
  fun t ht => h t (hperm.mem_iff.mpr ht)

theorem Apart.perm {s s' : Shard} (hperm : tables.Perm tables') (h : Apart tables k s s') :
    Apart tables' k s s' := by
  obtain ⟨t, ht, t', ht', hapart⟩ := h
  exact ⟨t, hperm.mem_iff.mp ht, t', hperm.mem_iff.mp ht', hapart⟩

theorem LieTogether.not_apart {s s' : Shard} (h : LieTogether tables k) : ¬ Apart tables k s s' := by
  rintro ⟨t, ht, t', ht', hs, hs', hapart⟩
  exact hapart (h t ht t' ht' s s' hs hs')

theorem AlignsCommon.lieTogether (hrouted : ∀ t ∈ tables, ∃ hint, t.RoutedFor rules hint)
    (h : AlignsCommon tables groups) (hk : IsCommon tables k) : LieTogether tables k := by
  obtain ⟨ks, -, hmem, haligns⟩ := h
  obtain ⟨g, -, hg⟩ := exists_of_forall₂ haligns ((hmem k).mpr hk)
  exact .of_aligns hrouted hg

theorem ShardGroup.Aligns.permutes (hrouted : ∀ t ∈ tables, ∃ hint, t.RoutedFor rules hint)
    (hperm : tables.Perm tables') (hne : tables ≠ []) (h : g.Aligns tables k)
    (h' : g'.Aligns tables' k) : g.Permutes g' := by
  have hshards : g.shards.Perm g'.shards := by
    rw [shards_eq_filterMap hrouted h.offered,
      shards_eq_filterMap (fun t ht => hrouted t (hperm.mem_iff.mpr ht)) h'.offered]
    exact hperm.filterMap _
  obtain ⟨t, ht⟩ := List.exists_mem_of_ne_nil _ hne
  obtain ⟨s, hs, -⟩ := exists_of_forall₂ h.offered ht
  obtain ⟨hslice, hdb⟩ := h.together s hs
  obtain ⟨hslice', hdb'⟩ := h'.together s (hshards.mem_iff.mp hs)
  exact ⟨hslice.symm.trans hslice', hdb.symm.trans hdb', hshards⟩

theorem AlignsCommon.permutes (hrouted : ∀ t ∈ tables, ∃ hint, t.RoutedFor rules hint)
    (hperm : tables.Perm tables') (hne : tables ≠ []) (h : AlignsCommon tables groups)
    (h' : AlignsCommon tables' groups') : List.Forall₂ ShardGroup.Permutes groups groups' := by
  obtain ⟨ks, hlt, hmem, haligns⟩ := h
  obtain ⟨ks', hlt', hmem', haligns'⟩ := h'
  have hks : ks = ks' := hlt.eq_of_mem_iff hlt' fun k =>
    (hmem k).trans (Iff.trans ⟨IsCommon.perm hperm, IsCommon.perm hperm.symm⟩ (hmem' k).symm)
  subst hks
  clear hlt hlt' hmem hmem'
  induction haligns generalizing groups' with
  | nil =>
    cases haligns'
    exact .nil
  | cons hg _ ih =>
    cases haligns' with
    | cons hg' hrest' => exact .cons (hg.permutes hrouted hperm hne hg') (ih hrest')

end

/-- Tables that are routed by a rule table are aligned by the indexes that they have in common, if the
shards of each of these lie together, in whatever order the tables come. Where they have none in
common, the first index of the first table stands for the empty join, if all tables have a shard of
it that lies with the others. -/
theorem colocate_aligns_common_shards (rules : RuleTable) (hgrown : rules.Grown)
    (nextKey : String → Planner σ Int64) (st : σ) (first : RoutedTable) (others : List RoutedTable)
    (hint : KeyHint) (hfirst : first.RoutedFor rules hint)
    (hothers : ∀ t ∈ others, ∃ hint, t.RoutedFor rules hint) :
    ∃ result, (colocate (.ofRules rules nextKey) first others).outcome st = (result, st) ∧
      ((∃ k, IsCommon (first :: others) k) →
        ((∃ groups, result = .ok groups) ↔
          ∀ k, IsCommon (first :: others) k → LieTogether (first :: others) k) ∧
        (∀ groups, result = .ok groups → AlignsCommon (first :: others) groups ∧
          ∀ first' others', (first :: others).Perm (first' :: others') →
            ∃ groups', (colocate (.ofRules rules nextKey) first' others').outcome st =
                (.ok groups', st) ∧
              AlignsCommon (first' :: others') groups' ∧
              List.Forall₂ ShardGroup.Permutes groups groups') ∧
        ∀ e, result = .error e → ∃ k s s', IsCommon (first :: others) k ∧
          Apart (first :: others) k s s' ∧ e = .unsupported (.splitJoin s s')) ∧
      ((¬ ∃ k, IsCommon (first :: others) k) →
        (hint = .values [] ∧
          result = .error (.route (.noShard first.table.db first.table.name))) ∨
        ∃ s rest, first.shards = s :: rest ∧
          ((∃ g, result = .ok [g] ∧
            g.Aligns ((first :: others).map (RoutedTable.unpruned rules)) s.index) ∨
          (∃ t ∈ first :: others, (∀ s', ¬ (t.unpruned rules).Offers s.index s') ∧
            result = .error (.unsupported (.notColocated first.table.name t.table.name))) ∨
          ∃ s₁ s₂, Apart ((first :: others).map (RoutedTable.unpruned rules)) s.index s₁ s₂ ∧
            result = .error (.unsupported (.splitJoin s₁ s₂)))) := by
  have hrouted : ∀ t ∈ first :: others, ∃ hint, t.RoutedFor rules hint :=
    List.forall_mem_cons.mpr ⟨⟨hint, hfirst⟩, hothers⟩
  by_cases hcommon : ∃ k, IsCommon (first :: others) k
  · rcases colocate_common_cases (.ofRules rules nextKey) st hcommon with
      ⟨groups, hgroups, haligns⟩ | ⟨k, s, s', hk, hapart, herror⟩
    · have hlies : ∀ k, IsCommon (first :: others) k → LieTogether (first :: others) k :=
        fun k hk => haligns.lieTogether hrouted hk
      refine ⟨_, hgroups, fun _ => ⟨⟨fun _ => hlies, fun _ => ⟨_, rfl⟩⟩, ?_, nofun⟩,
        fun hnone => absurd hcommon hnone⟩
      rintro _ ⟨⟩
      refine ⟨haligns, fun first' others' hperm => ?_⟩
      have hcommon' : ∃ k, IsCommon (first' :: others') k := hcommon.imp fun k hk => hk.perm hperm
      rcases colocate_common_cases (.ofRules rules nextKey) st hcommon' with
        ⟨groups', hgroups', haligns'⟩ | ⟨k, s, s', hk, hapart, -⟩
      · exact ⟨groups', hgroups', haligns',
          haligns.permutes hrouted hperm (List.cons_ne_nil _ _) haligns'⟩
      · exact absurd (hapart.perm hperm.symm) (hlies k (hk.perm hperm.symm)).not_apart
    · refine ⟨_, herror, fun _ => ⟨⟨nofun, fun h => absurd hapart (h k hk).not_apart⟩, nofun, ?_⟩,
        fun hnone => absurd hcommon hnone⟩
      rintro _ ⟨⟩
      exact ⟨k, s, s', hk, hapart, rfl⟩
  · cases hshards : first.shards with
    | nil =>
      refine ⟨_, colocate_of_no_shards _ hcommon hshards, fun h => absurd h hcommon,
        fun _ => .inl ⟨?_, rfl⟩⟩
      by_contra hhint
      exact hgrown.route_ne_nil hfirst hhint hshards
    | cons s rest =>
      refine ⟨_, colocate_disjoint nextKey st hrouted hcommon hshards,
        fun h => absurd h hcommon, fun _ => .inr ⟨s, rest, rfl, ?_⟩⟩
      rcases at?_cases first ((first :: others).map (RoutedTable.unpruned rules)) s.index with
        ⟨g, hg, haligns⟩ | ⟨u, hu, hnot, herror⟩ | ⟨s₁, s₂, hapart, herror⟩
      · rw [hg]
        exact .inl ⟨g, rfl, haligns⟩
      · rw [herror]
        obtain ⟨t, ht, rfl⟩ := List.mem_map.mp hu
        exact .inr (.inl ⟨t, ht, hnot, by rw [RoutedTable.table_unpruned]; rfl⟩)
      · rw [herror]
        exact .inr (.inr ⟨s₁, s₂, hapart, rfl⟩)

def itemsByOrder : Rule := .new "shop" "items" "order_id" 4

def ordersAndItems : RuleTable := ⟨[ordersById, itemsByOrder]⟩

theorem grown_ordersAndItems : ordersAndItems.Grown := by
  have hadd : RuleTable.add ⟨[ordersById]⟩ itemsByOrder = .ok ordersAndItems := rfl
  exact .add RuleTable.grown_ordersById hadd

def routedOrders (ks : List Nat) : RoutedTable :=
  ⟨⟨"shop", "orders", none, "id"⟩, ks.map (ordersById.shard "shop")⟩

def routedItems (ks : List Nat) : RoutedTable :=
  ⟨⟨"shop", "items", none, "order_id"⟩, ks.map (itemsByOrder.shard "shop")⟩

theorem lieTogether_of_one_place {tables : List RoutedTable}
    (h : ∀ t ∈ tables, ∀ s ∈ t.shards, s.slice = "slice-0" ∧ s.db = "shop") (k : Nat) :
    LieTogether tables k := by
  intro t ht t' ht' s s' hs hs'
  obtain ⟨hslice, hdb⟩ := h t ht s hs.1
  obtain ⟨hslice', hdb'⟩ := h t' ht' s' hs'.1
  exact ⟨hslice.trans hslice'.symm, hdb.trans hdb'.symm⟩

theorem first_and_second_orders_with_items :
    (∃ groups, (colocate (.ofRules ordersAndItems fun _ => throw .cancelled) (routedOrders [1, 2])
        [routedItems [0, 1, 2, 3]]).outcome () = (.ok groups, ()) ∧
      AlignsCommon [routedOrders [1, 2], routedItems [0, 1, 2, 3]] groups) ∧
    ∃ g, (colocate (.ofRules ordersAndItems fun _ => throw .cancelled) (routedOrders [1, 2])
        [routedItems [3]]).outcome () = (.ok [g], ()) ∧
      g.Aligns [routedOrders [0, 1, 2, 3], routedItems [0, 1, 2, 3]] 1 := by
  have horders : (routedOrders [1, 2]).RoutedFor ordersAndItems (.values [.int 1, .int 2]) := rfl
  have hitems : (routedItems [0, 1, 2, 3]).RoutedFor ordersAndItems .all := rfl
  have hitem : (routedItems [3]).RoutedFor ordersAndItems (.values [.int 3]) := rfl
  constructor
  · obtain ⟨result, hresult, hcommon, -⟩ := colocate_aligns_common_shards ordersAndItems
      grown_ordersAndItems (fun _ => throw .cancelled) () (routedOrders [1, 2])
      [routedItems [0, 1, 2, 3]] (.values [.int 1, .int 2]) horders
      (List.forall_mem_singleton.mpr ⟨_, hitems⟩)
    have hone : ∃ k, IsCommon [routedOrders [1, 2], routedItems [0, 1, 2, 3]] k :=
      ⟨1, List.forall_mem_cons.mpr ⟨⟨ordersById.shard "shop" 1, by decide, rfl⟩,
        List.forall_mem_singleton.mpr ⟨itemsByOrder.shard "shop" 1, by decide, rfl⟩⟩⟩
    obtain ⟨hiff, haligns, -⟩ := hcommon hone
    obtain ⟨groups, rfl⟩ := hiff.mpr fun k _ => lieTogether_of_one_place (by decide) k
    exact ⟨groups, hresult, (haligns groups rfl).1⟩
  · obtain ⟨result, hresult, -, hdisjoint⟩ := colocate_aligns_common_shards ordersAndItems
      grown_ordersAndItems (fun _ => throw .cancelled) () (routedOrders [1, 2])
      [routedItems [3]] (.values [.int 1, .int 2]) horders
      (List.forall_mem_singleton.mpr ⟨_, hitem⟩)
    have hnone : ¬ ∃ k, IsCommon [routedOrders [1, 2], routedItems [3]] k := by
      rintro ⟨k, hk⟩
      obtain ⟨hk, hk'⟩ := List.forall_mem_cons.mp hk
      obtain ⟨s, hs, hindex⟩ := hk
      obtain ⟨s', hs', hindex'⟩ := List.forall_mem_singleton.mp hk'
      have hdiffer : ∀ s ∈ (routedOrders [1, 2]).shards, ∀ s' ∈ (routedItems [3]).shards,
          s.index ≠ s'.index := by decide
      exact hdiffer s hs s' hs' (hindex.trans hindex'.symm)
    have hall : [routedOrders [1, 2], routedItems [3]].map (RoutedTable.unpruned ordersAndItems) =
        [routedOrders [0, 1, 2, 3], routedItems [0, 1, 2, 3]] := rfl
    rcases hdisjoint hnone with ⟨hnil, -⟩ | ⟨s, rest, hfirst, hcases⟩
    · cases hnil
    · cases hfirst
      rcases hcases with ⟨g, rfl, haligns⟩ | ⟨t, ht, hnot, -⟩ | ⟨s₁, s₂, hapart, -⟩
      · rw [hall] at haligns
        exact ⟨g, hresult, haligns⟩
      · have hmem : t.unpruned ordersAndItems ∈
            [routedOrders [0, 1, 2, 3], routedItems [0, 1, 2, 3]] := by
          rw [← hall]
          exact List.mem_map_of_mem ht
        have hoffers : ∀ u ∈ [routedOrders [0, 1, 2, 3], routedItems [0, 1, 2, 3]],
            ∃ s ∈ u.shards, s.index = 1 := by decide
        obtain ⟨s, hs⟩ := hoffers _ hmem
        exact absurd hs (hnot s)
      · rw [hall] at hapart
        exact absurd hapart (lieTogether_of_one_place (by decide) _).not_apart

end ShardedSql.Planning
