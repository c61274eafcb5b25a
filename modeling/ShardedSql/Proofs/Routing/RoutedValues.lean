import ShardedSql.Proofs.Routing.Arithmetic

namespace ShardedSql.Routing

namespace Rule

variable {r : Rule} {v : KeyValue} {vs : List KeyValue} {n : Nat}

/-- The index of a value by exact arithmetic: the remainder of the integer that it denotes, or of the
hash of its text. -/
def exactIndex? (r : Rule) (v : KeyValue) : Option Int :=
  match r.placement with
  | .modulo => v.integer?.map fun i => i.toInt % r.count.toNat
  | .hash => some ((hashText v.text).toNat % r.count.toNat)

/-- Whether a shard owns a value. -/
def Owns (r : Rule) (n : Nat) (v : KeyValue) : Prop := r.exactIndex? v = some (n : Int)

instance : Decidable (r.Owns n v) := inferInstanceAs (Decidable (_ = _))

/-- Whether a value has no shard: a text that denotes no integer, where keys are placed by their
remainder. -/
def Unplaceable (r : Rule) (v : KeyValue) : Prop :=
  r.placement = .modulo ∧ ∃ s, v = .str s ∧ Text.readInt64? (Text.trim s) = none

theorem unplaceable_iff : r.Unplaceable v ↔ r.placement = .modulo ∧ v.integer? = none := by
  cases v <;> simp [Unplaceable, KeyValue.integer?]

instance : Decidable (r.Unplaceable v) := decidable_of_iff _ unplaceable_iff.symm

theorem places_iff : r.Places v ↔ ¬r.Unplaceable v := by
  rw [unplaceable_iff]
  cases hp : r.placement with
  | hash => exact ⟨fun _ => nofun, fun _ => ⟨_, indexOf_hash hp v⟩⟩
  | modulo =>
    unfold Places
    rw [indexOf_modulo hp]
    cases v.integer? <;> simp

theorem indexOf_of_unplaceable (h : r.Unplaceable v) :
    r.indexOf v = .error (.invalidValue (.unplaceable r.db r.table v.text)) := by
  obtain ⟨hp, hnone⟩ := unplaceable_iff.mp h
  rw [indexOf_modulo hp, hnone]

theorem indexOf_eq_ok_iff (hcount : r.count ≠ 0) (hhalf : r.count.toNat ≤ 2 ^ 63) :
    r.indexOf v = .ok n ↔ r.Owns n v := by
  have hpos := count_pos hcount
  unfold Owns exactIndex?
  split
  · next hp =>
    rw [indexOf_modulo hp]
    cases v.integer? with
    | none => simp
    | some i =>
      have hnonneg := Int.emod_nonneg i.toInt (b := r.count.toNat) (by omega)
      simp only [remainder, emod_toInt_toInt64 hhalf, Except.ok.injEq, Option.map_some,
        Option.some.injEq]
      omega
  · next hp =>
    rw [indexOf_hash hp]
    simp only [Except.ok.injEq, Option.some.injEq]
    omega

/-- The first value without a shard is the one that is refused. -/
theorem mapM_indexOf_of_find (h : vs.find? (fun v => r.Unplaceable v) = some v) :
    vs.mapM r.indexOf = .error (.invalidValue (.unplaceable r.db r.table v.text)) := by
  induction vs with
  | nil => cases h
  | cons w vs ih =>
    rw [List.mapM_cons]
    by_cases hw : r.Unplaceable w
    · have hfirst : w = v := by simpa [hw] using h
      rw [← hfirst, indexOf_of_unplaceable hw]
      rfl
    · obtain ⟨n, hn⟩ := places_iff.mpr hw
      rw [hn, ih (by simpa [hw] using h)]
      rfl

/-- The shards that own one of some values, in the order of all shards. -/
def owners (r : Rule) (db : String) (vs : List KeyValue) : List Shard :=
  ((List.range r.count.toNat).map (r.shard db)).filter fun s => ∃ v ∈ vs, r.Owns s.index v

theorem mem_owners {db : String} {s : Shard} :
    s ∈ r.owners db vs ↔ s ∈ (List.range r.count.toNat).map (r.shard db) ∧
      ∃ v ∈ vs, r.Owns s.index v := by
  rw [owners, List.mem_filter, decide_eq_true_eq]

theorem mem_owners_append {db : String} {s : Shard} {ws : List KeyValue} :
    s ∈ r.owners db (vs ++ ws) ↔ s ∈ r.owners db vs ∨ s ∈ r.owners db ws := by
  simp only [mem_owners, List.mem_append, or_and_right, exists_or, and_or_left]

theorem owners_congr {ws : List KeyValue} (h : ∀ v, v ∈ ws ↔ v ∈ vs) (db : String) :
    r.owners db ws = r.owners db vs := by
  simp only [owners, h]

theorem pairwise_owners (db : String) :
    (r.owners db vs).Pairwise fun s t => s.index < t.index := by
  apply List.Pairwise.filter
  rw [List.pairwise_map]
  exact List.pairwise_lt_range

end Rule

namespace RuleTable

variable {rules : RuleTable} {r : Rule} {db table : String}

/-- The route of some values leads to their owners, unless one of them has none. -/
theorem route_values (hgrown : rules.Grown) (hfind : rules.find? db table = some r)
    (hhalf : r.count.toNat ≤ 2 ^ 63) (vs : List KeyValue) :
    rules.route db table (.values vs) =
      match vs.find? (fun v => r.Unplaceable v) with
      | some v => .error (.invalidValue (.unplaceable r.db r.table v.text))
      | none => .ok (r.owners db vs) := by
  have hcount := hgrown.count_ne_zero hfind
  split
  · next v hv =>
    apply route_of_indexes_error hfind
    simp only [Rule.indexes, Rule.mapM_indexOf_of_find hv]
    rfl
  · next hnone =>
    have hplaces : ∀ v ∈ vs, r.Places v := by
      simpa [Rule.places_iff] using List.find?_eq_none.mp hnone
    obtain ⟨ns, hns, hlt, hmem⟩ := Rule.indexes_of_places hplaces
    have hrange : ns = (List.range r.count.toNat).filter fun n => ∃ v ∈ vs, r.Owns n v := by
      refine hlt.eq_of_mem_iff (List.pairwise_lt_range.filter _) fun n => ?_
      have howns : ∀ v, r.indexOf v = .ok n ↔ r.Owns n v :=
        fun v => Rule.indexOf_eq_ok_iff hcount hhalf
      simp only [hmem, howns, List.mem_filter, List.mem_range, decide_eq_true_eq]
      refine ⟨fun hown => ⟨?_, hown⟩, And.right⟩
      obtain ⟨v, -, hv⟩ := hown
      exact Rule.indexOf_lt hcount ((howns v).mpr hv)
    rw [route_of_indexes hfind hns, hrange, Rule.owners, List.filter_map]
    rfl

theorem route_values_eq_ok_iff (hgrown : rules.Grown) (hfind : rules.find? db table = some r)
    (hhalf : r.count.toNat ≤ 2 ^ 63) {vs : List KeyValue} {shards : List Shard} :
    rules.route db table (.values vs) = .ok shards ↔
      (∀ v ∈ vs, ¬r.Unplaceable v) ∧ shards = r.owners db vs := by
  have hnone : vs.find? (fun v => r.Unplaceable v) = none ↔ ∀ v ∈ vs, ¬r.Unplaceable v := by
    simp
  rw [route_values hgrown hfind hhalf, ← hnone]
  split
  · next v hv => simp [hv]
  · next hv => simp [hv, eq_comm]

theorem route_values_eq_error_iff (hgrown : rules.Grown)
    (hfind : rules.find? db table = some r) (hhalf : r.count.toNat ≤ 2 ^ 63)
    {vs : List KeyValue} {e : Error} :
    rules.route db table (.values vs) = .error e ↔
      ∃ v, vs.find? (fun v => r.Unplaceable v) = some v ∧
        e = .invalidValue (.unplaceable r.db r.table v.text) := by
  rw [route_values hgrown hfind hhalf]
  split
  · next v hv => simp [hv, eq_comm]
  · next hv => simp [hv]

/-- A route honours the contract of routers. The route of some values is refused, for the first one
that no shard can own, exactly if there is such a value. Otherwise it leads to those of all shards
that own one of the values, by increasing index. So it depends on the set of the values only, and
values with others behind them lead to the shards of both, each once and in order. -/
theorem values_route_to_their_owners (hgrown : rules.Grown)
    (hfind : rules.find? db table = some r) (hhalf : r.count.toNat < 2 ^ 63)
    (vs : List KeyValue) :
    ((∃ e, rules.route db table (.values vs) = .error (.invalidValue e)) ↔
      ∃ v ∈ vs, r.Unplaceable v) ∧
    (∀ e, rules.route db table (.values vs) = .error e →
      ∃ v, vs.find? (fun v => r.Unplaceable v) = some v ∧
        e = .invalidValue (.unplaceable r.db r.table v.text)) ∧
    ((∀ v ∈ vs, ¬r.Unplaceable v) →
      ∃ all shards, rules.route db table .all = .ok all ∧
        rules.route db table (.values vs) = .ok shards ∧
        shards = all.filter (fun s => ∃ v ∈ vs, r.Owns s.index v) ∧
        shards.Pairwise fun s t => s.index < t.index) ∧
    (∀ ws, (∀ v, v ∈ ws ↔ v ∈ vs) →
      (rules.route db table (.values ws)).toOption =
        (rules.route db table (.values vs)).toOption) ∧
    ∀ ws shards others, rules.route db table (.values vs) = .ok shards →
      rules.route db table (.values ws) = .ok others →
      ∃ both, rules.route db table (.values (vs ++ ws)) = .ok both ∧
        both.Pairwise (fun s t => s.index < t.index) ∧
        ∀ s, s ∈ both ↔ s ∈ shards ∨ s ∈ others := by
  have hhalf := Nat.le_of_lt hhalf
  have hok {vs shards} := @route_values_eq_ok_iff rules r db table hgrown hfind hhalf vs shards
  have herror {vs e} := @route_values_eq_error_iff rules r db table hgrown hfind hhalf vs e
  refine ⟨?_, fun e => herror.mp, ?_, ?_, ?_⟩
  · have hfound : (∃ v, vs.find? (fun v => r.Unplaceable v) = some v) ↔
        ∃ v ∈ vs, r.Unplaceable v := by
      rw [← Option.isSome_iff_exists, List.find?_isSome]
      simp only [decide_eq_true_eq]
    simp [herror, ← hfound]
  · intro hvs
    exact ⟨_, _, route_of_indexes hfind r.indexes_all, hok.mpr ⟨hvs, rfl⟩, rfl,
      r.pairwise_owners db⟩
  · intro ws hsame
    by_cases hvs : ∀ v ∈ vs, ¬r.Unplaceable v
    · have hws : ∀ v ∈ ws, ¬r.Unplaceable v := fun v hv => hvs v ((hsame v).mp hv)
      rw [hok.mpr ⟨hvs, rfl⟩, hok.mpr ⟨hws, rfl⟩, Rule.owners_congr hsame]
    · have hrefused {us} (hus : ¬∀ v ∈ us, ¬r.Unplaceable v) :
          (rules.route db table (.values us)).toOption = none := by
        cases hroute : rules.route db table (.values us) with
        | error e => rfl
        | ok shards => exact absurd (hok.mp hroute).1 hus
      rw [hrefused hvs, hrefused (by simpa only [hsame] using hvs)]
  · intro ws shards others hshards hothers
    obtain ⟨hvs, rfl⟩ := hok.mp hshards
    obtain ⟨hws, rfl⟩ := hok.mp hothers
    have hboth : ∀ v ∈ vs ++ ws, ¬r.Unplaceable v := by
      intro v hv
      rcases List.mem_append.mp hv with hv | hv
      · exact hvs v hv
      · exact hws v hv
    exact ⟨_, hok.mpr ⟨hboth, rfl⟩, r.pairwise_owners db, fun s => Rule.mem_owners_append⟩

theorem spellings_of_keys_are_routed :
    Grown ⟨[ordersById]⟩ ∧ find? ⟨[ordersById]⟩ "SHOP" "orders" = some ordersById ∧
    ordersById.count.toNat < 2 ^ 63 ∧
    (∀ v ∈ [KeyValue.int (-1), .str " +5 ", .int 1], ¬ordersById.Unplaceable v) ∧
    route ⟨[ordersById]⟩ "SHOP" "orders" (.values [.int (-1), .str " +5 ", .int 1]) =
      .ok [ordersById.shard "SHOP" 1, ordersById.shard "SHOP" 3] ∧
    ∃ e, route ⟨[ordersById]⟩ "SHOP" "orders" (.values [.int 2, .str "5.0"]) =
      .error (.invalidValue e) := by
  have hfind : find? ⟨[ordersById]⟩ "SHOP" "orders" = some ordersById := by decide
  have hhalf : ordersById.count.toNat < 2 ^ 63 := by decide
  have hvs : ∀ v ∈ [KeyValue.int (-1), .str " +5 ", .int 1], ¬ordersById.Unplaceable v := by
    decide +kernel
  obtain ⟨all, shards, hall, hroute, hshards, -⟩ :=
    (values_route_to_their_owners grown_ordersById hfind hhalf _).2.2.1 hvs
  have hrefused := (values_route_to_their_owners grown_ordersById hfind hhalf
    [.int 2, .str "5.0"]).1.mpr (by decide +kernel)
  have howners : shards = [ordersById.shard "SHOP" 1, ordersById.shard "SHOP" 3] := by
    rw [hshards, ← Except.ok.inj hall]
    rfl
  exact ⟨grown_ordersById, hfind, hhalf, hvs, howners ▸ hroute, hrefused⟩

end RuleTable

end ShardedSql.Routing
