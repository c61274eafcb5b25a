import ShardedSql.Proofs.Planning.Qualifiers
import ShardedSql.Proofs.Planning.ShardNames

namespace ShardedSql

namespace Sql

/-- The name that a statement calls a table by: its alias, or its own name if it has none. -/
def TableRef.goesBy (t : TableRef) : String := t.aliasName.getD t.table.name

theorem TableRef.goesBy_of_alias {t : TableRef} {a : String} (h : t.aliasName = some a) :
    t.goesBy = a := by
  rw [goesBy, h]
  rfl

theorem TableRef.goesBy_of_no_alias {t : TableRef} (h : t.aliasName = none) :
    t.goesBy = t.table.name := by
  rw [goesBy, h]
  rfl

/-- Whether a qualifier may mean the reference at a place. The case of letters makes no
difference. -/
def Select.Denotes (s : Select) (q : String) (i : Nat) : Prop :=
  ∃ t, s.tableRefs[i]? = some t ∧ Text.sameName t.goesBy q = true

/-- Whether a qualifier means the reference at a place and no other. -/
def Select.DenotesOnly (s : Select) (q : String) (i : Nat) : Prop := ∀ j, s.Denotes q j ↔ j = i

instance (s : Select) (q : String) (i : Nat) : Decidable (s.Denotes q i) :=
  decidable_of_iff ((s.tableRefs[i]?).any (fun t => Text.sameName t.goesBy q) = true)
    (by simp [Option.any_eq_true, Select.Denotes])

theorem Select.denotesOnly_iff (s : Select) (q : String) (i : Nat) :
    s.DenotesOnly q i ↔ s.Denotes q i ∧ ∀ j < s.tableRefs.length, s.Denotes q j → j = i := by
  constructor
  · exact fun h => ⟨(h i).mpr rfl, fun j _ => (h j).mp⟩
  · rintro ⟨hi, hothers⟩ j
    constructor
    · rintro ⟨t, ht, hq⟩
      exact hothers j (List.getElem?_eq_some_iff.mp ht).1 ⟨t, ht, hq⟩
    · rintro rfl
      exact hi

instance (s : Select) (q : String) (i : Nat) : Decidable (s.DenotesOnly q i) :=
  decidable_of_iff _ (s.denotesOnly_iff q i).symm

end Sql

namespace Planning

open Routing (RuleTable ordersById)
open Sql (Select TableRef)

variable (rules : RuleTable) (db : String) (k : Nat)

/-- Whether a statement calls a sharded table by the name of the table. -/
def IsRenamed (t : TableRef) : Prop := t.aliasName = none ∧ (ruleOf? rules db t).isSome

/-- Whether an unsharded table that goes by its own name has this name in common with a sharded
one, which the statement calls by an alias. -/
def IsMistaken (s : Select) (t : TableRef) : Prop :=
  t.aliasName = none ∧ ruleOf? rules db t = none ∧
    ∃ u ∈ s.tableRefs, (ruleOf? rules db u).isSome ∧ Text.sameName u.table.name t.table.name = true

/-- Whether a table that is renamed gets the name that another one goes by which is not. -/
def Clashes (t u : TableRef) : Prop :=
  IsRenamed rules db t ∧ ¬IsRenamed rules db u ∧
    Text.sameName u.goesBy (physicalName rules db k t) = true

variable {rules : RuleTable} {db : String} {k : Nat} {s : Select} {t u : TableRef} {q : String}

/-- What puts the names of the shards of an index into a SELECT. -/
def shardRenamer (rules : RuleTable) (db : String) (k : Nat) (s : Select) : Renamer :=
  selectRenamer db ((ruledRefs rules db s.tableRefs).map (RuledRef.rename db k)) s

theorem shardRenamer_eq :
    shardRenamer rules db k s = refsRenamer rules db k s.tableRefs := rfl

theorem name_tableRef (ht : t ∈ s.tableRefs) :
    ((shardRenamer rules db k s).tableRef t).table.name = physicalName rules db k t :=
  name_tableRef_of_mem ht

/-- The name that a statement for the shards calls a table by. -/
def shardGoesBy (rules : RuleTable) (db : String) (k : Nat) (t : TableRef) : String :=
  t.aliasName.getD (physicalName rules db k t)

theorem shardGoesBy_of_renamed (h : IsRenamed rules db t) :
    shardGoesBy rules db k t = physicalName rules db k t := by
  rw [shardGoesBy, h.1]
  rfl

theorem goesBy_of_renamed (h : IsRenamed rules db t) : t.goesBy = t.table.name :=
  TableRef.goesBy_of_no_alias h.1

theorem shardGoesBy_of_not_renamed (h : ¬IsRenamed rules db t) :
    shardGoesBy rules db k t = t.goesBy := by
  cases ha : t.aliasName with
  | some a =>
    rw [shardGoesBy, TableRef.goesBy_of_alias ha, ha]
    rfl
  | none =>
    have hrule : ruleOf? rules db t = none := by simpa [IsRenamed, ha] using h
    rw [shardGoesBy, TableRef.goesBy, physicalName_of_unsharded hrule]

/-- Two tables that go by different names go by one name on the shards only if they clash. -/
theorem sameName_shardGoesBy_iff (h : Text.sameName u.goesBy t.goesBy = false) :
    Text.sameName (shardGoesBy rules db k u) (shardGoesBy rules db k t) = true ↔
      Clashes rules db k t u ∨ Clashes rules db k u t := by
  by_cases ht : IsRenamed rules db t <;> by_cases hu : IsRenamed rules db u
  · rw [goesBy_of_renamed ht, goesBy_of_renamed hu] at h
    rw [shardGoesBy_of_renamed ht, shardGoesBy_of_renamed hu, sameName_physicalName hu.2 ht.2, h]
    simp [Clashes, ht, hu]
  · rw [shardGoesBy_of_renamed ht, shardGoesBy_of_not_renamed hu]
    simp [Clashes, ht, hu]
  · rw [shardGoesBy_of_not_renamed ht, shardGoesBy_of_renamed hu, Text.sameName_comm]
    simp [Clashes, ht, hu]
  · rw [shardGoesBy_of_not_renamed ht, shardGoesBy_of_not_renamed hu, h]
    simp [Clashes, ht, hu]

theorem goesBy_ne_of_denotesOnly {i j : Nat} (h : s.DenotesOnly q i) (ht : s.tableRefs[i]? = some t)
    (hu : s.tableRefs[j]? = some u) (hj : j ≠ i) : Text.sameName u.goesBy t.goesBy = false := by
  obtain ⟨t', ht', hq⟩ := (h i).mpr rfl
  obtain rfl : t = t' := Option.some.inj (ht.symm.trans ht')
  rw [Bool.eq_false_iff]
  exact fun hsame => hj ((h j).mp ⟨u, hu, Text.sameName_trans hsame hq⟩)

/-- No alias is the qualifier of a table that has none. -/
theorem aliases_ne_of_denotesOnly {i : Nat} (h : s.DenotesOnly q i)
    (ht : s.tableRefs[i]? = some t) (hnone : t.aliasName = none) :
    ∀ u ∈ s.tableRefs, ∀ a, u.aliasName = some a → Text.sameName a q = false := by
  intro u hu a ha
  obtain ⟨j, hj⟩ := List.getElem?_of_mem hu
  rw [Bool.eq_false_iff]
  intro hsame
  have hgoes : u.goesBy = a := TableRef.goesBy_of_alias ha
  obtain rfl : j = i := (h j).mp ⟨u, hj, by rwa [hgoes]⟩
  obtain rfl : t = u := Option.some.inj (ht.symm.trans hj)
  rw [hnone] at ha
  cases ha

theorem sameName_goesBy_of_denotesOnly {i : Nat} (h : s.DenotesOnly q i)
    (ht : s.tableRefs[i]? = some t) : Text.sameName t.goesBy q = true := by
  obtain ⟨t', ht', hq⟩ := (h i).mpr rfl
  rwa [Option.some.inj (ht.symm.trans ht')]

/-- The qualifier of a table follows it, unless it is taken for the one of another. -/
theorem sameName_shardGoesBy_qualifier_iff {i : Nat} (h : s.DenotesOnly q i)
    (ht : s.tableRefs[i]? = some t) :
    Text.sameName (shardGoesBy rules db k t) ((shardRenamer rules db k s).qualifier q) = true ↔
      ¬IsMistaken rules db s t := by
  have hq := sameName_goesBy_of_denotesOnly h ht
  have hmem : t ∈ s.tableRefs := List.mem_of_getElem? ht
  rw [shardRenamer_eq]
  cases ha : t.aliasName with
  | some a =>
    have hgoes : t.goesBy = a := TableRef.goesBy_of_alias ha
    rw [hgoes] at hq
    rw [qualifier_of_alias ⟨t, hmem, a, ha, hq⟩, shardGoesBy, ha]
    simpa [IsMistaken, ha] using hq
  | none =>
    have hgoes : t.goesBy = t.table.name := TableRef.goesBy_of_no_alias ha
    rw [hgoes] at hq
    have hphysical : shardGoesBy rules db k t = physicalName rules db k t := by
      rw [shardGoesBy, ha]
      rfl
    rw [hphysical]
    rcases qualifier_of_not_alias (k := k) (aliases_ne_of_denotesOnly h ht ha) with
      ⟨u, hu, hsharded, hname, hqualifier⟩ | ⟨hunsharded, hqualifier⟩
    · rw [hqualifier]
      cases hrule : ruleOf? rules db t with
      | some r =>
        rw [sameName_physicalName (by simp [hrule]) hsharded]
        rw [Text.sameName_comm] at hname
        simpa [IsMistaken, hrule] using Text.sameName_trans hq hname
      | none =>
        rw [Text.sameName_comm] at hq
        have hsame := Text.sameName_trans hname hq
        rw [physicalName_of_unsharded hrule, not_sameName_physicalName hsharded hsame]
        simpa [IsMistaken, ha, hrule] using ⟨u, hu, hsharded, hsame⟩
    · have hrule : ruleOf? rules db t = none := by
        rw [Option.eq_none_iff_forall_ne_some]
        intro r hr
        rw [hunsharded t hmem (by simp [hr])] at hq
        cases hq
      rw [hqualifier, physicalName_of_unsharded hrule, hq]
      simp only [IsMistaken, ha, hrule, true_and, true_iff]
      rintro ⟨u, hu, hsharded, hsame⟩
      exact Bool.eq_false_iff.mp (hunsharded u hu hsharded) (Text.sameName_trans hsame hq)

theorem denotes_shard_iff {phys : Select}
    (hrefs : phys.tableRefs = s.tableRefs.map (shardRenamer rules db k s).tableRef) (j : Nat) :
    phys.Denotes q j ↔
      ∃ u, s.tableRefs[j]? = some u ∧ Text.sameName (shardGoesBy rules db k u) q = true := by
  have hgoes (u : TableRef) (hu : u ∈ s.tableRefs) :
      ((shardRenamer rules db k s).tableRef u).goesBy = shardGoesBy rules db k u := by
    rw [TableRef.goesBy, name_tableRef hu]
    rfl
  unfold Select.Denotes
  rw [hrefs, List.getElem?_map]
  constructor
  · rintro ⟨t, ht, hq⟩
    obtain ⟨u, hu, rfl⟩ := Option.map_eq_some_iff.mp ht
    exact ⟨u, hu, by rwa [← hgoes u (List.mem_of_getElem? hu)]⟩
  · rintro ⟨u, hu, hq⟩
    exact ⟨_, Option.map_eq_some_iff.mpr ⟨u, hu, rfl⟩, by rwa [hgoes u (List.mem_of_getElem? hu)]⟩

/-- The qualifier of a table means it, and no other table, in the statement for the shards exactly
if it is not taken for another one and the table has no name in common with another there. -/
theorem denotesOnly_renameSelect_iff {phys : Select}
    (hrefs : phys.tableRefs = s.tableRefs.map (shardRenamer rules db k s).tableRef) {i : Nat}
    (h : s.DenotesOnly q i) (ht : s.tableRefs[i]? = some t) :
    phys.DenotesOnly ((shardRenamer rules db k s).qualifier q) i ↔
      ¬IsMistaken rules db s t ∧
        ∀ u ∈ s.tableRefs, ¬Clashes rules db k t u ∧ ¬Clashes rules db k u t := by
  have hfollows : Text.sameName (shardGoesBy rules db k t)
      ((shardRenamer rules db k s).qualifier q) = true ↔ ¬IsMistaken rules db s t :=
    sameName_shardGoesBy_qualifier_iff h ht
  constructor
  · intro hphys
    obtain ⟨t', ht', hq⟩ := (denotes_shard_iff hrefs i).mp ((hphys i).mpr rfl)
    obtain rfl : t = t' := Option.some.inj (ht.symm.trans ht')
    refine ⟨hfollows.mp hq, fun u hu => not_or.mp fun hclash => ?_⟩
    obtain ⟨j, hj⟩ := List.getElem?_of_mem hu
    by_cases hji : j = i
    · rw [hji] at hj
      obtain rfl : t = u := Option.some.inj (ht.symm.trans hj)
      rcases hclash with hclash | hclash <;> exact hclash.2.1 hclash.1
    · have hsame := (sameName_shardGoesBy_iff (goesBy_ne_of_denotesOnly h ht hj hji)).mpr hclash
      exact hji ((hphys j).mp ((denotes_shard_iff hrefs j).mpr
        ⟨u, hj, Text.sameName_trans hsame hq⟩))
  · rintro ⟨hmistaken, hclash⟩ j
    rw [denotes_shard_iff hrefs j]
    have hq := hfollows.mpr hmistaken
    constructor
    · rintro ⟨u, hj, hsame⟩
      apply Classical.byContradiction
      intro hji
      rw [Text.sameName_comm] at hq
      have hclashes := (sameName_shardGoesBy_iff (goesBy_ne_of_denotesOnly h ht hj hji)).mp
        (Text.sameName_trans hsame hq)
      exact not_or.mpr (hclash u (List.mem_of_getElem? hj)) hclashes
    · rintro rfl
      exact ⟨t, ht, hq⟩

variable {σ : Type} {nextKey : String → Planner σ Int64}

/-- A SELECT whose plan is for shards has been split by them. -/
theorem planSelect_of_isSharded {config : Config} {sql : String} {st st' : σ} {p : Plan}
    (h : (plan (.ofRules rules nextKey) config (.select s) db sql).outcome st = (.ok p, st'))
    (hp : p.isSharded = true) :
    ∃ st₁, (planSelect (.ofRules rules nextKey) s db).outcome st₁ = (.ok p, st') := by
  change (planDirect (.ofRules rules nextKey) config (.select s) db sql).outcome st = _ at h
  unfold planDirect at h
  obtain ⟨c, st₁, -, hplan⟩ := Planner.outcome_bind_eq_ok.mp h
  cases c with
  | shardAware => exact ⟨st₁, hplan⟩
  | explain =>
    cases hplan
    cases hp
  | passThrough =>
    cases hplan
    cases hp

/-- What becomes of the qualifiers of a SELECT in each statement that its plan issues: they stay in
their places, and one that means a single table keeps its meaning exactly if that table is not
mistaken for a sharded one and its name does not clash with another. -/
theorem qualifier_keeps_referent_iff (rules : RuleTable) (nextKey : String → Planner σ Int64)
    (config : Config) (s : Select) (db sql : String) (st st' : σ) (p : Plan)
    (h : (plan (.ofRules rules nextKey) config (.select s) db sql).outcome st = (.ok p, st'))
    (hp : p.isSharded = true) :
    ∀ c ∈ p.routing.calls, ∃ (k : Nat) (phys : Select) (rename : String → String),
      c.sql = phys.sql ∧
      phys.tableRefs.map (fun t => (t.table.name, t.aliasName)) =
        s.tableRefs.map (fun t => (physicalName rules db k t, t.aliasName)) ∧
      phys.qualifiers = s.qualifiers.map rename ∧
      ∀ q i t, s.tableRefs[i]? = some t → s.DenotesOnly q i →
        (phys.DenotesOnly (rename q) i ↔ ¬IsMistaken rules db s t ∧
          ∀ u ∈ s.tableRefs, ¬Clashes rules db k t u ∧ ¬Clashes rules db k u t) := by
  obtain ⟨st₁, hplan⟩ := planSelect_of_isSharded h hp
  obtain ⟨tables, groups, merge, rfl, hgroups⟩ := planSelect_ok hplan
  intro c hc
  obtain ⟨g, hg, rfl⟩ := List.mem_map.mp ((RoutingMap.perm_ofCalls _).mem_iff.mp hc)
  obtain ⟨k, hrenamings, -⟩ := hgroups g hg
  obtain ⟨l, hlimit⟩ := splitSelect_fst s groups.length
  let phys := renameSelect db ((ruledRefs rules db s.tableRefs).map (RuledRef.rename db k))
    { s with limit := l }
  have hrefs : phys.tableRefs = s.tableRefs.map (shardRenamer rules db k s).tableRef :=
    tableRefs_renameSelect _ _ _
  refine ⟨k, phys, (shardRenamer rules db k s).qualifier, ?_, ?_, qualifiers_renameSelect _ _ _,
    fun q i t ht hq => denotesOnly_renameSelect_iff hrefs hq ht⟩
  · rw [groupCall, hrenamings, hlimit]
  · rw [hrefs, List.map_map]
    refine List.map_congr_left fun t ht => ?_
    rw [Function.comp, name_tableRef ht]
    rfl

/-- `SELECT orders.x FROM orders JOIN users ON orders.uid = users.id WHERE orders.id = 3`. -/
def ordersOfUsers : Select where
  distinct := false
  items := [.expr (.column ⟨some "orders", "x"⟩) none]
  sources := [⟨⟨none, "orders"⟩, none⟩]
  joins := [⟨.inner, ⟨⟨none, "users"⟩, none⟩,
    some (.binary (.column ⟨some "orders", "uid"⟩) .equal (.column ⟨some "users", "id"⟩))⟩]
  condition := some (.binary (.column ⟨some "orders", "id"⟩) .equal (.literal (.integer 3)))
  groupBy := []
  having := none
  orderBy := []
  limit := none
  forUpdate := false

/-- A supply of no keys, which a SELECT does not need. -/
def noKeys (_ : String) : Planner Unit Int64 := throw .cancelled

def ordersOfUsersPlan : Plan :=
  .select ⟨[⟨"slice-0", "shop", "SELECT orders_3.x FROM orders_3 JOIN users ON " ++
    "orders_3.uid = users.id WHERE orders_3.id = 3"⟩]⟩ ⟨[], none, [("orders_3", "orders")]⟩

theorem plan_ordersOfUsers :
    (plan (.ofRules ⟨[ordersById]⟩ noKeys) .standard (.select ordersOfUsers) "shop"
      ordersOfUsers.sql).outcome () = (.ok ordersOfUsersPlan, ()) := by decide +kernel

/-- No physical name of `orders` is the name of the other table. -/
theorem not_clashes_ordersOfUsers (k : Nat) {t u : TableRef} (ht : t ∈ ordersOfUsers.tableRefs)
    (hu : u ∈ ordersOfUsers.tableRefs) : ¬Clashes ⟨[ordersById]⟩ "shop" k t u := by
  have horders : ruleOf? ⟨[ordersById]⟩ "shop" ⟨⟨none, "orders"⟩, none⟩ = some ordersById := by
    rfl
  have husers : ruleOf? ⟨[ordersById]⟩ "shop" ⟨⟨none, "users"⟩, none⟩ = none := rfl
  have hrefs {t : TableRef} (ht : t ∈ ordersOfUsers.tableRefs) :
      t = ⟨⟨none, "orders"⟩, none⟩ ∨ t = ⟨⟨none, "users"⟩, none⟩ := by
    simpa [ordersOfUsers, Select.tableRefs] using ht
  rintro ⟨hrenamed, hfixed, hname⟩
  rcases hrefs ht with rfl | rfl
  · rcases hrefs hu with rfl | rfl
    · exact hfixed hrenamed
    · rw [physicalName_of_rule horders] at hname
      have hlength := Text.length_eq_of_sameName hname
      rw [String.length_append, String.length_append] at hlength
      change 5 = 6 + (1 + _) at hlength
      omega
  · simp [IsRenamed, husers] at hrenamed

theorem orders_of_users_keep_their_qualifier : ordersOfUsersPlan.isSharded = true ∧
    ∀ c ∈ ordersOfUsersPlan.routing.calls, ∃ (phys : Select) (rename : String → String),
      c.sql = phys.sql ∧ phys.qualifiers = ordersOfUsers.qualifiers.map rename ∧
      phys.DenotesOnly (rename "orders") 0 := by
  refine ⟨by decide, fun c hc => ?_⟩
  have hsplit := qualifier_keeps_referent_iff ⟨[ordersById]⟩ noKeys .standard
    ordersOfUsers "shop" ordersOfUsers.sql () () ordersOfUsersPlan plan_ordersOfUsers (by decide) c hc
  obtain ⟨k, phys, rename, hsql, -, hqualifiers, hkeeps⟩ := hsplit
  have hmistaken : ¬IsMistaken ⟨[ordersById]⟩ "shop" ordersOfUsers ⟨⟨none, "orders"⟩, none⟩ := by
    rintro ⟨-, hunsharded, -⟩
    revert hunsharded
    decide +kernel
  have hmem : ⟨⟨none, "orders"⟩, none⟩ ∈ ordersOfUsers.tableRefs := List.mem_cons_self
  exact ⟨phys, rename, hsql, hqualifiers, (hkeeps "orders" 0 _ rfl (by decide +kernel)).mpr
    ⟨hmistaken, fun u hu =>
      ⟨not_clashes_ordersOfUsers k hmem hu, not_clashes_ordersOfUsers k hu hmem⟩⟩⟩

/-- `SELECT orders.x FROM orders o JOIN archive.orders ON o.id = orders.oid WHERE o.id = 3`. -/
def archivedOrders : Select where
  distinct := false
  items := [.expr (.column ⟨some "orders", "x"⟩) none]
  sources := [⟨⟨none, "orders"⟩, some "o"⟩]
  joins := [⟨.inner, ⟨⟨some "archive", "orders"⟩, none⟩,
    some (.binary (.column ⟨some "o", "id"⟩) .equal (.column ⟨some "orders", "oid"⟩))⟩]
  condition := some (.binary (.column ⟨some "o", "id"⟩) .equal (.literal (.integer 3)))
  groupBy := []
  having := none
  orderBy := []
  limit := none
  forUpdate := false

def archivedOrdersOnShard : Select :=
  { archivedOrders with
    items := [.expr (.column ⟨some "orders_3", "x"⟩) none]
    sources := [⟨⟨none, "orders_3"⟩, some "o"⟩]
    joins := [⟨.inner, ⟨⟨some "archive", "orders"⟩, none⟩,
      some (.binary (.column ⟨some "o", "id"⟩) .equal (.column ⟨some "orders_3", "oid"⟩))⟩] }

def archivedOrdersPlan : Plan :=
  .select ⟨[⟨"slice-0", "shop", archivedOrdersOnShard.sql⟩]⟩ ⟨[], none, [("orders_3", "orders")]⟩

/-- The table of another database loses its qualifier to the sharded one of the same name. -/
theorem namesake_loses_its_qualifier :
    (plan (.ofRules ⟨[ordersById]⟩ noKeys) .standard (.select archivedOrders) "shop"
      archivedOrders.sql).outcome () = (.ok archivedOrdersPlan, ()) ∧
    archivedOrders.qualifiers = ["orders", "o", "orders", "o"] ∧
    archivedOrdersOnShard.qualifiers = ["orders_3", "o", "orders_3", "o"] ∧
    archivedOrders.DenotesOnly "orders" 1 ∧ ¬archivedOrdersOnShard.DenotesOnly "orders_3" 1 := by
  refine ⟨rfl, rfl, rfl, by decide +kernel, by decide +kernel⟩

end Planning

end ShardedSql
