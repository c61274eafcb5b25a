import ShardedSql.Proofs.Execution.SingleCall
import ShardedSql.Proofs.Planning.Builders
import ShardedSql.Proofs.Planning.Exchanges
import ShardedSql.Proofs.Planning.Qualifiers

namespace ShardedSql.Planning

open Execution (Reply Request execute)
open Planner
open Routing (RuleTable ordersById)
open Sql (Expr Select Statement TableName TableRef)

/-- The kind of plan for the variant of a statement. -/
def planKind : Statement → String
  | .select _ => "select"
  | .insert _ => "insert"
  | .update _ => "update"
  | .delete _ => "delete"
  | .explain _ => "explain"
  | .other _ => "unshard"

variable {σ : Type} {services : Services σ} {key : String → String → Option String} {db : String}
  {st st' : σ}

/-- That services name the shard keys of a function, whatever their state. -/
def Services.NameKeys (services : Services σ) (key : String → String → Option String) : Prop :=
  ∀ db table st, (services.shardKey db table st).1 = key db table

/-- Whether a table that a statement names is sharded, in its schema or else in the database that the
statement was issued on. -/
def isSharded (key : String → String → Option String) (db : String) (t : TableName) : Bool :=
  (key (t.schema.getD db) t.name).isSome

theorem outcome_bindM {α β : Type} (x : StateM σ α) (f : α → StateM σ β) (st : σ) :
    (x >>= f) st = f (x st).1 (x st).2 := rfl

theorem outcome_mapM_ok {α β : Type} {f : α → Planner σ β} {as : List α} {bs : List β}
    (h : (as.mapM f).outcome st = (.ok bs, st')) {a : α} (ha : a ∈ as) :
    ∃ b ∈ bs, ∃ s s', (f a).outcome s = (.ok b, s') := by
  induction as generalizing st bs with
  | nil => cases ha
  | cons a' as ih =>
    rw [List.mapM_cons] at h
    obtain ⟨b, st₁, hb, h⟩ := outcome_bind_eq_ok.mp h
    obtain ⟨bs', st₂, hbs, h⟩ := outcome_bind_eq_ok.mp h
    cases h
    rcases List.mem_cons.mp ha with rfl | ha
    · exact ⟨b, List.mem_cons_self, _, _, hb⟩
    · obtain ⟨b', hb', hf⟩ := ih hbs ha
      exact ⟨b', List.mem_cons_of_mem _ hb', hf⟩

section Classes

variable (hkey : services.NameKeys key)
include hkey

theorem anyM_isShardedTable_fst (tables : List TableName) (st : σ) :
    (tables.anyM (isShardedTable services db) st).1 = tables.any (isSharded key db) := by
  induction tables generalizing st with
  | nil => rfl
  | cons t tables ih =>
    have hsharded : (isShardedTable services db t st).1 = isSharded key db t :=
      congrArg Option.isSome (hkey _ _ _)
    rw [List.anyM, outcome_bindM, hsharded, List.any_cons]
    cases isSharded key db t with
    | true => rfl
    | false => exact ih _

/-- A statement is split by shards when one of its tables is sharded. -/
theorem classify_fst {stmt : Statement} (hstmt : ∀ inner, stmt ≠ .explain inner) (st : σ) :
    (classify services stmt db st).1 =
      if stmt.tableRefs.any fun ref => isSharded key db ref.table then .shardAware
      else .passThrough := by
  have hany : ((referencedTables stmt).anyM (isShardedTable services db) st).1 =
      stmt.tableRefs.any fun ref => isSharded key db ref.table := by
    have href : referencedTables stmt = stmt.tableRefs.map (·.table) := by cases stmt <;> rfl
    rw [anyM_isShardedTable_fst hkey, href, List.any_map]
    rfl
  have hclass : classify services stmt db =
      (referencedTables stmt).anyM (isShardedTable services db) >>= fun sharded =>
        if sharded then pure .shardAware else pure .passThrough := by
    cases stmt with
    | explain inner => exact absurd rfl (hstmt inner)
    | _ => rfl
  rw [hclass, outcome_bindM, hany]
  cases stmt.tableRefs.any fun ref => isSharded key db ref.table <;> rfl

theorem ofRef?_isSome {ref : TableRef} {condition : Option Expr} {routed : Option RoutedTable}
    (h : (RoutedTable.ofRef? services ref db condition).outcome st = (.ok routed, st')) :
    routed.isSome = isSharded key db ref.table := by
  unfold RoutedTable.ofRef? at h
  obtain ⟨named, st₁, hnamed, h⟩ := outcome_bind_eq_ok.mp h
  rw [outcome_lift] at hnamed
  have hname : named = key (ref.table.schema.getD db) ref.table.name :=
    (Except.ok.inj (congrArg Prod.fst hnamed)).symm.trans (hkey _ _ _)
  rw [isSharded, ← hname]
  cases named with
  | none =>
    cases h
    rfl
  | some k =>
    obtain ⟨shards, st₂, -, h⟩ := outcome_bind_eq_ok.mp h
    cases h
    rfl

/-- The routed tables of a SELECT that names a sharded table are at least one. -/
theorem routeTables_ne_nil {s : Select} {tables : List RoutedTable}
    (h : (routeTables services s db).outcome st = (.ok tables, st')) {ref : TableRef}
    (href : ref ∈ s.tableRefs) (hsharded : isSharded key db ref.table = true) : tables ≠ [] := by
  unfold routeTables at h
  obtain ⟨routed, st₁, hrouted, h⟩ := outcome_bind_eq_ok.mp h
  cases h
  obtain ⟨t, ht, s₀, s₁, hof⟩ := outcome_mapM_ok hrouted href
  have hsome := (ofRef?_isSome hkey hof).trans hsharded
  obtain ⟨t, rfl⟩ := Option.isSome_iff_exists.mp hsome
  exact List.ne_nil_of_mem (List.mem_filterMap.mpr ⟨_, ht, rfl⟩)

end Classes

/-- That an error of a step which denies sharding is an answer that the step was given. -/
def Blames {α : Type} (x : Planner (σ × List Exchange) α) : Prop :=
  ∀ s e s', x.outcome s = (.error e, s') → e.deniesSharding = true → ∃ a ∈ s'.2, a.error? = some e

/-- `Blames` as a relation between steps, which looks at the first one. -/
abbrev Blaming (σ α : Type) (x _ : Planner (σ × List Exchange) α) : Prop := Blames x

theorem Blames.bind {α β : Type} {x : Planner (σ × List Exchange) α}
    {f : α → Planner (σ × List Exchange) β} (hx : Blames x)
    (hf : ∀ s a s', x.outcome s = (.ok a, s') → Blames (f a)) : Blames (x >>= f) := by
  intro s e s' h hdenies
  rw [outcome_bind] at h
  rcases hout : x.outcome s with ⟨e' | a, s₁⟩
  · rw [hout] at h
    cases h
    exact hx s e s' hout hdenies
  · rw [hout] at h
    exact hf s a s₁ hout s₁ e s' h hdenies

theorem blames_composes : Composes (Blaming σ) where
  still result hresult := by
    intro s e s' h hdenies
    cases h
    rw [hresult e rfl] at hdenies
    cases hdenies
  bind hx hf := Blames.bind hx fun _ a _ _ => hf a

theorem blames_note {α : Type} (x : Planner σ α) {exchange : Except Error α → Exchange}
    (h : ∀ e, (exchange (.error e)).error? = some e) : Blames (x.note exchange) := by
  intro s e s' hout _
  obtain ⟨herror, rfl⟩ := Prod.mk.inj hout
  refine ⟨exchange (x.outcome s.1).1, List.mem_append_right _ List.mem_cons_self, ?_⟩
  exact (congrArg (fun result => (exchange result).error?) herror).trans (h e)

variable (services) in
theorem keys_blame : KeysAlike (Blaming σ) services.noted services.noted := by
  intro db table s e s' h
  cases h

variable (services) in
theorem routes_blame : RoutesAlike (Blaming σ) services.noted services.noted where
  routeAll db table := blames_note _ fun _ => rfl
  route t condition := by
    intro s e s' h hdenies
    have hnote : Blames (services.noted.route t.db t.name (t.hint condition)) :=
      blames_note _ fun _ => rfl
    rcases hanswer : (services.noted.route t.db t.name (t.hint condition)).outcome s with
      ⟨answer, s₁⟩
    by_cases hunplaced : t.hint condition ≠ .all ∧ ∃ v, answer = .error (.invalidValue v)
    · obtain ⟨hhint, v, rfl⟩ := hunplaced
      rw [outcome_route_of_unplaced hanswer hhint] at h
      exact blames_note _ (fun _ => rfl) s₁ e s' h hdenies
    · rw [outcome_route_of_placed hanswer fun v hv =>
        not_not.mp fun hhint => hunplaced ⟨hhint, v, hv⟩] at h
      cases h
      exact hnote s e s' hanswer hdenies

variable (services) in
theorem places_blame : PlacesAlike (Blaming σ) services.noted services.noted where
  routeKey _ _ _ := blames_note _ fun _ => rfl
  nextKey _ := blames_note _ fun _ => rfl

/-- A builder that is given a sharded table does not deny by itself that there is one. -/
theorem planSharded_blames (hkey : services.NameKeys key) (config : Config) {stmt : Statement}
    {ref : TableRef} (href : ref ∈ stmt.tableRefs) (hsharded : isSharded key db ref.table = true)
    (sql : String) : Blames (planSharded services.noted config stmt db sql) := by
  have hkey' : services.noted.NameKeys key := fun db table s => hkey db table s.1
  have hrefs := ofRef?_related blames_composes (keys_blame services) (routes_blame services)
  cases stmt with
  | select s =>
    refine Blames.bind (routeTables_related blames_composes (keys_blame services)
      (routes_blame services) s db) fun st tables st' htables => ?_
    cases tables with
    | nil => exact absurd rfl (routeTables_ne_nil hkey' htables href hsharded)
    | cons first others =>
      exact blames_composes.bind (colocate_related blames_composes (routes_blame services) first
        others) fun groups => blames_composes.pure _
  | insert i =>
    obtain rfl := List.mem_singleton.mp href
    refine Blames.bind (keys_blame services _ _) fun st named st' hnamed => ?_
    rw [outcome_lift] at hnamed
    have hname : named = key (i.table.schema.getD db) i.table.name :=
      (Except.ok.inj (congrArg Prod.fst hnamed)).symm.trans (hkey' _ _ _)
    rw [isSharded, ← hname] at hsharded
    obtain ⟨k, rfl⟩ := Option.isSome_iff_exists.mp hsharded
    dsimp only
    split
    · exact blames_composes.throw _ rfl
    split
    · exact blames_composes.throw _ rfl
    exact blames_composes.bind (placeAll_related blames_composes (places_blame services) _ _ _ _)
      fun placed => blames_composes.pure _
  | update u =>
    obtain rfl := List.mem_singleton.mp href
    refine Blames.bind (hrefs u.table db u.condition) fun st routed st' hrouted => ?_
    obtain ⟨t, rfl⟩ := Option.isSome_iff_exists.mp ((ofRef?_isSome hkey' hrouted).trans hsharded)
    dsimp only
    split
    · exact blames_composes.throw _ rfl
    · exact blames_composes.pure _
  | delete d =>
    obtain rfl := List.mem_singleton.mp href
    refine Blames.bind (hrefs ⟨d.table, none⟩ db d.condition) fun st routed st' hrouted => ?_
    obtain ⟨t, rfl⟩ := Option.isSome_iff_exists.mp ((ofRef?_isSome hkey' hrouted).trans hsharded)
    exact blames_composes.pure _
  | explain _ => cases href
  | other _ => cases href

theorem planSharded_kind {config : Config} {stmt : Statement} {sql : String} {p : Plan}
    (h : (planSharded services config stmt db sql).outcome st = (.ok p, st'))
    (hrefs : stmt.tableRefs ≠ []) : p.kind = planKind stmt := by
  cases stmt with
  | select s =>
    obtain ⟨_, _, _, _, -, -, rfl⟩ := planSelect_cases h
    rfl
  | insert i =>
    obtain ⟨_, _, _, -, -, rfl⟩ := planInsert_cases h
    rfl
  | update u =>
    obtain ⟨_, -, rfl⟩ := planUpdate_cases h
    rfl
  | delete d =>
    obtain ⟨_, -, rfl⟩ := planDelete_cases h
    rfl
  | explain _ => exact absurd rfl hrefs
  | other _ => exact absurd rfl hrefs

/-- The plan of a statement fits its tables. When none of them is sharded it is passed on as it is, in
one call whose answer is the answer; else the plan is of the kind of the statement, and when there is
none, that is not because a builder finds no sharded table. -/
theorem plan_kind_of_tables {σ : Type} (services : Services σ)
    (key : String → String → Option String) (config : Config) (stmt : Statement) (db sql : String)
    (st : σ) (hkey : services.NameKeys key) (hstmt : ∀ inner, stmt ≠ .explain inner) :
    ((∀ ref ∈ stmt.tableRefs, isSharded key db ref.table = false) →
      ((plan services config stmt db sql).outcome st).1 =
        .ok (.unshard ⟨config.defaultSlice, db, sql⟩) ∧
      ∀ (r : Request) (backend : Call → Reply), r.deadline config = none → r.cancelAfter = none →
        execute config r backend (.unshard ⟨config.defaultSlice, db, sql⟩) =
          ⟨[⟨config.defaultSlice, db, sql⟩], (backend ⟨config.defaultSlice, db, sql⟩).delay,
            (backend ⟨config.defaultSlice, db, sql⟩).result⟩) ∧
    ((∃ ref ∈ stmt.tableRefs, isSharded key db ref.table = true) →
      ∃ (result : Except Error Plan) (st' : σ) (asked : List Exchange),
        (plan services config stmt db sql).outcome st = (result, st') ∧
        (plan services.noted config stmt db sql).outcome (st, []) = (result, st', asked) ∧
        (∀ p, result = .ok p → p.kind = planKind stmt) ∧
        (∀ e, result = .error e → e.deniesSharding = true → ∃ a ∈ asked, a.error? = some e)) := by
  constructor
  · intro hnone
    have hany : (stmt.tableRefs.any fun ref => isSharded key db ref.table) = false :=
      List.any_eq_false.mpr fun ref href => by simp [hnone ref href]
    have hclass : classify services stmt db st = (.passThrough, (classify services stmt db st).2) :=
      Prod.ext (by rw [classify_fst hkey hstmt, hany]; rfl) rfl
    refine ⟨?_, fun r backend hdeadline hcancel =>
      Execution.execute_unshard config hdeadline hcancel backend _⟩
    rw [plan_of_not_explain _ config hstmt]
    unfold planDirect
    rw [outcome_bind, outcome_lift, hclass]
    rfl
  · rintro ⟨ref, href, hsharded⟩
    have hdirect {τ : Type} (others : Services τ) (hothers : others.NameKeys key) (s : τ) :
        (plan others config stmt db sql).outcome s =
          (planSharded others config stmt db sql).outcome (classify others stmt db s).2 := by
      have hany : (stmt.tableRefs.any fun ref => isSharded key db ref.table) = true :=
        List.any_eq_true.mpr ⟨ref, href, hsharded⟩
      rw [plan_of_not_explain _ config hstmt]
      refine planDirect_of_shardAware (Prod.ext ?_ rfl) config sql
      rw [classify_fst hothers hstmt, hany]
      rfl
    obtain ⟨hresult, hstate⟩ := plan_noted_agree services config hstmt db sql (st, []) st rfl
    rcases hnoted : (plan services.noted config stmt db sql).outcome (st, []) with
      ⟨result, st', asked⟩
    rw [hnoted] at hresult hstate
    refine ⟨result, st', asked, Prod.ext hresult.symm hstate.symm, rfl, ?_, ?_⟩
    · rintro p rfl
      rw [hdirect services hkey] at hresult
      exact planSharded_kind (Prod.ext hresult.symm rfl) (List.ne_nil_of_mem href)
    · rintro e rfl hdenies
      rw [hdirect services.noted fun db table s => hkey db table s.1] at hnoted
      exact planSharded_blames hkey config href hsharded sql _ e _ hnoted hdenies

/-- Services that know the orders of each database and can place none of them. -/
def lostOrders : Services Unit where
  shardKey _ table := pure (if table = "orders" then some "id" else none)
  route _ _ _ := throw (.route (.nothingSharded "delete"))
  nextKey _ := throw .cancelled

/-- `DELETE FROM` a table. -/
def deleteAll (table : String) : Statement := .delete ⟨⟨none, table⟩, none, none⟩

/-- Services that know the orders of one database, and where they are. -/
def heldOrders : Services Unit := .ofRules ⟨[ordersById]⟩ fun _ => throw .cancelled

def ordersDeleted : Plan :=
  .delete ⟨[⟨"slice-0", "shop", "DELETE FROM orders_0"⟩, ⟨"slice-0", "shop", "DELETE FROM orders_1"⟩,
    ⟨"slice-0", "shop", "DELETE FROM orders_2"⟩, ⟨"slice-0", "shop", "DELETE FROM orders_3"⟩]⟩

/-- Countries are not sharded. Orders are deleted where they are, and what is said of orders that are
lost has been answered. -/
theorem countries_pass_orders_blame :
    lostOrders.NameKeys (fun _ table => if table = "orders" then some "id" else none) ∧
    (∀ table inner, deleteAll table ≠ .explain inner) ∧
    execute .standard ⟨none, none⟩ (fun _ => ⟨7, .ok .empty⟩)
        (.unshard ⟨"slice-0", "shop", "DELETE FROM countries"⟩) =
      ⟨[⟨"slice-0", "shop", "DELETE FROM countries"⟩], 7, .ok .empty⟩ ∧
    (heldOrders.NameKeys (RuleTable.shardKey ⟨[ordersById]⟩) ∧
      (plan heldOrders .standard (deleteAll "orders") "shop" "").outcome () = (.ok ordersDeleted, ()) ∧
      ordersDeleted.kind = planKind (deleteAll "orders")) ∧
    (plan lostOrders.noted .standard (deleteAll "orders") "shop" "").outcome ((), []) =
      (.error (.route (.nothingSharded "delete")), (), [.shardKey "shop" "orders" (some "id"),
        .shardKey "shop" "orders" (some "id"),
        .route "shop" "orders" .all (.error (.route (.nothingSharded "delete")))]) ∧
    ∃ a ∈ [Exchange.shardKey "shop" "orders" (some "id"), .shardKey "shop" "orders" (some "id"),
        .route "shop" "orders" .all (.error (.route (.nothingSharded "delete")))],
      a.error? = some (.route (.nothingSharded "delete")) := by
  have hkey : lostOrders.NameKeys fun _ table => if table = "orders" then some "id" else none :=
    fun _ _ _ => rfl
  have hstmt (table : String) : ∀ inner, deleteAll table ≠ .explain inner := nofun
  have hcountries := (plan_kind_of_tables lostOrders _ .standard (deleteAll "countries") "shop"
    "DELETE FROM countries" () hkey (hstmt _)).1 (by decide)
  have hnoted : (plan lostOrders.noted .standard (deleteAll "orders") "shop" "").outcome ((), []) =
      (.error (.route (.nothingSharded "delete")), (), [.shardKey "shop" "orders" (some "id"),
        .shardKey "shop" "orders" (some "id"),
        .route "shop" "orders" .all (.error (.route (.nothingSharded "delete")))]) := by
    rfl
  have hdeleted : (plan heldOrders .standard (deleteAll "orders") "shop" "").outcome () =
      (.ok ordersDeleted, ()) := rfl
  have hheld : heldOrders.NameKeys (RuleTable.shardKey ⟨[ordersById]⟩) := fun _ _ _ => rfl
  obtain ⟨planned, st₁, -, hplanned, -, hkind, -⟩ := (plan_kind_of_tables heldOrders _ .standard
    (deleteAll "orders") "shop" "" () hheld (hstmt _)).2 ⟨_, List.mem_cons_self, by decide⟩
  cases hdeleted.symm.trans hplanned
  obtain ⟨result, st', asked, -, hasked, -, hblames⟩ := (plan_kind_of_tables lostOrders _ .standard
    (deleteAll "orders") "shop" "" () hkey (hstmt _)).2 ⟨_, List.mem_cons_self, by decide⟩
  rw [hnoted] at hasked
  cases hasked
  exact ⟨hkey, hstmt, hcountries.2 ⟨none, none⟩ (fun _ => ⟨7, .ok .empty⟩) rfl rfl,
    ⟨hheld, hdeleted, hkind _ rfl⟩, hnoted, hblames _ rfl rfl⟩

end ShardedSql.Planning
