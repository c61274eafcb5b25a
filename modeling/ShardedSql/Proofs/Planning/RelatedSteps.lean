import ShardedSql.Planning.Statement
import ShardedSql.Proofs.Planning.AlignedShards
import ShardedSql.Proofs.Planning.Steps

namespace ShardedSql

/-- Whether an error says that a statement or its table has nothing sharded about it. -/
def Error.deniesSharding : Error → Bool
  | .route (.nothingSharded _) | .route (.notSharded _ _) => true
  | _ => false

namespace Planning

open Sql (Delete Expr Insert Select Statement TableName TableRef Update)

variable {σ τ : Type}

/-- That a relation between steps of two plannings holds for steps that ask nothing, as long as they
do not deny sharding, and is kept when steps follow each other. -/
structure Composes (R : ∀ α : Type, Planner σ α → Planner τ α → Prop) : Prop where
  still {α : Type} (result : Except Error α)
    (h : ∀ e, result = .error e → e.deniesSharding = false) :
    R α (liftExcept result) (liftExcept result)
  bind {α β : Type} {x : Planner σ α} {y : Planner τ α} {f : α → Planner σ β} {g : α → Planner τ β}
    (hx : R α x y) (hf : ∀ a, R β (f a) (g a)) : R β (x >>= f) (y >>= g)

variable {R : ∀ α : Type, Planner σ α → Planner τ α → Prop}

namespace Composes

variable (hR : Composes R)
include hR

theorem pure {α : Type} (a : α) : R α (Pure.pure a) (Pure.pure a) := hR.still (.ok a) nofun

theorem throw {α : Type} (e : Error) (h : e.deniesSharding = false) :
    R α (MonadExcept.throw e) (MonadExcept.throw e) :=
  hR.still (.error e) fun _ he => Except.error.inj he ▸ h

theorem mapM {α β : Type} {f : α → Planner σ β} {g : α → Planner τ β} (h : ∀ a, R β (f a) (g a))
    (as : List α) : R (List β) (as.mapM f) (as.mapM g) := by
  induction as with
  | nil => exact hR.pure []
  | cons a as ih =>
    rw [List.mapM_cons, List.mapM_cons]
    exact hR.bind (h a) fun b => hR.bind ih fun bs => hR.pure (b :: bs)

end Composes

/-- That the shards of table references are asked for alike. -/
structure RoutesAlike (R : ∀ α : Type, Planner σ α → Planner τ α → Prop) (S : Services σ)
    (T : Services τ) : Prop where
  route (t : ShardedTable) (condition : Option Expr) :
    R _ (t.route S condition) (t.route T condition)
  routeAll (db table : String) : R _ (S.route db table .all) (T.route db table .all)

/-- That the rows of an INSERT are given their keys and shards alike. -/
structure PlacesAlike (R : ∀ α : Type, Planner σ α → Planner τ α → Prop) (S : Services σ)
    (T : Services τ) : Prop where
  routeKey (db table : String) (v : Routing.KeyValue) :
    R _ (S.route db table (.values [v])) (T.route db table (.values [v]))
  nextKey (scope : String) : R _ (S.nextKey scope) (T.nextKey scope)

variable {S : Services σ} {T : Services τ}

/-- That two services name shard keys alike. -/
def KeysAlike (R : ∀ α : Type, Planner σ α → Planner τ α → Prop) (S : Services σ) (T : Services τ) :
    Prop :=
  ∀ db table, R _ (liftM (S.shardKey db table)) (liftM (T.shardKey db table))

section

variable (hR : Composes R) (hkeys : KeysAlike R S T)
include hR hkeys

theorem anyM_related (db : String) (tables : List TableName) :
    R _ (liftM (tables.anyM (isShardedTable S db))) (liftM (tables.anyM (isShardedTable T db))) := by
  have hsharded (t : TableName) :
      R _ (liftM (isShardedTable S db t)) (liftM (isShardedTable T db t)) := by
    unfold isShardedTable
    rw [liftM_bind, liftM_bind]
    exact hR.bind (hkeys (t.schema.getD db) t.name) fun key => hR.pure key.isSome
  induction tables with
  | nil => exact hR.pure false
  | cons t tables ih =>
    rw [List.anyM, List.anyM, liftM_bind, liftM_bind]
    refine hR.bind (hsharded t) fun sharded => ?_
    cases sharded with
    | true => exact hR.pure true
    | false => exact ih

theorem classify_related (stmt : Statement) (db : String) :
    R _ (liftM (classify S stmt db)) (liftM (classify T stmt db)) := by
  have hany : R StatementClass
      (liftM ((referencedTables stmt).anyM (isShardedTable S db) >>= fun sharded =>
        if sharded then pure .shardAware else pure .passThrough))
      (liftM ((referencedTables stmt).anyM (isShardedTable T db) >>= fun sharded =>
        if sharded then pure .shardAware else pure .passThrough)) := by
    rw [liftM_bind, liftM_bind]
    refine hR.bind (anyM_related hR hkeys db _) fun sharded => ?_
    cases sharded with
    | true => exact hR.pure StatementClass.shardAware
    | false => exact hR.pure StatementClass.passThrough
  cases stmt with
  | explain inner => exact hR.pure StatementClass.explain
  | select _ | insert _ | update _ | delete _ | other _ => exact hany

end

section

variable (hR : Composes R) (hkeys : KeysAlike R S T) (hroutes : RoutesAlike R S T)
include hR hkeys hroutes

theorem ofRef?_related (ref : TableRef) (db : String) (condition : Option Expr) :
    R _ (RoutedTable.ofRef? S ref db condition) (RoutedTable.ofRef? T ref db condition) := by
  refine hR.bind (hkeys (ref.table.schema.getD db) ref.table.name) fun key => ?_
  cases key with
  | none => exact hR.pure none
  | some key => exact hR.bind (hroutes.route _ condition) fun shards => hR.pure _

theorem routeTables_related (s : Select) (db : String) :
    R _ (routeTables S s db) (routeTables T s db) :=
  hR.bind (hR.mapM (fun ref => ofRef?_related hR hkeys hroutes ref db s.condition) s.tableRefs)
    fun routed => hR.pure (routed.filterMap id)

end

theorem deniesSharding_of_at? {first : RoutedTable} {tables : List RoutedTable} {k : Nat} {e : Error}
    (h : ShardGroup.at? first tables k = .error e) : e.deniesSharding = false := by
  rcases at?_cases first tables k with ⟨g, hg, -⟩ | ⟨t, -, -, herror⟩ | ⟨s, s', -, herror⟩
  · rw [hg] at h
    cases h
  · rw [herror] at h
    cases h
    rfl
  · rw [herror] at h
    cases h
    rfl

section

variable (hR : Composes R) (hroutes : RoutesAlike R S T)
include hR hroutes

/-- Shards are not put together for lying apart or for not being there, never for a table that is
not sharded. -/
theorem colocate_related (first : RoutedTable) (others : List RoutedTable) :
    R _ (colocate S first others) (colocate T first others) := by
  unfold colocate
  split
  · split
    · exact hR.throw _ rfl
    · next s _ _ =>
      have hall : R _ (withAllShards S (first :: others)) (withAllShards T (first :: others)) :=
        hR.mapM (fun t : RoutedTable => hR.bind (hroutes.routeAll t.table.db t.table.name)
          fun shards => hR.pure { t with shards := shards }) _
      refine hR.bind hall fun tables => ?_
      exact hR.bind (hR.still _ fun e he => deniesSharding_of_at? he) fun g => hR.pure [g]
  · refine hR.still _ fun e he => ?_
    rcases mapM_cases (ShardGroup.at? first (first :: others)) (commonIndexes first others) with
      ⟨groups, hgroups, -⟩ | ⟨k, -, e', he', herror⟩
    · rw [hgroups] at he
      cases he
    · rw [herror] at he
      cases he
      exact deniesSharding_of_at? he'

end

section

variable (hR : Composes R) (hplaces : PlacesAlike R S T) (t : InsertTarget)
include hR hplaces

theorem fill_related (row : List Expr) : R _ (t.fill S row) (t.fill T row) := by
  unfold InsertTarget.fill
  dsimp only
  split
  · exact hR.bind (hplaces.nextKey _) fun id => hR.pure _
  · split
    · exact hR.pure _
    · exact hR.throw _ rfl

theorem place_related (width : Nat) (row : List Expr) (number : Nat) :
    R _ (t.place S width row number) (t.place T width row number) := by
  unfold InsertTarget.place
  dsimp only
  split
  · exact hR.throw _ rfl
  · refine hR.bind (fill_related hR hplaces t row) fun filled => ?_
    refine hR.bind (hplaces.routeKey t.db t.table filled.key) fun shards => ?_
    cases shards with
    | nil => exact hR.throw _ rfl
    | cons shard others => exact hR.pure _

theorem placeAll_related (width : Nat) (rows : List (List Expr)) (number : Nat) :
    R _ (t.placeAll S width rows number) (t.placeAll T width rows number) := by
  induction rows generalizing number with
  | nil => exact hR.pure []
  | cons row rows ih =>
    exact hR.bind (place_related hR hplaces t width row number) fun placed =>
      hR.bind (ih (number + 1)) fun others => hR.pure (placed :: others)

end

section

variable (hR : Composes R) (hkeys : KeysAlike R S T)
  (hdenied : ∀ (α : Type) (e : Error), R α (throw e) (throw e))
include hR hkeys hdenied

theorem planSelect_related (hroutes : RoutesAlike R S T) (s : Select) (db : String) :
    R _ (planSelect S s db) (planSelect T s db) := by
  refine hR.bind (routeTables_related hR hkeys hroutes s db) fun tables => ?_
  cases tables with
  | nil => exact hdenied _ _
  | cons first others =>
    exact hR.bind (colocate_related hR hroutes first others) fun groups => hR.pure _

theorem planUpdate_related (hroutes : RoutesAlike R S T) (u : Update) (db : String) :
    R _ (planUpdate S u db) (planUpdate T u db) := by
  refine hR.bind (ofRef?_related hR hkeys hroutes u.table db u.condition) fun routed => ?_
  cases routed with
  | none => exact hdenied _ _
  | some t =>
    dsimp only
    split
    · exact hR.throw _ rfl
    · exact hR.pure _

theorem planDelete_related (hroutes : RoutesAlike R S T) (d : Delete) (db : String) :
    R _ (planDelete S d db) (planDelete T d db) := by
  refine hR.bind (ofRef?_related hR hkeys hroutes ⟨d.table, none⟩ db d.condition) fun routed => ?_
  cases routed with
  | none => exact hdenied _ _
  | some t => exact hR.pure _

theorem planInsert_related (hplaces : PlacesAlike R S T) (i : Insert) (db : String) :
    R _ (planInsert S i db) (planInsert T i db) := by
  unfold planInsert
  refine hR.bind (hkeys (i.table.schema.getD db) i.table.name) fun key => ?_
  cases key with
  | none => exact hdenied _ _
  | some key =>
    dsimp only
    split
    · exact hR.throw _ rfl
    split
    · exact hR.throw _ rfl
    exact hR.bind (placeAll_related hR hplaces _ _ _ _) fun placed => hR.pure _

/-- The plans of a statement that is not an EXPLAIN are made alike by services that answer alike. -/
theorem planDirect_related (stmt : Statement)
    (hroutes : (∀ i, stmt ≠ .insert i) → RoutesAlike R S T)
    (hplaces : ∀ i, stmt = .insert i → PlacesAlike R S T) (config : Config) (db sql : String) :
    R _ (planDirect S config stmt db sql) (planDirect T config stmt db sql) := by
  refine hR.bind (classify_related hR hkeys stmt db) fun c => ?_
  cases c with
  | explain | passThrough => cases stmt <;> exact hR.pure _
  | shardAware =>
    cases stmt with
    | select s => exact planSelect_related hR hkeys hdenied (hroutes nofun) s db
    | insert i => exact planInsert_related hR hkeys hdenied (hplaces i rfl) i db
    | update u => exact planUpdate_related hR hkeys hdenied (hroutes nofun) u db
    | delete d => exact planDelete_related hR hkeys hdenied (hroutes nofun) d db
    | explain _ | other _ => exact hR.pure _

end

end Planning

end ShardedSql
