import ShardedSql.Proofs.Planning.Issued
import ShardedSql.Proofs.Planning.Referents
import ShardedSql.Sql.Statement.Parse

namespace ShardedSql

namespace Sql

/-- The database and the table that a name means on a connection to a database. -/
def TableName.onConnection (t : TableName) (db : String) : String × String :=
  (t.schema.getD db, t.name)

/-- A name keeps its meaning on another connection if it has a schema of its own. -/
theorem TableName.onConnection_eq_iff (t : TableName) (db db' : String) :
    t.onConnection db' = t.onConnection db ↔ t.schema.isSome ∨ db' = db := by
  unfold onConnection
  cases t.schema with
  | none => simp
  | some schema => simp

end Sql

namespace Planning

open Routing (Rule RuleTable)
open Sql (Select Statement TableRef)

/-- What has become of a table reference in a call for the shards of an index. One to a sharded table
means the shard on the connection of the call. Another one is left as it was, so that it keeps its
meaning if it has a schema or the call goes to the database of the client. -/
structure LocatedOn (rules : RuleTable) (db : String) (k : Nat) (c : Call) (t t' : TableRef) :
    Prop where
  aliasName : t'.aliasName = t.aliasName
  sharded : ∀ r, ruleOf? rules db t = some r → r.HasShard k ∧
    (r.shard (t.table.schema.getD db) k).slice = c.slice ∧
    (r.shard (t.table.schema.getD db) k).db = c.db ∧
    t'.table.onConnection c.db = ((r.shard (t.table.schema.getD db) k).db,
      (r.shard (t.table.schema.getD db) k).table)
  unsharded : ruleOf? rules db t = none → t' = t ∧
    (t'.table.onConnection c.db = t.table.onConnection db ↔ t.table.schema.isSome ∨ c.db = db)

variable {rules : RuleTable} {db : String} {k : Nat} {stmt phys : Statement} {c : Call}
  {t : TableRef}

/-- The name that stands for a sharded table means its shard, with a schema and without. -/
theorem OnShards.onConnection_tableRef (h : OnShards rules db k stmt c phys) (ht : t ∈ stmt.tableRefs)
    {r : Rule} (hr : ruleOf? rules db t = some r) :
    ((refsRenamer rules db k stmt.tableRefs).tableRef t).table.onConnection c.db =
      (c.db, (r.shard (t.table.schema.getD db) k).table) := by
  obtain ⟨p, hp, hrule, hfind⟩ := find?_of_rule (k := k) ht hr
  have hdb : (p.rename db k).physicalDb = c.db := (h.lies p hp).2.1
  have htable : (p.rename db k).physicalTable = (r.shard (t.table.schema.getD db) k).table := by
    rw [← hrule]
    rfl
  have hname : ((refsRenamer rules db k stmt.tableRefs).tableRef t).table =
      ⟨t.table.schema.map fun _ => c.db, (r.shard (t.table.schema.getD db) k).table⟩ := by
    rw [Renamer.tableRef, Renamer.tableName, hfind]
    dsimp only
    rw [hdb, htable]
  rw [hname, Sql.TableName.onConnection]
  cases t.table.schema <;> rfl

theorem OnShards.locatedOn (h : OnShards rules db k stmt c phys) (ht : t ∈ stmt.tableRefs) :
    LocatedOn rules db k c t ((refsRenamer rules db k stmt.tableRefs).tableRef t) where
  aliasName := rfl
  sharded r hr := by
    have hself : (⟨t, r⟩ : RuledRef) ∈ ruledRefs rules db stmt.tableRefs := mem_ruledRefs.mpr ⟨ht, hr⟩
    obtain ⟨hslice, hdb, hshard⟩ := h.lies _ hself
    change (r.shard (t.table.schema.getD db) k).db = c.db at hdb
    refine ⟨hshard, hslice, hdb, ?_⟩
    rw [hdb]
    exact h.onConnection_tableRef ht hr
  unsharded hr := by
    rw [tableRef_of_unsharded hr]
    exact ⟨rfl, t.table.onConnection_eq_iff db c.db⟩

/-- What the table references of a SELECT mean on the connections of its calls. A sharded table is
the shard there. Another one is the table of the client only under its schema or in the database of
the client. -/
theorem tables_located_on_connection {σ : Type} (rules : RuleTable)
    (nextKey : String → Planner σ Int64) (config : Config) (s : Select) (db sql : String)
    (st st' : σ) (p : Plan)
    (hclass : (classify (.ofRules rules nextKey) (.select s) db st).1 = .shardAware)
    (h : (plan (.ofRules rules nextKey) config (.select s) db sql).outcome st = (.ok p, st')) :
    ∀ c ∈ p.routing.calls, ∃ (k : Nat) (phys : Select),
      Issued db (.select s) c (.select phys) ∧ c.sql = phys.sql ∧
      List.Forall₂ (LocatedOn rules db k c) s.tableRefs phys.tableRefs := by
  intro c hc
  obtain ⟨k, phys, hphys⟩ := onShards_of_plan hclass h c hc
  have hlocated : List.Forall₂ (LocatedOn rules db k c) s.tableRefs phys.tableRefs := by
    rw [hphys.tableRefs]
    apply List.forall₂_map_right_iff.mpr
    apply List.forall₂_same.mpr
    intro t ht
    exact hphys.locatedOn ht
  have hissued := hphys.issued
  cases hissued with
  | select _ shards tables g => exact ⟨k, _, hphys.issued, rfl, hlocated⟩

/-- Two shards of `orders`, each in a database of its own. -/
def ordersApart : Rule := { Rule.new "shop" "orders" "id" 2 with databases := ["shop_0", "shop_1"] }

def ordersApartCall : Call := ⟨"slice-0", "shop_1",
  "SELECT orders_1.x FROM orders_1 JOIN users ON orders_1.uid = users.id WHERE orders_1.id = 3"⟩

def ordersApartPlan : Plan := .select ⟨[ordersApartCall]⟩ ⟨[], none, [("orders_1", "orders")]⟩

theorem plan_ordersApart :
    (plan (.ofRules ⟨[ordersApart]⟩ noKeys) .standard (.select ordersOfUsers) "shop"
      ordersOfUsers.sql).outcome () = (.ok ordersApartPlan, ()) := by decide +kernel

theorem orders_located_apart :
    (classify (.ofRules ⟨[ordersApart]⟩ noKeys) (.select ordersOfUsers) "shop" ()).1 =
      .shardAware ∧
    ∃ phys : Select, ordersApartCall.sql = phys.sql ∧
      phys.tableRefs.map (·.table.onConnection ordersApartCall.db) =
        [("shop_1", "orders_1"), ("shop_1", "users")] := by
  have hclass : (classify (.ofRules ⟨[ordersApart]⟩ noKeys) (.select ordersOfUsers) "shop" ()).1 =
      .shardAware := rfl
  have hcalls := tables_located_on_connection ⟨[ordersApart]⟩ noKeys .standard ordersOfUsers "shop"
    ordersOfUsers.sql () () ordersApartPlan hclass plan_ordersApart
  obtain ⟨k, phys, -, hsql, hlocated⟩ := hcalls ordersApartCall (List.mem_singleton_self _)
  refine ⟨hclass, phys, hsql, ?_⟩
  have hrefs : ordersOfUsers.tableRefs = [⟨⟨none, "orders"⟩, none⟩, ⟨⟨none, "users"⟩, none⟩] := rfl
  rw [hrefs] at hlocated
  obtain ⟨orders, rest, horders, hrest, hphys⟩ := List.forall₂_cons_left_iff.mp hlocated
  obtain ⟨users, others, husers, hothers, rfl⟩ := List.forall₂_cons_left_iff.mp hrest
  obtain rfl := List.forall₂_nil_left_iff.mp hothers
  obtain ⟨hshard, -, hdb, hmeans⟩ := horders.sharded ordersApart rfl
  obtain ⟨rfl, -⟩ := husers.unsharded rfl
  have hk : k < 2 := hshard (by decide)
  obtain rfl : k = 1 := by
    have hne : k ≠ 0 := by
      rintro rfl
      exact absurd hdb (by decide +kernel)
    omega
  rw [hphys, List.map_cons, List.map_singleton, hmeans]
  rfl

def ordersApartOnShard : Select :=
  { ordersOfUsers with
    items := [.expr (.column ⟨some "orders_1", "x"⟩) none]
    sources := [⟨⟨none, "orders_1"⟩, none⟩]
    joins := [⟨.inner, ⟨⟨none, "users"⟩, none⟩,
      some (.binary (.column ⟨some "orders_1", "uid"⟩) .equal (.column ⟨some "users", "id"⟩))⟩]
    condition := some (.binary (.column ⟨some "orders_1", "id"⟩) .equal (.literal (.integer 3))) }

/-- The `users` of the client are in the database `shop`, and the call for shard 1 looks for them in
`shop_1`. -/
theorem users_located_elsewhere :
    (plan (.ofRules ⟨[ordersApart]⟩ noKeys) .standard (.select ordersOfUsers) "shop"
      ordersOfUsers.sql).outcome () = (.ok ordersApartPlan, ()) ∧
    ordersApartPlan.routing.calls = [ordersApartCall] ∧
    Statement.ofString? ordersApartCall.sql = .ok (.select ordersApartOnShard) ∧
    ordersOfUsers.tableRefs.map (ruleOf? ⟨[ordersApart]⟩ "shop") = [some ordersApart, none] ∧
    ordersOfUsers.tableRefs.map (·.table.onConnection "shop") =
      [("shop", "orders"), ("shop", "users")] ∧
    ordersApartOnShard.tableRefs.map (·.table.onConnection ordersApartCall.db) =
      [("shop_1", "orders_1"), ("shop_1", "users")] :=
  ⟨plan_ordersApart, rfl, by decide +kernel, rfl, rfl, rfl⟩

end Planning

end ShardedSql
