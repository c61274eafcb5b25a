import ShardedSql.Proofs.Planning.Agreement
import ShardedSql.Proofs.Planning.OneTable
import ShardedSql.Proofs.Planning.RelatedSteps

namespace ShardedSql.Planning

open Routing (KeyHint Shard)
open Sql (Expr Statement)

/-- A question of planning to its services, with the answer. -/
inductive Exchange where
  | shardKey (db table : String) (answer : Option String)
  | route (db table : String) (hint : KeyHint) (answer : Except Error (List Shard))
  | nextKey (scope : String) (answer : Except Error Int64)
  deriving DecidableEq

namespace Exchange

/-- The error that a router or a sequence answers with. -/
def error? : Exchange → Option Error
  | .route _ _ _ (.error e) | .nextKey _ (.error e) => some e
  | _ => none

end Exchange

section

open Planner

variable {σ : Type} {services : Services σ} {t : ShardedTable} {condition : Option Expr} {st st' : σ}

/-- What a router answers for a table reference stands, unless it refuses to place pinned values. -/
theorem outcome_route_of_placed {answer : Except Error (List Shard)}
    (h : (services.route t.db t.name (t.hint condition)).outcome st = (answer, st'))
    (hplaced : ∀ v, answer = .error (.invalidValue v) → t.hint condition = .all) :
    (t.route services condition).outcome st = (answer, st') := by
  unfold ShardedTable.route
  rw [outcome_tryCatch, h]
  cases answer with
  | ok shards => rfl
  | error e =>
    cases e with
    | invalidValue v =>
      dsimp only
      rw [if_pos (hplaced v rfl)]
      rfl
    | _ => rfl

/-- Where a router refuses to place the pinned values, it is asked for all shards. -/
theorem outcome_route_of_unplaced {v : ValueError}
    (h : (services.route t.db t.name (t.hint condition)).outcome st = (.error (.invalidValue v), st'))
    (hhint : t.hint condition ≠ .all) :
    (t.route services condition).outcome st = (services.route t.db t.name .all).outcome st' := by
  unfold ShardedTable.route
  rw [outcome_tryCatch, h]
  dsimp only
  rw [if_neg hhint]

end

namespace Planner

variable {σ τ α : Type} {R : σ → τ → Prop}

theorem Agree.tryCatch {x : Planner σ α} {y : Planner τ α} {f : Error → Planner σ α}
    {g : Error → Planner τ α} (hx : Agree R x y) (hf : ∀ e, Agree R (f e) (g e)) :
    Agree R (MonadExcept.tryCatch x f) (MonadExcept.tryCatch y g) := by
  intro s t h
  obtain ⟨answer, s', t', hs, ht, hstate⟩ := hx.outcome h
  rw [outcome_tryCatch, outcome_tryCatch, hs, ht]
  cases answer with
  | error e => exact hf e s' t' hstate
  | ok a => exact ⟨rfl, hstate⟩

theorem agree_route {S : Services σ} {T : Services τ}
    (h : ∀ db table hint, Agree R (S.route db table hint) (T.route db table hint))
    (t : ShardedTable) (condition : Option Expr) :
    Agree R (t.route S condition) (t.route T condition) := by
  refine (h t.db t.name (t.hint condition)).tryCatch fun e => ?_
  cases e with
  | invalidValue v =>
    dsimp only
    split
    · exact agree_throw _
    · exact h t.db t.name .all
  | _ => exact agree_throw _

/-- A step that notes down what it was asked and answers. -/
def note (x : Planner σ α) (exchange : Except Error α → Exchange) :
    Planner (σ × List Exchange) α :=
  ExceptT.mk fun s => ((x.outcome s.1).1, (x.outcome s.1).2, s.2 ++ [exchange (x.outcome s.1).1])

end Planner

namespace Services

variable {σ : Type}

/-- Services that note down all exchanges. -/
def noted (services : Services σ) : Services (σ × List Exchange) where
  shardKey db table := fun s =>
    ((services.shardKey db table s.1).1, (services.shardKey db table s.1).2,
      s.2 ++ [.shardKey db table (services.shardKey db table s.1).1])
  route db table hint := (services.route db table hint).note (.route db table hint)
  nextKey scope := (services.nextKey scope).note (.nextKey scope)

variable (services : Services σ) (db table : String) (hint : KeyHint) (st : σ)
  (asked : List Exchange)

@[simp] theorem outcome_noted_route : (services.noted.route db table hint).outcome (st, asked) =
    (((services.route db table hint).outcome st).1, ((services.route db table hint).outcome st).2,
      asked ++ [.route db table hint ((services.route db table hint).outcome st).1]) := rfl

end Services

open Planner

/-- Noting down the exchanges changes nothing. -/
theorem plan_noted_agree {σ : Type} (services : Services σ) (config : Config) {stmt : Statement}
    (hstmt : ∀ inner, stmt ≠ .explain inner) (db sql : String) :
    Agree (fun (s : σ × List Exchange) st => s.1 = st) (plan services.noted config stmt db sql)
      (plan services config stmt db sql) := by
  have hroute (db table : String) (hint : KeyHint) :
      Agree (fun (s : σ × List Exchange) st => s.1 = st) (services.noted.route db table hint)
        (services.route db table hint) := by
    rintro s st rfl
    exact ⟨rfl, rfl⟩
  have hcomposes : Composes fun _ => Agree fun (s : σ × List Exchange) st => s.1 = st :=
    ⟨fun result _ => agree_liftExcept result, fun hx hf => hx.bind hf⟩
  rw [plan_of_not_explain _ config hstmt, plan_of_not_explain _ config hstmt]
  refine planDirect_related hcomposes ?_ (fun _ => agree_throw) stmt (fun _ => ?_) (fun _ _ => ?_)
    config db sql
  · rintro db table s st rfl
    exact ⟨rfl, rfl⟩
  · exact ⟨agree_route hroute, fun db table => hroute db table .all⟩
  · refine ⟨fun db table v => hroute db table _, fun scope => ?_⟩
    rintro s st rfl
    exact ⟨rfl, rfl⟩

end ShardedSql.Planning
