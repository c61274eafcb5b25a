import ShardedSql.Proofs.Planning.Exchanges

namespace ShardedSql.Planning

open Routing (KeyHint Shard)
open Sql (Expr Statement)

namespace Exchange

/-- Whether a router refuses to place pinned key values. -/
def isUnplaced : Exchange → Bool
  | .route _ _ (.values _) (.error (.invalidValue _)) => true
  | _ => false

/-- Whether one question is for all shards of the table of another. -/
def Widens : Exchange → Exchange → Prop
  | .route db table .all _, .route db' table' _ _ => db = db' ∧ table = table'
  | _, _ => False

/-- A refusal to place pinned values and the shards that are answered after it, as one exchange: the
router answers with those shards for the pinned values. -/
def settle? : Exchange → Exchange → Option Exchange
  | .route db table (.values vs) (.error (.invalidValue _)), .route _ _ .all (.ok shards) =>
    some (.route db table (.values vs) (.ok shards))
  | _, _ => none

/-- The exchanges with a router that would not have refused what it refused to place. -/
def settled : List Exchange → List Exchange
  | a :: b :: asked =>
    match a.settle? b with
    | some c => c :: settled asked
    | none => a :: settled (b :: asked)
  | asked => asked

theorem settled_cons_of_placed {a : Exchange} (h : a.error? = none) (asked : List Exchange) :
    settled (a :: asked) = a :: settled asked := by
  cases asked with
  | nil => rfl
  | cons b asked =>
    have hnone : a.settle? b = none := by
      rcases a with ⟨⟩ | ⟨_, _, hint, _ | _⟩ | ⟨⟩
      · rfl
      · cases h
      · cases hint <;> rfl
      · rfl
    rw [settled, hnone]

theorem hint_of_isUnplaced {db table : String} {hint : KeyHint} {answer : Except Error (List Shard)}
    (h : (route db table hint answer).isUnplaced = true) :
    hint ≠ .all ∧ ∃ v, answer = .error (.invalidValue v) := by
  unfold isUnplaced at h
  split at h
  · next heq =>
    cases heq
    exact ⟨nofun, _, rfl⟩
  · cases h

end Exchange

namespace Services

/-- Services that answer from a script of exchanges, as long as its questions are asked in turn. -/
def scripted : Services (List Exchange) where
  shardKey db table := fun script =>
    match script with
    | .shardKey db' table' answer :: rest =>
      if db' = db ∧ table' = table then (answer, rest) else (none, script)
    | _ => (none, script)
  route db table hint := ExceptT.mk fun script =>
    match script with
    | .route db' table' hint' answer :: rest =>
      if db' = db ∧ table' = table ∧ hint' = hint then (answer, rest) else (.error .cancelled, script)
    | _ => (.error .cancelled, script)
  nextKey scope := ExceptT.mk fun script =>
    match script with
    | .nextKey scope' answer :: rest =>
      if scope' = scope then (answer, rest) else (.error .cancelled, script)
    | _ => (.error .cancelled, script)

variable (db table scope : String) (hint : KeyHint) (script : List Exchange)

@[simp] theorem outcome_scripted_route (answer : Except Error (List Shard)) :
    (scripted.route db table hint).outcome (.route db table hint answer :: script) =
      (answer, script) := by
  change (if _ then _ else _) = _
  rw [if_pos ⟨rfl, rfl, rfl⟩]

@[simp] theorem outcome_scripted_nextKey (answer : Except Error Int64) :
    (scripted.nextKey scope).outcome (.nextKey scope answer :: script) = (answer, script) := by
  change (if _ then _ else _) = _
  rw [if_pos rfl]

end Services

namespace Planner

variable {σ α β : Type}

/-- Whether the exchanges of a step fit what it comes to. An error ends the step, unless it refuses
pinned values outside an INSERT: after such a one all shards are asked for. -/
inductive Proceeds (inserting : Prop) : List Exchange → Except Error α → Prop
  | still (result : Except Error α) : Proceeds inserting [] result
  | answered {a : Exchange} {asked : List Exchange} {result : Except Error α}
      (h : a.error? = none) (rest : Proceeds inserting asked result) :
      Proceeds inserting (a :: asked) result
  | failed {a : Exchange} {e : Error} (h : a.error? = some e)
      (hinsert : a.isUnplaced = true → inserting) : Proceeds inserting [a] (.error e)
  | widened {db table : String} {vs : List Routing.KeyValue} {v : ValueError}
      {answer : Except Error (List Shard)} {asked : List Exchange} {result : Except Error α}
      (h : ¬inserting) (rest : Proceeds inserting (.route db table .all answer :: asked) result) :
      Proceeds inserting (.route db table (.values vs) (.error (.invalidValue v)) ::
        .route db table .all answer :: asked) result

namespace Proceeds

variable {inserting : Prop} {asked asked' : List Exchange}

/-- A step that succeeds may be followed by another one. -/
theorem append {a : α} {result : Except Error β}
    (h : Proceeds inserting asked (.ok a : Except Error α)) (h' : Proceeds inserting asked' result) :
    Proceeds inserting (asked ++ asked') result := by
  generalize hr : (Except.ok a : Except Error α) = r at h
  induction h with
  | still => exact h'
  | answered h _ ih => exact .answered h (ih hr)
  | failed => cases hr
  | widened h _ ih => exact .widened h (ih hr)

/-- A step that fails does so in whatever it is a part of. -/
theorem of_error {e : Error} (h : Proceeds inserting asked (.error e : Except Error α)) :
    Proceeds inserting asked (.error e : Except Error β) := by
  generalize hr : (Except.error e : Except Error α) = r at h
  induction h with
  | still => exact .still _
  | answered h _ ih => exact .answered h (ih hr)
  | failed h hinsert =>
    cases hr
    exact .failed h hinsert
  | widened h _ ih => exact .widened h (ih hr)

/-- What a step that succeeds was asked is settled apart from what is asked after it. -/
theorem settled_append {a : α} (h : Proceeds inserting asked (.ok a : Except Error α))
    (asked' : List Exchange) :
    Exchange.settled (asked ++ asked') = Exchange.settled asked ++ Exchange.settled asked' := by
  generalize hr : (Except.ok a : Except Error α) = r at h
  induction h with
  | still => rfl
  | answered h _ ih =>
    rw [List.cons_append, Exchange.settled_cons_of_placed h, Exchange.settled_cons_of_placed h,
      ih hr, List.cons_append]
  | failed => cases hr
  | @widened db table vs v answer asked result _ rest ih =>
    cases answer with
    | ok shards =>
      have hrest := ih hr
      rw [List.cons_append, Exchange.settled_cons_of_placed rfl,
        Exchange.settled_cons_of_placed rfl, List.cons_append] at hrest
      exact congrArg (_ :: ·) (List.cons.inj hrest).2
    | error e =>
      cases rest with
      | answered h => cases h
      | failed => cases hr

/-- Where an error stands among the exchanges of a step, and what follows it. -/
theorem error_cases {result : Except Error α} (h : Proceeds inserting asked result) {i : Nat}
    {a : Exchange} {e : Error} (ha : asked[i]? = some a) (he : a.error? = some e) :
    (a.isUnplaced = true → ¬inserting → ∃ b, asked[i + 1]? = some b ∧ b.Widens a) ∧
      (a.isUnplaced = false ∨ inserting → i + 1 = asked.length ∧ result = .error e) := by
  induction h generalizing i with
  | still => cases ha
  | answered h _ ih =>
    cases i with
    | zero =>
      cases ha
      rw [h] at he
      cases he
    | succ i => simpa using ih ha
  | failed h hinsert =>
    cases i with
    | zero =>
      cases ha
      rw [h] at he
      cases he
      exact ⟨fun hunplaced hnot => absurd (hinsert hunplaced) hnot, fun _ => ⟨rfl, rfl⟩⟩
    | succ i => cases ha
  | widened h _ ih =>
    cases i with
    | zero =>
      cases ha
      refine ⟨fun _ _ => ⟨_, rfl, rfl, rfl⟩, ?_⟩
      rintro (⟨⟨⟩⟩ | hinsert)
      exact absurd hinsert h
    | succ i => simpa using ih ha

end Proceeds

/-- That a step proceeds from answer to answer, and comes to the same when the answers, settled, are
read from a script. -/
def Follows (inserting : Prop) (α : Type) (x : Planner (σ × List Exchange) α)
    (y : Planner (List Exchange) α) : Prop :=
  ∀ st asked, ∃ result st' new, x.outcome (st, asked) = (result, st', asked ++ new) ∧
    Proceeds inserting new result ∧
      ∀ script, y.outcome (Exchange.settled new ++ script) = (result, script)

theorem follows_composes (inserting : Prop) : Composes (Follows (σ := σ) inserting) where
  still result _ := fun st asked => ⟨result, st, [], by simp, .still result, fun _ => rfl⟩
  bind {α β x y f g} hx hf := by
    intro st asked
    obtain ⟨result, st₁, new, hout, hproceeds, hscript⟩ := hx st asked
    cases result with
    | error e =>
      refine ⟨.error e, st₁, new, ?_, hproceeds.of_error, fun script => ?_⟩
      · rw [outcome_bind, hout]
      · rw [outcome_bind, hscript]
    | ok a =>
      obtain ⟨result, st₂, new', hout', hproceeds', hscript'⟩ := hf a st₁ (asked ++ new)
      refine ⟨result, st₂, new ++ new', ?_, hproceeds.append hproceeds', fun script => ?_⟩
      · rw [outcome_bind_of_ok hout, hout', List.append_assoc]
      · rw [hproceeds.settled_append, List.append_assoc, outcome_bind_of_ok (hscript _), hscript']

theorem follows_note {inserting : Prop} {α : Type} {x : Planner σ α} {y : Planner (List Exchange) α}
    {exchange : Except Error α → Exchange}
    (hexchange : ∀ result, (exchange result).error? = match result with
      | .ok _ => none
      | .error e => some e)
    (hinsert : ∀ result, (exchange result).isUnplaced = true → inserting)
    (hy : ∀ result script, y.outcome (exchange result :: script) = (result, script)) :
    Follows inserting α (x.note exchange) y := by
  intro st asked
  refine ⟨(x.outcome st).1, (x.outcome st).2, [exchange (x.outcome st).1], rfl, ?_, fun script => ?_⟩
  · have herror := hexchange (x.outcome st).1
    generalize (x.outcome st).1 = result at herror
    cases result with
    | ok a => exact .answered herror (.still _)
    | error e => exact .failed herror (hinsert _)
  · exact hy _ script

end Planner

open Planner

variable {σ : Type} {inserting : Prop} (services : Services σ)

theorem keys_follow : KeysAlike (Follows inserting) services.noted Services.scripted := by
  intro db table st asked
  refine ⟨.ok (services.shardKey db table st).1, (services.shardKey db table st).2,
    [.shardKey db table (services.shardKey db table st).1], rfl, .answered rfl (.still _),
    fun script => ?_⟩
  have hread : Services.scripted.shardKey db table
      (.shardKey db table (services.shardKey db table st).1 :: script) =
        ((services.shardKey db table st).1, script) := by
    change (if _ then _ else _) = _
    rw [if_pos ⟨rfl, rfl⟩]
  rw [outcome_lift]
  change (Except.ok (Services.scripted.shardKey db table (_ :: script)).1,
    (Services.scripted.shardKey db table (_ :: script)).2) = _
  rw [hread]

theorem routes_follow (h : ¬inserting) :
    RoutesAlike (Follows inserting) services.noted Services.scripted where
  routeAll db table := follows_note (fun result => by cases result <;> rfl) nofun
    fun answer script => Services.outcome_scripted_route db table .all script answer
  route t condition := by
    intro st asked
    rcases hanswer : (services.route t.db t.name (t.hint condition)).outcome st with ⟨answer, st₁⟩
    by_cases hwidens : ∃ vs v, t.hint condition = .values vs ∧ answer = .error (.invalidValue v)
    · obtain ⟨vs, v, hhint, rfl⟩ := hwidens
      have hpinned : t.hint condition ≠ .all := by simp [hhint]
      rcases hall : (services.route t.db t.name .all).outcome st₁ with ⟨answer, st₂⟩
      refine ⟨answer, st₂, [.route t.db t.name (.values vs) (.error (.invalidValue v)),
        .route t.db t.name .all answer], ?_, .widened h ?_, fun script => ?_⟩
      · have hrefused : (services.noted.route t.db t.name (t.hint condition)).outcome (st, asked) =
            (.error (.invalidValue v), st₁,
              asked ++ [.route t.db t.name (.values vs) (.error (.invalidValue v))]) := by
          rw [Services.outcome_noted_route, hanswer, hhint]
        rw [outcome_route_of_unplaced hrefused hpinned, Services.outcome_noted_route, hall]
        simp
      · cases answer with
        | ok shards => exact .answered rfl (.still _)
        | error e => exact .failed rfl nofun
      · cases answer with
        | ok shards =>
          refine outcome_route_of_placed ?_ nofun
          rw [hhint]
          exact Services.outcome_scripted_route t.db t.name (.values vs) script (.ok shards)
        | error e =>
          have hrefused : (Services.scripted.route t.db t.name (t.hint condition)).outcome
              (.route t.db t.name (.values vs) (.error (.invalidValue v)) ::
                .route t.db t.name .all (.error e) :: script) =
                (.error (.invalidValue v), .route t.db t.name .all (.error e) :: script) := by
            rw [hhint]
            exact Services.outcome_scripted_route t.db t.name (.values vs) _ _
          refine (outcome_route_of_unplaced hrefused hpinned).trans ?_
          exact Services.outcome_scripted_route t.db t.name .all script (.error e)
    · have hplaced : ∀ v, answer = .error (.invalidValue v) → t.hint condition = .all := by
        intro v hv
        cases hhint : t.hint condition with
        | all => rfl
        | values vs => exact absurd ⟨vs, v, hhint, hv⟩ hwidens
      refine ⟨answer, st₁, [.route t.db t.name (t.hint condition) answer], ?_, ?_, fun script => ?_⟩
      · refine outcome_route_of_placed ?_ hplaced
        rw [Services.outcome_noted_route, hanswer]
      · cases answer with
        | ok shards => exact .answered rfl (.still _)
        | error e =>
          refine .failed rfl fun hunplaced => ?_
          obtain ⟨hhint, v, hv⟩ := Exchange.hint_of_isUnplaced hunplaced
          exact absurd (hplaced v hv) hhint
      · refine outcome_route_of_placed ?_ hplaced
        exact Services.outcome_scripted_route t.db t.name (t.hint condition) script answer

theorem places_follow (h : inserting) :
    PlacesAlike (Follows inserting) services.noted Services.scripted where
  routeKey db table v := follows_note (fun result => by cases result <;> rfl) (fun _ _ => h)
    fun answer script => Services.outcome_scripted_route db table _ script answer
  nextKey scope := follows_note (fun result => by cases result <;> rfl) (fun _ _ => h)
    fun answer script => Services.outcome_scripted_nextKey scope script answer

/-- What planning asks and what becomes of the answers. The first error of a router or a sequence is
the error of the plan, and nothing is asked after it, unless the router refuses to place pinned values
for the table of a SELECT, UPDATE or DELETE: then it is asked for all shards of the table next, and
the plan is the one that these make in the place of the refusal. -/
theorem first_error_ends_planning {σ : Type} (services : Services σ) (config : Config)
    (stmt : Statement) (db sql : String) (st : σ) (hstmt : ∀ inner, stmt ≠ .explain inner) :
    ∃ (result : Except Error Plan) (st' : σ) (asked : List Exchange),
      (plan services config stmt db sql).outcome st = (result, st') ∧
      (plan services.noted config stmt db sql).outcome (st, []) = (result, st', asked) ∧
      (∀ i a e, asked[i]? = some a → a.error? = some e →
        (a.isUnplaced = true → (∀ j, stmt ≠ .insert j) →
          ∃ b, asked[i + 1]? = some b ∧ b.Widens a) ∧
        (a.isUnplaced = false ∨ (∃ j, stmt = .insert j) →
          i + 1 = asked.length ∧ result = .error e)) ∧
      (plan Services.scripted config stmt db sql).outcome (Exchange.settled asked) = (result, []) := by
  have hfollows : Follows (∃ j, stmt = .insert j) Plan (plan services.noted config stmt db sql)
      (plan Services.scripted config stmt db sql) := by
    rw [plan_of_not_explain _ config hstmt, plan_of_not_explain _ config hstmt]
    refine planDirect_related (follows_composes _) (keys_follow services) (fun α e => ?_) stmt
      (fun h => routes_follow services ?_) (fun i hi => places_follow services ⟨i, hi⟩) config db sql
    · exact fun st asked => ⟨.error e, st, [], by simp, .still _, fun _ => rfl⟩
    · rintro ⟨i, hi⟩
      exact h i hi
  obtain ⟨result, st', asked, hnoted, hproceeds, hscript⟩ := hfollows st []
  obtain ⟨hresult, hstate⟩ := plan_noted_agree services config hstmt db sql (st, []) st rfl
  rw [hnoted] at hresult hstate
  refine ⟨result, st', asked, Prod.ext hresult.symm hstate.symm, hnoted, ?_, ?_⟩
  · intro i a e ha he
    obtain ⟨hwidens, hends⟩ := hproceeds.error_cases ha he
    refine ⟨fun hunplaced hinsert => hwidens hunplaced ?_, hends⟩
    rintro ⟨j, hj⟩
    exact hinsert j hj
  · simpa using hscript []

/-- A router that cannot place a key of an order and knows no shard of the items. -/
def ordersWithoutItems : Services Unit where
  shardKey _ _ := pure (some "id")
  route _ table hint :=
    if table = "items" then throw (.route (.reported "down"))
    else if hint = .all then pure [⟨"slice-0", "shop", "orders_0", 0⟩]
    else throw (.invalidValue (.reported "no number"))
  nextKey _ := throw .cancelled

/-- `SELECT * FROM orders JOIN items WHERE orders.id = 'x'`. -/
def ordersJoinItems : Statement := .select {
  distinct := false
  items := [.star]
  sources := [⟨⟨none, "orders"⟩, none⟩]
  joins := [⟨.inner, ⟨⟨none, "items"⟩, none⟩, none⟩]
  condition := some (.binary (.column ⟨some "orders", "id"⟩) .equal (.literal (.text "x")))
  groupBy := []
  having := none
  orderBy := []
  limit := none
  forUpdate := false }

/-- The key of the orders is refused and all orders are asked for; the items end the planning. -/
def ordersJoinItemsAsked : List Exchange :=
  [.shardKey "shop" "orders" (some "id"), .shardKey "shop" "orders" (some "id"),
    .route "shop" "orders" (.values [.str "x"]) (.error (.invalidValue (.reported "no number"))),
    .route "shop" "orders" .all (.ok [⟨"slice-0", "shop", "orders_0", 0⟩]),
    .shardKey "shop" "items" (some "id"),
    .route "shop" "items" .all (.error (.route (.reported "down")))]

theorem missing_items_end_planning : (∀ inner, ordersJoinItems ≠ .explain inner) ∧
    (plan ordersWithoutItems.noted .standard ordersJoinItems "shop" "").outcome ((), []) =
      (.error (.route (.reported "down")), (), ordersJoinItemsAsked) ∧
    (∃ b, ordersJoinItemsAsked[3]? = some b ∧
      b.Widens (.route "shop" "orders" (.values [.str "x"])
        (.error (.invalidValue (.reported "no number"))))) ∧
    5 + 1 = ordersJoinItemsAsked.length ∧
    (plan Services.scripted .standard ordersJoinItems "shop" "").outcome
      (Exchange.settled ordersJoinItemsAsked) = (.error (.route (.reported "down")), []) := by
  have hstmt : ∀ inner, ordersJoinItems ≠ .explain inner := nofun
  obtain ⟨result, st', asked, -, hnoted, herrors, hscript⟩ :=
    first_error_ends_planning ordersWithoutItems .standard ordersJoinItems "shop" "" () hstmt
  have hasked : (plan ordersWithoutItems.noted .standard ordersJoinItems "shop" "").outcome ((), []) =
      (.error (.route (.reported "down")), (), ordersJoinItemsAsked) := rfl
  rw [hasked] at hnoted
  cases hnoted
  have hrefused := herrors 2 _ _ rfl rfl
  have hlast := herrors 5 _ _ rfl rfl
  exact ⟨hstmt, hasked, hrefused.1 rfl nofun, (hlast.2 (.inl rfl)).1, hscript⟩

end ShardedSql.Planning
