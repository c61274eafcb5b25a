import ShardedSql.Planning.Services

namespace ShardedSql.Planning

open Routing (KeyHint RuleTable Shard)

variable {σ α β : Type}

/-- The services of a rule table next to any supply of new keys. Routing leaves the state alone. -/
def Services.ofRules (rules : RuleTable) (nextKey : String → Planner σ Int64) : Services σ where
  shardKey db table := pure (rules.shardKey db table)
  route db table hint := liftExcept (rules.route db table hint)
  nextKey := nextKey

theorem Services.ofRouter_router (rules : RuleTable) :
    Services.ofRouter rules.router =
      Services.ofRules rules fun scope => ExceptT.mk fun registry => registry.next scope := rfl

namespace Planner

/-- What a step of planning answers when it starts in a state, and the state that it leaves. -/
def outcome (x : Planner σ α) (s : σ) : Except Error α × σ := x.run s

@[simp] theorem outcome_pure (a : α) (s : σ) : (pure a : Planner σ α).outcome s = (.ok a, s) := rfl

@[simp] theorem outcome_throw (e : Error) (s : σ) :
    (throw e : Planner σ α).outcome s = (.error e, s) := rfl

@[simp] theorem outcome_liftExcept (result : Except Error α) (s : σ) :
    (liftExcept result : Planner σ α).outcome s = (result, s) := rfl

@[simp] theorem outcome_lift (m : StateM σ α) (s : σ) :
    (liftM m : Planner σ α).outcome s = (.ok (m s).1, (m s).2) := rfl

/-- How a step goes on. One that fails ends the planning and leaves its state. -/
theorem outcome_bind (x : Planner σ α) (f : α → Planner σ β) (s : σ) :
    (x >>= f).outcome s = match x.outcome s with
      | (.ok a, s') => (f a).outcome s'
      | (.error e, s') => (.error e, s') := by
  change (ExceptT.bindCont f (x.outcome s).1) (x.outcome s).2 = _
  rcases x.outcome s with ⟨_ | a, s'⟩ <;> rfl

theorem outcome_bind_of_ok {x : Planner σ α} {f : α → Planner σ β} {s s' : σ} {a : α}
    (h : x.outcome s = (.ok a, s')) : (x >>= f).outcome s = (f a).outcome s' := by
  rw [outcome_bind, h]

theorem outcome_bind_eq_ok {x : Planner σ α} {f : α → Planner σ β} {s s'' : σ} {b : β} :
    (x >>= f).outcome s = (.ok b, s'') ↔
      ∃ a s', x.outcome s = (.ok a, s') ∧ (f a).outcome s' = (.ok b, s'') := by
  rw [outcome_bind]
  rcases x.outcome s with ⟨_ | a, s'⟩
  · simp
  · constructor
    · exact fun h => ⟨a, s', rfl, h⟩
    · rintro ⟨a, s', ⟨⟩, h⟩
      exact h

theorem outcome_tryCatch (x : Planner σ α) (handle : Error → Planner σ α) (s : σ) :
    (tryCatch x handle).outcome s = match x.outcome s with
      | (.ok a, s') => (.ok a, s')
      | (.error e, s') => (handle e).outcome s' := by
  simp only [tryCatch, tryCatchThe, MonadExceptOf.tryCatch, ExceptT.tryCatch, outcome, ExceptT.run,
    ExceptT.mk, bind, StateT.bind]
  rcases hx : x s with ⟨_ | a, s'⟩ <;> rfl

theorem outcome_adapt (f : Error → Error) (x : Planner σ α) (s : σ) :
    @outcome σ α (ExceptT.adapt f x) s = ((x.outcome s).1.mapError f, (x.outcome s).2) := rfl

end Planner

namespace Services

variable (rules : RuleTable) (nextKey : String → Planner σ Int64)

@[simp] theorem ofRules_shardKey (db table : String) (s : σ) :
    (liftM ((ofRules rules nextKey).shardKey db table) : Planner σ _).outcome s =
      (.ok (rules.shardKey db table), s) := rfl

@[simp] theorem ofRules_route (db table : String) (hint : KeyHint) (s : σ) :
    ((ofRules rules nextKey).route db table hint).outcome s = (rules.route db table hint, s) := rfl

end Services

end ShardedSql.Planning
