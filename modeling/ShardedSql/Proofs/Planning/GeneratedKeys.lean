import ShardedSql.Proofs.Planning.Agreement
import ShardedSql.Proofs.Routing.Placement

namespace ShardedSql.Planning

open Routing (RuleTable ordersById)
open Sql (Insert Statement)

/-- A key that was generated for a row, and the table of the row as its statement spells it. -/
structure Draw where
  db : String
  table : String
  key : Int64
  deriving DecidableEq, Repr

def Draw.scope (d : Draw) : String := sequenceScope d.db d.table

/-- A registry of sequences, and the keys that it has generated so far. -/
structure Ledger where
  registry : Registry
  draws : List Draw
  deriving DecidableEq, Repr

/-- Generates a key for a row of a table and notes it down. -/
def notedKey (db table scope : String) : Planner Ledger Int64 :=
  ExceptT.mk fun l =>
    match l.registry.next scope with
    | (.ok key, r) => (.ok key, ⟨r, l.draws ++ [⟨db, table, key⟩]⟩)
    | (.error e, r) => (.error e, ⟨r, l.draws⟩)

/-- What a session does: it registers a sequence, or plans an INSERT that was issued on a database,
or the EXPLAIN of one. -/
inductive Act where
  | create (scope : String) (start step : Int64)
  | insert (explained : Bool) (i : Insert) (db sql : String)
  deriving DecidableEq, Repr

def insertStatement (explained : Bool) (i : Insert) : Statement :=
  if explained then .explain (.insert i) else .insert i

/-- Registers a sequence. One that is refused changes nothing. -/
def registerScope (r : Registry) (scope : String) (start step : Int64) : Registry :=
  match r.create scope start step with
  | .ok r' => r'
  | .error _ => r

/-- What an act does to the sequences. -/
def Act.apply (rules : RuleTable) (config : Config) (r : Registry) : Act → Registry
  | .create scope start step => registerScope r scope start step
  | .insert explained i db sql =>
    ((plan (.ofRouter rules.router) config (insertStatement explained i) db sql).outcome r).2

/-- What an act does while the keys are noted down. A build that fails leaves those that it has
drawn. -/
def Act.note (rules : RuleTable) (config : Config) (l : Ledger) : Act → Ledger
  | .create scope start step => { l with registry := registerScope l.registry scope start step }
  | .insert explained i db sql =>
    ((plan (.ofRules rules (notedKey (i.table.schema.getD db) i.table.name)) config
      (insertStatement explained i) db sql).outcome l).2

/-- The ledger after acts that follow each other, with nothing noted down at first. -/
def noteAll (rules : RuleTable) (config : Config) (r : Registry) (acts : List Act) : Ledger :=
  acts.foldl (Act.note rules config) ⟨r, []⟩

/-- That the sequences do not stand still, and have moved past every key that they gave out. -/
structure Ledger.Fresh (l : Ledger) : Prop where
  moves : ∀ scope p, l.registry.find? scope = some p → p.step ≠ 0
  auto : ∀ p, l.registry.autoCreate = some p → p.step ≠ 0
  passed : ∀ d ∈ l.draws, ∃ p, l.registry.find? d.scope = some p ∧
    ∃ n : Nat, d.key.toInt + (n + 1) * p.step.toInt = p.next.toInt
  distinct : l.draws.Pairwise fun a b => a.scope = b.scope → a.key ≠ b.key

namespace Ledger.Fresh

variable {l : Ledger} {scope : String}

theorem step_ne_zero (h : l.Fresh) {p : Progression}
    (hp : (l.registry.find? scope).or l.registry.autoCreate = some p) : p.step ≠ 0 := by
  rcases Option.or_eq_some_iff.mp hp with hp | ⟨-, hp⟩
  · exact h.moves scope p hp
  · exact h.auto p hp

/-- A sequence may move on by one step, or be registered. -/
theorem set (h : l.Fresh) {p q : Progression}
    (hp : (l.registry.find? scope).or l.registry.autoCreate = some p) (hstep : q.step = p.step)
    (hnext : q.next = p.next ∨ p.next.toInt + p.step.toInt = q.next.toInt) :
    Ledger.Fresh ⟨l.registry.set scope q, l.draws⟩ where
  moves other p' h' := by
    by_cases hother : other = scope
    · rw [hother, Registry.find?_set_self] at h'
      rw [← Option.some.inj h', hstep]
      exact h.step_ne_zero hp
    · rw [Registry.find?_set_of_ne _ hother] at h'
      exact h.moves other p' h'
  auto := h.auto
  passed d hd := by
    obtain ⟨p', hp', n, hn⟩ := h.passed d hd
    by_cases hd' : d.scope = scope
    · rw [← hd', hp'] at hp
      obtain rfl : p' = p := by simpa using hp
      refine ⟨q, by rw [hd', Registry.find?_set_self], ?_⟩
      rw [hstep]
      rcases hnext with hnext | hnext
      · exact ⟨n, by rw [hnext, hn]⟩
      · refine ⟨n + 1, ?_⟩
        rw [← hnext, ← hn, Int.natCast_succ, Int.add_mul _ 1, Int.one_mul, Int.add_assoc]
    · exact ⟨p', by rw [Registry.find?_set_of_ne _ hd', hp'], n, hn⟩
  distinct := h.distinct

/-- What a sequence gives out next differs from all that it gave out before. -/
theorem key_ne_next (h : l.Fresh) {p : Progression}
    (hp : (l.registry.find? scope).or l.registry.autoCreate = some p) {d : Draw} (hd : d ∈ l.draws)
    (hscope : d.scope = scope) : d.key ≠ p.next := by
  obtain ⟨p', hp', n, hn⟩ := h.passed d hd
  rw [← hscope, hp'] at hp
  obtain rfl : p' = p := by simpa using hp
  intro hkey
  have hstep : p'.step.toInt ≠ 0 := fun hzero => h.moves _ _ hp' (Int64.toInt_inj.mp hzero)
  have hmoved : ((n : Int) + 1) * p'.step.toInt = 0 := by
    rw [hkey] at hn
    omega
  rcases Int.mul_eq_zero.mp hmoved with hcount | hzero
  · omega
  · exact hstep hzero

/-- A new sequence may be registered: no key has come from it. -/
theorem register (h : l.Fresh) (scope : String) (start step : Int64) :
    Ledger.Fresh { l with registry := registerScope l.registry scope start step } := by
  unfold registerScope Registry.create
  by_cases hzero : step = 0
  · simpa [hzero] using h
  by_cases hknown : (l.registry.find? scope).isSome = true
  · simpa [hzero, hknown] using h
  have hnone : l.registry.find? scope = none := by simpa using hknown
  simp only [hzero, hknown, if_false, Bool.false_eq_true]
  exact {
    moves := fun other p hp => by
      by_cases hother : other = scope
      · rw [hother, Registry.find?_set_self] at hp
        rwa [← Option.some.inj hp]
      · rw [Registry.find?_set_of_ne _ hother] at hp
        exact h.moves other p hp
    auto := h.auto
    passed := fun d hd => by
      obtain ⟨p, hp, hpast⟩ := h.passed d hd
      have hother : d.scope ≠ scope := by
        intro hscope
        rw [hscope, hnone] at hp
        cases hp
      exact ⟨p, by rw [Registry.find?_set_of_ne _ hother, hp], hpast⟩
    distinct := h.distinct }

/-- A key may be noted down when its sequence has moved past it, and gave out others before. -/
theorem note (h : l.Fresh) {d : Draw} (hpassed : ∃ p, l.registry.find? d.scope = some p ∧
      ∃ n : Nat, d.key.toInt + (n + 1) * p.step.toInt = p.next.toInt)
    (hdistinct : ∀ a ∈ l.draws, a.scope = d.scope → a.key ≠ d.key) :
    Ledger.Fresh { l with draws := l.draws ++ [d] } where
  moves := h.moves
  auto := h.auto
  passed a ha := by
    rcases List.mem_append.mp ha with ha | ha
    · exact h.passed a ha
    · rw [List.mem_singleton.mp ha]
      exact hpassed
  distinct := by
    rw [List.pairwise_append]
    refine ⟨h.distinct, List.pairwise_singleton _ _, fun a ha b hb => ?_⟩
    rw [List.mem_singleton.mp hb]
    exact hdistinct a ha

/-- Drawing a key keeps the ledger fresh, and leaves the sequences as drawing without one does. -/
theorem notedKey_agree (db table : String) :
    Planner.Agree (fun (l : Ledger) r => l.registry = r ∧ l.Fresh)
      (notedKey db table (sequenceScope db table))
      (ExceptT.mk fun r => r.next (sequenceScope db table)) := by
  rintro l r ⟨rfl, h⟩
  have houtcome : (notedKey db table (sequenceScope db table)).outcome l =
      match l.registry.next (sequenceScope db table) with
      | (.ok key, r) => (.ok key, ⟨r, l.draws ++ [⟨db, table, key⟩]⟩)
      | (.error e, r) => (.error e, ⟨r, l.draws⟩) := rfl
  have hnext : Planner.outcome (ExceptT.mk fun r => Registry.next r (sequenceScope db table))
      l.registry = l.registry.next (sequenceScope db table) := rfl
  rw [houtcome, hnext]
  unfold Registry.next
  cases hp : (l.registry.find? (sequenceScope db table)).or l.registry.autoCreate with
  | none => exact ⟨rfl, rfl, h⟩
  | some p =>
    dsimp only
    cases hmoved : Text.toInt64? (p.next.toInt + p.step.toInt) with
    | none => exact ⟨rfl, rfl, h.set hp rfl (.inl rfl)⟩
    | some n =>
      have hn : p.next.toInt + p.step.toInt = n.toInt := (Text.toInt_toInt64? hmoved).symm
      refine ⟨rfl, rfl, (h.set hp (q := { p with next := n }) rfl (.inr hn)).note ?_ ?_⟩
      · refine ⟨{ p with next := n }, Registry.find?_set_self _ _ _, 0, ?_⟩
        simpa using hn
      · intro a ha hscope
        exact h.key_ne_next hp ha hscope

end Ledger.Fresh

/-- An INSERT is planned and explained alike wherever the keys that it asks for are alike. -/
theorem plan_insertStatement_agree {σ τ : Type} {R : σ → τ → Prop} (rules : RuleTable)
    (config : Config) (explained : Bool) (i : Insert) (db sql : String)
    {nextKey : String → Planner σ Int64} {nextKey' : String → Planner τ Int64}
    (h : keylessRows rules db i ≠ 0 →
      Planner.Agree R (nextKey (sequenceScope (i.table.schema.getD db) i.table.name))
        (nextKey' (sequenceScope (i.table.schema.getD db) i.table.name))) :
    Planner.Agree R (plan (.ofRules rules nextKey) config (insertStatement explained i) db sql)
      (plan (.ofRules rules nextKey') config (insertStatement explained i) db sql) := by
  cases explained with
  | false => exact planDirect_insert_agree rules config i db sql h
  | true =>
    exact ((planDirect_insert_agree rules config i db _ h).adapt _).bind fun p =>
      Planner.agree_pure _

/-- Planning an INSERT keeps the ledger fresh, and does to the sequences what it does without. -/
theorem plan_insert_agree (rules : RuleTable) (config : Config) (explained : Bool) (i : Insert)
    (db sql : String) :
    Planner.Agree (fun (l : Ledger) r => l.registry = r ∧ l.Fresh)
      (plan (.ofRules rules (notedKey (i.table.schema.getD db) i.table.name)) config
        (insertStatement explained i) db sql)
      (plan (.ofRouter rules.router) config (insertStatement explained i) db sql) := by
  rw [Services.ofRouter_router]
  exact plan_insertStatement_agree rules config explained i db sql fun _ =>
    Ledger.Fresh.notedKey_agree (i.table.schema.getD db) i.table.name

variable (rules : RuleTable) (config : Config)

theorem note_fresh {l : Ledger} (h : l.Fresh) (act : Act) :
    (act.note rules config l).registry = act.apply rules config l.registry ∧
      (act.note rules config l).Fresh := by
  cases act with
  | create scope start step => exact ⟨rfl, h.register scope start step⟩
  | insert explained i db sql =>
    exact (plan_insert_agree rules config explained i db sql l l.registry ⟨rfl, h⟩).2

/-- All along a session the ledger is fresh, and its sequences are those of the session. -/
theorem foldl_note_fresh {l : Ledger} (h : l.Fresh) (acts : List Act) :
    (acts.foldl (Act.note rules config) l).registry =
        acts.foldl (Act.apply rules config) l.registry ∧
      (acts.foldl (Act.note rules config) l).Fresh := by
  induction acts generalizing l with
  | nil => exact ⟨rfl, h⟩
  | cons act acts ih =>
    obtain ⟨hregistry, hfresh⟩ := note_fresh rules config h act
    rw [List.foldl_cons, List.foldl_cons, ← hregistry]
    exact ih hfresh

theorem fresh_empty {auto : Option Progression} (hauto : ∀ p, auto = some p → p.step ≠ 0) :
    Ledger.Fresh ⟨⟨[], auto⟩, []⟩ where
  moves scope p h := by cases h
  auto := hauto
  passed := by simp
  distinct := .nil

/-- Generated keys never repeat as long as their tables are spelled alike, in whichever statements,
failed and explained ones included. A sequence that is created on the spot must not stand still. -/
theorem generated_keys_differ {auto : Option Progression}
    (hauto : ∀ p, auto = some p → p.step ≠ 0) (acts : List Act) :
    (noteAll rules config ⟨[], auto⟩ acts).registry =
        acts.foldl (Act.apply rules config) ⟨[], auto⟩ ∧
      (noteAll rules config ⟨[], auto⟩ acts).draws.Pairwise
        fun a b => a.scope = b.scope → a.key ≠ b.key := by
  obtain ⟨hregistry, hfresh⟩ := foldl_note_fresh rules config (fresh_empty hauto) acts
  exact ⟨hregistry, hfresh.distinct⟩

/-- `INSERT INTO table (name) VALUES ('name')`, which leaves the shard key out. -/
def insertOrder (table name : String) : Insert where
  replace := false
  ignore := false
  table := ⟨none, table⟩
  columns := ["name"]
  rows := [[.literal (.text name)]]
  onDuplicate := []

def countFromOne : Option Progression := some ⟨1, 1⟩

def orderThenExplained : List Act :=
  [.insert false (insertOrder "orders" "a") "shop" "INSERT INTO orders (name) VALUES ('a')",
    .insert true (insertOrder "orders" "b") "shop" "EXPLAIN INSERT INTO orders (name) VALUES ('b')"]

theorem second_order_gets_a_new_key : (1 : Int64) ≠ 0 ∧
    (noteAll ⟨[ordersById]⟩ .standard ⟨[], countFromOne⟩ orderThenExplained).draws =
      [⟨"shop", "orders", 1⟩, ⟨"shop", "orders", 2⟩] ∧
    (noteAll ⟨[ordersById]⟩ .standard ⟨[], countFromOne⟩ orderThenExplained).draws.Pairwise
      fun a b => a.scope = b.scope → a.key ≠ b.key := by
  refine ⟨by decide, rfl, (generated_keys_differ ⟨[ordersById]⟩ .standard ?_ _).2⟩
  intro p hp
  cases hp
  decide

/-- Whether two rows lie in one table, whatever the case of the letters in its name. -/
def Draw.SameTable (rules : RuleTable) (a b : Draw) : Prop :=
  ∃ r, rules.find? a.db a.table = some r ∧ rules.find? b.db b.table = some r

def ordersInTwoSpellings : List Act :=
  [.insert false (insertOrder "orders" "a") "shop" "INSERT INTO orders (name) VALUES ('a')",
    .insert false (insertOrder "ORDERS" "b") "shop" "INSERT INTO ORDERS (name) VALUES ('b')"]

/-- The rules take both spellings for one table, but each of them has a sequence of its own. -/
theorem other_spelling_repeats_key :
    ¬(noteAll ⟨[ordersById]⟩ .standard ⟨[], countFromOne⟩ ordersInTwoSpellings).draws.Pairwise
      fun a b => a.SameTable ⟨[ordersById]⟩ b → a.key ≠ b.key := by
  have hdraws : (noteAll ⟨[ordersById]⟩ .standard ⟨[], countFromOne⟩ ordersInTwoSpellings).draws =
      [⟨"shop", "orders", 1⟩, ⟨"shop", "ORDERS", 1⟩] := rfl
  rw [hdraws]
  intro h
  exact List.rel_of_pairwise_cons h (List.mem_singleton_self _)
    ⟨ordersById, rfl, rfl⟩ rfl

end ShardedSql.Planning
