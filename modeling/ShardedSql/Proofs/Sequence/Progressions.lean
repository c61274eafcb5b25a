import Mathlib.Data.List.Induction
import Mathlib.Tactic.Linarith
import ShardedSql.Proofs.Sequence.Scopes

namespace ShardedSql

/-- Whether a number is one of 64 bits with a sign. -/
def FitsInt64 (i : Int) : Prop := -2 ^ 63 ≤ i ∧ i < 2 ^ 63

instance (i : Int) : Decidable (FitsInt64 i) := inferInstanceAs (Decidable (_ ∧ _))

theorem Text.toInt64?_eq_none_iff {i : Int} : Text.toInt64? i = none ↔ ¬FitsInt64 i := by
  rw [Text.toInt64?, Int64.toInt_minValue, Int64.toInt_maxValue, FitsInt64]
  split
  · next h => simp; omega
  · next h => simp; omega

theorem fitsInt64_toInt (x : Int64) : FitsInt64 x.toInt := by
  by_contra hnot
  rw [← Text.toInt64?_eq_none_iff, Text.toInt64?_toInt] at hnot
  cases hnot

/-- Steps of one length leave the range once and for all. -/
theorem FitsInt64.of_le {a s : Int} {m n : Nat} (hmn : m ≤ n) (ha : FitsInt64 a)
    (hn : FitsInt64 (a + n * s)) : FitsInt64 (a + m * s) := by
  have hcast : (m : Int) ≤ n := Int.ofNat_le.mpr hmn
  unfold FitsInt64 at *
  rcases Int.le_total 0 s with hs | hs
  · have hup : (m : Int) * s ≤ n * s := Int.mul_le_mul_of_nonneg_right hcast hs
    have hpos : 0 ≤ (m : Int) * s := Int.mul_nonneg (Int.natCast_nonneg m) hs
    omega
  · have hdown : (n : Int) * s ≤ m * s := Int.mul_le_mul_of_nonpos_right hcast hs
    have hneg : (m : Int) * s ≤ 0 := Int.mul_nonpos_of_nonneg_of_nonpos (Int.natCast_nonneg m) hs
    omega

namespace Progression

variable {p c : Progression} {n : Nat}

/-- A number of a progression, by exact arithmetic. The first one has number 0. -/
def value (p : Progression) (n : Nat) : Int := p.next.toInt + n * p.step.toInt

theorem value_succ (p : Progression) (n : Nat) : p.value (n + 1) = p.value n + p.step.toInt := by
  rw [value, value, Int.natCast_succ, Int.add_mul, Int.one_mul, Int.add_assoc]

/-- That a progression has moved on by a number of steps. -/
structure Moved (p : Progression) (n : Nat) (c : Progression) : Prop where
  step : c.step = p.step
  next : c.next.toInt = p.value n

theorem Moved.refl (p : Progression) : p.Moved 0 p := ⟨rfl, by simp [value]⟩

theorem Moved.next_add_step (h : p.Moved n c) : c.next.toInt + c.step.toInt = p.value (n + 1) := by
  rw [h.step, h.next, value_succ]

theorem Moved.succ (h : p.Moved n c) {m : Int64} (hm : m.toInt = c.next.toInt + c.step.toInt) :
    p.Moved (n + 1) { c with next := m } where
  step := h.step
  next := hm.trans h.next_add_step

/-- That keys are the first ones of a progression. -/
def Gives (p : Progression) (keys : List Int64) : Prop :=
  ∀ (k : Nat) (key : Int64), keys[k]? = some key → key.toInt = p.value k

theorem Gives.concat {keys : List Int64} (h : p.Gives keys) (hc : p.Moved keys.length c) :
    p.Gives (keys ++ [c.next]) := by
  intro k key hkey
  rw [List.getElem?_append, List.getElem?_singleton] at hkey
  split_ifs at hkey with hlt hlast
  · exact h k key hkey
  · obtain rfl : k = keys.length := by omega
    rw [← Option.some.inj hkey]
    exact hc.next

end Progression

namespace Registry

variable {r : Registry} {scope : String} {c : Progression}

theorem next_of_unknown (h : (r.find? scope).or r.autoCreate = none) :
    r.next scope = (.error (.sequence (.unknown scope)), r) := by
  unfold next
  rw [h]

theorem next_of_exhausted (h : (r.find? scope).or r.autoCreate = some c)
    (hfull : ¬FitsInt64 (c.next.toInt + c.step.toInt)) :
    r.next scope = (.error (.sequence (.exhausted scope)), r.set scope c) := by
  unfold next
  rw [h]
  dsimp only
  rw [Text.toInt64?_eq_none_iff.mpr hfull]

theorem next_of_fits (h : (r.find? scope).or r.autoCreate = some c)
    (hfits : FitsInt64 (c.next.toInt + c.step.toInt)) :
    ∃ m : Int64, m.toInt = c.next.toInt + c.step.toInt ∧
      r.next scope = (.ok c.next, r.set scope { c with next := m }) := by
  unfold next
  rw [h]
  dsimp only
  cases hm : Text.toInt64? (c.next.toInt + c.step.toInt) with
  | none => exact absurd hfits (Text.toInt64?_eq_none_iff.mp hm)
  | some m => exact ⟨m, Text.toInt_toInt64? hm, rfl⟩

def Answer.key? : Answer → Option Int64
  | key k => some k
  | _ => none

/-- The keys that operations draw from a scope, in order. -/
def drawn (scope : String) : Registry → List Op → List Int64
  | _, [] => []
  | r, op :: ops =>
    (if op.scope = scope then (op.run r).1.key?.toList else []) ++ drawn scope (op.run r).2 ops

/-- The progression that an operation gives to a scope, if the scope is not registered yet. -/
def Op.registers? (auto : Option Progression) (scope : String) : Op → Option Progression
  | create name start step => if name = scope ∧ step ≠ 0 then some ⟨start, step⟩ else none
  | next name => if name = scope then auto else none

/-- The first registration of a scope: by a `create` that does not stand still or, where scopes are
created on the spot, by asking for a key. -/
def origin? (auto : Option Progression) (ops : List Op) (scope : String) : Option Progression :=
  ops.findSome? (Op.registers? auto scope)

/-- Whether a scope has no key after operations. -/
def Refuses (auto : Option Progression) (before : List Op) (scope : String) : Prop :=
  ∃ e, answer ⟨[], auto⟩ before (.next scope) = .refused (.sequence e)

theorem drawn_append (scope : String) (r : Registry) (ops ops' : List Op) :
    drawn scope r (ops ++ ops') = drawn scope r ops ++ drawn scope (r.after ops) ops' := by
  induction ops generalizing r with
  | nil => rfl
  | cons op ops ih => simp only [List.cons_append, drawn, ih, List.append_assoc, after_cons]

theorem autoCreate_after (r : Registry) (ops : List Op) :
    (r.after ops).autoCreate = r.autoCreate := by
  induction ops generalizing r with
  | nil => rfl
  | cons op ops ih => exact (ih (op.run r).2).trans (SameBut.run op r).autoCreate.symm

/-- What operations have made of a scope: nothing as long as it is not registered, and afterwards its
first registration, which has moved on once for each key. -/
inductive Tracked : (origin : Option Progression) → List Int64 → (now : Option Progression) → Prop
  | unknown : Tracked none [] none
  | moved {p c : Progression} {keys : List Int64} (moved : p.Moved keys.length c)
      (gives : p.Gives keys) : Tracked (some p) keys (some c)

namespace Tracked

variable {origin now : Option Progression} {keys : List Int64}

theorem registered (p : Progression) : Tracked (some p) [] (some p) :=
  .moved (.refl p) (by simp [Progression.Gives])

theorem orAuto (h : Tracked origin keys now) (auto : Option Progression) :
    Tracked (origin.or auto) keys (now.or auto) := by
  cases h with
  | moved hmoved hgives => exact .moved hmoved hgives
  | unknown =>
    cases auto with
    | none => exact .unknown
    | some p => exact registered p

theorem eq_none_iff (h : Tracked origin keys now) : now = none ↔ origin = none := by
  cases h <;> simp

theorem key_eq (h : Tracked origin keys now) {k : Nat} {key : Int64} (hkey : keys[k]? = some key) :
    ∃ p, origin = some p ∧ key.toInt = p.value k := by
  cases h with
  | unknown => cases hkey
  | moved _ hgives => exact ⟨_, rfl, hgives k key hkey⟩

/-- A key keeps to the progression. -/
theorem next (h : Tracked origin keys (r.find? scope)) :
    Tracked (origin.or r.autoCreate) (keys ++ (Answer.ofKey (r.next scope).1).key?.toList)
      ((r.skip scope).find? scope) := by
  have hcurrent := h.orAuto r.autoCreate
  unfold skip
  generalize origin.or r.autoCreate = first at hcurrent ⊢
  generalize hnow : (r.find? scope).or r.autoCreate = now at hcurrent
  cases hcurrent with
  | unknown =>
    rw [next_of_unknown hnow]
    dsimp only
    rw [(Option.or_eq_none_iff.mp hnow).1]
    exact .unknown
  | @moved p c _ hmoved hgives =>
    by_cases hfits : FitsInt64 (c.next.toInt + c.step.toInt)
    · obtain ⟨m, hm, hnext⟩ := next_of_fits hnow hfits
      rw [hnext]
      dsimp only
      rw [find?_set_self]
      exact .moved (by simpa [Answer.ofKey, Answer.key?] using hmoved.succ hm)
        (hgives.concat hmoved)
    · rw [next_of_exhausted hnow hfits]
      dsimp only
      rw [find?_set_self]
      simpa [Answer.ofKey, Answer.key?] using moved hmoved hgives

theorem create (h : Tracked origin keys (r.find? scope)) (start step : Int64) :
    Tracked (origin.or ((Op.create scope start step).registers? r.autoCreate scope))
      (keys ++ ((Op.create scope start step).run r).1.key?.toList)
      (((Op.create scope start step).run r).2.find? scope) := by
  rw [run_create]
  split_ifs with hzero hsome
  · simpa [Op.registers?, hzero, Answer.key?] using h
  · obtain ⟨p, hp⟩ : ∃ p, origin = some p := by
      rw [← Option.isSome_iff_exists]
      simpa [Option.isSome_iff_ne_none, h.eq_none_iff] using hsome
    subst hp
    simpa [Answer.key?] using h
  · have hnone : r.find? scope = none := by simpa using hsome
    rw [hnone] at h
    cases h
    simpa [Op.registers?, hzero, Answer.key?, find?_set_self] using registered ⟨start, step⟩

/-- Each operation keeps what is known of a scope. -/
theorem run (h : Tracked origin keys (r.find? scope)) (op : Op) :
    Tracked (origin.or (op.registers? r.autoCreate scope))
      (keys ++ drawn scope r [op]) ((op.run r).2.find? scope) := by
  by_cases hop : op.scope = scope
  · rw [drawn, if_pos hop, drawn, List.append_nil]
    cases op with
    | create name start step =>
      obtain rfl : name = scope := hop
      exact h.create start step
    | next name =>
      obtain rfl : name = scope := hop
      have hregisters : (Op.next name).registers? r.autoCreate name = r.autoCreate := if_pos rfl
      rw [hregisters]
      exact h.next
  · rw [drawn, if_neg hop, drawn, ← (SameBut.run op r).find? scope (Ne.symm hop)]
    have hnone : op.registers? r.autoCreate scope = none := by
      cases op with
      | create name start step => exact if_neg fun h => hop h.1
      | next name => exact if_neg hop
    simpa [hnone] using h

end Tracked

/-- Along every run a scope keeps to its first registration. -/
theorem tracked_after (auto : Option Progression) (ops : List Op) (scope : String) :
    Tracked (origin? auto ops scope) (drawn scope ⟨[], auto⟩ ops)
      ((after ⟨[], auto⟩ ops).find? scope) := by
  induction ops using List.reverseRecOn with
  | nil => exact .unknown
  | append_singleton ops op ih =>
    have hstep := ih.run op
    rw [autoCreate_after] at hstep
    rw [origin?, List.findSome?_append, drawn_append, after_concat]
    simpa [origin?] using hstep

variable {auto : Option Progression} {before : List Op}

theorem origin?_append (auto : Option Progression) (ops ops' : List Op) (scope : String) :
    origin? auto (ops ++ ops') scope = (origin? auto ops scope).or (origin? auto ops' scope) :=
  List.findSome?_append

theorem origin?_next (auto : Option Progression) (before : List Op) (scope : String) :
    origin? auto (before ++ [.next scope]) scope = (origin? auto before scope).or auto := by
  rw [origin?_append]
  simp [origin?, Op.registers?]

/-- A scope that is registered without being asked for a key is created. -/
theorem exists_create_of_origin? {p : Progression} {ops : List Op}
    (h : origin? none ops scope = some p) :
    ∃ start step, Op.create scope start step ∈ ops ∧ step ≠ 0 := by
  obtain ⟨op, hop, hregisters⟩ := List.exists_of_findSome?_eq_some h
  cases op with
  | next name => simp [Op.registers?] at hregisters
  | create name start step =>
    simp only [Op.registers?] at hregisters
    split_ifs at hregisters with hname
    obtain ⟨rfl, hstep⟩ := hname
    exact ⟨start, step, hop, hstep⟩

/-- What asking for a key comes to. -/
theorem answer_next_cases (auto : Option Progression) (before : List Op) (scope : String) :
    (origin? auto (before ++ [.next scope]) scope = none ∧
      answer ⟨[], auto⟩ before (.next scope) = .refused (.sequence (.unknown scope))) ∨
    ∃ p, origin? auto (before ++ [.next scope]) scope = some p ∧
      ((¬FitsInt64 (p.value ((drawn scope ⟨[], auto⟩ before).length + 1)) ∧
        answer ⟨[], auto⟩ before (.next scope) = .refused (.sequence (.exhausted scope))) ∨
      FitsInt64 (p.value ((drawn scope ⟨[], auto⟩ before).length + 1)) ∧
        ∃ key : Int64, key.toInt = p.value (drawn scope ⟨[], auto⟩ before).length ∧
          answer ⟨[], auto⟩ before (.next scope) = .key key) := by
  have hcurrent := (tracked_after auto before scope).orAuto auto
  rw [origin?_next]
  unfold answer Op.run
  dsimp only
  generalize (origin? auto before scope).or auto = first at hcurrent ⊢
  generalize drawn scope ⟨[], auto⟩ before = keys at hcurrent ⊢
  generalize hnow : ((after ⟨[], auto⟩ before).find? scope).or auto = now at hcurrent
  replace hnow : ((after ⟨[], auto⟩ before).find? scope).or (after ⟨[], auto⟩ before).autoCreate =
      now := by rwa [autoCreate_after]
  cases hcurrent with
  | unknown =>
    rw [next_of_unknown hnow]
    exact .inl ⟨rfl, rfl⟩
  | @moved p c _ hmoved hgives =>
    refine .inr ⟨p, rfl, ?_⟩
    rw [← hmoved.next_add_step]
    by_cases hfits : FitsInt64 (c.next.toInt + c.step.toInt)
    · obtain ⟨m, -, hnext⟩ := next_of_fits hnow hfits
      rw [hnext]
      exact .inr ⟨hfits, c.next, hmoved.next, rfl⟩
    · rw [next_of_exhausted hnow hfits]
      exact .inl ⟨hfits, rfl⟩

theorem answer_next_eq_key_iff {key : Int64} :
    answer ⟨[], auto⟩ before (.next scope) = .key key ↔
      ∃ p, origin? auto (before ++ [.next scope]) scope = some p ∧
        FitsInt64 (p.value ((drawn scope ⟨[], auto⟩ before).length + 1)) ∧
        key.toInt = p.value (drawn scope ⟨[], auto⟩ before).length := by
  rcases answer_next_cases auto before scope with
    ⟨hnone, hanswer⟩ | ⟨p, hp, ⟨hfull, hanswer⟩ | ⟨hfits, k, hk, hanswer⟩⟩
  · simp [hnone, hanswer]
  · simp [hp, hfull, hanswer]
  · simp [hp, hfits, hanswer, ← hk, Int64.toInt_inj, eq_comm]

theorem refuses_iff : Refuses auto before scope ↔
    origin? auto (before ++ [.next scope]) scope = none ∨
      ∃ p, origin? auto (before ++ [.next scope]) scope = some p ∧
        ¬FitsInt64 (p.value ((drawn scope ⟨[], auto⟩ before).length + 1)) := by
  unfold Refuses
  rcases answer_next_cases auto before scope with
    ⟨hnone, hanswer⟩ | ⟨p, hp, ⟨hfull, hanswer⟩ | ⟨hfits, k, -, hanswer⟩⟩
  · simp [hnone, hanswer]
  · simp [hp, hfull, hanswer]
  · simp [hp, hfits, hanswer]

/-- A scope that was refused a key is refused one ever after, unless it is created meanwhile. -/
theorem Refuses.stays (h : Refuses auto before scope) (between : List Op) :
    Refuses auto (before ++ .next scope :: between) scope ∨
      (origin? auto before scope = none ∧ auto = none) ∧
        ∃ start step, Op.create scope start step ∈ between ∧ step ≠ 0 := by
  have hsplit : before ++ Op.next scope :: between = (before ++ [.next scope]) ++ between := by simp
  rw [hsplit, refuses_iff, List.append_assoc, origin?_append]
  rcases refuses_iff.mp h with hnone | ⟨p, hp, hfull⟩
  · rw [hnone, Option.none_or]
    have hunknown := hnone
    rw [origin?_next, Option.or_eq_none_iff] at hunknown
    cases hfirst : origin? auto (between ++ [.next scope]) scope with
    | none => exact .inl (.inl rfl)
    | some p =>
      refine .inr ⟨hunknown, ?_⟩
      rw [origin?_next, hunknown.2, Option.or_none] at hfirst
      exact exists_create_of_origin? hfirst
  · refine .inl (.inr ⟨p, by rw [hp, Option.some_or], fun hfits => hfull ?_⟩)
    rw [List.append_assoc, drawn_append, List.length_append] at hfits
    exact FitsInt64.of_le (by omega) (fitsInt64_toInt p.next) hfits

theorem answer_create_eq_created_iff {start step : Int64} :
    answer ⟨[], auto⟩ before (.create scope start step) = .created ↔
      step ≠ 0 ∧ origin? auto before scope = none := by
  have hnone := (tracked_after auto before scope).eq_none_iff
  unfold answer
  rw [run_create, ← hnone]
  split_ifs with hzero hsome
  · simp [hzero]
  · simpa [Option.isSome_iff_ne_none] using fun _ => Option.isSome_iff_ne_none.mp hsome
  · simpa [hzero] using hsome

/-- A scope is not registered twice. -/
theorem after_create_of_registered (start step : Int64) (h : origin? auto before scope ≠ none) :
    after ⟨[], auto⟩ (before ++ [.create scope start step]) = after ⟨[], auto⟩ before := by
  have hsome : ((after ⟨[], auto⟩ before).find? scope).isSome := by
    rw [Option.isSome_iff_ne_none]
    exact mt (tracked_after auto before scope).eq_none_iff.mp h
  rw [after_concat, run_create]
  split_ifs <;> rfl

/-- The sequences of a registry are exact progressions, one for each scope, in any interleaving of
operations. Key by key a scope gives out the numbers of its first registration, without wrapping. It
refuses a key exactly if it is unknown and not created on the spot, or if the number behind the key
does not fit 64 bits. After that it refuses all keys, unless it was unknown and is created
meanwhile, and the other scopes answer as if it had not been asked. A scope is created exactly if it
is not registered and does not stand still, and one that is registered stays as it is. -/
theorem keys_keep_to_progressions (auto : Option Progression) (before : List Op) (scope : String) :
    (∀ (k : Nat) (key : Int64), (drawn scope ⟨[], auto⟩ before)[k]? = some key →
      ∃ p, origin? auto before scope = some p ∧ key.toInt = p.value k) ∧
    (∀ key : Int64, answer ⟨[], auto⟩ before (.next scope) = .key key ↔
      ∃ p, origin? auto (before ++ [.next scope]) scope = some p ∧
        FitsInt64 (p.value ((drawn scope ⟨[], auto⟩ before).length + 1)) ∧
        key.toInt = p.value (drawn scope ⟨[], auto⟩ before).length) ∧
    (Refuses auto before scope ↔
      (origin? auto before scope = none ∧ auto = none) ∨
        ∃ p, origin? auto (before ++ [.next scope]) scope = some p ∧
          ¬FitsInt64 (p.value ((drawn scope ⟨[], auto⟩ before).length + 1))) ∧
    (Refuses auto before scope → ∀ between,
      (Refuses auto (before ++ .next scope :: between) scope ∨
        (origin? auto before scope = none ∧ auto = none) ∧
          ∃ start step, Op.create scope start step ∈ between ∧ step ≠ 0) ∧
      ∀ op, op.scope ≠ scope →
        answer ⟨[], auto⟩ (before ++ .next scope :: between) op =
          answer ⟨[], auto⟩ (before ++ between) op) ∧
    ∀ start step,
      (answer ⟨[], auto⟩ before (.create scope start step) = .created ↔
        step ≠ 0 ∧ origin? auto before scope = none) ∧
      (origin? auto before scope ≠ none →
        after ⟨[], auto⟩ (before ++ [.create scope start step]) = after ⟨[], auto⟩ before) := by
  refine ⟨fun k key => (tracked_after auto before scope).key_eq,
    fun key => answer_next_eq_key_iff, ?_, ?_, ?_⟩
  · rw [refuses_iff, origin?_next, Option.or_eq_none_iff]
  · intro hrefuses between
    exact ⟨hrefuses.stays between, fun op hop => answer_skipping _ before between hop⟩
  · intro start step
    exact ⟨answer_create_eq_created_iff, after_create_of_registered start step⟩

/-- A scope with room for one key, and an unknown one. -/
def almostExhausted : List Op :=
  [.create "shop.orders" 9223372036854775800 5, .next "shop.users", .next "shop.orders"]

theorem last_key_is_held_back :
    drawn "shop.orders" ⟨[], none⟩ almostExhausted = [9223372036854775800] ∧
    Refuses none almostExhausted "shop.orders" ∧
    Refuses none (almostExhausted ++ .next "shop.orders" :: [.create "shop.orders" 1 1])
      "shop.orders" ∧
    answer ⟨[], none⟩ (almostExhausted ++ [.next "shop.orders"]) (.create "shop.users" 1 1) =
      answer ⟨[], none⟩ almostExhausted (.create "shop.users" 1 1) := by
  obtain ⟨-, -, hrefuses, hstays, -⟩ := keys_keep_to_progressions none almostExhausted "shop.orders"
  have horigin : origin? none almostExhausted "shop.orders" = some ⟨9223372036854775800, 5⟩ := by
    decide
  have hfull : Refuses none almostExhausted "shop.orders" :=
    hrefuses.mpr (.inr ⟨⟨9223372036854775800, 5⟩, by decide, by decide⟩)
  refine ⟨by decide, hfull, ?_, ?_⟩
  · refine (hstays hfull [.create "shop.orders" 1 1]).1.resolve_right fun hunknown => ?_
    rw [horigin] at hunknown
    cases hunknown.1.1
  · have hother := (hstays hfull []).2 (.create "shop.users" 1 1) (by decide)
    rwa [List.append_nil] at hother

end Registry

end ShardedSql
