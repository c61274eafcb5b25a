import ShardedSql.Proofs.Planning.OneTable

namespace ShardedSql.Planning

open Routing (KeyHint KeyValue Rule RuleTable Shard ordersById)
open Sql (Expr Statement TableRef)

/-- The truth values of SQL. -/
inductive Truth where
  | yes | no | unknown
  deriving DecidableEq, Repr

namespace Truth

def and : Truth → Truth → Truth
  | no, _ | _, no => no
  | yes, yes => yes
  | _, _ => unknown

def or : Truth → Truth → Truth
  | yes, _ | _, yes => yes
  | no, no => no
  | _, _ => unknown

theorem and_eq_yes {a b : Truth} : a.and b = yes ↔ a = yes ∧ b = yes := by
  cases a <;> cases b <;> decide

theorem or_eq_yes {a b : Truth} : a.or b = yes ↔ a = yes ∨ b = yes := by
  cases a <;> cases b <;> decide

end Truth

namespace ShardedTable

/-- The conditions that compare the shard key with literals, and the values of the literals. -/
inductive KeyTest (t : ShardedTable) : Expr → List KeyValue → Prop
  | keyEqual {c lit : Expr} {v : KeyValue} (hc : t.isKeyColumn c = true)
      (hv : literalValue? lit = some v) : KeyTest t (.binary c .equal lit) [v]
  | equalKey {c lit : Expr} {v : KeyValue} (hc : t.isKeyColumn c = true)
      (hv : literalValue? lit = some v) : KeyTest t (.binary lit .equal c) [v]
  | keyIn {c : Expr} {items : List Expr} {vs : List KeyValue} (hc : t.isKeyColumn c = true)
      (hvs : items.mapM literalValue? = some vs) : KeyTest t (.inList c items false) vs

/-- Whether a condition is made of others by AND, OR or parentheses. -/
def isConnective : Expr → Bool
  | .paren _ | .binary _ .and _ | .binary _ .or _ => true
  | _ => false

/-- The truth values that a condition may have for a row with the key `k`. A test of the key is
true if and only if one of its literals denotes the key. It may have any value if no shard can own
one of them, and so may every other condition without a connective. -/
inductive MayBe (t : ShardedTable) (r : Rule) (k : KeyValue) : Expr → Truth → Prop
  | paren {e : Expr} {a : Truth} (h : MayBe t r k e a) : MayBe t r k (.paren e) a
  | and {l e : Expr} {a b : Truth} (hl : MayBe t r k l a) (he : MayBe t r k e b) :
      MayBe t r k (.binary l .and e) (a.and b)
  | or {l e : Expr} {a b : Truth} (hl : MayBe t r k l a) (he : MayBe t r k e b) :
      MayBe t r k (.binary l .or e) (a.or b)
  | test {e : Expr} {vs : List KeyValue} {a : Truth} (he : KeyTest t e vs)
      (ha : (∀ v ∈ vs, r.Places v) → (a = .yes ↔ ∃ v ∈ vs, r.SameKey v k)) : MayBe t r k e a
  | other {e : Expr} {a : Truth} (he : isConnective e = false) (hn : ∀ vs, ¬KeyTest t e vs) :
      MayBe t r k e a

/-- A condition loses a shard if it pins key values and each of them leads elsewhere. Where both
sides of AND pin values, only the values that are spelled alike on both sides stay, or those of the
left side if there are none. -/
inductive Loses (t : ShardedTable) (r : Rule) (n : Nat) : Expr → Prop
  | paren {e : Expr} (h : Loses t r n e) : Loses t r n (.paren e)
  | test {e : Expr} {vs : List KeyValue} (he : KeyTest t e vs) (h : ∀ v ∈ vs, ¬r.Leads n v) :
      Loses t r n e
  | or {l e : Expr} (hl : Loses t r n l) (he : Loses t r n e) : Loses t r n (.binary l .or e)
  | andLeft {l e : Expr} (hl : Loses t r n l) (he : t.hintOf e = .all) :
      Loses t r n (.binary l .and e)
  | andRight {l e : Expr} (hl : t.hintOf l = .all) (he : Loses t r n e) :
      Loses t r n (.binary l .and e)
  | andApart {l e : Expr} {as bs : List KeyValue} (hl : t.hintOf l = .values as)
      (he : t.hintOf e = .values bs) (h : ∀ v ∈ as, v ∉ bs) (hn : ∀ v ∈ as, ¬r.Leads n v) :
      Loses t r n (.binary l .and e)
  | andShared {l e : Expr} {as bs : List KeyValue} (hl : t.hintOf l = .values as)
      (he : t.hintOf e = .values bs) (h : ∃ v ∈ as, v ∈ bs)
      (hn : ∀ v ∈ as, v ∈ bs → ¬r.Leads n v) : Loses t r n (.binary l .and e)

/-- A condition drops a shard if an AND in it does: both sides pin values that lead there, they
share the spelling of some value, and every value whose spelling they share leads elsewhere. -/
inductive Drops (t : ShardedTable) (r : Rule) (n : Nat) : Expr → Prop
  | here {l e : Expr} {as bs : List KeyValue} (hl : t.hintOf l = .values as)
      (he : t.hintOf e = .values bs) (ha : ∃ v ∈ as, r.Leads n v) (hb : ∃ v ∈ bs, r.Leads n v)
      (h : ∃ v ∈ as, v ∈ bs) (hn : ∀ v ∈ as, v ∈ bs → ¬r.Leads n v) :
      Drops t r n (.binary l .and e)
  | paren {e : Expr} (h : Drops t r n e) : Drops t r n (.paren e)
  | andLeft {l e : Expr} (h : Drops t r n l) : Drops t r n (.binary l .and e)
  | andRight {l e : Expr} (h : Drops t r n e) : Drops t r n (.binary l .and e)
  | orLeft {l e : Expr} (h : Drops t r n l) : Drops t r n (.binary l .or e)
  | orRight {l e : Expr} (h : Drops t r n e) : Drops t r n (.binary l .or e)

variable {t : ShardedTable} {r : Rule} {k : KeyValue} {n : Nat}

theorem hintOf_test {e : Expr} {vs : List KeyValue} (h : KeyTest t e vs) :
    t.hintOf e = .values vs := by
  cases h with
  | keyEqual hc hv => simp [hintOf, hc, hv, KeyHint.ofValues?]
  | @equalKey c lit v hc hv =>
    have hl : t.isKeyColumn lit = false := by
      cases lit <;> first | rfl | simp [literalValue?] at hv
    simp [hintOf, hc, hv, hl, KeyHint.ofValues?]
  | keyIn hc hvs => simp [hintOf, hc, hvs, KeyHint.ofValues?]

/-- A condition that is neither a test of the key nor made of others pins nothing. -/
theorem hintOf_other {e : Expr} (he : isConnective e = false) (hn : ∀ vs, ¬KeyTest t e vs) :
    t.hintOf e = .all := by
  unfold hintOf
  split
  · simp [isConnective] at he
  · simp [isConnective] at he
  · simp [isConnective] at he
  · next l r =>
    split
    · next hl =>
      cases hv : literalValue? r with
      | none => rfl
      | some v => exact absurd (.keyEqual hl hv) (hn _)
    · split
      · next hr =>
        cases hv : literalValue? l with
        | none => rfl
        | some v => exact absurd (.equalKey hr hv) (hn _)
      · rfl
  · next e items =>
    split
    · next hk =>
      cases hvs : items.mapM literalValue? with
      | none => rfl
      | some vs => exact absurd (.keyIn hk hvs) (hn _)
    · rfl
  · rfl

/-- Induction over the connectives of a condition. -/
theorem connective_induction {P : Expr → Prop} (paren : ∀ e, P e → P (.paren e))
    (and : ∀ l e, P l → P e → P (.binary l .and e)) (or : ∀ l e, P l → P e → P (.binary l .or e))
    (leaf : ∀ e, isConnective e = false → P e) : ∀ e, P e
  | .paren e => paren e (connective_induction paren and or leaf e)
  | .binary l .and e => and l e (connective_induction paren and or leaf l)
      (connective_induction paren and or leaf e)
  | .binary l .or e => or l e (connective_induction paren and or leaf l)
      (connective_induction paren and or leaf e)
  | .binary _ .equal _ | .binary _ .nullSafeEqual _ | .binary _ .notEqual _ | .binary _ .less _
  | .binary _ .lessEqual _ | .binary _ .greater _ | .binary _ .greaterEqual _ | .binary _ .plus _
  | .binary _ .minus _ | .binary _ .times _ | .binary _ .divide _ | .binary _ .modulo _ => leaf _ rfl
  | .column _ | .literal _ | .placeholder | .var _ | .defaultValue | .star | .not _ | .negate _
  | .inList .. | .between .. | .isNull .. | .like .. | .call .. => leaf _ rfl

theorem not_reaches_values {vs : List KeyValue} :
    ¬r.Reaches n (.values vs) ↔ ∀ v ∈ vs, ¬r.Leads n v := by
  simp [Rule.Reaches]

theorem reaches_either {h h' : KeyHint} :
    r.Reaches n (h.either h') ↔ r.Reaches n h ∨ r.Reaches n h' := by
  cases h with
  | all => exact iff_of_true (r.reaches_all n) (.inl (r.reaches_all n))
  | values as =>
    cases h' with
    | all => exact iff_of_true (r.reaches_all n) (.inr (r.reaches_all n))
    | values bs => simp [KeyHint.either, Rule.Reaches, or_and_right, exists_or]

theorem both_values_apart {as bs : List KeyValue} (h : ∀ v ∈ as, v ∉ bs) :
    (KeyHint.values as).both (.values bs) = .values as := by
  have hnil : as.filter (fun v => decide (v ∈ bs)) = [] := by simpa using h
  simp only [KeyHint.both, hnil, if_true]

theorem both_values_shared {as bs : List KeyValue} (h : ∃ v ∈ as, v ∈ bs) :
    (KeyHint.values as).both (.values bs) = .values (as.filter fun v => decide (v ∈ bs)) := by
  have hne : as.filter (fun v => decide (v ∈ bs)) ≠ [] := by simpa using h
  simp only [KeyHint.both, hne, if_false]

/-- A condition loses exactly the shards that pruning leaves out. -/
theorem loses_iff (e : Expr) : t.Loses r n e ↔ ¬r.Reaches n (t.hintOf e) := by
  constructor
  · intro h
    induction h with
    | paren _ ih => exact ih
    | test he h => rw [hintOf_test he]; exact not_reaches_values.mpr h
    | or _ _ ihl ihe =>
      rw [hintOf, reaches_either]
      exact not_or.mpr ⟨ihl, ihe⟩
    | @andLeft l e _ he ih =>
      simp only [hintOf, he]
      cases hl : t.hintOf l <;> simpa only [KeyHint.both, hl] using ih
    | andRight hl _ ih => simpa only [hintOf, hl, KeyHint.both] using ih
    | andApart hl he h hn =>
      simp only [hintOf, hl, he]
      rw [both_values_apart h]
      exact not_reaches_values.mpr hn
    | andShared hl he h hn =>
      simp only [hintOf, hl, he]
      rw [both_values_shared h, not_reaches_values]
      intro v hv
      obtain ⟨ha, hb⟩ := List.mem_filter.mp hv
      exact hn v ha (of_decide_eq_true hb)
  · induction e using connective_induction with
    | paren e ih => exact fun h => .paren (ih h)
    | and l e ihl ihe =>
      intro h
      simp only [hintOf] at h
      cases hl : t.hintOf l with
      | all =>
        refine .andRight hl (ihe ?_)
        simpa only [hl, KeyHint.both] using h
      | values as =>
        cases he : t.hintOf e with
        | all =>
          refine .andLeft (ihl ?_) he
          simpa only [hl, he, KeyHint.both] using h
        | values bs =>
          rw [hl, he] at h
          by_cases hs : ∃ v ∈ as, v ∈ bs
          · rw [both_values_shared hs, not_reaches_values] at h
            exact .andShared hl he hs fun v ha hb => h v (by simp [ha, hb])
          · have hs' : ∀ v ∈ as, v ∉ bs := by simpa using hs
            rw [both_values_apart hs', not_reaches_values] at h
            exact .andApart hl he hs' h
    | or l e ihl ihe =>
      intro h
      rw [hintOf, reaches_either] at h
      obtain ⟨hl, he⟩ := not_or.mp h
      exact .or (ihl hl) (ihe he)
    | leaf e he =>
      intro h
      by_cases ht : ∃ vs, KeyTest t e vs
      · obtain ⟨vs, hvs⟩ := ht
        rw [hintOf_test hvs, not_reaches_values] at h
        exact .test hvs h
      · rw [hintOf_other he fun vs hvs => ht ⟨vs, hvs⟩] at h
        exact absurd (r.reaches_all n) h

/-- A condition that can be true for a key loses its shard only where an AND drops it. -/
theorem drops_of_loses {e : Expr} {a : Truth} (hk : r.indexOf k = .ok n) (h : t.MayBe r k e a)
    (ha : a = .yes) (hl : t.Loses r n e) : t.Drops r n e := by
  induction h with
  | paren _ ih =>
    cases hl with
    | paren hl => exact .paren (ih ha hl)
    | test he => cases he
  | @and l e _ _ _ _ ihl ihe =>
    obtain ⟨rfl, rfl⟩ := Truth.and_eq_yes.mp ha
    by_cases hll : t.Loses r n l
    · exact .andLeft (ihl rfl hll)
    by_cases hle : t.Loses r n e
    · exact .andRight (ihe rfl hle)
    have hrl : r.Reaches n (t.hintOf l) := by rw [loses_iff] at hll; exact Classical.not_not.mp hll
    have hre : r.Reaches n (t.hintOf e) := by rw [loses_iff] at hle; exact Classical.not_not.mp hle
    cases hl with
    | test he => cases he
    | andLeft h _ => exact absurd h hll
    | andRight _ h => exact absurd h hle
    | andApart h _ _ hn =>
      rw [h] at hrl
      obtain ⟨v, hv, hlead⟩ := hrl
      exact absurd hlead (hn v hv)
    | andShared h h' hs hn =>
      rw [h] at hrl
      rw [h'] at hre
      exact .here h h' hrl hre hs hn
  | @or l e _ _ _ _ ihl ihe =>
    cases hl with
    | test he => cases he
    | or hll hle =>
      rcases Truth.or_eq_yes.mp ha with rfl | rfl
      · exact .orLeft (ihl rfl hll)
      · exact .orRight (ihe rfl hle)
  | @test e vs _ he hyes =>
    rw [loses_iff, hintOf_test he, not_reaches_values] at hl
    have hp : ∀ v ∈ vs, r.Places v := fun v hv =>
      Classical.byContradiction fun hnot => hl v hv (Rule.leads_of_not_places hnot)
    obtain ⟨v, hv, hsame⟩ := (hyes hp).mp ha
    exact absurd (Rule.leads_of_sameKey hsame hk) (hl v hv)
  | other he hn =>
    rw [loses_iff, hintOf_other he hn] at hl
    exact absurd (r.reaches_all n) hl

theorem both_ne_nil {h h' : KeyHint} (hl : h ≠ .values []) (hr : h' ≠ .values []) :
    h.both h' ≠ .values [] := by
  cases h with
  | all => exact hr
  | values as =>
    cases h' with
    | all => exact hl
    | values bs =>
      by_cases hs : ∃ v ∈ as, v ∈ bs
      · rw [both_values_shared hs]
        simpa using hs
      · rw [both_values_apart (by simpa using hs)]
        exact hl

theorem either_ne_nil {h h' : KeyHint} (hne : h ≠ .values [] ∨ h' ≠ .values []) :
    h.either h' ≠ .values [] := by
  cases h with
  | all => simp [KeyHint.either]
  | values as =>
    cases h' with
    | all => simp [KeyHint.either]
    | values bs =>
      have hvalue : ∃ v, v ∈ as ++ bs := by
        rcases hne with hne | hne
        · obtain ⟨v, hv⟩ := List.exists_mem_of_ne_nil as (by simpa using hne)
          exact ⟨v, List.mem_append_left bs hv⟩
        · obtain ⟨v, hv⟩ := List.exists_mem_of_ne_nil bs (by simpa using hne)
          exact ⟨v, List.mem_append_right as hv⟩
      obtain ⟨v, hv⟩ := hvalue
      have hne' : (as ++ bs).eraseDups ≠ [] := List.ne_nil_of_mem (List.mem_eraseDups.mpr hv)
      simpa [KeyHint.either] using hne'

/-- A condition that can be true for a key never pins the empty list of values. -/
theorem hintOf_ne_nil {e : Expr} {a : Truth} (h : t.MayBe r k e a) (ha : a = .yes) :
    t.hintOf e ≠ .values [] := by
  induction h with
  | paren _ ih => exact ih ha
  | @and l e _ _ _ _ ihl ihe =>
    obtain ⟨rfl, rfl⟩ := Truth.and_eq_yes.mp ha
    exact both_ne_nil (ihl rfl) (ihe rfl)
  | or _ _ ihl ihe => exact either_ne_nil ((Truth.or_eq_yes.mp ha).imp ihl ihe)
  | @test e vs _ he hyes =>
    rw [hintOf_test he]
    rintro ⟨⟩
    obtain ⟨v, hv, _⟩ := (hyes (by simp)).mp ha
    simp at hv
  | other he hn =>
    rw [hintOf_other he hn]
    simp

end ShardedTable

/-- A SELECT, UPDATE or DELETE on one table whose condition can be true for a row is sent to the
shard of the row, where an INSERT puts it, exactly if its condition does not lose that shard. Only
an AND that drops the shard makes a condition lose it. -/
theorem mem_planned_shards_iff {σ : Type} (rules : RuleTable) (nextKey : String → Planner σ Int64)
    (config : Config) (stmt : Statement) (db sql : String) (st : σ) (ref : TableRef)
    (condition : Expr) (r : Rule) (k : KeyValue) (home : Shard) (others : List Shard)
    (hstmt : onlyTable? stmt = some (ref, some condition))
    (hfind : rules.find? (ref.table.schema.getD db) ref.table.name = some r)
    (hcheck : r.check = .ok ())
    (hset : ∀ a ∈ assignmentsOf stmt, (ShardedTable.ofRef ref db r).isKey a.column = false)
    (hhome : rules.route (ref.table.schema.getD db) ref.table.name (.values [k]) =
      .ok (home :: others))
    (hyes : (ShardedTable.ofRef ref db r).MayBe r k condition .yes) :
    ∃ (p : Plan) (shards : List Shard),
      (plan (Services.ofRules rules nextKey) config stmt db sql).outcome st = (.ok p, st) ∧
      p.routing.calls.Perm
        (shards.map (callOn stmt db (ShardedTable.ofRef ref db r) shards.length)) ∧
      (home ∈ shards ↔ ¬(ShardedTable.ofRef ref db r).Loses r home.index condition) ∧
      ((ShardedTable.ofRef ref db r).Loses r home.index condition →
        (ShardedTable.ofRef ref db r).Drops r home.index condition) := by
  obtain ⟨hindex, hshard⟩ := RuleTable.indexOf_of_route hfind hhome
  have hcount := Routing.Rule.count_ne_zero_of_check hcheck
  have hsome := Routing.Rule.exists_reaches hcount (ShardedTable.hintOf_ne_nil hyes rfl)
  obtain ⟨p, ns, -, hmem, hplan, hrouting⟩ :=
    plan_onlyTable nextKey hstmt hfind hcount hset hsome config sql st
  refine ⟨p, ns.map (r.shard (ref.table.schema.getD db)), hplan, ?_, ?_,
    ShardedTable.drops_of_loses hindex hyes rfl⟩
  · rw [hrouting, List.length_map, List.map_map]
    exact RoutingMap.perm_ofCalls _
  · rw [ShardedTable.loses_iff, Classical.not_not]
    have hlt := Routing.Rule.indexOf_lt hcount hindex
    constructor
    · intro h
      obtain ⟨n, hn, he⟩ := List.mem_map.mp h
      have hi : n = home.index := congrArg Shard.index he
      exact hi ▸ ((hmem n).mp hn).2
    · intro h
      exact List.mem_map.mpr ⟨home.index, (hmem _).mpr ⟨hlt, h⟩, hshard.symm⟩

def ordersTable : ShardedTable := ⟨"shop", "orders", none, "id"⟩

def idIn (items : List Expr) : Expr := .inList (.column ⟨none, "id"⟩) items false

def deleteWhere (condition : Expr) : Statement := .delete ⟨⟨none, "orders"⟩, some condition, none⟩

theorem mayBe_idIn_one (items : List Expr) {vs : List KeyValue}
    (hvs : items.mapM literalValue? = some vs)
    (h : ∃ v ∈ vs, ordersById.SameKey v (.int 1)) :
    ordersTable.MayBe ordersById (.int 1) (idIn items) .yes :=
  .test (.keyIn (by decide) hvs) fun _ => ⟨fun _ => h, fun _ => rfl⟩

/-- `id IN (1, '2') AND id IN (1, 3)` shares the spelling of 1. -/
theorem shared_spelling_is_sent_home :
    ∃ (p : Plan) (shards : List Shard),
      (plan (Services.ofRules ⟨[ordersById]⟩ fun _ => throw .cancelled) .standard
        (deleteWhere (.binary (idIn [.literal (.integer 1), .literal (.text "2")]) .and
          (idIn [.literal (.integer 1), .literal (.integer 3)]))) "shop" "").outcome () =
        (.ok p, ()) ∧
      p.routing.calls.Perm (shards.map (callOn
        (deleteWhere (.binary (idIn [.literal (.integer 1), .literal (.text "2")]) .and
          (idIn [.literal (.integer 1), .literal (.integer 3)]))) "shop" ordersTable
            shards.length)) ∧
      ⟨"slice-0", "shop", "orders_1", 1⟩ ∈ shards := by
  have hyes := ShardedTable.MayBe.and
    (mayBe_idIn_one [.literal (.integer 1), .literal (.text "2")] rfl
      ⟨.int 1, by simp, 1, rfl, rfl⟩)
    (mayBe_idIn_one [.literal (.integer 1), .literal (.integer 3)] rfl
      ⟨.int 1, by simp, 1, rfl, rfl⟩)
  obtain ⟨p, shards, hplan, hcalls, hhome, -⟩ := mem_planned_shards_iff ⟨[ordersById]⟩
    (fun _ => throw .cancelled) .standard
    (deleteWhere (.binary (idIn [.literal (.integer 1), .literal (.text "2")]) .and
      (idIn [.literal (.integer 1), .literal (.integer 3)]))) "shop" "" ()
    ⟨⟨none, "orders"⟩, none⟩ _ ordersById (.int 1) ⟨"slice-0", "shop", "orders_1", 1⟩ []
    rfl rfl rfl (by simp [assignmentsOf, deleteWhere]) rfl hyes
  refine ⟨p, shards, hplan, hcalls, hhome.mpr ?_⟩
  have hhint : ordersTable.hintOf (.binary (idIn [.literal (.integer 1), .literal (.text "2")]) .and
      (idIn [.literal (.integer 1), .literal (.integer 3)])) = .values [.int 1] := rfl
  rw [ShardedTable.loses_iff, Classical.not_not]
  change ordersById.Reaches 1 (ordersTable.hintOf _)
  rw [hhint]
  exact ⟨.int 1, by simp, fun _ => rfl⟩

/-- `id IN (1, '2') AND id IN ('1', '2')` can be true for the key 1, which the two sides spell
differently. Its rows lie on shard 1, and only shard 2 is asked. -/
theorem other_spelling_is_not_sent_home :
    ordersById.check = .ok () ∧
    RuleTable.route ⟨[ordersById]⟩ "shop" "orders" (.values [.int 1]) =
      .ok [⟨"slice-0", "shop", "orders_1", 1⟩] ∧
    ordersTable.MayBe ordersById (.int 1)
      (.binary (idIn [.literal (.integer 1), .literal (.text "2")]) .and
        (idIn [.literal (.text "1"), .literal (.text "2")])) .yes ∧
    (plan (Services.ofRules ⟨[ordersById]⟩ fun _ => throw .cancelled) .standard
      (deleteWhere (.binary (idIn [.literal (.integer 1), .literal (.text "2")]) .and
        (idIn [.literal (.text "1"), .literal (.text "2")]))) "shop" "").outcome () =
      (.ok (.delete ⟨[⟨"slice-0", "shop",
        "DELETE FROM orders_2 WHERE id IN (1, '2') AND id IN ('1', '2')"⟩]⟩), ()) := by
  refine ⟨rfl, rfl, ?_, rfl⟩
  exact .and (mayBe_idIn_one _ rfl ⟨.int 1, by simp, 1, rfl, rfl⟩)
    (mayBe_idIn_one _ rfl ⟨.str "1", by simp, 1, rfl, rfl⟩)

end ShardedSql.Planning
