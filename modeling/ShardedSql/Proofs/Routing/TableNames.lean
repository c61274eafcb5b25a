import ShardedSql.Proofs.Routing.AcceptedRules
import ShardedSql.Proofs.Text.Decimal

namespace ShardedSql.Routing

open Text (sameName sameName_iff sameName_comm lower lower_append lower_decimal decimal)

namespace Rule

variable {r s : Rule} {db db' : String} {n m : Nat}

theorem isFor_comm (r s : Rule) : r.isFor s.db s.table = s.isFor r.db r.table := by
  rw [isFor, isFor, sameName_comm r.db, sameName_comm r.table]

theorem lower_shard_table (r : Rule) (db : String) (n : Nat) :
    lower (r.shard db n).table = lower r.table ++ ("_" ++ decimal n) := by
  rw [shard, String.append_assoc, lower_append, lower_append, lower_decimal]
  rfl

/-- The name of a shard tells the name of its table and its index: the index stands behind the last
underscore, whatever the name of the table ends in. -/
theorem sameName_table_of_shard (h : sameName (r.shard db n).table (s.shard db' m).table = true) :
    sameName r.table s.table = true ∧ n = m := by
  rw [sameName_iff, lower_shard_table, lower_shard_table] at h
  obtain rfl : n = m := Text.number_eq_of_append h
  exact ⟨(sameName_iff _ _).mpr ((String.append_left_inj _).mp h), rfl⟩

end Rule

namespace RuleTable

variable {rules : RuleTable}

/-- No two rules of a table are for the same names. -/
theorem Grown.pairwise_isFor (h : rules.Grown) :
    rules.rules.Pairwise fun r s => ¬r.isFor s.db s.table = true := by
  induction h with
  | empty => exact List.Pairwise.nil
  | @add rules rules' r grown added ih =>
    have hvalid : r.Valid := Rule.check_eq_ok_iff.mp (add_eq_ok added).1
    rw [add_of_valid hvalid] at added
    split at added
    · cases added
    next hfind =>
      cases added
      refine List.pairwise_append.mpr ⟨ih, List.pairwise_singleton _ _, fun s hs t ht => ?_⟩
      obtain rfl := List.mem_singleton.mp ht
      exact List.find?_eq_none.mp hfind s hs

theorem Grown.eq_of_isFor {i j : Nat} {r s : Rule} (h : rules.Grown)
    (hr : rules.rules[i]? = some r) (hs : rules.rules[j]? = some s)
    (hfor : r.isFor s.db s.table = true) : i = j := by
  obtain ⟨hi, rfl⟩ := List.getElem?_eq_some_iff.mp hr
  obtain ⟨hj, rfl⟩ := List.getElem?_eq_some_iff.mp hs
  have hpairwise := List.pairwise_iff_getElem.mp h.pairwise_isFor
  rcases Nat.lt_trichotomy i j with hlt | heq | hgt
  · exact absurd hfor (hpairwise i j hi hj hlt)
  · exact heq
  · rw [Rule.isFor_comm] at hfor
    exact absurd hfor (hpairwise j i hj hi hgt)

/-- Shards of one logical database share the name of their table only where they are one shard of
one rule, also if the name of the logical table ends in an underscore and digits. -/
theorem sameName_table_shards_iff {offered : List Rule} {i j : Nat} {r s : Rule}
    (hr : (offerAll offered).rules[i]? = some r) (hs : (offerAll offered).rules[j]? = some s)
    (hdb : sameName r.db s.db = true) (db db' : String) (n m : Nat) :
    sameName (r.shard db n).table (s.shard db' m).table = true ↔ i = j ∧ n = m := by
  constructor
  · intro htable
    obtain ⟨hnames, hindex⟩ := Rule.sameName_table_of_shard htable
    have hfor : r.isFor s.db s.table = true := by rw [Rule.isFor, hdb, hnames, Bool.and_self]
    exact ⟨(grown_offerAll offered).eq_of_isFor hr hs hfor, hindex⟩
  · rintro ⟨rfl, rfl⟩
    obtain rfl : r = s := Option.some.inj (hr.symm.trans hs)
    exact Text.sameName_refl _

/-- The orders of a year, beside all orders. -/
def ordersOfYear : Rule := { ordersById with db := "SHOP", table := "Orders_2024" }

theorem orders_of_year_are_apart :
    (offerAll [ordersById, ordersOfYear]).rules[0]? = some ordersById ∧
    (offerAll [ordersById, ordersOfYear]).rules[1]? = some ordersOfYear ∧
    sameName ordersById.db ordersOfYear.db = true ∧
    ¬sameName (ordersById.shard "shop" 3).table (ordersOfYear.shard "shop" 3).table = true := by
  have hr : (offerAll [ordersById, ordersOfYear]).rules[0]? = some ordersById := by decide
  have hs : (offerAll [ordersById, ordersOfYear]).rules[1]? = some ordersOfYear := by decide
  have hdb : sameName ordersById.db ordersOfYear.db = true := by decide
  refine ⟨hr, hs, hdb, fun htable => ?_⟩
  have hplaces := (sameName_table_shards_iff hr hs hdb "shop" "shop" 3 3).mp htable
  exact absurd hplaces.1 (by decide)

end RuleTable

end ShardedSql.Routing
