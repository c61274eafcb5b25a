import Mathlib.Algebra.GroupWithZero.Nat
import Mathlib.Data.List.Induction
import Mathlib.Data.Prod.Lex
import ShardedSql.Planning.RoutingMap
import ShardedSql.Proofs.Text.ByteOrder

namespace ShardedSql.Planning

open Text (bytes bytes_inj lt_iff_bytes_lt)

/-- Where a call goes to: the slice first, then the database. -/
def Call.place (c : Call) : String ×ₗ String := toLex (c.slice, c.db)

/-- Calls that run through the places upwards. -/
def Ordered (cs : List Call) : Prop := cs.Pairwise fun a b => a.place ≤ b.place

/-- Two calls in the order of the bytes of their slices and then of their databases. -/
def Call.InOrder (a b : Call) : Prop :=
  bytes a.slice < bytes b.slice ∨ bytes a.slice = bytes b.slice ∧ bytes a.db ≤ bytes b.db

namespace Call

variable {a b c : Call}

theorem place_eq_iff {slice db : String} :
    c.place = toLex (slice, db) ↔ c.slice = slice ∧ c.db = db := by
  rw [place, toLex_inj, Prod.mk.injEq]

theorem place_lt_iff : a.place < b.place ↔ a.slice < b.slice ∨ a.slice = b.slice ∧ a.db < b.db :=
  Prod.Lex.toLex_lt_toLex

theorem precedes_iff_place_lt : a.precedes b = true ↔ a.place < b.place := by
  simp [precedes, place_lt_iff]

theorem place_le_iff_inOrder : a.place ≤ b.place ↔ a.InOrder b := by
  have hdb : bytes a.db ≤ bytes b.db ↔ a.db ≤ b.db := by
    rw [← List.not_lt, ← lt_iff_bytes_lt, not_lt]
  rw [InOrder, ← lt_iff_bytes_lt, bytes_inj, hdb, place, place, Prod.Lex.toLex_le_toLex]

end Call

theorem mem_iff_of_filter_place {cs ds : List Call}
    (h : ∀ p, cs.filter (·.place = p) = ds.filter (·.place = p)) (c : Call) : c ∈ cs ↔ c ∈ ds := by
  have hc : c ∈ cs.filter (·.place = c.place) ↔ c ∈ ds.filter (·.place = c.place) := by rw [h]
  simpa [List.mem_filter] using hc

/-- Calls that are sorted by their places are determined by what goes to each place. -/
theorem eq_of_filter_place {cs ds : List Call} (hcs : Ordered cs) (hds : Ordered ds)
    (h : ∀ p, cs.filter (·.place = p) = ds.filter (·.place = p)) : cs = ds := by
  induction cs generalizing ds with
  | nil =>
    cases ds with
    | nil => rfl
    | cons d ds => exact absurd ((mem_iff_of_filter_place h d).mpr (by simp)) (by simp)
  | cons c cs ih =>
    cases ds with
    | nil => exact absurd ((mem_iff_of_filter_place h c).mp (by simp)) (by simp)
    | cons d ds =>
      obtain ⟨hc, hcs⟩ := List.pairwise_cons.mp hcs
      obtain ⟨hd, htail⟩ := List.pairwise_cons.mp hds
      have hcd : c.place ≤ d.place := by
        rcases List.mem_cons.mp ((mem_iff_of_filter_place h d).mpr (by simp)) with rfl | hmem
        · exact le_rfl
        · exact hc d hmem
      have hdc : d.place ≤ c.place := by
        rcases List.mem_cons.mp ((mem_iff_of_filter_place h c).mp (by simp)) with rfl | hmem
        · exact le_rfl
        · exact hd c hmem
      -- the first calls go to one place, so they come first of what goes there
      have hplace : d.place = c.place := le_antisymm hdc hcd
      have hfirst := h c.place
      rw [List.filter_cons_of_pos (by simp), List.filter_cons_of_pos (by simp [hplace])] at hfirst
      obtain rfl : c = d := (List.cons.inj hfirst).1
      refine congrArg (c :: ·) (ih hcs htail fun p => ?_)
      have hp := h p
      rw [List.filter_cons, List.filter_cons] at hp
      split at hp
      · exact (List.cons.inj hp).2
      · exact hp

/-- A call is put behind those of its own place, and what goes elsewhere stays as it is. -/
theorem filter_place_insertCall (c : Call) {ds : List Call} (hds : Ordered ds)
    (p : String ×ₗ String) :
    (insertCall c ds).filter (·.place = p) = (ds ++ [c]).filter (·.place = p) := by
  induction ds with
  | nil => rfl
  | cons d ds ih =>
    obtain ⟨hd, htail⟩ := List.pairwise_cons.mp hds
    unfold insertCall
    split
    next hcd =>
      rw [Call.precedes_iff_place_lt] at hcd
      by_cases hc : c.place = p
      · -- all that stands behind the call goes to later places
        have hnone : (d :: ds).filter (·.place = p) = [] := by
          simp only [List.filter_eq_nil_iff, decide_eq_true_eq, List.forall_mem_cons, ← hc]
          exact ⟨hcd.ne', fun e he => (hcd.trans_le (hd e he)).ne'⟩
        rw [List.filter_append, List.filter_cons, hnone, List.nil_append, List.filter_cons,
          List.filter_nil]
      · have hnone : [c].filter (·.place = p) = [] := by simpa using hc
        rw [List.filter_cons_of_neg (by simpa using hc), List.filter_append, hnone,
          List.append_nil]
    next => rw [List.cons_append, List.filter_cons, List.filter_cons, ih htail]

theorem ordered_insertCall (c : Call) {ds : List Call} (hds : Ordered ds) :
    Ordered (insertCall c ds) := by
  induction ds with
  | nil => exact List.pairwise_singleton _ _
  | cons d ds ih =>
    obtain ⟨hd, htail⟩ := List.pairwise_cons.mp hds
    unfold insertCall
    split
    next hcd =>
      rw [Call.precedes_iff_place_lt] at hcd
      refine List.pairwise_cons.mpr ⟨fun e he => ?_, hds⟩
      rcases List.mem_cons.mp he with rfl | he
      · exact hcd.le
      · exact hcd.le.trans (hd e he)
    next hcd =>
      rw [Call.precedes_iff_place_lt, not_lt] at hcd
      refine List.pairwise_cons.mpr ⟨fun e he => ?_, ih htail⟩
      rcases mem_insertCall.mp he with rfl | he
      · exact hcd
      · exact hd e he

namespace RoutingMap

theorem ordered_ofCalls (calls : List Call) : Ordered (ofCalls calls).calls := by
  induction calls using List.reverseRecOn with
  | nil => exact List.Pairwise.nil
  | append_singleton calls c ih =>
    rw [ofCalls, List.foldl_append]
    exact ordered_insertCall c ih

theorem filter_place_ofCalls (calls : List Call) (p : String ×ₗ String) :
    (ofCalls calls).calls.filter (·.place = p) = calls.filter (·.place = p) := by
  induction calls using List.reverseRecOn with
  | nil => rfl
  | append_singleton calls c ih =>
    rw [ofCalls, List.foldl_append]
    have hpush := filter_place_insertCall c (ordered_ofCalls calls) p
    rw [List.filter_append, ih, ← List.filter_append] at hpush
    exact hpush

theorem isEmpty_ofCalls (calls : List Call) : (ofCalls calls).isEmpty = true ↔ calls = [] := by
  rw [isEmpty, size_ofCalls, beq_iff_eq, List.length_eq_zero_iff]

end RoutingMap

/-- Statements by slice and then by database, in maps that are ordered by their keys. -/
structure Directory where
  slices : Std.TreeMap String (Std.TreeMap String (List String))

namespace Directory

def empty : Directory := ⟨∅⟩

/-- Puts a statement behind those of its slice and database. -/
def push (d : Directory) (c : Call) : Directory :=
  ⟨d.slices.alter c.slice fun dbs =>
    some ((dbs.getD ∅).alter c.db fun sqls => some (sqls.getD [] ++ [c.sql]))⟩

def ofCalls (calls : List Call) : Directory := calls.foldl push empty

/-- The statements for one database of a slice. -/
def get? (d : Directory) (slice db : String) : Option (List String) :=
  d.slices[slice]?.bind (·[db]?)

/-- The statements in the order of the keys, those of one database as they were put there. -/
def entries (d : Directory) : List Call :=
  d.slices.toList.flatMap fun (slice, dbs) =>
    dbs.toList.flatMap fun (db, sqls) => sqls.map fun sql => ⟨slice, db, sql⟩

def size (d : Directory) : Nat :=
  (d.slices.toList.flatMap fun (_, dbs) => dbs.toList.map fun (_, sqls) => sqls.length).sum

theorem length_entries (d : Directory) : d.entries.length = d.size := by
  simp only [entries, size, List.length_flatMap, List.length_map]
  simp only [List.flatMap_def, List.sum_flatten, List.map_map]
  rfl

theorem get?_push (d : Directory) (c : Call) (slice db : String) :
    (d.push c).get? slice db =
      if c.place = toLex (slice, db) then some ((d.get? slice db).getD [] ++ [c.sql])
      else d.get? slice db := by
  simp only [get?, push, Std.TreeMap.getElem?_alter, compare_eq_iff_eq, Call.place_eq_iff]
  by_cases hslice : c.slice = slice
  · subst hslice
    simp only [reduceIte, Option.bind_some, Std.TreeMap.getElem?_alter, compare_eq_iff_eq,
      true_and]
    cases d.slices[c.slice]? with
    | none => by_cases hdb : c.db = db <;> simp [hdb]
    | some dbs => by_cases hdb : c.db = db <;> simp [hdb]
  · simp [hslice]

theorem getD_get?_ofCalls (calls : List Call) (slice db : String) :
    ((ofCalls calls).get? slice db).getD [] =
      (calls.filter (·.place = toLex (slice, db))).map (·.sql) := by
  induction calls using List.reverseRecOn with
  | nil => rfl
  | append_singleton calls c ih =>
    rw [ofCalls, List.foldl_append, List.foldl_cons, List.foldl_nil, ← ofCalls, get?_push]
    by_cases hc : c.place = toLex (slice, db)
    · simp [hc, ih]
    · simp [hc, ih]

/-- Of an ordered map only the value at one key counts where the others give nothing. -/
theorem flatMap_toList_eq {β γ : Type} (t : Std.TreeMap String β) (key : String)
    {f : String × β → List γ} (h : ∀ entry, entry.1 ≠ key → f entry = []) :
    t.toList.flatMap f = (t[key]?.map fun v => f (key, v)).getD [] := by
  cases hkey : t[key]? with
  | none =>
    refine List.flatMap_eq_nil_iff.mpr fun entry hentry => h entry ?_
    rintro rfl
    rw [Std.TreeMap.mem_toList_iff_getElem?_eq_some.mp hentry] at hkey
    cases hkey
  | some v =>
    obtain ⟨before, later, hsplit⟩ :=
      List.append_of_mem (Std.TreeMap.mem_toList_iff_getElem?_eq_some.mpr hkey)
    have hdistinct := Std.TreeMap.distinct_keys_toList (t := t)
    rw [hsplit, List.pairwise_append, List.pairwise_cons] at hdistinct
    simp only [compare_eq_iff_eq] at hdistinct
    obtain ⟨-, ⟨hlater, -⟩, hbefore⟩ := hdistinct
    have hnil : before.flatMap f = [] ∧ later.flatMap f = [] := by
      simp only [List.flatMap_eq_nil_iff]
      exact ⟨fun e he => h e (hbefore e he (key, v) (by simp)),
        fun e he => h e (hlater e he ∘ Eq.symm)⟩
    rw [hsplit, List.flatMap_append, List.flatMap_cons, hnil.1, hnil.2]
    simp

theorem filter_place_map (slice db slice' db' : String) (sqls : List String) :
    (sqls.map (Call.mk slice' db')).filter (·.place = toLex (slice, db)) =
      if slice' = slice ∧ db' = db then sqls.map (Call.mk slice db) else [] := by
  split
  next h =>
    obtain ⟨rfl, rfl⟩ := h
    exact List.filter_eq_self.mpr (by simp [Call.place])
  next h =>
    exact List.filter_eq_nil_iff.mpr (by simpa [Call.place] using fun _ _ => h)

theorem filter_place_entries (d : Directory) (slice db : String) :
    d.entries.filter (·.place = toLex (slice, db)) =
      ((d.get? slice db).getD []).map (Call.mk slice db) := by
  simp only [entries, List.filter_flatMap, filter_place_map]
  rw [flatMap_toList_eq d.slices slice fun entry hentry => by simp [hentry], get?]
  cases d.slices[slice]? with
  | none => rfl
  | some dbs =>
    simp only [Option.map_some, Option.getD_some, Option.bind_some]
    rw [flatMap_toList_eq dbs db fun entry hentry => by simp [hentry]]
    cases dbs[db]? <;> simp

theorem ordered_entries (d : Directory) : Ordered d.entries := by
  refine List.pairwise_flatMap.mpr ⟨fun _ _ => ?_, ?_⟩
  · refine List.pairwise_flatMap.mpr ⟨fun _ _ => ?_, ?_⟩
    · exact List.pairwise_map.mpr (List.pairwise_of_forall fun _ _ => le_rfl)
    · refine Std.TreeMap.ordered_keys_toList.imp fun {x y} hlt a ha b hb => ?_
      obtain ⟨_, -, rfl⟩ := List.mem_map.mp ha
      obtain ⟨_, -, rfl⟩ := List.mem_map.mp hb
      have hdb : x.1 < y.1 := compare_lt_iff_lt.mp hlt
      exact le_of_lt (Call.place_lt_iff.mpr (.inr ⟨rfl, hdb⟩))
  · refine Std.TreeMap.ordered_keys_toList.imp fun {x y} hlt a ha b hb => ?_
    obtain ⟨_, -, ha⟩ := List.mem_flatMap.mp ha
    obtain ⟨_, -, hb⟩ := List.mem_flatMap.mp hb
    obtain ⟨_, -, rfl⟩ := List.mem_map.mp ha
    obtain ⟨_, -, rfl⟩ := List.mem_map.mp hb
    have hslice : x.1 < y.1 := compare_lt_iff_lt.mp hlt
    exact le_of_lt (Call.place_lt_iff.mpr (.inl hslice))

theorem filter_place_entries_ofCalls (calls : List Call) (slice db : String) :
    (ofCalls calls).entries.filter (·.place = toLex (slice, db)) =
      calls.filter (·.place = toLex (slice, db)) := by
  rw [filter_place_entries, getD_get?_ofCalls, List.map_map]
  refine (List.map_congr_left fun c hc => ?_).trans (List.map_id _)
  obtain ⟨rfl, rfl⟩ := Call.place_eq_iff.mp (of_decide_eq_true (List.mem_filter.mp hc).2)
  rfl

/-- The maps flattened are the calls of the routing map. -/
theorem entries_ofCalls (calls : List Call) :
    (ofCalls calls).entries = (RoutingMap.ofCalls calls).calls := by
  refine eq_of_filter_place (ordered_entries _) (RoutingMap.ordered_ofCalls calls) fun p => ?_
  obtain ⟨⟨slice, db⟩, rfl⟩ := toLex.surjective p
  rw [RoutingMap.filter_place_ofCalls, filter_place_entries_ofCalls]

end Directory

/-- A routing map is the stable sort of what was put into it. It holds each call as often as it was
put there, by the bytes of the slices and then of the databases, and those for one database of a
slice as they came. These are the entries of maps of statements by slice and by database. -/
theorem calls_are_stably_sorted (calls : List Call) :
    let m := RoutingMap.ofCalls calls
    m.calls.Perm calls ∧ m.calls.Pairwise Call.InOrder ∧
      (∀ slice db, m.calls.filter (fun c => c.slice = slice ∧ c.db = db) =
        calls.filter fun c => c.slice = slice ∧ c.db = db) ∧
      m.calls = (Directory.ofCalls calls).entries ∧
      m.size = calls.length ∧ m.size = (Directory.ofCalls calls).size ∧
      (m.isEmpty = true ↔ calls = []) := by
  refine ⟨RoutingMap.perm_ofCalls calls, ?_, fun slice db => ?_,
    (Directory.entries_ofCalls calls).symm, RoutingMap.size_ofCalls calls, ?_,
    RoutingMap.isEmpty_ofCalls calls⟩
  · exact (RoutingMap.ordered_ofCalls calls).imp Call.place_le_iff_inOrder.mp
  · simpa only [Call.place_eq_iff] using RoutingMap.filter_place_ofCalls calls (toLex (slice, db))
  · rw [← Directory.length_entries, Directory.entries_ofCalls, RoutingMap.size]

example : (RoutingMap.ofCalls [⟨"s1", "db", "c"⟩, ⟨"s0", "db", "a"⟩, ⟨"s0", "db", "b"⟩]).calls =
    [⟨"s0", "db", "a"⟩, ⟨"s0", "db", "b"⟩, ⟨"s1", "db", "c"⟩] := by decide

end ShardedSql.Planning
