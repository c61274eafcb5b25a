import ShardedSql.Error
import ShardedSql.Text.Character

namespace ShardedSql.Routing

/-- How a key value finds its shard: by its remainder, or by the hash of its text. -/
inductive Placement where
  | modulo | hash
  deriving DecidableEq, Repr

/-- The slice of everything that no rule or setting sends elsewhere. -/
def defaultSlice : String := "slice-0"

/-- How one logical table is sharded. Shard `i` is the table with `_i` appended to its name. The
slices take the shards in contiguous runs. Without databases of their own the shards lie in the
logical one. -/
structure Rule where
  db : String
  table : String
  key : String
  placement : Placement
  count : UInt64
  slices : List String
  databases : List String
  deriving DecidableEq, Repr

/-- FNV-1a on 64 bits. -/
def hashText (s : String) : UInt64 :=
  s.toUTF8.data.toList.foldl (fun h b => (h ^^^ b.toUInt64) * 0x100000001b3) 0xcbf29ce484222325

def splitAt (mark : Char) : List Char → List (List Char)
  | [] => [[]]
  | c :: cs =>
    if c = mark then [] :: splitAt mark cs
    else
      match splitAt mark cs with
      | part :: parts => (c :: part) :: parts
      | [] => [[c]]

namespace Rule

def new (db table key : String) (count : UInt64) : Rule :=
  ⟨db, table, key, .modulo, count, [defaultSlice], []⟩

def placement? (name : String) : Except Error Placement :=
  match Text.lower name with
  | "hash" => .ok .hash
  | "mod" => .ok .modulo
  | _ => .error (.route (.unknownAlgorithm name))

def ofParts? (db table key count slices : String) (placement : Option String) :
    Except Error Rule := do
  match Text.readUInt64? count with
  | none => .error (.route (.badShardCount count))
  | some n =>
    let names := (splitAt ',' slices.toList).map String.ofList
    let rule := { new db table key n with slices := names.filter (· ≠ "") }
    match placement with
    | none => .ok rule
    | some name => return { rule with placement := ← placement? name }

/-- Reads `table:key:count:slice,slice`, which may go on with `:hash` or `:mod`. -/
def ofSpec? (db spec : String) : Except Error Rule :=
  match (splitAt ':' spec.toList).map String.ofList with
  | [table, key, count, slices] => ofParts? db table key count slices none
  | [table, key, count, slices, placement] => ofParts? db table key count slices (some placement)
  | _ => .error (.route (.malformedRule spec))

/-- Refuses a rule without shards or slices, or with a wrong number of databases. -/
def check (r : Rule) : Except Error Unit :=
  if r.count = 0 then .error (.route (.noShards r.table))
  else if r.slices = [] then .error (.route (.noSlices r.table))
  else if r.databases ≠ [] ∧ r.databases.length ≠ r.count.toNat then
    .error (.route (.databaseCount r.table r.databases.length r.count))
  else .ok ()

/-- The shard of an integer key: its remainder by the count, read as a signed number. -/
def remainder (r : Rule) (i : Int64) : Nat := (i.toInt % r.count.toInt64.toInt).toNat

/-- The index of the shard that owns a key value. -/
def indexOf (r : Rule) (value : KeyValue) : Except Error Nat :=
  match r.placement, value with
  | .modulo, .int i => .ok (r.remainder i)
  | .modulo, .str s =>
    match Text.readInt64? (Text.trim s) with
    | some i => .ok (r.remainder i)
    | none => .error (.invalidValue (.unplaceable r.db r.table s))
  | .hash, v => .ok ((hashText v.text).toNat % r.count.toNat)

/-- Which of the slices holds a shard. The product is taken on 64 bits. -/
def slicePosition (r : Rule) (index : Nat) : Nat :=
  index * r.slices.length % UInt64.size / r.count.toNat

def shard (r : Rule) (logicalDb : String) (index : Nat) : Shard where
  slice := r.slices.getD (r.slicePosition index) ""
  db := r.databases.getD index logicalDb
  table := r.table ++ "_" ++ Text.decimal index
  index := index

end Rule

end ShardedSql.Routing
