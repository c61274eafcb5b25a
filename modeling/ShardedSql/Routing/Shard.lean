import ShardedSql.Text.Integer

namespace ShardedSql.Routing

/-- A value of the shard key that a statement gives literally. -/
inductive KeyValue where
  | int (i : Int64)
  | str (s : String)
  deriving DecidableEq, Repr

def KeyValue.text : KeyValue → String
  | int i => Text.decimal i.toInt
  | str s => s

/-- One physical table of a sharded one. Tables that are sharded alike share their indexes. -/
structure Shard where
  slice : String
  db : String
  table : String
  index : Nat
  deriving DecidableEq, Repr

end ShardedSql.Routing
