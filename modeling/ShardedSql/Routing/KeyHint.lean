import ShardedSql.Routing.Shard

namespace ShardedSql.Routing

/-- What a statement says about the shard key of a table: nothing, or that it is one of some
values. -/
inductive KeyHint where
  | all
  | values (vs : List KeyValue)
  deriving DecidableEq, Repr

namespace KeyHint

/-- What two conditions say together. Of two that exclude each other the left one stays, since any
shard gives the empty answer. -/
def both : KeyHint → KeyHint → KeyHint
  | all, h => h
  | h, all => h
  | values a, values b =>
    let common := a.filter (· ∈ b)
    if common = [] then values a else values common

/-- What holds if one of two conditions does: the values of both, each of them once, where it comes
first. -/
def either : KeyHint → KeyHint → KeyHint
  | values a, values b => values (a ++ b).eraseDups
  | _, _ => all

def ofValues? : Option (List KeyValue) → KeyHint
  | some vs => values vs
  | none => all

end KeyHint

end ShardedSql.Routing
