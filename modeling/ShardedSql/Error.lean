import ShardedSql.Routing.Shard
import ShardedSql.Sql.Expr
import ShardedSql.Sql.Token
import ShardedSql.Sql.Token.Scan

namespace ShardedSql

open Routing (KeyValue Shard)

inductive ParseError where
  | scan (e : Sql.ScanError)
  | emptyStatement
  | trailing (t : Sql.Token)
  | tooDeep
  /-- Something else than `what` stands where it is needed, or the statement ends there. -/
  | expected (what : String) (found : Option Sql.Token)
  | noNameAfterDot
  | noAliasAfterAs
  | badLimit (text : String)
  | endOfExpression
  | keywordInExpression (word : String)
  | unexpectedInExpression (t : Sql.Token)
  | reported (text : String)
  deriving DecidableEq, Repr

inductive RouteError where
  | malformedRule (spec : String)
  | badShardCount (text : String)
  | unknownAlgorithm (name : String)
  | noShards (table : String)
  | noSlices (table : String)
  | databaseCount (table : String) (databases : Nat) (shards : UInt64)
  | duplicateRule (db table : String)
  | noRule (db table : String)
  | nothingSharded (verb : String)
  | notSharded (db table : String)
  | noShard (db table : String)
  | noOwner (db table : String) (key : KeyValue)
  | reported (text : String)
  deriving DecidableEq, Repr

inductive SequenceError where
  | zeroStep (scope : String)
  | duplicate (scope : String)
  | unknown (scope : String)
  | exhausted (scope : String)
  | reported (text : String)
  deriving DecidableEq, Repr

inductive Unsupported where
  | parenthesizedStatement
  | derivedTable
  | joinUsing
  | union
  | subquery
  | insertSelect
  | multiTableUpdate
  | notColocated (first other : String)
  | splitJoin (lead stray : Shard)
  | missingSortKey
  | reported (text : String)
  deriving DecidableEq, Repr

inductive ValueError where
  | unplaceable (db table text : String)
  | rowLength (row : Nat)
  | computedKey (key : String) (value : Sql.Expr)
  | reported (text : String)
  deriving DecidableEq, Repr

/-- Why a statement is refused or fails. The causes named `reported` are worded by a router, a
sequence or a backend of the user's own. -/
inductive Error where
  | parse (e : ParseError)
  | nestedExplain
  | explainBuild (cause : Error)
  | route (e : RouteError)
  | sequence (e : SequenceError)
  | unsupported (e : Unsupported)
  | keyUpdate (column : String)
  | missingColumnList (table : String)
  | invalidValue (e : ValueError)
  | backend (slice db message : String)
  | cancelled
  | timeout (ms : Nat)
  deriving DecidableEq, Repr

end ShardedSql
