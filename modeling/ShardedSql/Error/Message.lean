import ShardedSql.Error
import ShardedSql.Sql.Expr.Print

namespace ShardedSql

def inQuotes (s : String) : String := "\x27" ++ s ++ "\x27"

def qualified (db table : String) : String := db ++ "." ++ table

def Sql.ScanError.message : Sql.ScanError → String
  | unterminatedComment => "unterminated comment"
  | unterminatedString => "unterminated string literal"
  | unterminatedName => "unterminated quoted identifier"
  | strayCharacter c => "unexpected character " ++ inQuotes c.toString

def ParseError.message : ParseError → String
  | scan e => e.message
  | emptyStatement => "empty statement"
  | trailing t => "unexpected trailing token " ++ t.described
  | tooDeep => "statement nested deeper than 64 levels"
  | expected what (some t) => "expected " ++ what ++ " but found " ++ t.described
  | expected what none => "expected " ++ what ++ " but reached end of statement"
  | noNameAfterDot => "expected identifier after '.'"
  | noAliasAfterAs => "expected alias after AS"
  | badLimit text => "invalid LIMIT value " ++ inQuotes text
  | endOfExpression => "unexpected end of expression"
  | keywordInExpression word => "unexpected keyword " ++ inQuotes word
  | unexpectedInExpression t => "unexpected token " ++ t.described
  | reported text => text

def RouteError.message : RouteError → String
  | malformedRule spec =>
    "invalid rule " ++ inQuotes spec ++ ", expected table:key:count:slice[,slice...][:hash]"
  | badShardCount text => "invalid table count " ++ inQuotes text
  | unknownAlgorithm name => "unknown shard algorithm " ++ inQuotes name
  | noShards table => "rule for " ++ inQuotes table ++ " has no shards"
  | noSlices table => "rule for " ++ inQuotes table ++ " has no slices"
  | databaseCount table databases shards =>
    "rule for " ++ inQuotes table ++ " lists " ++ Text.decimal databases ++ " databases for "
      ++ Text.decimal shards.toNat ++ " shards"
  | duplicateRule db table => "duplicate rule for " ++ inQuotes (qualified db table)
  | noRule db table => "no shard rule for " ++ inQuotes (qualified db table)
  | nothingSharded verb => verb ++ " references no sharded table"
  | notSharded db table => inQuotes (qualified db table) ++ " is not sharded"
  | noShard db table => "no shard for " ++ inQuotes (qualified db table)
  | noOwner db table key =>
    "no shard of " ++ inQuotes (qualified db table) ++ " owns key " ++ key.text
  | reported text => text

def SequenceError.message : SequenceError → String
  | zeroStep scope => "sequence " ++ inQuotes scope ++ " has zero increment"
  | duplicate scope => "sequence " ++ inQuotes scope ++ " already exists"
  | unknown scope => "sequence " ++ inQuotes scope ++ " not found"
  | exhausted scope => "sequence " ++ inQuotes scope ++ " exhausted"
  | reported text => text

def Unsupported.message : Unsupported → String
  | parenthesizedStatement => "parenthesized statements are not supported"
  | derivedTable => "derived tables are not supported"
  | joinUsing => "JOIN ... USING is not supported"
  | union => "UNION is not supported"
  | subquery => "subqueries are not supported"
  | insertSelect => "INSERT ... SELECT is not supported"
  | multiTableUpdate => "multi-table UPDATE is not supported"
  | notColocated first other =>
    "tables " ++ inQuotes first ++ " and " ++ inQuotes other ++ " are not co-located"
  | splitJoin lead stray =>
    "cross-slice join between " ++ place lead ++ " and " ++ place stray
  | missingSortKey => "ORDER BY key of a cross-shard LIMIT is missing from the result"
  | reported text => text
where
  place (s : Routing.Shard) : String := inQuotes s.table ++ " (" ++ s.slice ++ "/" ++ s.db ++ ")"

def ValueError.message : ValueError → String
  | unplaceable db table text =>
    "mod rule on " ++ inQuotes (qualified db table) ++ " needs an integer key, got "
      ++ inQuotes text
  | rowLength row => "column count doesn't match value count at row " ++ Text.decimal row
  | computedKey key value =>
    "shard key " ++ inQuotes key ++ " needs a literal value, got " ++ value.sql
  | reported text => text

def Error.message : Error → String
  | parse e => "parse error: " ++ e.message
  | nestedExplain => "nested explain"
  | explainBuild cause => "build plan to explain error: " ++ cause.message
  | route e => "route error: " ++ e.message
  | sequence e => "sequence error: " ++ e.message
  | unsupported e => "unsupported statement: " ++ e.message
  | keyUpdate column => "sharding column " ++ inQuotes column ++ " cannot be updated"
  | missingColumnList table =>
    "insert into sharded table " ++ inQuotes table ++ " requires an explicit column list"
  | invalidValue e => "invalid value: " ++ e.message
  | backend slice db message =>
    "backend error on slice " ++ inQuotes slice ++ " db " ++ inQuotes db ++ ": " ++ message
  | cancelled => "execution cancelled"
  | timeout ms => "execution timed out after " ++ Text.decimal ms ++ " ms"

end ShardedSql
