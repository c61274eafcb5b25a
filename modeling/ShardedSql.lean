import ShardedSql.Config
import ShardedSql.Error
import ShardedSql.Error.Message
import ShardedSql.Execution.Dispatch
import ShardedSql.Execution.Execute
import ShardedSql.Execution.FanOut
import ShardedSql.Main
import ShardedSql.Number.Binary64
import ShardedSql.Number.Shortest
import ShardedSql.Planning.Colocation
import ShardedSql.Planning.Insert
import ShardedSql.Planning.Plan
import ShardedSql.Planning.Renaming
import ShardedSql.Planning.RoutingMap
import ShardedSql.Planning.Select
import ShardedSql.Planning.Services
import ShardedSql.Planning.ShardedTable
import ShardedSql.Planning.Statement
import ShardedSql.Planning.Write
import ShardedSql.Proofs.Execution.DryRun
import ShardedSql.Proofs.Execution.Ending
import ShardedSql.Proofs.Execution.MoreSlots
import ShardedSql.Proofs.Execution.Progress
import ShardedSql.Proofs.Execution.RoutingOrder
import ShardedSql.Proofs.Execution.Runs
import ShardedSql.Proofs.Execution.Schedule
import ShardedSql.Proofs.Execution.Steps
import ShardedSql.Proofs.Lists
import ShardedSql.Proofs.Number.Rounding
import ShardedSql.Proofs.Planning.Agreement
import ShardedSql.Proofs.Planning.AlignedShards
import ShardedSql.Proofs.Planning.AlikeTables
import ShardedSql.Proofs.Planning.Builders
import ShardedSql.Proofs.Planning.Colocated
import ShardedSql.Proofs.Planning.Emissions
import ShardedSql.Proofs.Planning.ExplainEffects
import ShardedSql.Proofs.Planning.GeneratedKeys
import ShardedSql.Proofs.Planning.GlobalOrder
import ShardedSql.Proofs.Planning.InsertPartition
import ShardedSql.Proofs.Planning.Issued
import ShardedSql.Proofs.Planning.JoinCoverage
import ShardedSql.Proofs.Planning.KeyDemand
import ShardedSql.Proofs.Planning.KeyPruning
import ShardedSql.Proofs.Planning.LetterCase
import ShardedSql.Proofs.Planning.LogicalNames
import ShardedSql.Proofs.Planning.ManyTables
import ShardedSql.Proofs.Planning.NameMaps
import ShardedSql.Proofs.Planning.OneTable
import ShardedSql.Proofs.Planning.OrderColumns
import ShardedSql.Proofs.Planning.PredicateScope
import ShardedSql.Proofs.Planning.PrintedCalls
import ShardedSql.Proofs.Planning.Qualifiers
import ShardedSql.Proofs.Planning.Referents
import ShardedSql.Proofs.Planning.RoutedShards
import ShardedSql.Proofs.Planning.RowGroups
import ShardedSql.Proofs.Planning.ShardNames
import ShardedSql.Proofs.Planning.Steps
import ShardedSql.Proofs.Planning.TableLocations
import ShardedSql.Proofs.Result.RowOrder
import ShardedSql.Proofs.Result.StableSort
import ShardedSql.Proofs.Result.ValueOrder
import ShardedSql.Proofs.Routing.Arithmetic
import ShardedSql.Proofs.Routing.Placement
import ShardedSql.Proofs.Routing.RoutedValues
import ShardedSql.Proofs.Routing.Routes
import ShardedSql.Proofs.Routing.SliceRuns
import ShardedSql.Proofs.Sql.CanonicalForm
import ShardedSql.Proofs.Sql.Clauses
import ShardedSql.Proofs.Sql.Endings
import ShardedSql.Proofs.Sql.Inserts
import ShardedSql.Proofs.Sql.LeadingWord
import ShardedSql.Proofs.Sql.LineBreaks
import ShardedSql.Proofs.Sql.PassedOn
import ShardedSql.Proofs.Sql.Quoting
import ShardedSql.Proofs.Sql.Renamed
import ShardedSql.Proofs.Sql.Reprinted
import ShardedSql.Proofs.Sql.Reread
import ShardedSql.Proofs.Sql.Selects
import ShardedSql.Proofs.Sql.Statements
import ShardedSql.Proofs.Sql.Writes
import ShardedSql.Proofs.Text.Decimal
import ShardedSql.Result.Merge
import ShardedSql.Result.ResultSet
import ShardedSql.Result.Sorting
import ShardedSql.Result.Value
import ShardedSql.Routing.KeyHint
import ShardedSql.Routing.Rule
import ShardedSql.Routing.RuleTable
import ShardedSql.Routing.Shard
import ShardedSql.Sequence
import ShardedSql.Shell
import ShardedSql.Sql.Expr
import ShardedSql.Sql.Expr.Parse
import ShardedSql.Sql.Expr.Print
import ShardedSql.Sql.Statement
import ShardedSql.Sql.Statement.Parse
import ShardedSql.Sql.Statement.Print
import ShardedSql.Sql.Token
import ShardedSql.Sql.Token.Print
import ShardedSql.Sql.Token.Scan
import ShardedSql.Sql.TokenParser
import ShardedSql.Text.Alphabetic
import ShardedSql.Text.Case
import ShardedSql.Text.Character
import ShardedSql.Text.GraphemeExtend
import ShardedSql.Text.Integer
import ShardedSql.Text.Numeric
import ShardedSql.Text.Quoted
import ShardedSql.Text.Ranges
import ShardedSql.Text.Unprintable
import ShardedSql.Text.WhiteSpace
import ShardedSql.Proofs.Sequence.Progressions
import ShardedSql.Proofs.Text.ByteOrder
import ShardedSql.Proofs.Planning.SortedCalls
import ShardedSql.Proofs.Routing.AcceptedRules
import ShardedSql.Proofs.Routing.TableNames
import ShardedSql.Proofs.Planning.InsertForms
import ShardedSql.Proofs.Planning.Modifiers
import ShardedSql.Proofs.Sql.Explained
import ShardedSql.Proofs.Sql.Height
import ShardedSql.Proofs.Planning.FirstError
import ShardedSql.Proofs.Planning.PlanKinds
import ShardedSql.Proofs.Planning.KeyCoverage
import ShardedSql.Proofs.Planning.Reversed
