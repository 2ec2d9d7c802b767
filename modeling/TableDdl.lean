import TableDdl.Dump.Cursor
import TableDdl.Expression.Single
import TableDdl.Main
import TableDdl.Proofs.AlterTable.RoundTrip
import TableDdl.Proofs.AlterTable.Specifications
import TableDdl.Proofs.CreateTable.Extended
import TableDdl.Proofs.CreateTable.Options
import TableDdl.Proofs.CreateTable.RoundTrip
import TableDdl.Proofs.CreateTable.Separators
import TableDdl.Proofs.Expression.Carries
import TableDdl.Proofs.Expression.Endings
import TableDdl.Proofs.Expression.Heads
import TableDdl.Proofs.Expression.Nesting
import TableDdl.Proofs.Expression.References
import TableDdl.Proofs.Expression.Renamed
import TableDdl.Proofs.Expression.Rewriting
import TableDdl.Proofs.Expression.Spacing
import TableDdl.Proofs.Expression.WellFormed
import TableDdl.Proofs.Grammar.Accepting
import TableDdl.Proofs.Grammar.Answer
import TableDdl.Proofs.Grammar.Carries
import TableDdl.Proofs.Grammar.Commitment
import TableDdl.Proofs.Grammar.First
import TableDdl.Proofs.Grammar.Foresight
import TableDdl.Proofs.Grammar.Furthest
import TableDdl.Proofs.Grammar.Gives
import TableDdl.Proofs.Grammar.Halting
import TableDdl.Proofs.Grammar.Indistinct
import TableDdl.Proofs.Grammar.Leftover
import TableDdl.Proofs.Grammar.Locality
import TableDdl.Proofs.Grammar.Loops
import TableDdl.Proofs.Grammar.Progress
import TableDdl.Proofs.Grammar.Reading
import TableDdl.Proofs.Grammar.Related
import TableDdl.Proofs.Grammar.Sides
import TableDdl.Proofs.Grammar.Terminals
import TableDdl.Proofs.Keyword.Extension
import TableDdl.Proofs.Keyword.History
import TableDdl.Proofs.Layout.Lexemes
import TableDdl.Proofs.Layout.Parts
import TableDdl.Proofs.Layout.Spacing
import TableDdl.Proofs.Layout.Tokens
import TableDdl.Proofs.Number.ReadBack
import TableDdl.Proofs.RoundTrip.AlterOptions
import TableDdl.Proofs.RoundTrip.Alterations
import TableDdl.Proofs.RoundTrip.Atoms
import TableDdl.Proofs.RoundTrip.Attributes
import TableDdl.Proofs.RoundTrip.Clauses
import TableDdl.Proofs.RoundTrip.Codec
import TableDdl.Proofs.RoundTrip.Columns
import TableDdl.Proofs.RoundTrip.DataTypes
import TableDdl.Proofs.RoundTrip.Edges
import TableDdl.Proofs.RoundTrip.ExpressionTokens
import TableDdl.Proofs.RoundTrip.Expressions
import TableDdl.Proofs.RoundTrip.Keys
import TableDdl.Proofs.RoundTrip.Parsing
import TableDdl.Proofs.RoundTrip.PartitionOptions
import TableDdl.Proofs.RoundTrip.Partitions
import TableDdl.Proofs.RoundTrip.Peeks
import TableDdl.Proofs.RoundTrip.ReadsBack
import TableDdl.Proofs.RoundTrip.Renders
import TableDdl.Proofs.RoundTrip.Replay
import TableDdl.Proofs.RoundTrip.TableOptions
import TableDdl.Proofs.Script.Consecutive
import TableDdl.Proofs.Script.Joined
import TableDdl.Proofs.Script.Pieces
import TableDdl.Proofs.Script.Single
import TableDdl.Proofs.Session.Lines
import TableDdl.Proofs.Statement.Carries
import TableDdl.Proofs.Statement.Gives
import TableDdl.Proofs.Statement.Names
import TableDdl.Proofs.Statement.Recased
import TableDdl.Proofs.Statement.Renamed
import TableDdl.Proofs.Statement.Spacing
import TableDdl.Proofs.Statement.WellFormed
import TableDdl.Proofs.Token.Appended
import TableDdl.Proofs.Token.Elided
import TableDdl.Proofs.Token.Lexing
import TableDdl.Proofs.Token.Munch
import TableDdl.Proofs.Token.Numbers
import TableDdl.Proofs.Token.Recased
import TableDdl.Proofs.Token.Respaced
import TableDdl.Proofs.Token.Retaken
import TableDdl.Proofs.Token.Scanning
import TableDdl.Proofs.Token.Shortened
import TableDdl.Proofs.Token.Signs
import TableDdl.Proofs.Token.Tiling
import TableDdl.Proofs.Token.Trimming
