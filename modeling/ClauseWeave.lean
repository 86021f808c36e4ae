import ClauseWeave.Binding
import ClauseWeave.Clause.Draft
import ClauseWeave.Clause.Merge
import ClauseWeave.Clause.Piece
import ClauseWeave.Clause.Projection
import ClauseWeave.Clause.Removal
import ClauseWeave.Clause.Statement
import ClauseWeave.Clause.Tidy
import ClauseWeave.Clause.Tree
import ClauseWeave.Command.Dotenv
import ClauseWeave.Command.Options
import ClauseWeave.Command.Run
import ClauseWeave.Command.Usage
import ClauseWeave.Command.Verbosity
import ClauseWeave.Decimal.Binary64
import ClauseWeave.Decimal.Numeral
import ClauseWeave.Decimal.Shortest
import ClauseWeave.Dialect
import ClauseWeave.Dict
import ClauseWeave.Document
import ClauseWeave.Failure
import ClauseWeave.Filter.Basic
import ClauseWeave.Filter.Input
import ClauseWeave.Main
import ClauseWeave.Name
import ClauseWeave.Routing
import ClauseWeave.Session
import ClauseWeave.Settings
import ClauseWeave.Source.Format
import ClauseWeave.Source.Json
import ClauseWeave.Source.Reading
import ClauseWeave.Source.Written
import ClauseWeave.Source.Yaml.Cursor
import ClauseWeave.Source.Yaml.Lexeme
import ClauseWeave.Source.Yaml.Meaning
import ClauseWeave.Source.Yaml.Scalar
import ClauseWeave.Source.Yaml.Tree
import ClauseWeave.Template.Expansion
import ClauseWeave.Template.Placeholder
import ClauseWeave.Template.Token
import ClauseWeave.Text.Blank
import ClauseWeave.Text.Cut
import ClauseWeave.Text.LetterCase
import ClauseWeave.Text.Property
import ClauseWeave.Text.Shown
import ClauseWeave.Text.Word
import ClauseWeave.Value.Basic
import ClauseWeave.Value.Printer
import ClauseWeave.Proofs.Counting
import ClauseWeave.Proofs.FreshName
import ClauseWeave.Proofs.Rendering
import ClauseWeave.Proofs.Entries
import ClauseWeave.Proofs.Resolution
import ClauseWeave.Proofs.Merging
import ClauseWeave.Proofs.Accounting
import ClauseWeave.Proofs.Lexing
import ClauseWeave.Proofs.Meaning
import ClauseWeave.Proofs.Narrowing
import ClauseWeave.Proofs.Phrasing
import ClauseWeave.Proofs.Binding
import ClauseWeave.Proofs.Indifference
import ClauseWeave.Proofs.Pruning
import ClauseWeave.Proofs.Grouping
import ClauseWeave.Proofs.Splitting
import ClauseWeave.Proofs.Finding
import ClauseWeave.Proofs.Excision
import ClauseWeave.Proofs.Tidiness
import ClauseWeave.Proofs.Steadiness
import ClauseWeave.Proofs.Places
import ClauseWeave.Proofs.Flattening
import ClauseWeave.Proofs.Spacing
import ClauseWeave.Proofs.Nesting
import ClauseWeave.Proofs.Copying
import ClauseWeave.Proofs.Distributing
import ClauseWeave.Proofs.Starting
import ClauseWeave.Proofs.Filling
import ClauseWeave.Proofs.Allotment
import ClauseWeave.Proofs.Numbering
import ClauseWeave.Proofs.Spreading
import ClauseWeave.Proofs.Admitting
import ClauseWeave.Proofs.Levelling
import ClauseWeave.Proofs.Naming
import ClauseWeave.Proofs.Settling
import ClauseWeave.Proofs.Detaching
import ClauseWeave.Proofs.Shortening
import ClauseWeave.Proofs.Spotting
import ClauseWeave.Proofs.Expanding
import ClauseWeave.Proofs.Listing
import ClauseWeave.Proofs.Restoring
import ClauseWeave.Proofs.Matching
import ClauseWeave.Proofs.Opposing
import ClauseWeave.Proofs.Heading
