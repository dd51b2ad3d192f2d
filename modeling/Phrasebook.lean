import Phrasebook.Book
import Phrasebook.Caret
import Phrasebook.Class
import Phrasebook.ClassIndex
import Phrasebook.Conversion.Basic
import Phrasebook.Conversion.Graph
import Phrasebook.Conversion.Remembered
import Phrasebook.Decimal
import Phrasebook.Expression
import Phrasebook.Inspection
import Phrasebook.Journal
import Phrasebook.Matching.Attempt
import Phrasebook.Matching.Boundary
import Phrasebook.Matching.Greedy
import Phrasebook.Pattern.Basic
import Phrasebook.Pattern.Error
import Phrasebook.Pattern.Printing
import Phrasebook.Pattern.Reading
import Phrasebook.Phrase
import Phrasebook.Regex.Basic
import Phrasebook.Regex.CharSet
import Phrasebook.Regex.Program
import Phrasebook.Regex.Reading
import Phrasebook.Regex.Room
import Phrasebook.Regex.Search
import Phrasebook.Registry
import Phrasebook.Resolution
import Phrasebook.Search
import Phrasebook.Settings.Basic
import Phrasebook.Settings.Layer
import Phrasebook.Settings.Load
import Phrasebook.Settings.Toml
import Phrasebook.Standard
import Phrasebook.Standard.Expression
import Phrasebook.Standard.Literal
import Phrasebook.Text.Basic
import Phrasebook.Text.Brackets
import Phrasebook.Text.Case
import Phrasebook.Text.Listing
import Phrasebook.Text.Plural
import Phrasebook.Text.Property
import Phrasebook.Text.Quoted
import Phrasebook.Text.Table.Case
import Phrasebook.Text.Table.Printing
import Phrasebook.Text.Table.Word
import Phrasebook.TypeIndex
import Phrasebook.TypeTable
import Phrasebook.Value
import Phrasebook.Proofs.Pattern.WellFormed
import Phrasebook.Proofs.Pattern.RoundTrip
import Phrasebook.Proofs.Pattern.Grammar
import Phrasebook.Proofs.Pattern.Accepts
import Phrasebook.Proofs.Pattern.Groups
import Phrasebook.Proofs.Regex.Matches
import Phrasebook.Proofs.Search
import Phrasebook.Proofs.Matching.Boundary
import Phrasebook.Proofs.Regex.Anchored
import Phrasebook.Proofs.Matching.Sound
import Phrasebook.Proofs.Matching.Words
import Phrasebook.Proofs.Matching.InStep
import Phrasebook.Proofs.Text.Listing
import Phrasebook.Proofs.Resolution.Nesting
import Phrasebook.Proofs.Resolution.Recency
import Phrasebook.Proofs.Class
import Phrasebook.Proofs.Registry
import Phrasebook.Proofs.Conversion.History
import Phrasebook.Proofs.Conversion.Chain
import Phrasebook.Proofs.Conversion.Closure
import Phrasebook.Proofs.Conversion.Typed
import Phrasebook.Proofs.Conversion.Lookup
import Phrasebook.Proofs.Conversion.Paired
import Phrasebook.Proofs.Conversion.Contract
import Phrasebook.Proofs.Draft
import Phrasebook.Proofs.Except
import Phrasebook.Proofs.Resolution.Found
import Phrasebook.Proofs.Resolution.Typed
import Phrasebook.Proofs.Resolution.Compatible
import Phrasebook.Proofs.Resolution.Lines
import Phrasebook.Proofs.Standard.Chain
import Phrasebook.Proofs.Matching.Ends
import Phrasebook.Proofs.Standard.Arithmetic
import Phrasebook.Proofs.Standard.Book
import Phrasebook.Proofs.Resolution.Parenthesized
import Phrasebook.Proofs.Pattern.Canonical
import Phrasebook.Proofs.Pattern.Culprit
import Phrasebook.Proofs.Text.Cursor
import Phrasebook.Proofs.Resolution.Places
import Phrasebook.Proofs.Resolution.Reentry
import Phrasebook.Proofs.Resolution.LiteralsOnly
import Phrasebook.Proofs.Text.ListText
import Phrasebook.Proofs.Standard.Print
import Phrasebook.Proofs.Matching.Counts
import Phrasebook.Proofs.Standard.Makers
import Phrasebook.Proofs.Expression
import Phrasebook.Proofs.Resolution.ExpressionsOnly
import Phrasebook.Proofs.Resolution.Single
import Phrasebook.Proofs.Matching.Caseless
import Phrasebook.Proofs.Matching.Offered
import Phrasebook.Proofs.Matching.Unnesting
import Phrasebook.Proofs.Conversion.Growth
import Phrasebook.Proofs.Conversion.Remembered
import Phrasebook.Proofs.TypeIndex
import Phrasebook.Proofs.Pattern.TypeName
import Phrasebook.Proofs.Text.Spaced
import Phrasebook.Proofs.Settings
import Phrasebook.Proofs.ClassIndex
import Phrasebook.Proofs.Text.Scans
