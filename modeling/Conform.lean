import Conform.Ast.Basic
import Conform.Ast.Compile
import Conform.Binary64.Basic
import Conform.Binary64.Reader
import Conform.Binary64.Rounding
import Conform.Binary64.Shortest
import Conform.Binary64.Text
import Conform.Calendar.Date
import Conform.Calendar.Layout
import Conform.Calendar.Moment
import Conform.Calendar.Reader
import Conform.Calendar.Scan
import Conform.CharSet.Basic
import Conform.CharSet.Named
import Conform.CharSet.Written
import Conform.Error
import Conform.Family.Catalog
import Conform.Family.Coercible
import Conform.Family.Json
import Conform.Family.Params
import Conform.Func
import Conform.Metadata
import Conform.Numeral.Float
import Conform.Numeral.Integer
import Conform.Outcome
import Conform.Pattern.Basic
import Conform.Pattern.Bracket
import Conform.Pattern.ByteRange
import Conform.Pattern.Escape
import Conform.Pattern.Name
import Conform.Pattern.Normal
import Conform.Pattern.Reader
import Conform.Pattern.Scan
import Conform.Pattern.SetStore
import Conform.Pattern.Size
import Conform.Pattern.Store
import Conform.Pattern.WordTree
import Conform.Primitive
import Conform.Registry.Basic
import Conform.Registry.Identifier
import Conform.Rule.Basic
import Conform.Rule.PatternCache
import Conform.Rule.Standard
import Conform.Schema
import Conform.Scope
import Conform.Text.Hex
import Conform.Text.Quoted
import Conform.Ty.Basic
import Conform.Ty.Build
import Conform.Ty.Equality
import Conform.Ty.Evaluate
import Conform.Ty.Shape
import Conform.Ty.Strip
import Conform.Unicode.Age
import Conform.Unicode.Blank
import Conform.Unicode.Control
import Conform.Unicode.Derived
import Conform.Unicode.Emoji
import Conform.Unicode.Folding
import Conform.Unicode.Invisible
import Conform.Unicode.Letter
import Conform.Unicode.Listed
import Conform.Unicode.Mark
import Conform.Unicode.Number
import Conform.Unicode.Property
import Conform.Unicode.Punctuation
import Conform.Unicode.Script
import Conform.Unicode.Segment
import Conform.Unicode.Symbol
import Conform.Value.Basic
import Conform.Value.Equality
import Conform.Value.Hashing
import Conform.Value.Order
import Conform.Value.Text
import Conform.Wire.Ast
import Conform.Wire.Decoder
import Conform.Wire.Rule
import Conform.Wire.Token
import Conform.Wire.Value
import Conform.World
import Conform.Proofs.Value.Equality
import Conform.Proofs.Run
import Conform.Proofs.Ty.Depth
import Conform.Proofs.Ty.Accepting
import Conform.Proofs.Ty.Refinement
import Conform.Proofs.Value.Entries
import Conform.Proofs.Schema.Keys
import Conform.Proofs.Schema.Present
import Conform.Proofs.Schema.Resolution
import Conform.Proofs.Ty.Induction
import Conform.Proofs.Ty.Info
import Conform.Proofs.Ast.Induction
import Conform.Proofs.Ty.Regular
import Conform.Proofs.Ast.RoundTrip
import Conform.Proofs.Ast.Normal
import Conform.Proofs.Ast.Rules
import Conform.Proofs.Registry.References
import Conform.Proofs.Calendar.Digits
import Conform.Proofs.Calendar.Wire
import Conform.Proofs.Wire.Token
import Conform.Proofs.Wire.Decoder
import Conform.Proofs.Metadata
import Conform.Proofs.Wire.Value
import Conform.Proofs.Wire.Rule
import Conform.Proofs.Wire.Node
import Conform.Proofs.Wire.Written
import Conform.Proofs.Wire.Ast
import Conform.Proofs.Wire.RoundTrip
import Conform.Proofs.Ty.Builders
import Conform.Proofs.Ty.Guarded
import Conform.Proofs.Schema.Recorded
import Conform.Proofs.Schema.Explained
import Conform.Proofs.Registry.Identifier
import Conform.Proofs.Registry.Lookup
import Conform.Proofs.Registry.Stability
import Conform.Proofs.Registry.Expression
import Conform.Proofs.Registry.Building
import Conform.Proofs.Ast.Compiled
import Conform.Proofs.Rule.Meaning
import Conform.Proofs.Ty.Visits
import Conform.Proofs.Ty.References
import Conform.Proofs.Ty.Recursion
import Conform.Proofs.Ty.Cycle
import Conform.Proofs.Ty.Acceptance
import Conform.Proofs.Registry.Standing
import Conform.Proofs.Inquiry
import Conform.Proofs.Ty.Class
import Conform.Proofs.Ast.Acceptable
import Conform.Proofs.Ast.Compiling
import Conform.Proofs.Ast.Keyed
import Conform.Proofs.Ty.Loosened
import Conform.Proofs.Ty.Asking
import Conform.Proofs.Ty.Keeping
import Conform.Proofs.Ty.Passing
import Conform.Proofs.Ty.Core
import Conform.Proofs.Ty.Literals
import Conform.Proofs.Ty.Stripped
import Conform.Proofs.Ty.Relaxed
import Conform.Proofs.Ty.Instances
import Conform.Proofs.Family.Conversions
import Conform.Proofs.Ty.Settled
import Conform.Proofs.Family.Handles
import Conform.Proofs.Family.Catalog
import Conform.Proofs.Rule.Cause
import Conform.Proofs.Rule.Options
import Conform.Proofs.Ty.Ruled
import Conform.Proofs.Ty.Constraints
import Conform.Proofs.Ty.Accumulation
import Conform.Proofs.Ty.Vocabulary
import Conform.Proofs.Value.Legible
import Conform.Proofs.Ty.Reordering
import Conform.Proofs.Binary64.Neighborhood
import Conform.Proofs.Binary64.Shortest
import Conform.Proofs.Binary64.Text
import Conform.Proofs.Text.Quoted
import Conform.Proofs.Value.Word
import Conform.Proofs.Schema.Options
import Conform.Proofs.Ty.Grouping
import Conform.Proofs.Schema.Required
import Conform.Proofs.Schema.Filling
import Conform.Proofs.Schema.Merging
import Conform.Proofs.Schema.Produced
import Conform.Proofs.Schema.Weak
import Conform.Proofs.Ty.Nested
import Conform.Proofs.Value.Hash
import Conform.Proofs.Ty.Preserved
import Conform.Proofs.Ty.DefaultValue
import Conform.Proofs.Numeral.Integer
import Conform.Proofs.Calendar.Reader
import Conform.Proofs.Family.Dates
import Conform.Proofs.Ty.Enumeration
import Conform.Proofs.Ty.Notes
import Conform.Proofs.Calendar.Printed
import Conform.Proofs.Ty.Conversion
import Conform.Proofs.Registry.Aliases
import Conform.Proofs.Rule.PatternCache
import Conform.Proofs.Value.Insertion
import Conform.Proofs.Value.Hashing
