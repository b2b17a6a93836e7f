import ScriptFold.Console.Basic
import ScriptFold.Console.Command
import ScriptFold.Console.Entry
import ScriptFold.Document.Reader
import ScriptFold.Evaluate
import ScriptFold.Failure
import ScriptFold.Fault
import ScriptFold.Fold.Aggregate
import ScriptFold.Fold.Callable
import ScriptFold.Fold.Chain
import ScriptFold.Fold.Context
import ScriptFold.Fold.Control
import ScriptFold.Fold.Name
import ScriptFold.Fold.Operation
import ScriptFold.Fold.Slot
import ScriptFold.Fold.Switch
import ScriptFold.Fold.Target
import ScriptFold.Fold.Walk
import ScriptFold.Grammar.Binding
import ScriptFold.Grammar.Callable
import ScriptFold.Grammar.Expression
import ScriptFold.Grammar.Reading
import ScriptFold.Grammar.Script
import ScriptFold.Grammar.Statement
import ScriptFold.Grammar.Target
import ScriptFold.Host.Stock
import ScriptFold.Main
import ScriptFold.Number.Basic
import ScriptFold.Number.Bits
import ScriptFold.Number.Double
import ScriptFold.Number.Format
import ScriptFold.Number.Numeral
import ScriptFold.Number.Shortest
import ScriptFold.Printer.Basic
import ScriptFold.Printer.Generic
import ScriptFold.Printer.Page
import ScriptFold.Printer.Precedence
import ScriptFold.Program.Command
import ScriptFold.Program.Files
import ScriptFold.Program.Path
import ScriptFold.Program.Run
import ScriptFold.Program.Setting
import ScriptFold.Program.Sheet
import ScriptFold.Proofs.Console.Command
import ScriptFold.Proofs.Console.Entry
import ScriptFold.Proofs.Coupling.Basic
import ScriptFold.Proofs.Coupling.Chain
import ScriptFold.Proofs.Coupling.Control
import ScriptFold.Proofs.Coupling.Operation
import ScriptFold.Proofs.Coupling.Places
import ScriptFold.Proofs.Coupling.Target
import ScriptFold.Proofs.Coupling.Walk
import ScriptFold.Proofs.Fold.Chains
import ScriptFold.Proofs.Fold.Depth
import ScriptFold.Proofs.Fold.Expansion
import ScriptFold.Proofs.Fold.Meets
import ScriptFold.Proofs.Fold.Optional
import ScriptFold.Proofs.Fold.Refolding
import ScriptFold.Proofs.Fold.Returns
import ScriptFold.Proofs.Fold.Sight
import ScriptFold.Proofs.Fold.Substitution
import ScriptFold.Proofs.Fold.Values
import ScriptFold.Proofs.Fold.Writes
import ScriptFold.Proofs.Meaning.Expression
import ScriptFold.Proofs.Meaning.Folding
import ScriptFold.Proofs.Meaning.Literal
import ScriptFold.Proofs.Meaning.Reduction
import ScriptFold.Proofs.Meaning.Rewriting
import ScriptFold.Proofs.Meaning.Script
import ScriptFold.Proofs.Meaning.Statement
import ScriptFold.Proofs.Meaning.Switch
import ScriptFold.Proofs.Number.Bits
import ScriptFold.Proofs.Number.Grammar
import ScriptFold.Proofs.Number.Integer
import ScriptFold.Proofs.Number.Numeral
import ScriptFold.Proofs.Number.PowerOfTen
import ScriptFold.Proofs.Number.Rank
import ScriptFold.Proofs.Number.Reader
import ScriptFold.Proofs.Number.Recognition
import ScriptFold.Proofs.Number.Shortest
import ScriptFold.Proofs.Number.Writing
import ScriptFold.Proofs.Printer.Aggregates
import ScriptFold.Proofs.Printer.Chains
import ScriptFold.Proofs.Printer.Discipline
import ScriptFold.Proofs.Printer.Faithfulness
import ScriptFold.Proofs.Printer.Forms
import ScriptFold.Proofs.Printer.Laying
import ScriptFold.Proofs.Printer.Locality
import ScriptFold.Proofs.Printer.Operand
import ScriptFold.Proofs.Printer.Page
import ScriptFold.Proofs.Printer.Patching
import ScriptFold.Proofs.Printer.Recording
import ScriptFold.Proofs.Printer.RoundTrip
import ScriptFold.Proofs.Printer.Tracking
import ScriptFold.Proofs.Printer.Values
import ScriptFold.Proofs.Reading.AsRead
import ScriptFold.Proofs.Reading.Assignment
import ScriptFold.Proofs.Reading.Climbing
import ScriptFold.Proofs.Reading.Destructuring
import ScriptFold.Proofs.Reading.Ending
import ScriptFold.Proofs.Reading.Expression
import ScriptFold.Proofs.Reading.Ladder
import ScriptFold.Proofs.Reading.Leads
import ScriptFold.Proofs.Reading.Opening
import ScriptFold.Proofs.Reading.Operation
import ScriptFold.Proofs.Reading.Pattern
import ScriptFold.Proofs.Reading.Places
import ScriptFold.Proofs.Reading.Placing
import ScriptFold.Proofs.Reading.Primary
import ScriptFold.Proofs.Reading.Progress
import ScriptFold.Proofs.Reading.Provides
import ScriptFold.Proofs.Reading.Refusal
import ScriptFold.Proofs.Reading.Rounds
import ScriptFold.Proofs.Reading.Runs
import ScriptFold.Proofs.Reading.Script
import ScriptFold.Proofs.Reading.Spelling
import ScriptFold.Proofs.Reading.Statement
import ScriptFold.Proofs.Reading.Strength
import ScriptFold.Proofs.Scoping.Expression
import ScriptFold.Proofs.Scoping.Script
import ScriptFold.Proofs.Scoping.Statement
import ScriptFold.Proofs.Shape.Aggregate
import ScriptFold.Proofs.Shape.Callable
import ScriptFold.Proofs.Shape.Chain
import ScriptFold.Proofs.Shape.Control
import ScriptFold.Proofs.Shape.Expression
import ScriptFold.Proofs.Shape.Formed
import ScriptFold.Proofs.Shape.Operation
import ScriptFold.Proofs.Shape.Parts
import ScriptFold.Proofs.Shape.Program
import ScriptFold.Proofs.Shape.Read
import ScriptFold.Proofs.Shape.Statement
import ScriptFold.Proofs.Shape.Target
import ScriptFold.Proofs.Shape.Walk
import ScriptFold.Proofs.Shape.Walked
import ScriptFold.Proofs.Shape.WellFormed
import ScriptFold.Proofs.SourceMap.Pointing
import ScriptFold.Proofs.SourceMap.Positions
import ScriptFold.Proofs.SourceMap.RoundTrip
import ScriptFold.Proofs.Spanning.Basic
import ScriptFold.Proofs.Spanning.Expression
import ScriptFold.Proofs.Spanning.Gathers
import ScriptFold.Proofs.Spanning.Retargeting
import ScriptFold.Proofs.Spanning.Statement
import ScriptFold.Proofs.Text.Digit
import ScriptFold.Proofs.Text.Line
import ScriptFold.Proofs.Text.Position
import ScriptFold.Proofs.Token.Bracing
import ScriptFold.Proofs.Token.Crossing
import ScriptFold.Proofs.Token.Fixed
import ScriptFold.Proofs.Token.Literal
import ScriptFold.Proofs.Token.Scanning
import ScriptFold.Proofs.Token.Tiling
import ScriptFold.Proofs.Token.Whole
import ScriptFold.Proofs.Token.Word
import ScriptFold.Proofs.Tree.Changing
import ScriptFold.Proofs.Tree.Cloning
import ScriptFold.Proofs.Tree.Identity
import ScriptFold.Proofs.Tree.Nesting
import ScriptFold.Proofs.Tree.Placed
import ScriptFold.Proofs.Value.Equality
import ScriptFold.Proofs.Value.Membership
import ScriptFold.Proofs.Value.Radix
import ScriptFold.Proofs.Value.Search
import ScriptFold.Proofs.Value.Slicing
import ScriptFold.Proofs.Value.Splitting
import ScriptFold.Proofs.Whole.Basic
import ScriptFold.Proofs.Whole.Callable
import ScriptFold.Proofs.Whole.Chain
import ScriptFold.Proofs.Whole.Control
import ScriptFold.Proofs.Whole.Evaluation
import ScriptFold.Proofs.Whole.Operation
import ScriptFold.Proofs.Whole.Printing
import ScriptFold.Proofs.Whole.Reading
import ScriptFold.Proofs.Whole.Script
import ScriptFold.Proofs.Whole.Slip
import ScriptFold.Proofs.Whole.Slot
import ScriptFold.Proofs.Whole.Target
import ScriptFold.SourceMap.Basic
import ScriptFold.SourceMap.Mapping
import ScriptFold.Text.Basic
import ScriptFold.Text.Case
import ScriptFold.Text.Digit
import ScriptFold.Text.Letter
import ScriptFold.Text.Printable
import ScriptFold.Text.Quoted
import ScriptFold.Text.StringLiteral
import ScriptFold.Token.Basic
import ScriptFold.Token.Lexer
import ScriptFold.Token.Type
import ScriptFold.Tree.Basic
import ScriptFold.Tree.Edit
import ScriptFold.Tree.Kind
import ScriptFold.Tree.Literal
import ScriptFold.Value.Basic
import ScriptFold.Value.Coercion
import ScriptFold.Value.Method
import ScriptFold.Value.Operator
import ScriptFold.Value.Property
