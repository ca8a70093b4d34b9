import TemplateCompiler.Attribute.Content
import TemplateCompiler.Attribute.Entry
import TemplateCompiler.Attribute.Reading
import TemplateCompiler.Attribute.Role
import TemplateCompiler.Binding
import TemplateCompiler.Callback
import TemplateCompiler.Code.Basic
import TemplateCompiler.Code.Module
import TemplateCompiler.Code.Primitive
import TemplateCompiler.Compile
import TemplateCompiler.Component
import TemplateCompiler.Config
import TemplateCompiler.Constant
import TemplateCompiler.Context
import TemplateCompiler.Diagnostic.Color
import TemplateCompiler.Diagnostic.ErrorCode
import TemplateCompiler.Diagnostic.Problem
import TemplateCompiler.Diagnostic.Report
import TemplateCompiler.Diagnostic.Snippet
import TemplateCompiler.Element.Call
import TemplateCompiler.Element.Guard
import TemplateCompiler.Element.Item
import TemplateCompiler.Element.Lowering
import TemplateCompiler.Element.Sibling
import TemplateCompiler.Event
import TemplateCompiler.Expr.Basic
import TemplateCompiler.Expr.Check
import TemplateCompiler.Expr.Qualify
import TemplateCompiler.Identifier.Basic
import TemplateCompiler.Identifier.Continue
import TemplateCompiler.Identifier.Digit
import TemplateCompiler.Identifier.Start
import TemplateCompiler.Location
import TemplateCompiler.Loop.Plan
import TemplateCompiler.Loop.Statement
import TemplateCompiler.Manifest
import TemplateCompiler.Markup.Display
import TemplateCompiler.Markup.Node
import TemplateCompiler.Scope
import TemplateCompiler.Text.Blank
import TemplateCompiler.Text.CharRange
import TemplateCompiler.Text.Collapse
import TemplateCompiler.Text.Dashed
import TemplateCompiler.Text.InlineStyle
import TemplateCompiler.Text.Lines
import TemplateCompiler.Text.Pieces
import TemplateCompiler.Text.Printable
import TemplateCompiler.Text.Quoted
import TemplateCompiler.Proofs.Run
import TemplateCompiler.Proofs.Derivation
import TemplateCompiler.Proofs.Assembly
import TemplateCompiler.Proofs.Attributes
import TemplateCompiler.Proofs.Lowering
import TemplateCompiler.Proofs.Compilation
import TemplateCompiler.Proofs.Mentions
import TemplateCompiler.Proofs.Readings
import TemplateCompiler.Proofs.Place
import TemplateCompiler.Proofs.Glue
import TemplateCompiler.Proofs.Sites
import TemplateCompiler.Proofs.Scoping
import TemplateCompiler.Proofs.Hoisting
import TemplateCompiler.Proofs.Capture
import TemplateCompiler.Proofs.Closed
import TemplateCompiler.Proofs.Interpreter
import TemplateCompiler.Proofs.Evaluation
import TemplateCompiler.Proofs.Refinement
import TemplateCompiler.Proofs.Total
import TemplateCompiler.Proofs.UsedNames
import TemplateCompiler.Proofs.Guards
import TemplateCompiler.Proofs.Primitives
import TemplateCompiler.Proofs.Flatness
import TemplateCompiler.Proofs.Children
import TemplateCompiler.Proofs.Coding
import TemplateCompiler.Proofs.Pieces
import TemplateCompiler.Proofs.Layout
import TemplateCompiler.Proofs.Readback
import TemplateCompiler.Proofs.Displays
import TemplateCompiler.Proofs.Subterms
import TemplateCompiler.Proofs.Tally
import TemplateCompiler.Proofs.Accepted
import TemplateCompiler.Proofs.Standing
import TemplateCompiler.Proofs.Modifiers
import TemplateCompiler.Proofs.Accounting
import TemplateCompiler.Proofs.Content
import TemplateCompiler.Proofs.Choices
import TemplateCompiler.Proofs.ElseBranches
import TemplateCompiler.Proofs.InstanceReads
import TemplateCompiler.Proofs.Failing
import TemplateCompiler.Proofs.Rejections
import TemplateCompiler.Proofs.ScopeDiscipline
import TemplateCompiler.Proofs.Validation
import TemplateCompiler.Proofs.Composition
import TemplateCompiler.Proofs.Inert
import TemplateCompiler.Proofs.Slots
import TemplateCompiler.Proofs.SlotContent
import TemplateCompiler.Proofs.Components
import TemplateCompiler.Proofs.Inheritance
import TemplateCompiler.Proofs.Imports
import TemplateCompiler.Proofs.Toplevel
import TemplateCompiler.Proofs.Rewriting
import TemplateCompiler.Proofs.Regrouping
import TemplateCompiler.Proofs.CollapsedText
import TemplateCompiler.Proofs.BlankText
import TemplateCompiler.Proofs.NameSupply
import TemplateCompiler.Proofs.Identifiers
import TemplateCompiler.Proofs.Gaps
import TemplateCompiler.Proofs.ForStatements
import TemplateCompiler.Proofs.Revision
import TemplateCompiler.Proofs.IterationForms
import TemplateCompiler.Proofs.Recoding
import TemplateCompiler.Proofs.Expressions
import TemplateCompiler.Proofs.Simulation
import TemplateCompiler.Proofs.Locations
import TemplateCompiler.Proofs.BindingForms
import TemplateCompiler.Proofs.Handlers
import TemplateCompiler.Proofs.Memos
import TemplateCompiler.Proofs.PrimitiveNames
import TemplateCompiler.Proofs.Trees
import TemplateCompiler.Proofs.Spelling
import TemplateCompiler.Proofs.WellFormed
import TemplateCompiler.Proofs.Segments
import TemplateCompiler.Proofs.EventNames
import TemplateCompiler.Proofs.Meaning
import TemplateCompiler.Proofs.Offences
import TemplateCompiler.Proofs.ForGrammar
import TemplateCompiler.Proofs.ForReading
import TemplateCompiler.Proofs.CamelCase
import TemplateCompiler.Proofs.StyleWriting
import TemplateCompiler.Proofs.BindingTexts
import TemplateCompiler.Proofs.ScopeStack
import TemplateCompiler.Proofs.Carets
import TemplateCompiler.Proofs.Coloring
