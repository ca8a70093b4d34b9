import TemplateCompiler.Diagnostic.ErrorCode
import TemplateCompiler.Loop.Statement

/-!
# Violations

What can be wrong with a template. Every violation has one message and one code.
-/

namespace TemplateCompiler

inductive Problem where
  | missingRoot
  | unexpectedToken
  | rootNotTemplate
  | memberTag (tag : String)
  | unknownNamespace (ns qualified : String)
  | emptyExpression (qualified : String)
  | notAValue (qualified shown : String)
  | slotNotText
  | statementNotText
  | statement (fault : ForStatement.Fault)
  | reservedParameter (name : String)
  | parameterNotIdentifier (modifier : String)
  | unknownIteration (qualified : String)
  | duplicateDirective (qualified : String)
  | directiveOnSlot
  | statementWithEach
  | eachMissing
  | itemMissing
  | sameParameters
  | selfReference
  | disallowedKind (kind : String)
  | evaluatedKind (kind : String)
  | notMember
  | invalidBinding (text : String)
  | componentMissing
  | notImportable (path : String)
  | elseBeforeIf
deriving DecidableEq, Repr

namespace Problem

def message : Problem → String
  | missingRoot => "Missing root template tag"
  | unexpectedToken => "Unexpected token"
  | rootNotTemplate => "Root tag should be a template"
  | memberTag tag => s!"Member expressions are not supported as tag names: <{tag}>"
  | unknownNamespace ns qualified => s!"Unknown attribute namespace '{ns}' in '{qualified}'"
  | emptyExpression qualified => s!"Empty expression in attribute '{qualified}'"
  | notAValue qualified shown =>
    s!"Attribute '{qualified}' must be a literal or an expression, not {shown}"
  | slotNotText => "The slot attribute must be a string literal"
  | statementNotText => "repeat:for expects a string such as \"item in items\""
  | statement fault => fault.message
  | reservedParameter name =>
    s!"'{name}' is reserved by the generated module and can't be an iteration argument"
  | parameterNotIdentifier modifier => s!"for:{modifier} expects an identifier string"
  | unknownIteration qualified => s!"Unknown iteration modifier '{qualified}'"
  | duplicateDirective qualified => s!"Duplicate directive '{qualified}'"
  | directiveOnSlot => "Directives are not allowed on a <slot> element"
  | statementWithEach => "repeat:for can't be combined with for:each/for:item/for:index"
  | eachMissing => "for:item and for:index require for:each"
  | itemMissing => "for:each requires for:item"
  | sameParameters => "for:item and for:index must differ"
  | selfReference => "You can't use `self` within a template"
  | disallowedKind kind =>
    s!"Disallowed expression in attribute value: node type {kind} is not allowed"
  | evaluatedKind kind => s!"Expression evaluation is not allowed (found {kind})"
  | notMember =>
    "Expression evaluation is not allowed: only identifiers and member expressions may be used"
  | invalidBinding text => s!"Invalid binding '{text}'"
  | componentMissing => "The is directive needs a component name or an expression"
  | notImportable path => s!"Component '{path}' is not an importable module path"
  | elseBeforeIf => "Else statement found before if statement"

def code : Problem → ErrorCode
  | missingRoot => .missingRoot
  | unexpectedToken => .unexpectedToken
  | rootNotTemplate => .rootNotTemplate
  | memberTag _ => .memberTag
  | unknownNamespace .. => .unknownNamespace
  | emptyExpression _ | notAValue .. | slotNotText | componentMissing => .invalidAttributeValue
  | statementNotText | statement _ | reservedParameter _ | parameterNotIdentifier _
  | unknownIteration _ | eachMissing | itemMissing | sameParameters => .invalidForSyntax
  | duplicateDirective _ | statementWithEach => .duplicateDirective
  | directiveOnSlot => .directiveOnSlot
  | selfReference => .selfReference
  | disallowedKind _ => .disallowedExpression
  | evaluatedKind _ | notMember => .expressionEvaluation
  | invalidBinding _ => .invalidBinding
  | notImportable _ => .invalidComponentName
  | elseBeforeIf => .elseBeforeIf

end Problem

end TemplateCompiler
