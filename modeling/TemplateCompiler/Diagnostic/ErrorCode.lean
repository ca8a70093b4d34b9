import TemplateCompiler.Text.Quoted

/-!
# Error codes

Every violation has a searchable code, which tells its category and a number in it.
-/

namespace TemplateCompiler

inductive ErrorCode where
  | missingRoot
  | unexpectedToken
  | rootNotTemplate
  | disallowedExpression
  | expressionEvaluation
  | selfReference
  | invalidAttributeValue
  | invalidBinding
  | invalidForSyntax
  | elseBeforeIf
  | directiveOnSlot
  | duplicateDirective
  | unknownNamespace
  | memberTag
  | invalidComponentName
deriving DecidableEq, Repr

namespace ErrorCode

inductive Category where
  | template
  | expression
  | directive
  | tag
deriving DecidableEq, Repr

def Category.title : Category → String
  | template => "template"
  | expression => "expression"
  | directive => "directive"
  | tag => "tag"

def all : List ErrorCode :=
  [missingRoot, unexpectedToken, rootNotTemplate, disallowedExpression, expressionEvaluation,
   selfReference, invalidAttributeValue, invalidBinding, invalidForSyntax, elseBeforeIf,
   directiveOnSlot, duplicateDirective, unknownNamespace, memberTag, invalidComponentName]

def value : ErrorCode → String
  | missingRoot => "T-TPL-001"
  | unexpectedToken => "T-TPL-002"
  | rootNotTemplate => "T-TPL-003"
  | disallowedExpression => "T-EXP-001"
  | expressionEvaluation => "T-EXP-002"
  | selfReference => "T-EXP-003"
  | invalidAttributeValue => "T-EXP-004"
  | invalidBinding => "T-EXP-005"
  | invalidForSyntax => "T-DIR-001"
  | elseBeforeIf => "T-DIR-002"
  | directiveOnSlot => "T-DIR-003"
  | duplicateDirective => "T-DIR-004"
  | unknownNamespace => "T-DIR-005"
  | memberTag => "T-TAG-001"
  | invalidComponentName => "T-TAG-002"

def name : ErrorCode → String
  | missingRoot => "MISSING_ROOT"
  | unexpectedToken => "UNEXPECTED_TOKEN"
  | rootNotTemplate => "ROOT_NOT_TEMPLATE"
  | disallowedExpression => "DISALLOWED_EXPRESSION"
  | expressionEvaluation => "EXPRESSION_EVALUATION"
  | selfReference => "SELF_REFERENCE"
  | invalidAttributeValue => "INVALID_ATTRIBUTE_VALUE"
  | invalidBinding => "INVALID_BINDING"
  | invalidForSyntax => "INVALID_FOR_SYNTAX"
  | elseBeforeIf => "ELSE_BEFORE_IF"
  | directiveOnSlot => "DIRECTIVE_ON_SLOT"
  | duplicateDirective => "DUPLICATE_DIRECTIVE"
  | unknownNamespace => "UNKNOWN_NAMESPACE"
  | memberTag => "MEMBER_TAG"
  | invalidComponentName => "INVALID_COMPONENT_NAME"

def category : ErrorCode → Category
  | missingRoot | unexpectedToken | rootNotTemplate => .template
  | disallowedExpression | expressionEvaluation | selfReference | invalidAttributeValue
  | invalidBinding => .expression
  | invalidForSyntax | elseBeforeIf | directiveOnSlot | duplicateDirective
  | unknownNamespace => .directive
  | memberTag | invalidComponentName => .tag

/-- A name or value that no code has. -/
inductive Fault where
  | unknownName (name : String)
  | unknownValue (value : String)
deriving DecidableEq, Repr

def Fault.message : Fault → String
  | unknownName name => Text.quoted name
  | unknownValue value => s!"{Text.quoted value} is not a valid ErrorCode"

def ofName (name : String) : Except Fault ErrorCode :=
  match all.find? fun code => code.name == name with
  | some code => .ok code
  | none => .error (.unknownName name)

def ofValue (value : String) : Except Fault ErrorCode :=
  match all.find? fun code => code.value == value with
  | some code => .ok code
  | none => .error (.unknownValue value)

end ErrorCode

end TemplateCompiler
