/-!
# Diagnostic codes

Every report carries a stable code, the letters `GL` and four digits. The first digit is the band
of its category, so a code alone classifies a report, and each code has a severity of its own.
-/

namespace Shading

/-- How much a report weighs. -/
inductive Severity where
  | error
  | warning
  | info
  | hint
deriving DecidableEq, Repr, Inhabited

/-- The name of a severity. -/
def Severity.name : Severity → String
  | .error => "error"
  | .warning => "warning"
  | .info => "info"
  | .hint => "hint"

/-- What a report is about. -/
inductive Category where
  | syntactic
  | typing
  | scope
  | semantic
  | performance
  | style
  | unclassified
deriving DecidableEq, Repr, Inhabited

/-- The name of a category. -/
def Category.name : Category → String
  | .syntactic => "syntax"
  | .typing => "type"
  | .scope => "scope"
  | .semantic => "semantic"
  | .performance => "performance"
  | .style => "style"
  | .unclassified => "unclassified"

/-- The stable classification of reports. -/
inductive Code where
  | unexpectedToken
  | invalidCharacter
  | invalidNumber
  | expectedItem
  | unknownDecorator
  | invalidDecoratorArgument
  | typeMismatch
  | invalidSwizzle
  | vectorSizeMismatch
  | wrongArgumentCount
  | invalidOperandTypes
  | constructorComponentMismatch
  | unknownField
  | notIndexable
  | returnTypeMismatch
  | matrixDimensionMismatch
  | undefinedVariable
  | undefinedFunction
  | duplicateDeclaration
  | useBeforeDeclaration
  | unknownStruct
  | missingReturn
  | noEntryPoints
  | bindingConflict
  | emptyStruct
  | duplicateField
  | fragmentReturnsVoid
  | unrecognizedType
  | assignToImmutable
  | invalidEntryPoint
  | complementaryStage
  | divisionInBody
  | smallIntegerPow
  | uniformPacking
  | unusedFunction
  | unclassified
deriving DecidableEq, Repr, Inhabited

namespace Code

/-- The number of a code; its thousands are the band of the category. -/
def number : Code → Nat
  | .unexpectedToken => 1001
  | .invalidCharacter => 1002
  | .invalidNumber => 1003
  | .expectedItem => 1004
  | .unknownDecorator => 1005
  | .invalidDecoratorArgument => 1006
  | .typeMismatch => 2001
  | .invalidSwizzle => 2002
  | .vectorSizeMismatch => 2003
  | .wrongArgumentCount => 2004
  | .invalidOperandTypes => 2005
  | .constructorComponentMismatch => 2006
  | .unknownField => 2007
  | .notIndexable => 2008
  | .returnTypeMismatch => 2009
  | .matrixDimensionMismatch => 2010
  | .undefinedVariable => 3001
  | .undefinedFunction => 3002
  | .duplicateDeclaration => 3003
  | .useBeforeDeclaration => 3004
  | .unknownStruct => 3005
  | .missingReturn => 4001
  | .noEntryPoints => 4002
  | .bindingConflict => 4003
  | .emptyStruct => 4004
  | .duplicateField => 4005
  | .fragmentReturnsVoid => 4006
  | .unrecognizedType => 4007
  | .assignToImmutable => 4008
  | .invalidEntryPoint => 4009
  | .complementaryStage => 4010
  | .divisionInBody => 5001
  | .smallIntegerPow => 5002
  | .uniformPacking => 5003
  | .unusedFunction => 6001
  | .unclassified => 0

/-- All codes. -/
def all : List Code :=
  [.unexpectedToken, .invalidCharacter, .invalidNumber, .expectedItem, .unknownDecorator,
    .invalidDecoratorArgument, .typeMismatch, .invalidSwizzle, .vectorSizeMismatch,
    .wrongArgumentCount, .invalidOperandTypes, .constructorComponentMismatch, .unknownField,
    .notIndexable, .returnTypeMismatch, .matrixDimensionMismatch, .undefinedVariable,
    .undefinedFunction, .duplicateDeclaration, .useBeforeDeclaration, .unknownStruct,
    .missingReturn, .noEntryPoints, .bindingConflict, .emptyStruct, .duplicateField,
    .fragmentReturnsVoid, .unrecognizedType, .assignToImmutable, .invalidEntryPoint,
    .complementaryStage, .divisionInBody, .smallIntegerPow, .uniformPacking, .unusedFunction,
    .unclassified]

/-- The four digits of a code. -/
def digits (code : Code) : String :=
  let text := Nat.repr code.number
  String.ofList (List.replicate (4 - text.length) '0') ++ text

/-- How a code is written. -/
def text (code : Code) : String := "GL" ++ code.digits

/-- The code with the given text. -/
def ofText? (text : String) : Option Code := all.find? fun code => code.text == text

/-- The category of a code's band. -/
def category (code : Code) : Category :=
  match code.number / 1000 with
  | 1 => .syntactic
  | 2 => .typing
  | 3 => .scope
  | 4 => .semantic
  | 5 => .performance
  | 6 => .style
  | _ => .unclassified

/-- The severity that reports with a code have of themselves. -/
def severity : Code → Severity
  | .missingReturn | .emptyStruct | .fragmentReturnsVoid | .unrecognizedType => .warning
  | .complementaryStage | .divisionInBody | .smallIntegerPow | .uniformPacking
  | .unusedFunction => .hint
  | .unclassified => .info
  | _ => .error

/-- Where the code is documented. -/
def documentation (code : Code) : String := "docs/diagnostics.md#gl" ++ code.digits

end Code

end Shading
