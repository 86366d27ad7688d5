import Shading.Logged
import Shading.Typing.Context
import Shading.Typing.Literals
import Shading.Typing.Rules

/-!
# Typing expressions

An expression is typed from its parts up, in a context and with the scalar type that its surroundings
expect as a hint for literals without a suffix. What has no type is told once, where it arises:
whatever is built on it has no type either, and nothing more is said about that.
-/

namespace Shading.Typing

open Typed (Callee Expr)

/-- Something to be said about an expression. -/
inductive Issue where
  /-- No binding of a name is in scope. -/
  | unresolved (name : String) (span : Span)
  /-- A name that is called stands for nothing. -/
  | undefinedFunction (name : String) (span : Span)
  | typing (error : TypingError) (span : Span)
deriving DecidableEq, Repr

/-- The type that a rule gives; an error is told at a place. -/
def judge {α : Type} (result : Except TypingError α) (span : Span) : Logged Issue (Option α) :=
  .ofExcept (result.mapError fun error => .typing error span)

/-- The scalar type that a type is, as a hint. -/
def scalarHint : Option Ty → Option Scalar
  | some (.scalar element) => some element
  | _ => none

/-- How a call is typed: what is said before its arguments, a hint for each, and what becomes of
them. -/
structure CallPlan where
  before : List Issue := []
  hint : Nat → Option Scalar := fun _ => none
  finish : List Expr → Logged Issue Expr

/-- Reports about the arguments of a declared function. -/
def argumentIssues (name : String) (signature : Signature) (arguments : List Expr) (span : Span) :
    List Issue :=
  if arguments.length ≠ signature.parameters.length then
    [.typing (.wrongArgumentCount name signature.parameters.length arguments.length) span]
  else
    (arguments.zip signature.parameters).zipIdx.filterMap fun ((argument, parameter), position) =>
      match argument.type, parameter with
      | some found, some expected =>
        if found = expected then none
        else some (.typing (.wrongArgument (position + 1) name expected found) argument.span)
      | _, _ => none

/-- The call of a declared function. -/
def userCall (name : String) (signature : Signature) (span : Span) : CallPlan where
  hint position := scalarHint (signature.parameters[position]?.getD none)
  finish arguments := do
    Logged.write (argumentIssues name signature arguments span)
    let type := if signature.returnsValue then signature.returnType else none
    return .call (.user name) arguments type span

/-- Reports about the values for fields of a struct; none at all are admitted. -/
def fieldIssues (struct : Ty) (fields : List Ty) (arguments : List Expr) (span : Span) :
    List Issue :=
  if arguments.isEmpty then []
  else if arguments.length ≠ fields.length then
    [.typing (.wrongFieldCount struct fields.length arguments.length) span]
  else
    (arguments.zip fields).filterMap fun (argument, expected) =>
      match argument.type with
      | some found =>
        if found = expected then none
        else some (.typing (.wrongField expected found) argument.span)
      | none => none

/-- The types of a struct's fields. -/
def fieldTypes : Ty → List Ty
  | .struct _ fields => fields.map Prod.snd
  | _ => []

/-- The construction of a struct. -/
def structCall (name : String) (struct : Ty) (span : Span) : CallPlan where
  hint position := scalarHint (fieldTypes struct)[position]?
  finish arguments := do
    Logged.write (fieldIssues struct (fieldTypes struct) arguments span)
    return .call (.struct name) arguments (some struct) span

/-- A call whose type follows by a rule from those of its arguments. -/
def ruledCall (callee : Callee) (arguments : List Expr) (rule : List Ty → Except TypingError Ty)
    (span : Span) : Logged Issue Expr :=
  match Expr.types? arguments with
  | some types => do
    let type ← judge (rule types) span
    return .call callee arguments type span
  | none => return .call callee arguments none span

/-- The call of a builtin function. -/
def builtinCall (builtin : Builtin) (span : Span) : CallPlan where
  finish arguments :=
    let arguments := if builtin.unifiesArguments then Expr.unify arguments else arguments
    let rule (types : List Ty) := (builtin.resultType types).mapError (.builtinCall builtin)
    ruledCall (.builtin builtin) arguments rule span

/-- The conversion to a scalar. -/
def conversionCall (callee : Callee) (target : Scalar) (span : Span) : CallPlan where
  hint _ := some target
  finish arguments := ruledCall callee arguments (scalarConstructor target) span

/-- The construction of an array, perhaps of an explicit type. -/
def arrayCall (callee : Callee) (explicit : Option Ty) (span : Span) : CallPlan where
  hint _ := match explicit with
    | some (.array element _) => scalarHint (some element)
    | _ => none
  finish arguments :=
    let arguments := if explicit.isNone then Expr.unify arguments else arguments
    ruledCall callee arguments (arrayConstructor explicit) span

/-- The construction of a shape. Its component type is the explicit one, that of the arguments, the
hint, or `f32`. -/
def shapeCall (callee : Callee) (shape : Shape) (explicit : Option Ty) (hint : Option Scalar)
    (span : Span) : CallPlan :=
  match (explicit.bind Ty.element?).or shape.element? with
  | some element =>
    { hint := fun _ => some element
      finish := fun arguments =>
        ruledCall callee arguments (shapeConstructor (shape.withElement element)) span }
  | none =>
    { hint := fun _ => hint
      finish := fun arguments =>
        let arguments := Expr.unify arguments
        let element := ((Expr.concreteElement? arguments).or (hint.filter Scalar.isNumeric)).getD .f32
        ruledCall callee arguments (shapeConstructor (shape.withElement element)) span }

/-- A call without a type. -/
def untypedCall (callee : Callee) (before : List Issue) (span : Span) : CallPlan where
  before := before
  finish arguments := return .call callee arguments none span

/-- The constructor of a builtin type by its name, perhaps of an explicit type. -/
def namedConstructor (callee : Callee) (name : String) (explicit : Option Ty) (hint : Option Scalar)
    (span : Span) : CallPlan :=
  match Scalar.ofName? name with
  | some target => conversionCall callee target span
  | none =>
    if name = "array" then arrayCall callee explicit span
    else match Shape.ofName? name with
      | some shape => shapeCall callee shape explicit hint span
      | none => untypedCall callee [] span

/-- The constructor of a builtin type, as written with its type arguments. -/
def constructorCall (context : Context) (name : String) (typeArguments : List TypeArgument)
    (hint : Option Scalar) (span : Span) : CallPlan :=
  let written := WrittenType.mk name typeArguments span
  let callee := Callee.constructor written.text
  if typeArguments.isEmpty then namedConstructor callee name none hint span
  else match context.resolve? written with
    | some type => namedConstructor callee name (some type) hint span
    | none => untypedCall callee [.typing (.invalidConstructor written.text) span] span

/-- Whether a name is that of a builtin type's constructor. -/
def isConstructorName (name : String) : Bool :=
  name == "array" || (Scalar.ofName? name).isSome || (Shape.ofName? name).isSome

/-- How a name is called: declared functions first, then structs, builtin functions and
constructors. -/
def callPlan (context : Context) (name : String) (typeArguments : List TypeArgument)
    (hint : Option Scalar) (span : Span) : CallPlan :=
  match context.function? name with
  | some signature => userCall name signature span
  | none =>
    match context.struct? name with
    | some struct => structCall name struct span
    | none =>
      match Builtin.ofName? name with
      | some builtin => builtinCall builtin span
      | none =>
        if isConstructorName name then constructorCall context name typeArguments hint span
        else untypedCall (.user name) [.undefinedFunction name span] span

/-- Gives a literal without suffix the component type of the other operand. -/
def matchOperands (left right : Expr) : Expr × Expr :=
  match left.isAbstractLiteral, right.isAbstractLiteral with
  | true, false => (left.coerceTo right.element?, right)
  | false, true => (left, right.coerceTo left.element?)
  | _, _ => (left, right)

/-- The operation on two typed operands. -/
def binaryNode (operator : BinaryOperator) (left right : Expr) (span : Span) : Logged Issue Expr :=
  let (left, right) := matchOperands left right
  match left.type, right.type with
  | some leftType, some rightType => do
    let type ← judge (binary operator leftType rightType) span
    return .binary operator left right type span
  | _, _ => return .binary operator left right none span

/-- The operation on a typed operand; a literal is coerced with its sign. -/
def unaryNode (operator : UnaryOperator) (operand : Expr) (hint : Option Scalar) (span : Span) :
    Logged Issue Expr :=
  match operand.type with
  | some operandType => do
    let type ← judge (unary operator operandType) span
    return (Expr.unary operator operand type span).coerceTo hint
  | none => return (Expr.unary operator operand none span).coerceTo hint

/-- A member of a typed base. -/
def memberNode (base : Expr) (name : String) (span : Span) : Logged Issue Expr :=
  match base.type with
  | some baseType => do
    match ← judge (member baseType name) span with
    | some (type, kind) => return .member base name kind (some type) span
    | none => return .member base name (if baseType.isVector then .swizzle else .field) none span
  | none => return .member base name .field none span

/-- An element of a typed base. -/
def indexNode (base position : Expr) (span : Span) : Logged Issue Expr :=
  match base.type, position.type with
  | some baseType, some positionType => do
    let type ← judge (index baseType positionType) span
    return .index base position type span
  | _, _ => return .index base position none span

/-- Whether an expression is a numeric literal without a suffix. -/
def isPlainLiteral : Surface.Expr → Bool
  | .number literal _ => literal.kind = .abstract
  | _ => false

mutual

/-- Types an expression; `hint` is the scalar type that its surroundings expect. -/
def elaborate (context : Context) : Surface.Expr → (hint : Option Scalar) → Logged Issue Expr
  | .bool value span, _ => return .bool value (some .bool) span
  | .number literal span, hint =>
    return (Expr.number literal (some (.scalar literal.kind.scalar)) span).coerceTo hint
  | .identifier name span, _ =>
    match context.lookup? name with
    | some binding => return .identifier name binding.type span
    | none => do
      Logged.write [.unresolved name span]
      return .identifier name none span
  | .binary operator left right span, hint => do
    let operandHint := if operator.isArithmetic then hint else none
    let left ← elaborate context left operandHint
    let right ← elaborate context right operandHint
    binaryNode operator left right span
  | .unary operator operand span, hint => do
    let operand ← elaborate context operand (if isPlainLiteral operand then none else hint)
    unaryNode operator operand hint span
  | .call name typeArguments arguments span, hint => do
    let plan := callPlan context name typeArguments hint span
    Logged.write plan.before
    let arguments ← elaborateAll context arguments plan.hint
    plan.finish arguments
  | .member base name span, _ => do
    let base ← elaborate context base none
    memberNode base name span
  | .index base position span, _ => do
    let base ← elaborate context base none
    let position ← elaborate context position (some .i32)
    indexNode base position span

/-- Types expressions in order, each with the hint for its position. -/
def elaborateAll (context : Context) :
    List Surface.Expr → (hint : Nat → Option Scalar) → Logged Issue (List Expr)
  | [], _ => return []
  | first :: rest, hint => do
    let first ← elaborate context first (hint 0)
    let rest ← elaborateAll context rest fun position => hint (position + 1)
    return first :: rest

end

/-- The type of an expression, whatever is to be said about it. -/
def typeOf? (context : Context) (expression : Surface.Expr) : Option Ty :=
  (elaborate context expression none).value.type

end Shading.Typing
