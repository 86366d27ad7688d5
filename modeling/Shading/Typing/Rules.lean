import Shading.Typing.Error

/-!
# Typing rules

The type of each kind of expression as a function of the types of its parts. Operators work on
scalars, component by component on vectors, and between vectors or matrices and scalars; matrices
multiply as in linear algebra. All operands of an arithmetic operator have one component type.
-/

namespace Shading.Typing

/-- Whether values of a type can be compared, with `ordered` by size. -/
def comparable (ordered : Bool) : Ty → Bool
  | .scalar element | .vector _ element => !ordered || element.isNumeric
  | _ => false

/-- The type of an arithmetic operation on operands with one component type. -/
def arithmetic (operator : BinaryOperator) (left right : Ty) : Except TypingError Ty :=
  match left, right with
  | .scalar _, .scalar _ => .ok left
  | .vector leftSize _, .vector rightSize _ =>
    if leftSize = rightSize then .ok left
    else .error (.vectorSizeMismatch operator left right)
  | .vector .., .scalar _ => .ok left
  | .scalar _, .vector .. => .ok right
  | .matrix columns rows element, .vector size _ =>
    if operator ≠ .multiply then .error (.invalidOperands operator left right)
    else if size = columns then .ok (.vector rows element)
    else .error (.dimensionMismatch operator left right)
  | .vector size _, .matrix columns rows element =>
    if operator ≠ .multiply then .error (.invalidOperands operator left right)
    else if size = rows then .ok (.vector columns element)
    else .error (.dimensionMismatch operator left right)
  | .matrix leftColumns leftRows element, .matrix rightColumns rightRows _ =>
    match operator with
    | .multiply =>
      if leftColumns = rightRows then .ok (.matrix rightColumns leftRows element)
      else .error (.dimensionMismatch operator left right)
    | .add | .subtract =>
      if leftRows = rightRows && leftColumns = rightColumns then .ok left
      else .error (.dimensionMismatch operator left right)
    | _ => .error (.invalidOperands operator left right)
  | .matrix .., .scalar _ =>
    if operator = .multiply then .ok left else .error (.invalidOperands operator left right)
  | .scalar _, .matrix .. =>
    if operator = .multiply then .ok right else .error (.invalidOperands operator left right)
  | _, _ => .error (.invalidOperands operator left right)

/-- The type of an operation on two operands. -/
def binary (operator : BinaryOperator) (left right : Ty) : Except TypingError Ty :=
  if operator.isLogical then
    if left = .bool && right = .bool then .ok .bool
    else .error (.invalidOperands operator left right)
  else if operator.isComparison then
    let ordered : Bool := operator ≠ .equal && operator ≠ .notEqual
    if left = right && comparable ordered left then .ok .bool
    else .error (.invalidOperands operator left right)
  else if left.isNumeric && right.isNumeric && left.element? = right.element? then
    arithmetic operator left right
  else .error (.invalidOperands operator left right)

/-- The type of an operation on one operand. There are no negative unsigned numbers. -/
def unary (operator : UnaryOperator) (operand : Ty) : Except TypingError Ty :=
  let admitted : Bool := match operator with
    | .negate => operand.isNumeric && operand.element? ≠ some .u32
    | .not => operand = .bool
  if admitted then .ok operand else .error (.invalidOperand operator operand)

/-- The type of a member: components of a vector or a field of a struct. -/
def member (base : Ty) (name : String) : Except TypingError (Ty × Typed.MemberKind) :=
  match base with
  | .vector size element =>
    match Swizzle.components? name size with
    | some [_] => .ok (.scalar element, .swizzle)
    | some components => .ok (.vector components.length element, .swizzle)
    | none => .error (.invalidSwizzle name size element)
  | .struct struct fields =>
    match base.field? name with
    | some type => .ok (type, .field)
    | none => .error (.unknownField struct (fields.map Prod.fst) name)
  | _ => .error (.noMember base name)

/-- The type of a component, a column or an element. -/
def index (base index : Ty) : Except TypingError Ty :=
  if index ≠ .scalar .i32 && index ≠ .scalar .u32 then .error (.invalidIndex index)
  else match base with
    | .vector _ element => .ok (.scalar element)
    | .matrix _ rows element => .ok (.vector rows element)
    | .array element _ => .ok element
    | _ => .error (.notIndexable base)

/-- How many components of a type arguments give, or the first that gives none. -/
def countComponents (element : Scalar) : List Ty → Except Ty Nat
  | [] => .ok 0
  | argument :: rest =>
    match argument.componentCount? with
    | some count =>
      if argument.element? = some element then (countComponents element rest).map (count + ·)
      else .error argument
    | none => .error argument

/-- The type of a vector built from nothing, a vector of its size, one scalar, or all components. -/
def vectorConstructor (size : Nat) (element : Scalar) (arguments : List Ty) :
    Except TypingError Ty :=
  let target := Ty.vector size element
  match arguments with
  | [] => .ok target
  | [.vector argumentSize argumentElement] =>
    if argumentSize = size then .ok target
    else .error (.constructor target (.cannotConvert (.vector argumentSize argumentElement)))
  | [.scalar argument] =>
    if argument = element then .ok target
    else .error (.constructor target (.cannotSplat argument))
  | _ =>
    match countComponents element arguments with
    | .error argument => .error (.constructor target (.wrongComponent argument element))
    | .ok count =>
      if count = size then .ok target
      else .error (.constructor target (.wrongComponentCount size count))

/-- The type of a matrix built from nothing, a matrix of its shape, all columns, or all components. -/
def matrixConstructor (columns rows : Nat) (element : Scalar) (arguments : List Ty) :
    Except TypingError Ty :=
  let target := Ty.matrix columns rows element
  match arguments with
  | [] => .ok target
  | [.matrix argumentColumns argumentRows argumentElement] =>
    if argumentRows = rows && argumentColumns = columns then .ok target
    else
      .error (.constructor target
        (.cannotConvert (.matrix argumentColumns argumentRows argumentElement)))
  | _ =>
    let byColumns : Bool :=
      arguments.length = columns && arguments.all (· = .vector rows element)
    let byScalars : Bool :=
      arguments.length = rows * columns && arguments.all (· = .scalar element)
    if byColumns || byScalars then .ok target
    else .error (.constructor target (.wrongMatrixArguments columns rows element))

/-- The type of a vector or matrix built from arguments. -/
def shapeConstructor (target : Ty) (arguments : List Ty) : Except TypingError Ty :=
  match target with
  | .vector size element => vectorConstructor size element arguments
  | .matrix columns rows element => matrixConstructor columns rows element arguments
  | _ => .error (.constructor target .notVectorOrMatrix)

/-- The type of an array of elements of one type; `size` is the length that is asked for. -/
def arrayOf (element : Ty) (size : Option Nat) (arguments : List Ty) : Except TypingError Ty :=
  let target := Ty.array element (some (size.getD arguments.length))
  match arguments.find? (· ≠ element) with
  | some found => .error (.constructor target (.wrongElement found element))
  | none =>
    match size with
    | some count =>
      if count = arguments.length then .ok target
      else .error (.wrongElementCount target count arguments.length)
    | none => .ok target

/-- The type of an array built from arguments; the first may tell that of the elements. -/
def arrayConstructor (explicit : Option Ty) (arguments : List Ty) : Except TypingError Ty :=
  match explicit with
  | some (.array element size) => arrayOf element size arguments
  | some other => .error (.constructor other .notArray)
  | none =>
    match arguments with
    | first :: _ => arrayOf first none arguments
    | [] => .error .emptyArray

/-- The type of a scalar made from at most one other scalar. -/
def scalarConstructor (target : Scalar) (arguments : List Ty) : Except TypingError Ty :=
  match arguments with
  | [] => .ok (.scalar target)
  | [.scalar _] => .ok (.scalar target)
  | [other] => .error (.constructor (.scalar target) (.cannotConvert other))
  | _ => .error (.wrongConversionCount target arguments.length)

end Shading.Typing
