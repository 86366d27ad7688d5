import Shading.Ty

/-!
# Builtin functions

The closed set of builtin functions. Each has a signature, which tells how many arguments a call
takes and how the type of its result follows from their types.
-/

namespace Shading

/-- A builtin function. -/
inductive Builtin where
  | sin | cos | tan | asin | acos | atan | sinh | cosh | tanh
  | exp | exp2 | log | log2 | sqrt | inverseSqrt
  | abs | sign | floor | ceil | round | fract | trunc | saturate
  | radians | degrees | dpdx | dpdy | fwidth
  | min | max | pow | step | atan2
  | clamp | mix | fma | smoothstep | select
  | length | distance | dot | determinant
  | cross | normalize | reflect | refract | faceForward
  | transpose | any | all
  | textureSample | textureSampleLevel | textureSampleBias | textureSampleGrad
  | textureLoad | textureDimensions
deriving DecidableEq, Repr, Inhabited

namespace Builtin

/-- All builtin functions, in the order in which they are suggested. -/
def every : List Builtin :=
  [.sin, .cos, .tan, .asin, .acos, .atan, .sinh, .cosh, .tanh, .exp, .exp2, .log, .log2, .sqrt,
    .inverseSqrt, .abs, .sign, .floor, .ceil, .round, .fract, .trunc, .saturate, .radians,
    .degrees, .dpdx, .dpdy, .fwidth, .min, .max, .pow, .step, .atan2, .clamp, .mix, .fma,
    .smoothstep, .select, .length, .distance, .dot, .determinant, .cross, .normalize, .reflect,
    .refract, .faceForward, .transpose, .any, .all, .textureSample, .textureSampleLevel,
    .textureSampleBias, .textureSampleGrad, .textureLoad, .textureDimensions]

/-- The name of a builtin function. -/
def name : Builtin → String
  | .sin => "sin"
  | .cos => "cos"
  | .tan => "tan"
  | .asin => "asin"
  | .acos => "acos"
  | .atan => "atan"
  | .sinh => "sinh"
  | .cosh => "cosh"
  | .tanh => "tanh"
  | .exp => "exp"
  | .exp2 => "exp2"
  | .log => "log"
  | .log2 => "log2"
  | .sqrt => "sqrt"
  | .inverseSqrt => "inverseSqrt"
  | .abs => "abs"
  | .sign => "sign"
  | .floor => "floor"
  | .ceil => "ceil"
  | .round => "round"
  | .fract => "fract"
  | .trunc => "trunc"
  | .saturate => "saturate"
  | .radians => "radians"
  | .degrees => "degrees"
  | .dpdx => "dpdx"
  | .dpdy => "dpdy"
  | .fwidth => "fwidth"
  | .min => "min"
  | .max => "max"
  | .pow => "pow"
  | .step => "step"
  | .atan2 => "atan2"
  | .clamp => "clamp"
  | .mix => "mix"
  | .fma => "fma"
  | .smoothstep => "smoothstep"
  | .select => "select"
  | .length => "length"
  | .distance => "distance"
  | .dot => "dot"
  | .determinant => "determinant"
  | .cross => "cross"
  | .normalize => "normalize"
  | .reflect => "reflect"
  | .refract => "refract"
  | .faceForward => "faceForward"
  | .transpose => "transpose"
  | .any => "any"
  | .all => "all"
  | .textureSample => "textureSample"
  | .textureSampleLevel => "textureSampleLevel"
  | .textureSampleBias => "textureSampleBias"
  | .textureSampleGrad => "textureSampleGrad"
  | .textureLoad => "textureLoad"
  | .textureDimensions => "textureDimensions"

/-- The builtin function of a name. -/
def ofName? (name : String) : Option Builtin := every.find? fun builtin => builtin.name == name

/-- How the result of a builtin function follows from its arguments. -/
inductive Signature where
  /-- Arguments of one float type, or with `integers` of one numeric type, scalar or vector; the
  result has that type. -/
  | componentwise (arity : Nat) (integers : Bool)
  /-- Two values of one type and a factor of that type or of its components. -/
  | blend
  /-- Two edges and a value; the result has the type of the value. -/
  | threshold
  /-- Two values of one type and a condition. -/
  | choice
  /-- Float vectors of one type; the result has the type of a component. -/
  | reduction (arity : Nat)
  | determinant
  | crossProduct
  /-- Float vectors of one type, with `scalarLast` and a scalar; the result has the vectors'
  type. -/
  | vectorwise (arity : Nat) (scalarLast : Bool)
  | transposition
  /-- A truth value or a vector of truth values; the result is a truth value. -/
  | quantifier
  /-- A texture, with `sampler` and a sampler, and coordinates that are not checked. -/
  | sampling (least greatest : Nat) (sampler : Bool)
  | dimensions
deriving DecidableEq, Repr

/-- The signature of a builtin function. -/
def signature : Builtin → Signature
  | .abs | .sign => .componentwise 1 true
  | .min | .max => .componentwise 2 true
  | .pow | .step | .atan2 => .componentwise 2 false
  | .clamp => .componentwise 3 true
  | .fma => .componentwise 3 false
  | .mix => .blend
  | .smoothstep => .threshold
  | .select => .choice
  | .length => .reduction 1
  | .distance | .dot => .reduction 2
  | .determinant => .determinant
  | .cross => .crossProduct
  | .normalize => .vectorwise 1 false
  | .reflect => .vectorwise 2 false
  | .refract => .vectorwise 3 true
  | .faceForward => .vectorwise 3 false
  | .transpose => .transposition
  | .any | .all => .quantifier
  | .textureSample => .sampling 3 4 true
  | .textureSampleLevel | .textureSampleBias => .sampling 4 5 true
  | .textureSampleGrad => .sampling 5 6 true
  | .textureLoad => .sampling 2 4 false
  | .textureDimensions => .dimensions
  | _ => .componentwise 1 false

/-- The least and the greatest number of arguments. -/
def Signature.arity : Signature → Nat × Nat
  | .componentwise arity _ | .reduction arity | .vectorwise arity _ => (arity, arity)
  | .blend | .threshold | .choice => (3, 3)
  | .determinant | .transposition | .quantifier => (1, 1)
  | .crossProduct => (2, 2)
  | .sampling least greatest _ => (least, greatest)
  | .dimensions => (1, 2)

/-- The least and the greatest number of arguments. -/
def arity (builtin : Builtin) : Nat × Nat := builtin.signature.arity

/-- Whether literals without a suffix take the component type of the other arguments. -/
def unifiesArguments (builtin : Builtin) : Bool :=
  match builtin.signature with
  | .sampling .. | .dimensions | .quantifier | .choice => false
  | _ => true

/-- Why a call of a builtin function is refused. -/
inductive CallError where
  | argumentCount (least greatest found : Nat)
  | operand (builtin : Builtin) (integers : Bool) (found : Ty)
  | differing (builtin : Builtin) (expected found : Ty)
  | blendFactor (expected found : Ty)
  | edge (expected found : Ty)
  | branches (left right : Ty)
  | condition (found : Ty)
  | floatVector (builtin : Builtin) (found : Ty)
  | squareMatrix (found : Ty)
  | crossOperand (found : Ty)
  | scalarLast (builtin : Builtin) (found : Ty)
  | matrix (found : Ty)
  | truthVector (builtin : Builtin) (found : Ty)
  | texture (builtin : Builtin) (found : Ty)
  | sampler (builtin : Builtin) (found : Ty)
  | dimensionsOf (found : Ty)
deriving DecidableEq, Repr

/-- The wording of a refused call. -/
def CallError.message : CallError → String
  | .argumentCount least greatest found =>
    if least = greatest then
      "expected " ++ least.repr ++ " argument(s), found " ++ found.repr
    else
      "expected " ++ least.repr ++ " to " ++ greatest.repr ++ " arguments, found " ++ found.repr
  | .operand builtin integers found =>
    "`" ++ builtin.name ++ "` expects " ++ (if integers then "a numeric" else "a float") ++
      " scalar or vector, found `" ++ found.text ++ "`"
  | .differing builtin expected found =>
    "`" ++ builtin.name ++ "` arguments must all be `" ++ expected.text ++ "`, found `" ++
      found.text ++ "`"
  | .blendFactor expected found =>
    "`mix` blend factor must be `" ++ expected.text ++ "` or its element type, found `" ++
      found.text ++ "`"
  | .edge expected found =>
    "`smoothstep` edges must match `" ++ expected.text ++ "`, found `" ++ found.text ++ "`"
  | .branches left right =>
    "`select` branches differ: `" ++ left.text ++ "` and `" ++ right.text ++ "`"
  | .condition found =>
    "`select` condition must be `bool` or a matching boolean vector, found `" ++ found.text ++ "`"
  | .floatVector builtin found =>
    "`" ++ builtin.name ++ "` expects a float vector, found `" ++ found.text ++ "`"
  | .squareMatrix found => "`determinant` expects a square matrix, found `" ++ found.text ++ "`"
  | .crossOperand found =>
    "`cross` expects `vec3` float arguments, found `" ++ found.text ++ "`"
  | .scalarLast builtin found =>
    "`" ++ builtin.name ++ "` expects a scalar last argument, found `" ++ found.text ++ "`"
  | .matrix found => "`transpose` expects a matrix, found `" ++ found.text ++ "`"
  | .truthVector builtin found =>
    "`" ++ builtin.name ++ "` expects a boolean vector, found `" ++ found.text ++ "`"
  | .texture builtin found =>
    "`" ++ builtin.name ++ "` expects a texture as its first argument, found `" ++ found.text ++
      "`"
  | .sampler builtin found =>
    "`" ++ builtin.name ++ "` expects a sampler as its second argument, found `" ++ found.text ++
      "`"
  | .dimensionsOf found => "`textureDimensions` expects a texture, found `" ++ found.text ++ "`"

/-- Whether a type is a scalar or vector of floats, or of `integers`. -/
def admitsOperand (integers : Bool) : Ty → Bool
  | .scalar element | .vector _ element => element.isFloat || (integers && element.isNumeric)
  | _ => false

/-- Refuses types other than `expected`; the first of them is told. -/
def allSame (builtin : Builtin) (expected : Ty) (types : List Ty) : Except CallError Unit :=
  match types.find? (· ≠ expected) with
  | some found => .error (.differing builtin expected found)
  | none => .ok ()

/-- Whether a type is `whole` or the type of its components. -/
def matchesOrComponent (whole type : Ty) : Bool :=
  type = whole || whole.element?.map Ty.scalar = some type

/-- Whether a condition chooses between values of a type. -/
def choosesBetween (type : Ty) : Ty → Bool
  | .scalar .bool => true
  | .vector size .bool =>
    match type with
    | .vector typeSize _ => typeSize = size
    | _ => false
  | _ => false

/-- The result of arguments of one type, the first of which is `first`. -/
def componentwiseResult (builtin : Builtin) (integers : Bool) (first : Ty) (types : List Ty) :
    Except CallError Ty := do
  if admitsOperand integers first then
    allSame builtin first types
    .ok first
  else .error (.operand builtin integers first)

/-- The result of a blend of `first` and `second` by `factor`. -/
def blendResult (builtin : Builtin) (first second factor : Ty) : Except CallError Ty := do
  if admitsOperand false first then
    allSame builtin first [first, second]
    if matchesOrComponent first factor then .ok first else .error (.blendFactor first factor)
  else .error (.operand builtin false first)

/-- The result for a value between two edges. -/
def thresholdResult (builtin : Builtin) (low high value : Ty) : Except CallError Ty :=
  if admitsOperand false value then
    match [low, high].find? fun edge => !matchesOrComponent value edge with
    | some edge => .error (.edge value edge)
    | none => .ok value
  else .error (.operand builtin false value)

/-- The result of a choice between two values. -/
def choiceResult (left right condition : Ty) : Except CallError Ty :=
  if left ≠ right then .error (.branches left right)
  else if choosesBetween left condition then .ok left
  else .error (.condition condition)

/-- The result of a reduction of arguments of one type; `dot` takes no scalars. -/
def reductionResult (builtin : Builtin) (first : Ty) (types : List Ty) : Except CallError Ty := do
  let element ← match first with
    | .vector _ element =>
      if element.isFloat then .ok element else .error (.floatVector builtin first)
    | .scalar element =>
      if element.isFloat && builtin ≠ .dot then .ok element else .error (.floatVector builtin first)
    | _ => .error (.floatVector builtin first)
  allSame builtin first types
  .ok (.scalar element)

/-- The result of vectors of the type `first`, and perhaps a scalar. -/
def vectorwiseResult (builtin : Builtin) (arity : Nat) (scalarLast : Bool) (first : Ty)
    (types : List Ty) : Except CallError Ty :=
  match first with
  | .vector _ element =>
    if !element.isFloat then .error (.floatVector builtin first)
    else if scalarLast then do
      allSame builtin first (types.take (arity - 1))
      match types[arity - 1]? with
      | some last => if last = .scalar element then .ok first else .error (.scalarLast builtin last)
      | none => .ok first
    else do
      allSame builtin first types
      .ok first
  | _ => .error (.floatVector builtin first)

/-- The result of sampling a texture. -/
def samplingResult (builtin : Builtin) (sampler : Bool) (types : List Ty) : Except CallError Ty :=
  match types with
  | .texture .. :: .sampler _ :: _ => .ok (.vector 4 .f32)
  | .texture .. :: second :: _ =>
    if sampler then .error (.sampler builtin second) else .ok (.vector 4 .f32)
  | .texture .. :: [] => .ok (.vector 4 .f32)
  | first :: _ => .error (.texture builtin first)
  | [] => .ok (.vector 4 .f32)

/-- The type of the size of a texture. -/
def dimensionsResult : Ty → Except CallError Ty
  | .texture .one _ => .ok (.scalar .u32)
  | .texture .three _ => .ok (.vector 3 .u32)
  | .texture .. => .ok (.vector 2 .u32)
  | found => .error (.dimensionsOf found)

/-- The result of arguments whose number the signature admits. -/
def applyTo (builtin : Builtin) (types : List Ty) : Except CallError Ty :=
  match builtin.signature, types with
  | .componentwise _ integers, first :: _ => componentwiseResult builtin integers first types
  | .blend, [first, second, factor] => blendResult builtin first second factor
  | .threshold, [low, high, value] => thresholdResult builtin low high value
  | .choice, [left, right, condition] => choiceResult left right condition
  | .reduction _, first :: _ => reductionResult builtin first types
  | .determinant, [.matrix columns rows element] =>
    if rows = columns then .ok (.scalar element)
    else .error (.squareMatrix (.matrix columns rows element))
  | .determinant, first :: _ => .error (.squareMatrix first)
  | .crossProduct, .vector 3 element :: _ =>
    if element.isFloat then do
      allSame builtin (.vector 3 element) types
      .ok (.vector 3 element)
    else .error (.crossOperand (.vector 3 element))
  | .crossProduct, first :: _ => .error (.crossOperand first)
  | .vectorwise arity scalarLast, first :: _ =>
    vectorwiseResult builtin arity scalarLast first types
  | .transposition, .matrix columns rows element :: _ => .ok (.matrix rows columns element)
  | .transposition, first :: _ => .error (.matrix first)
  | .quantifier, .scalar .bool :: _ => .ok .bool
  | .quantifier, .vector _ .bool :: _ => .ok .bool
  | .quantifier, first :: _ => .error (.truthVector builtin first)
  | .sampling _ _ sampler, _ => samplingResult builtin sampler types
  | .dimensions, first :: _ => dimensionsResult first
  | signature, _ =>
    .error (.argumentCount signature.arity.1 signature.arity.2 types.length)

/-- The type of a call with arguments of the given types. -/
def resultType (builtin : Builtin) (types : List Ty) : Except CallError Ty :=
  let (least, greatest) := builtin.arity
  if least ≤ types.length && types.length ≤ greatest then builtin.applyTo types
  else .error (.argumentCount least greatest types.length)

end Builtin

end Shading
