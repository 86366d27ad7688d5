import Shading.Decimal.Reading

/-!
# Numeric literals

A literal is a decimal body and at most one suffix letter, which names its scalar type. Integer
suffixes admit neither a fraction nor an exponent. A literal without a suffix is abstract: it is an
`f32` unless its context asks for another scalar.
-/

namespace Shading

/-- The scalar type that a literal names. -/
inductive Number.Kind where
  | abstract
  | f32
  | f16
  | i32
  | u32
deriving DecidableEq, Repr, Inhabited

/-- A numeric literal. -/
structure Number where
  value : Binary64
  kind : Number.Kind
  /-- Whether it is written without fraction and exponent. -/
  integral : Bool
deriving DecidableEq, Repr, Inhabited

namespace Number

namespace Kind

/-- The kind that a suffix letter names. -/
def ofSuffix? : Char → Option Kind
  | 'f' => some .f32
  | 'h' => some .f16
  | 'i' => some .i32
  | 'u' => some .u32
  | _ => none

/-- Whether literals of the kind are whole numbers. -/
def isInteger : Kind → Bool
  | .i32 | .u32 => true
  | _ => false

end Kind

/-- The greatest value of an `i32`. -/
def greatestI32 : Int := 2147483647

/-- The least value of an `i32`. -/
def leastI32 : Int := -2147483648

/-- The greatest value of a `u32`. -/
def greatestU32 : Int := 4294967295

/-- The greatest value of an `f16`. -/
def greatestF16 : Int := 65504

/-- Why a text is no numeric literal. -/
inductive ReadError where
  /-- The letters behind the number are no suffix. -/
  | invalidSuffix (suffix text : String)
  /-- An integer suffix follows a fraction or an exponent. -/
  | fractionalInteger (text : String)
  /-- The body is no decimal number. -/
  | malformed (text : String)
  /-- The value does not fit the kind. -/
  | outOfRange (text : String)
deriving DecidableEq, Repr

/-- The wording of a refusal. -/
def ReadError.message : ReadError → String
  | .invalidSuffix suffix text => s!"invalid suffix `{suffix}` on numeric literal `{text}`"
  | .fractionalInteger text => s!"integer suffix on non-integral literal `{text}`"
  | .malformed text => s!"invalid numeric literal `{text}`"
  | .outOfRange text => s!"numeric literal `{text}` is out of range"

/-- Whether digits, perhaps after signs, follow an `e`. -/
def continuesExponent (rest : List Char) : Bool :=
  match rest.dropWhile (fun character => character = '+' ∨ character = '-') with
  | [] => false
  | character :: _ => character.isDigit

/-- Whether `character` starts the suffix before `rest`; an `e` of an exponent does only at the
start. -/
def startsSuffix (first : Bool) (character : Char) (rest : List Char) : Bool :=
  character.isAlpha &&
    !((character = 'e' || character = 'E') && !first && continuesExponent rest)

/-- Divides a literal into its body and its suffix; `first` says that nothing stands before. -/
def splitSuffix (first : Bool) : List Char → List Char × List Char
  | [] => ([], [])
  | character :: rest =>
    if startsSuffix first character rest then ([], character :: rest)
    else
      let (body, suffix) := splitSuffix false rest
      (character :: body, suffix)

/-- The kind that a suffix names. -/
def suffixKind? : List Char → Option Kind
  | [] => some .abstract
  | [letter] => Kind.ofSuffix? letter
  | _ => none

/-- Whether a body has neither a point nor an exponent. -/
def isIntegral (body : List Char) : Bool :=
  body.all fun character => character != '.' && character != 'e' && character != 'E'

/-- Whether a value fits a kind; without a sign, only upper ends are tested. -/
def inRange (kind : Kind) (value : Binary64) : Bool :=
  match kind with
  | .i32 => value.key ≤ greatestI32 * Binary64.one
  | .u32 => value.key ≤ greatestU32 * Binary64.one
  | _ => value.isFinite

/-- Reads a whole text as a numeric literal. -/
def read (text : String) : Except ReadError Number :=
  let (body, suffix) := splitSuffix true text.toList
  match suffixKind? suffix with
  | none => .error (.invalidSuffix (String.ofList suffix) text)
  | some kind =>
    let integral := isIntegral body
    if kind.isInteger && !integral then .error (.fractionalInteger text)
    else match Decimal.read? body with
      | none => .error (.malformed text)
      | some written =>
        let value := written.toBinary64
        if inRange kind value then .ok ⟨value, kind, integral⟩
        else .error (.outOfRange text)

/-- The `u32` that a literal without fraction, exponent and float suffix counts. -/
def index? (number : Number) : Option Nat :=
  let integer := match number.kind with
    | .abstract | .i32 | .u32 => number.integral
    | .f32 | .f16 => false
  if integer && 0 ≤ number.value.key && number.value.key ≤ greatestU32 * Binary64.one then
    some (number.value.truncate 0 greatestU32).toNat
  else none

end Number

end Shading
