import Shading.Surface
import Shading.Ty.Shape

/-!
# Resolving written types

The names of builtin types and their arguments are given a meaning here; other names are left to the
caller, who knows the structs. A builtin name with wrong arguments is an error.
-/

namespace Shading

/-- Why a written type has no meaning. -/
inductive ResolutionError where
  | takesNoArguments (name : String)
  | invalidElement (element : Ty) (name : String)
  | expectsElement (name : String)
  | expectsArray
  | invalidSample (sample : Ty)
  | expectsSample (name : String)
  /-- A size stands where a type is needed. -/
  | expectedType (size : Nat)
  /-- A name that is neither builtin nor known to the caller. -/
  | unknown (written : WrittenType)
deriving Repr

/-- The wording of a resolution error. -/
def ResolutionError.message : ResolutionError → String
  | .takesNoArguments name => "`" ++ name ++ "` takes no type arguments"
  | .invalidElement element name =>
    "`" ++ element.text ++ "` is not a valid element type for `" ++ name ++ "`"
  | .expectsElement name => "`" ++ name ++ "` takes a single element type"
  | .expectsArray => "`array` expects `array<T>` or `array<T, N>` with N > 0"
  | .invalidSample sample => "`" ++ sample.text ++ "` is not a valid texture sample type"
  | .expectsSample name => "`" ++ name ++ "` takes a single sample type"
  | .expectedType size => "expected a type, found `" ++ size.repr ++ "`"
  | .unknown written => "unknown type `" ++ written.text ++ "`"

namespace WrittenType

/-- The builtin type names, for suggestions. -/
def builtinNames : List String :=
  ["f32", "f16", "i32", "u32", "bool", "vec2", "vec3", "vec4", "vec2f", "vec3f", "vec4f", "vec2i",
    "vec3i", "vec4i", "vec2u", "vec3u", "vec4u", "vec2h", "vec3h", "vec4h", "mat2", "mat3", "mat4",
    "mat2x2", "mat2x3", "mat2x4", "mat3x2", "mat3x3", "mat3x4", "mat4x2", "mat4x3", "mat4x4",
    "array", "sampler", "sampler_comparison", "texture_1d", "texture_2d", "texture_2d_array",
    "texture_3d", "texture_cube", "texture_depth_2d"]

/-- The type of a shape whose components are given by an argument. -/
def shaped (name : String) (shape : Shape) (argument : Ty) : Except ResolutionError Ty :=
  match argument with
  | .scalar element =>
    if shape.isMatrix && !element.isFloat then .error (.invalidElement argument name)
    else .ok (shape.withElement element)
  | _ => .error (.invalidElement argument name)

/-- The texture type whose samples are given by an argument. -/
def sampled (dimension : TextureDimension) (argument : Ty) : Except ResolutionError Ty :=
  match argument with
  | .scalar .bool => .error (.invalidSample argument)
  | .scalar sample => .ok (.texture dimension sample)
  | _ => .error (.invalidSample argument)

mutual

/-- The builtin type that is written, if it is one; `named` gives the meaning of other names. -/
def resolveBuiltin (named : WrittenType → Option Ty) : WrittenType → Except ResolutionError (Option Ty)
  | .mk name arguments _ =>
    match Scalar.ofName? name with
    | some element =>
      if arguments.isEmpty then .ok (some (.scalar element)) else .error (.takesNoArguments name)
    | none =>
      match Shape.ofName? name with
      | some shape =>
        match arguments with
        | [] => .ok (some (shape.withElement shape.defaultElement))
        | [argument] => do
          let argument ← resolveArgument named argument
          let type ← shaped name shape argument
          .ok (some type)
        | _ => .error (.expectsElement name)
      | none =>
        match name with
        | "array" =>
          match arguments with
          | [element] => do
            let element ← resolveArgument named element
            .ok (some (.array element none))
          | [element, .size size] =>
            if 0 < size then do
              let element ← resolveArgument named element
              .ok (some (.array element (some size)))
            else .error .expectsArray
          | _ => .error .expectsArray
        | "sampler" => .ok (some (.sampler false))
        | "sampler_comparison" => .ok (some (.sampler true))
        | "texture_depth_2d" => .ok (some (.texture .depthTwo .f32))
        | _ =>
          match TextureDimension.ofTypeName? name with
          | some dimension =>
            match arguments with
            | [] => .ok (some (.texture dimension .f32))
            | [argument] => do
              let argument ← resolveArgument named argument
              let type ← sampled dimension argument
              .ok (some type)
            | _ => .error (.expectsSample name)
          | none => .ok none

/-- The type that an argument stands for. -/
def resolveArgument (named : WrittenType → Option Ty) : TypeArgument → Except ResolutionError Ty
  | .type written => do
    match ← resolveBuiltin named written with
    | some type => .ok type
    | none =>
      match named written with
      | some type => .ok type
      | none => .error (.unknown written)
  | .size size => .error (.expectedType size)

end

/-- The type that is written; `named` gives the meaning of other names. -/
def resolve (named : WrittenType → Option Ty) (written : WrittenType) : Except ResolutionError Ty :=
  resolveArgument named (.type written)

end WrittenType

end Shading
