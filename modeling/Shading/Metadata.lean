import Shading.Typed

/-!
# Facts about programs

What a host needs to know about a program to bind and start it, and a summary of its size.
-/

namespace Shading

/-- Counts and estimates for an analyzed program. -/
structure Summary where
  uniformCount : Nat
  functionCount : Nat
  entryPointCount : Nat
  hasVertex : Bool
  hasFragment : Bool
  hasCompute : Bool
  /-- A rough estimate: four for each uniform, two for each parameter, and one for every four lines
  of a body. -/
  registerPressure : Nat
  /-- Names of builtin functions that are called, in alphabetical order and each once. -/
  builtinsUsed : List String
deriving DecidableEq, Repr, Inhabited

namespace Summary

/-- Number of lines from the opening to the closing brace of a block. -/
def bodyLines {Expression Ascription : Type} (body : Block Expression Ascription) : Nat :=
  body.closing.line - body.opening.line + 1

/-- The estimate for one function. -/
def functionPressure {Expression Ascription : Type} (function : Function Expression Ascription) :
    Nat :=
  function.parameters.length * 2 + bodyLines function.body / 4

/-- The summary of a program that calls the given builtin functions. -/
def of (program : Typed.Program) (called : List Builtin) : Summary :=
  let has (stage : Stage) : Bool := program.entryPoints.any fun entry => entry.stage = stage
  { uniformCount := program.uniforms.length
    functionCount := program.functions.length
    entryPointCount := program.entryPoints.length
    hasVertex := has .vertex
    hasFragment := has .fragment
    hasCompute := has .compute
    registerPressure :=
      program.uniforms.length * 4 + program.functions.foldr (fun function sum => functionPressure function + sum) 0
    builtinsUsed := ((Builtin.every.filter called.contains).map Builtin.name).mergeSort }

end Summary

/-- A uniform as the host sees it. -/
structure UniformFacts where
  name : String
  type : String
  group : Nat
  binding : Nat
  visibility : List Stage
deriving DecidableEq, Repr, Inhabited

/-- A struct as the host sees it. -/
structure StructFacts where
  name : String
  /-- Names and types of the fields. -/
  fields : List (String × String)
deriving DecidableEq, Repr, Inhabited

/-- What a host needs to know about a program. -/
structure Metadata where
  entryPoints : List Typed.EntryPoint
  uniforms : List UniformFacts
  structs : List StructFacts
deriving DecidableEq, Repr, Inhabited

/-- The facts about a program. -/
def Metadata.of (program : Typed.Program) : Metadata where
  entryPoints := program.entryPoints
  uniforms := program.uniforms.map fun uniform =>
    { name := uniform.name, type := uniform.ascription.text, group := uniform.group
      binding := uniform.binding, visibility := uniform.visibility }
  structs := program.structs.map fun struct =>
    { name := struct.name
      fields := struct.fields.map fun field => (field.name, field.ascription.text) }

end Shading
