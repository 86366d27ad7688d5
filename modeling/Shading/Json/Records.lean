import Shading.Compilation
import Shading.Json

/-!
# Results as JSON

How diagnostics, facts about programs, source maps, options and whole compilations are exchanged with
other programs, and how options are taken from them.
-/

namespace Shading

/-- A span without its offset. -/
def Span.json (span : Span) : Json :=
  .object [("line", .nat span.line), ("column", .nat span.column), ("length", .nat span.length)]

namespace Diagnostic

/-- A second place of a report. -/
def relatedJson (related : Related) : Json :=
  .object [("message", .string related.message),
    ("location", .optional (related.location.map Span.json))]

/-- An edit that settles a report. -/
def fixJson (fix : Fix) : Json :=
  .object [("description", .string fix.description), ("location", fix.location.json),
    ("replacement", .string fix.replacement)]

/-- A report. -/
def json (diagnostic : Diagnostic) : Json :=
  .object [
    ("severity", .string diagnostic.severity.name),
    ("code", .string diagnostic.code.text),
    ("category", .string diagnostic.code.category.name),
    ("message", .string diagnostic.message),
    ("location", .optional (diagnostic.location.map Span.json)),
    ("suggestions", .strings diagnostic.suggestions),
    ("relatedInformation", .array (diagnostic.related.map relatedJson)),
    ("fixes", .array (diagnostic.fixes.map fixJson)),
    ("docUrl", .optional (diagnostic.documentation.map .string))]

end Diagnostic

/-- Counts and estimates for a program. -/
def Summary.json (summary : Summary) : Json :=
  .object [
    ("uniformCount", .nat summary.uniformCount),
    ("functionCount", .nat summary.functionCount),
    ("entryPointCount", .nat summary.entryPointCount),
    ("hasVertex", .bool summary.hasVertex),
    ("hasFragment", .bool summary.hasFragment),
    ("hasCompute", .bool summary.hasCompute),
    ("registerPressure", .nat summary.registerPressure),
    ("builtinsUsed", .strings summary.builtinsUsed)]

/-- An entry point. -/
def Typed.EntryPoint.json (entry : Typed.EntryPoint) : Json :=
  .object [("name", .string entry.name), ("stage", .string entry.stage.name)]

/-- A uniform as the host sees it. -/
def UniformFacts.json (uniform : UniformFacts) : Json :=
  .object [("name", .string uniform.name), ("type", .string uniform.type),
    ("group", .nat uniform.group), ("binding", .nat uniform.binding),
    ("visibility", .strings (uniform.visibility.map Stage.name))]

/-- A struct as the host sees it. -/
def StructFacts.json (struct : StructFacts) : Json :=
  let field (declared : String × String) : Json :=
    .object [("name", .string declared.1), ("type", .string declared.2)]
  .object [("name", .string struct.name), ("fields", .array (struct.fields.map field))]

/-- What a host needs to know about a program. -/
def Metadata.json (metadata : Metadata) : Json :=
  .object [
    ("entryPoints", .array (metadata.entryPoints.map Typed.EntryPoint.json)),
    ("uniforms", .array (metadata.uniforms.map UniformFacts.json)),
    ("structs", .array (metadata.structs.map StructFacts.json))]

/-- One place of generated code; a missing name is left out. -/
def Mapping.json (mapping : Mapping) : Json :=
  .object ([
    ("generatedLine", .nat mapping.generatedLine),
    ("generatedColumn", .nat mapping.generatedColumn),
    ("sourceLine", .nat mapping.sourceLine),
    ("sourceColumn", .nat mapping.sourceColumn)] ++
    mapping.name.toList.map fun name => ("name", .string name))

/-- A source map. -/
def SourceMap.json (map : SourceMap) : Json :=
  .object [("file", .string map.file), ("mappings", .array (map.mappings.map Mapping.json))]

/-- The result of a compilation; a missing source map is left out. -/
def Compilation.json (compilation : Compilation) : Json :=
  .object ([("code", .string compilation.code)] ++
    (compilation.sourceMap.toList.map fun map => ("sourceMap", map.json)) ++
    [("metadata", compilation.metadata.json),
      ("diagnostics", .array (compilation.diagnostics.map Diagnostic.json))])

namespace Options

/-- Options, all of them written. -/
def json (options : Options) : Json :=
  .object [
    ("sourceMaps", .bool options.sourceMaps),
    ("strictMode", .bool options.strictMode),
    ("optimizations", .object [
      ("constantFolding", .bool options.optimizations.constantFolding),
      ("deadCodeElimination", .bool options.optimizations.deadCodeElimination),
      ("inlining", .bool options.optimizations.inlining)])]

/-- The value of a field: that of the only member with its name, or the default. -/
def field? {α : Type} (read : Json → Option α) (members : List (String × Json)) (name : String)
    (fallback : α) : Option α :=
  match members.filter (·.1 = name) with
  | [] => some fallback
  | [(_, value)] => read value
  | _ => none

/-- The members of a record; a list gives them by position. -/
def members? (fields : List String) : Json → Option (List (String × Json))
  | .object members => some members
  | .array elements =>
    if elements.length ≤ fields.length then some (fields.zip elements) else none
  | _ => none

/-- A truth value. -/
def flag? : Json → Option Bool
  | .bool value => some value
  | _ => none

/-- Optimization options; missing fields have defaults, unknown ones are ignored. -/
def optimizations? (value : Json) : Option OptimizationOptions := do
  let members ← members? ["constantFolding", "deadCodeElimination", "inlining"] value
  let fallback : OptimizationOptions := {}
  let constantFolding ← field? flag? members "constantFolding" fallback.constantFolding
  let deadCodeElimination ← field? flag? members "deadCodeElimination" fallback.deadCodeElimination
  let inlining ← field? flag? members "inlining" fallback.inlining
  return { constantFolding, deadCodeElimination, inlining }

/-- Options; missing fields have defaults, unknown ones are ignored. -/
def ofJson? (value : Json) : Option Options := do
  let members ← members? ["sourceMaps", "strictMode", "optimizations"] value
  let fallback : Options := {}
  let sourceMaps ← field? flag? members "sourceMaps" fallback.sourceMaps
  let strictMode ← field? flag? members "strictMode" fallback.strictMode
  let optimizations ← field? optimizations? members "optimizations" fallback.optimizations
  return { sourceMaps, strictMode, optimizations }

end Options

end Shading
