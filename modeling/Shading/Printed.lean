import Shading.Printed.Expressions
import Shading.SourceMap

/-!
# Printed programs

A program is written as indented lines: structs, then uniforms, then functions, each in declared
order. A line may know the place of the source that it comes from; the source map is read off these
lines. Entry points get the decorations that the target language asks for where the source leaves
them out.
-/

namespace Shading

open Typed (DeclaredType EntryPoint)

/-- A line of generated code. -/
structure PrintedLine where
  /-- Number of levels by which it is indented. -/
  indent : Nat
  text : String
  /-- The place it comes from and the name that is declared there. -/
  origin : Option (Span × Option String) := none
deriving DecidableEq, Repr, Inhabited

namespace PrintedLine

/-- Number of spaces for a level of indentation. -/
def indentWidth : Nat := 4

/-- An empty line. -/
def blank : PrintedLine := ⟨0, "", none⟩

/-- The line as it stands in the code. -/
def code (line : PrintedLine) : String :=
  String.ofList (List.replicate (line.indent * indentWidth) ' ') ++ line.text ++ "\n"

/-- The mapping of the line with the given number, if its origin is known. -/
def mapping? (line : PrintedLine) (number : Nat) : Option Mapping :=
  line.origin.map fun (span, name) => .toSpan number (line.indent * indentWidth + 1) span name

/-- The mappings of lines from a number on. Numbers are not cut to words, so they are those of fewer
than `2 ^ 32` lines. -/
def mappings (number : Nat) : List PrintedLine → List Mapping
  | [] => []
  | first :: rest => (first.mapping? number).toList ++ mappings (number + 1) rest

end PrintedLine

namespace Printed

/-- Decorators in front of what they decorate. -/
def decorators (attributes : List Attribute) : String :=
  String.join (attributes.map fun decorator => decorator.text ++ " ")

/-- A parameter or field with its type. -/
def slot (declared : Slot DeclaredType) : String :=
  decorators declared.attributes ++ declared.name ++ ": " ++ declared.ascription.text

/-- The lines of a struct. -/
def struct (declared : Struct DeclaredType) : List PrintedLine :=
  ⟨0, "struct " ++ declared.name ++ " \x7b", some (declared.span, some declared.name)⟩ ::
    (declared.fields.map fun field => ⟨1, slot field ++ ",", none⟩) ++
    [⟨0, "\x7d", none⟩, .blank]

/-- How the storage of a uniform is written. -/
def storage (declared : DeclaredType) : String :=
  if declared.resolved.any Ty.isHandle then "var" else "var<uniform>"

/-- The lines of a uniform. -/
def uniform (declared : Uniform DeclaredType) : List PrintedLine :=
  let stages := ", ".intercalate (declared.visibility.map Stage.name)
  let text := Attribute.text (.group declared.group) ++ " " ++
    Attribute.text (.binding declared.binding) ++ " " ++ storage declared.ascription ++ " " ++
    declared.name ++ ": " ++ declared.ascription.text ++ ";"
  [⟨0, "// visibility: " ++ stages, none⟩,
    ⟨0, text, some (declared.span, some declared.name)⟩]

/-- The workgroup size of a compute stage that declares none. -/
def defaultWorkgroupSize : Nat := 64

/-- The decorators of an entry point: its stage and its workgroup size. -/
def stageDecorators (stage : Stage) (attributes : List Attribute) : List Attribute :=
  .stage stage :: match Attribute.workgroupSize? attributes with
    | some dimensions => [.workgroupSize dimensions]
    | none => if stage = .compute then [.workgroupSize [defaultWorkgroupSize]] else []

/-- Whether a parameter takes a builtin value. -/
def takesBuiltin (parameters : List (Slot DeclaredType)) (name : String) : Bool :=
  parameters.any fun parameter => Attribute.firstBuiltin? parameter.attributes = some name

/-- The parameter that a stage needs and the source leaves out. -/
def impliedParameter? (stage : Option Stage) (parameters : List (Slot DeclaredType)) :
    Option String :=
  match stage with
  | some .vertex =>
    if takesBuiltin parameters "vertex_index" then none
    else some "@builtin(vertex_index) vertex_index: u32"
  | some .compute =>
    if takesBuiltin parameters "global_invocation_id" then none
    else some "@builtin(global_invocation_id) global_id: vec3<u32>"
  | _ => none

/-- The decorators a return type lacks: the location of a fragment color, or the position of a
vertex. -/
def impliedResult (stage : Option Stage) (result : Option Ty) : List Attribute :=
  match stage, result with
  | some .fragment, _ => [.location 0]
  | some .vertex, some (.vector 4 _) => [.builtin "position"]
  | _, _ => []

/-- The return type of a function behind its parameters. -/
def result (function : Function Typed.Expr DeclaredType) : String :=
  match function.returnType with
  | some declared =>
    let attributes :=
      if function.returnAttributes.isEmpty then impliedResult function.stage? declared.resolved
      else function.returnAttributes
    " -> " ++ decorators attributes ++ declared.text
  | none => ""

/-- The first line of a function. -/
def header (function : Function Typed.Expr DeclaredType) : String :=
  let stage := match function.stage? with
    | some stage => decorators (stageDecorators stage function.attributes)
    | none => ""
  let parameters := function.parameters.map slot ++
    (impliedParameter? function.stage? function.parameters).toList
  stage ++ "fn " ++ function.name ++ "(" ++ ", ".intercalate parameters ++ ")" ++
    result function ++ " \x7b"

/-- An ascription behind a name. -/
def ascription (declared : Option DeclaredType) : String :=
  match declared with
  | some declared => ": " ++ declared.text
  | none => ""

/-- An initial value behind a declaration. -/
def initializer (value : Option Typed.Expr) : String :=
  match value with
  | some value => " = " ++ value.text
  | none => ""

mutual

/-- The lines of a statement. -/
def statement (indent : Nat) : Statement Typed.Expr DeclaredType → List PrintedLine
  | .letBinding name declared value span =>
    [⟨indent, "let " ++ name ++ ascription declared ++ " = " ++ value.text ++ ";",
      some (span, some name)⟩]
  | .varBinding name declared value span =>
    [⟨indent, "var " ++ name ++ ascription declared ++ initializer value ++ ";",
      some (span, some name)⟩]
  | .assignment target value span =>
    [⟨indent, target.text ++ " = " ++ value.text ++ ";", some (span, none)⟩]
  | .returning (some value) span => [⟨indent, "return " ++ value.text ++ ";", some (span, none)⟩]
  | .returning none span => [⟨indent, "return;", some (span, none)⟩]
  | .evaluation value span => [⟨indent, value.text ++ ";", some (span, none)⟩]
  | .block inner _ _ span =>
    ⟨indent, "\x7b", some (span, none)⟩ :: statements (indent + 1) inner ++ [⟨indent, "\x7d", none⟩]

/-- The lines of statements. -/
def statements (indent : Nat) : List (Statement Typed.Expr DeclaredType) → List PrintedLine
  | [] => []
  | first :: rest => statement indent first ++ statements indent rest

end

/-- The lines of a function. -/
def function (declared : Function Typed.Expr DeclaredType) : List PrintedLine :=
  ⟨0, header declared, some (declared.span, some declared.name)⟩ ::
    statements 1 declared.body.statements ++ [⟨0, "\x7d", none⟩]

/-- The lines of functions with empty lines between them. -/
def functions : List (Function Typed.Expr DeclaredType) → List PrintedLine
  | [] => []
  | [last] => function last
  | first :: second :: rest => function first ++ .blank :: functions (second :: rest)

/-- The lines of a program. -/
def program (typed : Typed.Program) : List PrintedLine :=
  typed.structs.flatMap struct ++ typed.uniforms.flatMap uniform ++
    (if typed.uniforms.isEmpty then [] else [.blank]) ++ functions typed.functions

/-- The code of lines. -/
def code (lines : List PrintedLine) : String := String.join (lines.map PrintedLine.code)

end Printed

/-- Generated code. -/
structure Generated where
  code : String
  sourceMap : Option SourceMap
deriving Repr, Inhabited

/-- Why no code can be generated. -/
inductive GenerationError where
  /-- An entry point names no function. -/
  | missingFunction (name : String)
deriving DecidableEq, Repr

/-- The wording of a generation error. -/
def GenerationError.message : GenerationError → String
  | .missingFunction name => s!"internal compiler error: entry point `{name}` has no function"

namespace Typed.Program

/-- The first entry point that names no function. -/
def danglingEntryPoint? (program : Program) : Option EntryPoint :=
  program.entryPoints.find? fun entry =>
    !program.functions.any fun function => function.name = entry.name

/-- Generates the code of a program, with a source map for `file` if asked to. -/
def generate (program : Program) (file : String) (withMap : Bool) :
    Except GenerationError Generated :=
  match program.danglingEntryPoint? with
  | some entry => .error (.missingFunction entry.name)
  | none =>
    let lines := Printed.program program
    .ok {
      code := Printed.code lines
      sourceMap := if withMap then some ⟨file, PrintedLine.mappings 1 lines⟩ else none }

end Typed.Program

end Shading
