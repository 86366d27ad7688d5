import Shading.Typing.Elaboration

/-!
# The reports of the analysis

What the analysis of a program has to say, each report in one place with its code and its wording.
-/

namespace Shading.Analysis

/-- An error at a place. -/
def errorAt (code : Code) (message : String) (span : Span) : Diagnostic :=
  { severity := .error, code, message, location := some span }

/-- The report with one second place. -/
def relatedTo (message : String) (location : Option Span) (diagnostic : Diagnostic) : Diagnostic :=
  { diagnostic with related := [⟨message, location⟩] }

/-- A top-level name is declared again. -/
def duplicateDeclaration (name : String) (span first : Span) : Diagnostic :=
  errorAt .duplicateDeclaration s!"`{name}` is already declared" span
    |> relatedTo s!"`{name}` is first declared here" (some first)

/-- A struct without fields. -/
def emptyStruct (name : String) (span : Span) : Diagnostic :=
  .located .emptyStruct s!"struct `{name}` has no fields" span

/-- A field is declared again. -/
def duplicateField (field struct : String) (span first : Span) : Diagnostic :=
  .located .duplicateField s!"duplicate field `{field}` in struct `{struct}`" span
    |> relatedTo s!"`{field}` is first declared here" (some first)

/-- A struct that contains itself. -/
def selfContainment (name : String) (span : Span) : Diagnostic :=
  errorAt .unknownStruct s!"struct `{name}` contains itself through its fields" span

/-- Two uniforms have one address; `span` is that of the later one. -/
def bindingConflict (earlier later : String) (group binding : Nat) (span first : Span) :
    Diagnostic :=
  .located .bindingConflict
      s!"binding conflict: `{earlier}` and `{later}` both use @group({group}) @binding({binding})"
      span
    |> relatedTo s!"`{earlier}` is bound here" (some first)

/-- There are many uniforms. -/
def uniformPacking (count : Nat) (span : Span) : Diagnostic :=
  .located .uniformPacking
    s!"{count} uniforms declared; consider packing related values into a struct" span

/-- A function with several stages. -/
def severalStages (name : String) (span : Span) : Diagnostic :=
  .located .invalidEntryPoint s!"function `{name}` has more than one stage decorator" span

/-- A parameter is declared again. -/
def duplicateParameter (name : String) (span first : Span) : Diagnostic :=
  .located .duplicateDeclaration s!"parameter `{name}` is declared twice" span
    |> relatedTo "first declared here" (some first)

/-- A builtin type with wrong arguments. -/
def invalidType (written message : String) (span : Span) : Diagnostic :=
  errorAt .unrecognizedType s!"invalid type `{written}`: {message}" span

/-- A type name that stands for nothing; with a capital letter it is taken for a struct. -/
def unknownType (name : String) (structs : List String) (span : Span) : Diagnostic :=
  if name.toList.head?.any Char.isUpper then
    { Diagnostic.located .unknownStruct s!"unknown struct type `{name}`" span with
      suggestions := Names.similar name structs Names.suggestionLimit }
  else
    { Diagnostic.located .unrecognizedType s!"unrecognized type `{name}`" span with
      suggestions :=
        Names.similar name (WrittenType.builtinNames ++ structs) Names.suggestionLimit }

/-- A function with a return type and no `return`. -/
def missingReturn (name : String) (span : Span) : Diagnostic :=
  .located .missingReturn s!"function `{name}` declares a return type but never returns a value"
    span

/-- A variable with neither a type nor a value. -/
def untypedVariable (name : String) (span : Span) : Diagnostic :=
  errorAt .typeMismatch s!"`var {name}` needs a type annotation or an initializer" span

/-- A value of the wrong type is bound or assigned. -/
def mismatch (expected found : Ty) (span : Span) : Diagnostic :=
  errorAt .typeMismatch
    ("type mismatch: expected `" ++ expected.text ++ "`, found `" ++ found.text ++ "`") span

/-- A value of the wrong type is returned. -/
def wrongReturn (function : String) (expected found : Ty) (span : Span) : Diagnostic :=
  errorAt .returnTypeMismatch
    ("function `" ++ function ++ "` returns `" ++ expected.text ++ "`, found `" ++ found.text ++ "`")
    span

/-- No value is returned where one has to be. -/
def emptyReturn (function : String) (expected : Option Ty) (span : Span) : Diagnostic :=
  let message := match expected with
    | some type => "function `" ++ function ++ "` must return a value of type `" ++ type.text ++ "`"
    | none => "function `" ++ function ++ "` must return a value"
  errorAt .returnTypeMismatch message span

/-- A value is returned where none may be. -/
def unexpectedReturn (function : String) (span : Span) : Diagnostic :=
  errorAt .returnTypeMismatch s!"function `{function}` has no return type but returns a value" span

/-- A name is used before the statement that declares it. -/
def useBeforeDeclaration (name : String) (span declared : Span) : Diagnostic :=
  errorAt .useBeforeDeclaration s!"`{name}` is used before its declaration" span
    |> relatedTo s!"`{name}` is declared here" (some declared)

/-- A name that stands for nothing; the best suggestion is offered as a fix. -/
def undefined (code : Code) (message : String) (suggestions : List String) (span : Span) :
    Diagnostic :=
  { errorAt code message span with
    suggestions
    fixes := suggestions.head?.toList.map fun best => ⟨s!"replace with `{best}`", span, best⟩ }

/-- A variable that is not declared; `visible` are the names in scope. -/
def undefinedVariable (name : String) (visible : List String) (span : Span) : Diagnostic :=
  undefined .undefinedVariable s!"undefined variable `{name}`"
    (Names.similar name visible Names.suggestionLimit) span

/-- A function that is not declared among `declared` names; the call at `call` starts with the name.
-/
def undefinedFunction (name : String) (declared : List String) (call : Span) : Diagnostic :=
  let candidates := declared ++ Builtin.every.map Builtin.name
  undefined .undefinedFunction s!"undefined function `{name}`"
    (Names.similar name candidates Names.suggestionLimit)
    { call with length := name.utf8ByteSize }

/-- A name is declared again in one scope. -/
def redeclaration (name : String) (span : Span) (previous : Option Span) : Diagnostic :=
  errorAt .duplicateDeclaration s!"`{name}` is already declared in this scope" span
    |> relatedTo "previous declaration" previous

/-- An assignment to something that holds no value. -/
def invalidTarget (span : Span) : Diagnostic :=
  .located .assignToImmutable "invalid assignment target" span

/-- An assignment to a name that cannot change. -/
def immutableTarget (name : String) (span declared : Span) : Diagnostic :=
  .located .assignToImmutable s!"cannot assign to `{name}`: it is not declared with `var`" span
    |> relatedTo s!"`{name}` is declared here" (some declared)

/-- A fragment stage without a color. -/
def fragmentWithoutColor (name : String) (span : Span) : Diagnostic :=
  .located .fragmentReturnsVoid
    s!"fragment entry point `{name}` returns nothing; did you forget to return a color?" span

/-- A vertex stage without a position. -/
def vertexWithoutPosition (name : String) (span : Span) : Diagnostic :=
  .located .invalidEntryPoint s!"vertex entry point `{name}` must return a position" span

/-- A compute stage with a result. -/
def computeWithResult (name : String) (span : Span) : Diagnostic :=
  .located .invalidEntryPoint s!"compute entry point `{name}` cannot return a value" span

/-- A program that cannot be started. -/
def noEntryPoints : Diagnostic :=
  { Diagnostic.of .noEntryPoints "no entry points found" with
    suggestions := ["mark a function with @vertex, @fragment or @compute"] }

/-- A stage stands without its counterpart. -/
def complementaryStage (present absent : Stage) (span : Span) : Diagnostic :=
  .located .complementaryStage
    ("program has a " ++ present.name ++ " stage but no " ++ absent.name ++
      " stage; consider adding a @" ++ absent.name ++ " entry point") span

/-- A function that nothing calls. -/
def unusedFunction (name : String) (span : Span) : Diagnostic :=
  { Diagnostic.located .unusedFunction s!"function `{name}` is never called" span with
    suggestions := ["remove it if it is no longer needed"] }

/-- A function that divides. -/
def divisions (name : String) (count : Nat) (first : Span) : Diagnostic :=
  .located .divisionInBody
    ("function `" ++ name ++ "` performs " ++ count.repr ++
      " division(s); multiplying by a precomputed reciprocal is usually cheaper") first

/-- A power with a small whole exponent. -/
def smallPower (exponent : Nat) (span : Span) : Diagnostic :=
  .located .smallIntegerPow
    s!"`pow` with exponent {exponent} can be written as repeated multiplication" span

end Shading.Analysis
