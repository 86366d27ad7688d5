import Shading.Proofs.InheritedPrograms
import Shading.Proofs.TypeFormation

/-!
# Programs with formed types

All types of an analyzed program are formed, and strictly formed in a program that names no matrix of
integers and constructs nothing malformed.
-/

namespace Shading

namespace Analysis

/-- With `strict`, no node of an expression is malformed. -/
def WellMade (strict : Bool) (expressions : List Typed.Expr) : Prop :=
  strict = true → ∀ expression ∈ expressions, ∀ node ∈ expression.nodes,
    Typing.isMalformed node = false

/-- The types of an analyzed program are formed. -/
theorem typeProgram_formed {strict : Bool} {program : Surface.Program}
    (has : ∀ declaration ∈ program, (Typing.floatWords strict).features.HasDeclaration declaration)
    (made : ∀ function ∈ (typeProgram program).value.functions,
      WellMade strict (Statement.allExpressions function.body.statements)) :
    ∀ type ∈ (typeProgram program).value.types, type.isFormed strict :=
  (typeProgram_inherits (Typing.closed_formed strict) has
    fun function member expression inside node isNode strictly =>
      made function member strictly expression inside node isNode).types

end Analysis

/-- Whether a token is the name of a matrix of integers. -/
def Token.namesIntegers : Token → Bool
  | .identifier name => Typing.namesIntegers name
  | _ => false

/-- All types of a checked program are formed, and strictly so if no token names a matrix of
integers and no constructor makes a matrix without floats or an empty array. -/
theorem checked_types_are_formed (source : SourceText) (options : Options) :
    (∀ type ∈ (check source options).program.types, type.isFormed false) ∧
    ((∀ located ∈ (tokenize source).tokens, located.token.namesIntegers = false) →
      (∀ function ∈ (check source options).program.functions,
        ∀ node ∈ Typed.functionNodes function, Typing.isMalformed node = false) →
      ∀ type ∈ (check source options).program.types, type.isFormed true) := by
  rw [program_check]
  constructor
  · refine Analysis.typeProgram_formed (Surface.read_holds ?_) fun _ _ strictly => nomatch strictly
    intro located _
    cases located.token with
    | identifier name => exact fun strictly => nomatch strictly
    | _ => trivial
  · intro words made
    refine Analysis.typeProgram_formed (Surface.read_holds ?_) ?_
    · intro located member
      cases token : located.token with
      | identifier name =>
        have float := words located member
        rw [token] at float
        exact fun _ => float
      | _ => trivial
    · intro function member _ expression held node isNode
      exact made function member node (Typed.Expr.mem_allNodes.mpr ⟨expression, held, isNode⟩)

/-- The types of a program with matrices are strictly formed. -/
theorem matrix_program_types_are_formed :
    let source : SourceText := ⟨"turn.shade", "struct Turn \x7b axes: mat3x2f \x7d " ++
      "fn turned(turn: Turn) \x7b let rows = array(transpose(turn.axes)[0], vec3(1.0)); \x7d"⟩
    (∀ located ∈ (tokenize source).tokens, located.token.namesIntegers = false) ∧
      (∀ function ∈ (check source {}).program.functions,
        ∀ node ∈ Typed.functionNodes function, Typing.isMalformed node = false) ∧
      Ty.array (.vector 3 .f32) (some 2) ∈ (check source {}).program.types ∧
      ∀ type ∈ (check source {}).program.types, type.isFormed true := by
  intro source
  have made : (∀ located ∈ (tokenize source).tokens, located.token.namesIntegers = false) ∧
      (∀ function ∈ (check source {}).program.functions,
        ∀ node ∈ Typed.functionNodes function, Typing.isMalformed node = false) ∧
      Ty.array (.vector 3 .f32) (some 2) ∈ (check source {}).program.types := by
    decide +kernel
  obtain ⟨words, nodes, array⟩ := made
  exact ⟨words, nodes, array, (checked_types_are_formed source {}).2 words nodes⟩

/-- A type that is not strictly formed is not reported. -/
def passesMalformed (source : SourceText) : Bool :=
  (check source {}).diagnostics.isEmpty &&
    (check source {}).program.types.any fun type => !type.isFormed true

/-- Each of the three ways to such a type passes the check. -/
theorem malformed_types_pass_check :
    passesMalformed ⟨"name.shade", "@compute fn main(m: mat2i) \x7b \x7d"⟩ ∧
      passesMalformed
        ⟨"matrix.shade", "@compute fn main() \x7b let m = mat2x2(1i, 2i, 3i, 4i); \x7d"⟩ ∧
      passesMalformed ⟨"array.shade", "@compute fn main() \x7b let a = array<f32>(); \x7d"⟩ := by
  decide +kernel

end Shading
