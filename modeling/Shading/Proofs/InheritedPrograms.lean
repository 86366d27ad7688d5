import Shading.Proofs.InheritedTypes
import Shading.Proofs.TypedBodies

/-!
# What the types of programs inherit

Every step of the analysis keeps what typing keeps: a struct is made of the types of its fields, and a
variable has its declared type or that of its value. So what typing keeps holds of all types of an
analyzed program, as far as its nodes are sound.
-/

namespace Shading

open List

variable {program : Surface.Program} {function : Function Surface.Expr WrittenType}
  {expressions : List Typed.Expr} {ascription : Option WrittenType}

namespace Statement

variable {Expression Ascription : Type}

mutual

/-- The names that a statement binds, in order. -/
def boundNames : Statement Expression Ascription → List String
  | .letBinding name _ _ _ => [name]
  | .varBinding name _ _ _ => [name]
  | .block statements _ _ _ => allBoundNames statements
  | .assignment .. | .returning .. | .evaluation .. => []

/-- The names that statements bind, in order. -/
def allBoundNames : List (Statement Expression Ascription) → List String
  | [] => []
  | first :: rest => first.boundNames ++ allBoundNames rest

end

end Statement

namespace Typed

/-- The declared types of a function and those of its nodes. -/
def functionTypes (function : Function Expr DeclaredType) : List Ty :=
  function.parameters.filterMap (fun slot => slot.ascription.resolved) ++
    (function.returnType.bind DeclaredType.resolved).toList ++
    (Statement.allAscriptions function.body.statements).filterMap DeclaredType.resolved ++
    (functionNodes function).filterMap Expr.type

/-- The types of fields, uniforms and functions. -/
def Program.types (program : Program) : List Ty :=
  (program.structs.flatMap fun struct =>
      struct.fields.filterMap fun slot => slot.ascription.resolved) ++
    program.uniforms.filterMap (fun uniform => uniform.ascription.resolved) ++
    program.functions.flatMap functionTypes

end Typed

namespace Analysis

open Typing (Binding Closed Context TypesHold)
open Typed (DeclaredType)

variable {vocabulary : Vocabulary} {sound : Typed.Expr → Prop} {holds : Ty → Prop}
  {context : Context}

/-- A declared type has words of a vocabulary and a property. -/
structure DeclaredHolds (vocabulary : Vocabulary) (holds : Ty → Prop) (declared : DeclaredType) :
    Prop where
  resolved : ∀ type ∈ declared.resolved, holds type
  written : ∃ written, vocabulary.HasType written ∧ declared.written = written.text

/-- What is declared silently has the property. -/
theorem declaredSilently_holds (closed : Closed vocabulary sound holds)
    (all : context.AllTypes holds) {written : WrittenType}
    (has : vocabulary.HasType written) :
    DeclaredHolds vocabulary holds (declaredSilently context written) :=
  ⟨fun _ resolved => all.resolve? closed.toInherited has resolved, written, has, rfl⟩

/-- The words in structs are those of a vocabulary. -/
def StructsHave (vocabulary : Vocabulary) (structs : List (Struct WrittenType)) : Prop :=
  ∀ struct ∈ structs, vocabulary.features.HasStruct struct

/-- A slot has words of a vocabulary and a type with a property. -/
structure SlotInherits (vocabulary : Vocabulary) (holds : Ty → Prop) (slot : Slot DeclaredType) :
    Prop where
  attributes : vocabulary.HasAttributes slot.attributes
  name : vocabulary.word slot.name
  ascription : DeclaredHolds vocabulary holds slot.ascription

/-- A struct has such words and fields. -/
structure StructInherits (vocabulary : Vocabulary) (holds : Ty → Prop)
    (struct : Struct DeclaredType) : Prop where
  name : vocabulary.word struct.name
  fields : ∀ slot ∈ struct.fields, SlotInherits vocabulary holds slot

/-- Resolved fields have the property. -/
theorem resolvedFields_holds {fields : List (Slot WrittenType × Resolution)}
    (each : ∀ field ∈ fields, ∀ type, field.2 = .resolved type → holds type) :
    ∀ entry ∈ resolvedFields fields, holds entry.2 := by
  induction fields with
  | nil => exact nofun
  | cons first rest ih =>
    obtain ⟨here, below⟩ := forall_mem_cons.mp each
    intro entry member
    unfold resolvedFields at member
    split at member
    · cases member
    · rename_i field type others same
      cases same
      rcases mem_cons.mp member with same | later
      · rw [same]
        exact here type rfl
      · exact ih below entry (mem_filter.mp later).1
    · rename_i others _ same
      cases same
      exact ih below entry member

/-- A defined struct keeps the property. -/
theorem defineStruct_holds (closed : Closed vocabulary sound holds)
    (all : context.AllTypes holds) (waiting : List String)
    {struct : Struct WrittenType}
    (word : vocabulary.word struct.name)
    (has : ∀ slot ∈ struct.fields, vocabulary.HasType slot.ascription) :
    (defineStruct context struct (resolveFields context waiting struct)).AllTypes holds := by
  refine all.defineStruct _ (closed.struct word (resolvedFields_holds ?_))
  intro field member type resolved
  obtain ⟨slot, inside, same⟩ := mem_map.mp member
  rw [← same] at resolved
  exact all.resolve? closed.toInherited (has slot inside) (resolve?_of_resolution resolved)

/-- The structs of a program keep the property. -/
theorem collectStructs_holds (closed : Closed vocabulary sound holds) (all : context.AllTypes holds)
    (has : StructsHave vocabulary (Surface.structs program)) :
    (collectStructs program context).value.2.AllTypes holds ∧
      ∀ struct ∈ (collectStructs program context).value.1,
        StructInherits vocabulary holds struct := by
  have distinctHave : StructsHave vocabulary (distinctStructs [] (Surface.structs program)) :=
    fun struct member => has struct (mem_of_mem_distinctStructs member)
  have defined := defineStructs_keeps (Context.AllTypes holds)
    (distinctStructs [] (Surface.structs program)).length
    (fun context waiting struct member all => defineStruct_holds closed all waiting
      (distinctHave struct member).name fun slot inside =>
        ((distinctHave struct member).fields slot inside).type.1) all
  refine ⟨defined, ?_⟩
  intro struct member
  obtain ⟨written, writtenInside, same⟩ := mem_map.mp member
  obtain ⟨word, slots⟩ := distinctHave written writtenInside
  rw [← same]
  refine ⟨word, fun slot inside => ?_⟩
  obtain ⟨field, fieldInside, same⟩ := mem_map.mp inside
  have has := slots field fieldInside
  rw [← same]
  exact ⟨has.attributes, has.name, declaredSilently_holds closed defined has.type.1⟩

/-- Uniforms keep the property. -/
theorem uniforms_hold (closed : Closed vocabulary sound holds) {uniforms : List (Uniform WrittenType)}
    (all : context.AllTypes holds)
    (has : ∀ uniform ∈ uniforms, vocabulary.word uniform.name ∧ vocabulary.HasType uniform.ascription) :
    (uniforms.foldl behindUniform context).AllTypes holds ∧
      ∀ uniform ∈ uniforms.map (typedUniform context), vocabulary.word uniform.name ∧
        DeclaredHolds vocabulary holds uniform.ascription := by
  constructor
  · induction uniforms generalizing context with
    | nil => exact all
    | cons first rest ih =>
      obtain ⟨⟨_, firstHas⟩, restHas⟩ := forall_mem_cons.mp has
      exact ih (all.bind _ (declaredSilently_holds closed all firstHas).resolved) restHas
  · refine forall_mem_map.mpr fun uniform member => ?_
    exact ⟨(has uniform member).1, declaredSilently_holds closed all (has uniform member).2⟩

/-- A property of the types of a signature. -/
structure DeclaredSignature.Holds (vocabulary : Vocabulary) (holds : Ty → Prop)
    (signature : DeclaredSignature) : Prop where
  parameters : ∀ type ∈ signature.parameters, DeclaredHolds vocabulary holds type
  returnType : ∀ type ∈ signature.returnType, DeclaredHolds vocabulary holds type

/-- A declared signature has the property. -/
theorem declaredSignature_holds (closed : Closed vocabulary sound holds)
    (all : context.AllTypes holds) (has : vocabulary.features.HasFunction function) :
    (declaredSignature context function).Holds vocabulary holds where
  parameters := forall_mem_map.mpr fun slot member =>
    declaredSilently_holds closed all (has.parameters slot member).type.1
  returnType := by
    intro type declared
    obtain ⟨written, returned, rfl⟩ := Option.map_eq_some_iff.mp declared
    exact declaredSilently_holds closed all (has.returnType written returned).1

/-- Signatures keep the property. -/
theorem signatures_hold (closed : Closed vocabulary sound holds)
    {functions : List (Function Surface.Expr WrittenType)} (all : context.AllTypes holds)
    (has : ∀ function ∈ functions, vocabulary.features.HasFunction function) :
    (functions.foldl behindSignature context).AllTypes holds := by
  refine List.foldlRecOn (motive := fun before : Context => before.AllTypes holds) _ _ all ?_
  intro before beforeAll function member
  have signed := declaredSignature_holds closed beforeAll (has function member)
  unfold behindSignature
  split
  · exact beforeAll
  · refine beforeAll.defineFunction _ fun type resolved => ?_
    obtain ⟨declared, written, same⟩ := Option.bind_eq_some_iff.mp resolved
    exact (signed.returnType declared written).resolved type same

/-- Bound parameters keep the property. -/
theorem bindParameters_holds (all : context.AllTypes holds) (parameters : List (Slot WrittenType))
    {types : List DeclaredType} (fits : ∀ type ∈ types, DeclaredHolds vocabulary holds type) :
    (bindParameters context parameters types).AllTypes holds := by
  refine List.foldlRecOn (motive := fun before : Context => before.AllTypes holds) _ _ all.push ?_
  intro before beforeAll entry member
  exact beforeAll.bind _ (fits entry.2 (of_mem_zip member).2).resolved

/-- All nodes of expressions are sound. -/
def AllSound (sound : Typed.Expr → Prop) (expressions : List Typed.Expr) : Prop :=
  ∀ expression ∈ expressions, ∀ node ∈ expression.nodes, sound node

/-- Fewer expressions are sound too. -/
theorem AllSound.of_subset {some all : List Typed.Expr} (each : AllSound sound all)
    (subset : ∀ expression ∈ some, expression ∈ all) : AllSound sound some :=
  fun expression member => each expression (subset expression member)

/-- A property of the types of all nodes of expressions. -/
def NodesHold (holds : Ty → Prop) (expressions : List Typed.Expr) : Prop :=
  ∀ expression ∈ expressions, ∀ node ∈ expression.nodes, ∀ type ∈ node.type, holds type

/-- Sound expressions have the property. -/
theorem NodesHold.of_sound (each : ∀ expression ∈ expressions, TypesHold sound holds expression)
    (made : AllSound sound expressions) : NodesHold holds expressions :=
  fun expression member => each expression member (made expression member)

/-- The type of an expression has the property. -/
theorem NodesHold.type (all : NodesHold holds expressions) {expression : Typed.Expr}
    (member : expression ∈ expressions) : ∀ type ∈ expression.type, holds type :=
  all expression member expression (Typed.Expr.mem_nodes_self expression)

/-- A name has its declared type or that of its value. -/
theorem declare_holds {frame : Frame} (all : frame.context.AllTypes holds) (name : String)
    {expected found : Option Ty} (isMutable : Bool) (span : Span)
    (expectedHolds : ∀ type ∈ expected, holds type)
    (foundHolds : ∀ type ∈ found, holds type) :
    (frame.declare name ⟨expected.or found, isMutable, span⟩).context.AllTypes holds := by
  refine all.bind name ?_
  cases expected with
  | none => exact foundHolds
  | some expected => exact expectedHolds

section Statements

variable {frame : Frame} (closed : Closed vocabulary sound holds)
  (all : frame.context.AllTypes holds)

include closed all

/-- A typed expression has the property. -/
theorem typed_holds {source : Surface.Expr} (hint : Option Scalar)
    (has : vocabulary.HasExpr source) : TypesHold sound holds (frame.typed source hint).value :=
  (Typing.elaborate_elaborates source hint).typesHold closed all has

/-- An ascription has the property. -/
theorem ascribed_holds (has : vocabulary.HasType? ascription) :
    ∀ declared ∈ (ascribed frame ascription).value, DeclaredHolds vocabulary holds declared := by
  cases ascription with
  | none => exact nofun
  | some written =>
    rintro _ ⟨⟩
    rw [value_declaredType]
    exact declaredSilently_holds closed all (has written rfl)

/-- An expected type has the property. -/
theorem expectedType_holds (has : vocabulary.HasType? ascription) :
    ∀ type ∈ expectedType frame ascription, holds type := by
  intro type resolved
  obtain ⟨declared, written, same⟩ := Option.bind_eq_some_iff.mp resolved
  exact (ascribed_holds closed all has declared written).resolved type same

/-- The sound nodes of a plain statement have the property. -/
theorem plain_nodesHold (function : Enclosing) {statement : Surface.Stmt}
    (plain : statement.isBlock = false) (has : vocabulary.HasStmt statement)
    (made : AllSound sound (typeStatement function frame statement).value.1.expressions) :
    NodesHold holds (typeStatement function frame statement).value.1.expressions := by
  have typed : Interleaved
      (fun frame source => frame.context.AllTypes holds ∧ vocabulary.HasExpr source) (fun _ => True)
      statement.expressions (typeStatement function frame statement).value.1.expressions
      (typeStatement function frame statement).log :=
    typeStatement_interleaved function plain
      (fun source member => ⟨all, hasExpr_of_mem_expressions statement has source member⟩)
      (.trivial frame statement)
  refine .of_sound (fun expression member => ?_) made
  obtain ⟨frame, source, _, hint, ⟨all, has⟩, rfl, _⟩ := typed.exists_of_mem member
  exact typed_holds closed all hint has

end Statements

mutual

/-- The nodes of a statement have it, as has the context behind. -/
theorem typeStatement_holds (closed : Closed vocabulary sound holds)
    (function : Enclosing) {frame : Frame}
    (all : frame.context.AllTypes holds) : (statement : Surface.Stmt) →
      vocabulary.HasStmt statement →
      AllSound sound (typeStatement function frame statement).value.1.expressions →
      (typeStatement function frame statement).value.2.context.AllTypes holds ∧
        (∀ declared ∈ (typeStatement function frame statement).value.1.ascriptions,
          DeclaredHolds vocabulary holds declared) ∧
        NodesHold holds (typeStatement function frame statement).value.1.expressions
  | .letBinding name ascription value span, has, made => by
    have nodes := plain_nodesHold closed all function rfl has made
    refine ⟨?_, ?_, nodes⟩
    · exact declare_holds all name false span (expectedType_holds closed all has.2.1)
        (nodes.type mem_cons_self)
    · intro declared member
      exact ascribed_holds closed all has.2.1 declared (Option.mem_toList.mp member)
  | .varBinding name ascription value span, has, made => by
    have nodes := plain_nodesHold closed all function rfl has made
    rw [value_typeStatement_var] at nodes ⊢
    refine ⟨?_, ?_, nodes⟩
    · refine declare_holds all name true span (expectedType_holds closed all has.2.1) ?_
      intro type resolved
      obtain ⟨initial, given, same⟩ := Option.bind_eq_some_iff.mp resolved
      exact nodes.type (Option.mem_toList.mpr given) type same
    · intro declared member
      exact ascribed_holds closed all has.2.1 declared (Option.mem_toList.mp member)
  | .assignment .., has, made | .returning .., has, made | .evaluation .., has, made =>
    ⟨all, forall_mem_nil _, plain_nodesHold closed all function rfl has made⟩
  | .block statements opening closing span, has, made =>
    ⟨all, typeStatements_holds closed function all.push statements has made⟩

/-- The types of statements inherit from the context. -/
theorem typeStatements_holds (closed : Closed vocabulary sound holds)
    (function : Enclosing) {frame : Frame}
    (all : frame.context.AllTypes holds) : (statements : List Surface.Stmt) →
      vocabulary.HasStmts statements →
      AllSound sound (Statement.allExpressions (typeStatements function frame statements).value) →
      (∀ declared ∈ Statement.allAscriptions (typeStatements function frame statements).value,
        DeclaredHolds vocabulary holds declared) ∧
        NodesHold holds (Statement.allExpressions (typeStatements function frame statements).value)
  | [], _, _ => ⟨nofun, nofun⟩
  | first :: rest, ⟨firstHas, restHas⟩, made => by
    obtain ⟨nextAll, firstDeclared, firstNodes⟩ := typeStatement_holds closed function all first
      firstHas (made.of_subset fun _ => mem_append_left _)
    obtain ⟨restDeclared, restNodes⟩ := typeStatements_holds closed function nextAll rest restHas
      (made.of_subset fun _ => mem_append_right _)
    constructor
    · intro declared member
      rcases mem_append.mp member with here | later
      · exact firstDeclared declared here
      · exact restDeclared declared later
    · intro expression member
      rcases mem_append.mp member with here | later
      · exact firstNodes expression here
      · exact restNodes expression later

end

mutual

/-- A typed statement binds the names of the written one. -/
theorem boundNames_typeStatement (function : Enclosing) (frame : Frame) : (statement : Surface.Stmt) →
    (typeStatement function frame statement).value.1.boundNames = statement.boundNames
  | .letBinding .. | .assignment .. | .returning .. | .evaluation .. => rfl
  | .varBinding .. => by
    rw [value_typeStatement_var]
    rfl
  | .block statements _ _ _ => allBoundNames_typeStatements function (frame.enter statements) statements

/-- Typed statements bind the same names. -/
theorem allBoundNames_typeStatements (function : Enclosing) (frame : Frame) :
    (statements : List Surface.Stmt) →
    Statement.allBoundNames (typeStatements function frame statements).value =
      Statement.allBoundNames statements
  | [] => rfl
  | first :: rest => by
    have here := boundNames_typeStatement function frame first
    have below := allBoundNames_typeStatements function
      (typeStatement function frame first).value.2 rest
    rw [Statement.allBoundNames, ← here, ← below]
    rfl

end

mutual

/-- The names that a statement binds are among its words. -/
theorem word_boundNames : (statement : Surface.Stmt) → vocabulary.HasStmt statement →
    ∀ name ∈ statement.boundNames, vocabulary.word name
  | .letBinding .., ⟨word, _⟩ | .varBinding .., ⟨word, _⟩ => forall_mem_singleton.mpr word
  | .assignment .., _ | .returning .., _ | .evaluation .., _ => forall_mem_nil _
  | .block statements _ _ _, has => word_allBoundNames statements has

/-- Bound names are words. -/
theorem word_allBoundNames : (statements : List Surface.Stmt) → vocabulary.HasStmts statements →
    ∀ name ∈ Statement.allBoundNames statements, vocabulary.word name
  | [], _ => forall_mem_nil _
  | first :: rest, ⟨firstHas, restHas⟩ => forall_mem_append.mpr
    ⟨word_boundNames first firstHas, word_allBoundNames rest restHas⟩

end

/-- A function has words of a vocabulary and types with a property. -/
structure FunctionInherits (vocabulary : Vocabulary) (holds : Ty → Prop)
    (function : Function Typed.Expr DeclaredType) : Prop where
  attributes : vocabulary.HasAttributes function.attributes
  name : vocabulary.word function.name
  parameters : ∀ slot ∈ function.parameters, SlotInherits vocabulary holds slot
  returnType : ∀ declared ∈ function.returnType, DeclaredHolds vocabulary holds declared
  returnAttributes : vocabulary.HasAttributes function.returnAttributes
  names : ∀ name ∈ Statement.allBoundNames function.body.statements, vocabulary.word name
  ascriptions : ∀ declared ∈ Statement.allAscriptions function.body.statements,
    DeclaredHolds vocabulary holds declared
  nodes : NodesHold holds (Statement.allExpressions function.body.statements)

/-- A typed function inherits the property. -/
theorem typeFunction_inherits (closed : Closed vocabulary sound holds)
    (all : context.AllTypes holds) (has : vocabulary.features.HasFunction function)
    {signature : DeclaredSignature} (signed : signature.Holds vocabulary holds)
    (made : AllSound sound
      (Statement.allExpressions (typeFunction context function signature).value.body.statements)) :
    FunctionInherits vocabulary holds (typeFunction context function signature).value := by
  have start : (Frame.enter ⟨bindParameters context function.parameters signature.parameters, []⟩
      function.body.statements).context.AllTypes holds :=
    (bindParameters_holds all function.parameters signed.parameters).push
  have parameters : ∀ slot ∈ List.zipWith typedSlot function.parameters signature.parameters,
      SlotInherits vocabulary holds slot := by
    intro slot member
    rw [← map_uncurry_zip_eq_zipWith] at member
    obtain ⟨pair, inside, same⟩ := mem_map.mp member
    obtain ⟨slotInside, typeInside⟩ := of_mem_zip inside
    have slotHas := has.parameters pair.1 slotInside
    rw [← same]
    exact ⟨slotHas.attributes, slotHas.name, signed.parameters pair.2 typeInside⟩
  rw [value_typeFunction] at made ⊢
  obtain ⟨declaredHold, nodesHold⟩ := typeStatements_holds closed _ start _ has.body made
  refine ⟨has.attributes, has.name, parameters, signed.returnType, has.returnAttributes, ?_,
    declaredHold, nodesHold⟩
  rw [allBoundNames_typeStatements]
  exact word_allBoundNames _ has.body

/-- A program has such words and types. -/
structure ProgramInherits (vocabulary : Vocabulary) (holds : Ty → Prop) (program : Typed.Program) :
    Prop where
  structs : ∀ struct ∈ program.structs, StructInherits vocabulary holds struct
  uniforms : ∀ uniform ∈ program.uniforms, vocabulary.word uniform.name ∧
    DeclaredHolds vocabulary holds uniform.ascription
  functions : ∀ function ∈ program.functions, FunctionInherits vocabulary holds function

/-- What is inherited and kept holds of an analyzed program. -/
theorem typeProgram_inherits (closed : Closed vocabulary sound holds)
    (has : ∀ declaration ∈ program, vocabulary.features.HasDeclaration declaration)
    (made : ∀ function ∈ (typeProgram program).value.functions,
      AllSound sound (Statement.allExpressions function.body.statements)) :
    ProgramInherits vocabulary holds (typeProgram program).value := by
  have structsHave : StructsHave vocabulary (Surface.structs program) := fun struct member =>
    has _ (Surface.mem_structs.mp member)
  have uniformsHave : ∀ uniform ∈ Surface.uniforms program, vocabulary.word uniform.name ∧
      vocabulary.HasType uniform.ascription := by
    intro uniform member
    have uniformHas : vocabulary.features.HasUniform uniform := has _ (Surface.mem_uniforms.mp member)
    exact ⟨uniformHas.name, uniformHas.type.1⟩
  have functionsHave : ∀ function ∈ Surface.functions program,
      vocabulary.features.HasFunction function := fun function member =>
    has _ (Surface.mem_functions.mp member)
  obtain ⟨structsAll, structsHold⟩ :=
    collectStructs_holds closed (Context.AllTypes.empty holds) structsHave
  obtain ⟨uniformsAll, boundHold⟩ := uniforms_hold closed structsAll uniformsHave
  have signedAll := signatures_hold closed uniformsAll functionsHave
  rw [typeProgram_eq] at made ⊢
  refine ⟨structsHold, boundHold, forall_mem_map.mpr fun function member => ?_⟩
  exact typeFunction_inherits closed signedAll (functionsHave function member)
    (declaredSignature_holds closed uniformsAll (functionsHave function member))
    (made _ (mem_map_of_mem member))

/-- It holds of all types of a function. -/
theorem FunctionInherits.types {function : Function Typed.Expr DeclaredType}
    (inherits : FunctionInherits vocabulary holds function) :
    ∀ type ∈ Typed.functionTypes function, holds type := by
  intro type member
  simp only [Typed.functionTypes, mem_append, mem_filterMap] at member
  rcases member with ((⟨slot, inside, resolved⟩ | result) | ⟨declared, inside, resolved⟩) |
    ⟨node, inside, resolved⟩
  · exact (inherits.parameters slot inside).ascription.resolved type resolved
  · obtain ⟨declared, written, resolved⟩ := Option.bind_eq_some_iff.mp (Option.mem_toList.mp result)
    exact (inherits.returnType declared written).resolved type resolved
  · exact (inherits.ascriptions declared inside).resolved type resolved
  · obtain ⟨expression, held, isNode⟩ := Typed.Expr.mem_allNodes.mp inside
    exact inherits.nodes expression held node isNode type resolved

/-- What is inherited holds of all types of a program. -/
theorem ProgramInherits.types {program : Typed.Program}
    (inherits : ProgramInherits vocabulary holds program) : ∀ type ∈ program.types, holds type := by
  intro type member
  simp only [Typed.Program.types, mem_append, mem_flatMap, mem_filterMap] at member
  rcases member with (⟨struct, listed, slot, inside, resolved⟩ | ⟨uniform, listed, resolved⟩) |
    ⟨function, listed, inside⟩
  · exact ((inherits.structs struct listed).fields slot inside).ascription.resolved type resolved
  · exact (inherits.uniforms uniform listed).2.resolved type resolved
  · exact (inherits.functions function listed).types type inside

end Analysis

end Shading
