import Shading.Proofs.Places
import Shading.Proofs.ReadParts
import Shading.Proofs.WrittenTypes

/-!
# What is read is made of the words and literals of the text

Every name and every literal in the tree of a program is that of a token. So whatever holds of the words
and literals of a text holds of those of its tree. The types of parameters, fields and uniforms nest no
deeper than is read.
-/

namespace Shading

open List

variable {token : Token} {name : String} {allowance : Nat} {arguments : List DecoratorArgument}
  {attributes : List Attribute} {tokens : Tokens} {source : SourceText}

/-- Words and literals that may occur, stages that comments may list, and where names may be called.
-/
structure Vocabulary where
  word : String → Prop
  literal : Number → Prop
  comment : List Stage → Prop := fun _ => True
  call : String → Span → Prop := fun _ _ => True

namespace Vocabulary

variable (vocabulary : Vocabulary)

/-- A whole number that a literal stands for. -/
def Counts (value : Nat) : Prop := ∃ literal, vocabulary.literal literal ∧ literal.index? = some value

/-- Stages that a decorator lists, or a comment. -/
def Lists (stages : List Stage) : Prop := stages ≠ [] ∨ vocabulary.comment stages

/-- The word or literal of a token may occur. -/
def HasToken : Token → Prop
  | .identifier name => vocabulary.word name
  | .number literal => vocabulary.literal literal
  | .visibilityComment stages => vocabulary.comment stages
  | _ => True

/-- Those of tokens may, and calls may start with them. -/
def HasTokens (tokens : Tokens) : Prop :=
  ∀ located ∈ tokens, vocabulary.HasToken located.token ∧
    ∀ name closing, located.token = .identifier name → vocabulary.call name (located.span.through closing)

mutual

/-- The words and sizes of a written type may occur. -/
def HasType : WrittenType → Prop
  | .mk name arguments _ => vocabulary.word name ∧ HasArguments arguments

/-- The words and sizes of an argument of a type may occur. -/
def HasArgument : TypeArgument → Prop
  | .type written => HasType written
  | .size value => vocabulary.Counts value

/-- The words and sizes of arguments may occur. -/
def HasArguments : List TypeArgument → Prop
  | [] => True
  | first :: rest => HasArgument first ∧ HasArguments rest

end

mutual

/-- The words and literals of an expression may occur. -/
def HasExpr : Surface.Expr → Prop
  | .number literal _ => vocabulary.literal literal
  | .bool _ _ => True
  | .identifier name _ => vocabulary.word name
  | .binary _ left right _ => HasExpr left ∧ HasExpr right
  | .unary _ operand _ => HasExpr operand
  | .call name typeArguments arguments span =>
    vocabulary.word name ∧ vocabulary.call name span ∧ vocabulary.HasArguments typeArguments ∧
      HasExprs arguments
  | .member base name _ => HasExpr base ∧ vocabulary.word name
  | .index base position _ => HasExpr base ∧ HasExpr position

/-- The words and literals of expressions may occur. -/
def HasExprs : List Surface.Expr → Prop
  | [] => True
  | first :: rest => HasExpr first ∧ HasExprs rest

end

/-- Those of an expression may occur, if there is one. -/
def HasExpr? (value : Option Surface.Expr) : Prop := ∀ written ∈ value, vocabulary.HasExpr written

/-- Those of an ascription may occur, if there is one. -/
def HasType? (ascription : Option WrittenType) : Prop :=
  ∀ written ∈ ascription, vocabulary.HasType written

mutual

/-- The words and literals of a statement may occur. -/
def HasStmt : Surface.Stmt → Prop
  | .letBinding name ascription value _ =>
    vocabulary.word name ∧ vocabulary.HasType? ascription ∧ vocabulary.HasExpr value
  | .varBinding name ascription value _ =>
    vocabulary.word name ∧ vocabulary.HasType? ascription ∧ vocabulary.HasExpr? value
  | .assignment target value _ => vocabulary.HasExpr target ∧ vocabulary.HasExpr value
  | .returning value _ => vocabulary.HasExpr? value
  | .evaluation value _ => vocabulary.HasExpr value
  | .block statements _ _ _ => HasStmts statements

/-- The words and literals of statements may occur. -/
def HasStmts : List Surface.Stmt → Prop
  | [] => True
  | first :: rest => HasStmt first ∧ HasStmts rest

end

/-- The words and numbers of a decorator may occur. -/
def HasAttribute : Attribute → Prop
  | .stage _ => True
  | .workgroupSize dimensions =>
    1 ≤ dimensions.length ∧ dimensions.length ≤ 3 ∧ ∀ size ∈ dimensions, 0 < size ∧ vocabulary.Counts size
  | .group index | .binding index | .location index => vocabulary.Counts index
  | .visibility stages => vocabulary.Lists stages
  | .builtin name => vocabulary.word name

/-- The words and numbers of decorators may occur. -/
def HasAttributes (attributes : List Attribute) : Prop :=
  ∀ decorator ∈ attributes, vocabulary.HasAttribute decorator

section Tokens

variable {vocabulary} {first : LocatedToken} {front rest : Tokens}

/-- The first token may occur. -/
theorem HasTokens.head (held : vocabulary.HasTokens (first :: rest)) : vocabulary.HasToken first.token :=
  (forall_mem_cons.mp held).1.1

/-- A call may start with it. -/
theorem HasTokens.call {span : Span}
    (held : vocabulary.HasTokens (⟨.identifier name, span⟩ :: rest)) (closing : Span) :
    vocabulary.call name (span.through closing) :=
  (forall_mem_cons.mp held).1.2 name closing rfl

/-- The other tokens may occur. -/
theorem HasTokens.tail (held : vocabulary.HasTokens (first :: rest)) : vocabulary.HasTokens rest :=
  (forall_mem_cons.mp held).2

/-- The first of joined tokens may occur. -/
theorem HasTokens.left (held : vocabulary.HasTokens (front ++ rest)) : vocabulary.HasTokens front :=
  (forall_mem_append.mp held).1

/-- The last of joined tokens may occur. -/
theorem HasTokens.right (held : vocabulary.HasTokens (front ++ rest)) : vocabulary.HasTokens rest :=
  (forall_mem_append.mp held).2

end Tokens

end Vocabulary

namespace Surface

variable (vocabulary : Vocabulary)

/-- The words and literals ahead may occur. -/
def Cursor.Holds (cursor : Cursor) : Prop := vocabulary.HasTokens cursor.rest

variable {vocabulary} {cursor next : Cursor}

/-- The word or literal of the next token may occur. -/
theorem Cursor.Holds.peek (holds : cursor.Holds vocabulary) : vocabulary.HasToken cursor.peek := by
  unfold Cursor.peek
  split
  · trivial
  · rename_i located _ ahead
    exact (holds located (by simp [ahead])).1

/-- The words and literals further ahead may occur. -/
theorem Cursor.Holds.of_suffix (holds : cursor.Holds vocabulary) (ahead : next.rest <:+ cursor.rest) :
    next.Holds vocabulary :=
  fun located member => holds located (ahead.subset member)

/-- What a reader gives is made of what is ahead. -/
def Draws {α : Type} (vocabulary : Vocabulary) (reader : Reader α) (made : α → Prop) : Prop :=
  ∀ cursor value next, cursor.Holds vocabulary → reader cursor = .ok (value, next) →
    made value ∧ next.Holds vocabulary

/-- Names are made of what is ahead. -/
theorem identifier_draws :
    Draws vocabulary identifier fun (name, _) => vocabulary.word name := by
  rintro cursor ⟨name, span⟩ next holds read
  have held : vocabulary.HasTokens cursor.rest := holds
  rw [(rest_of_identifier read).1] at held
  exact ⟨held.head, held.tail⟩

mutual

/-- A type is made of the words and literals of its tokens. -/
theorem TypeTokens.has {allowance : Nat} {tokens : Tokens} {written : WrittenType} :
    TypeTokens allowance tokens written → vocabulary.HasTokens tokens → vocabulary.HasType written
  | .plain _ _ _, held => ⟨held.head, trivial⟩
  | .applied _ _ _ _ listed, held => ⟨held.head, listed.has held.tail.tail.left⟩

/-- Type arguments are made of their tokens. -/
theorem TypeArgumentTokens.has {allowance : Nat} {tokens : Tokens} {argument : TypeArgument} :
    TypeArgumentTokens allowance tokens argument → vocabulary.HasTokens tokens →
      vocabulary.HasArgument argument
  | .size _ _ counts, held => ⟨_, held.head, counts⟩
  | .type inner, held => inner.has held

/-- Lists of type arguments are made of their tokens. -/
theorem TypeArgumentsTokens.has {allowance : Nat} {tokens : Tokens}
    {arguments : List TypeArgument} : TypeArgumentsTokens allowance tokens arguments →
      vocabulary.HasTokens tokens → vocabulary.HasArguments arguments
  | .last one, held => ⟨one.has held, trivial⟩
  | .cons _ one rest, held => ⟨one.has held.left, rest.has held.right.tail⟩

end

mutual

/-- An expression is made of its tokens. -/
theorem JoinedTokens.has {allowance least : Nat} {tokens : Tokens} {whole : Expr} :
    JoinedTokens allowance least tokens whole → vocabulary.HasTokens tokens → vocabulary.HasExpr whole
  | .mk first rest, held => rest.has held.right (first.has held.left)

/-- A chain of operators is made of its tokens. -/
theorem ChainTokens.has {allowance least : Nat} {left whole : Expr} {tokens : Tokens} :
    ChainTokens allowance least left tokens whole → vocabulary.HasTokens tokens →
      vocabulary.HasExpr left → vocabulary.HasExpr whole
  | .nil _ _ _, _, made => made
  | .cons _ _ second _ rest, held, made => rest.has held.tail.right ⟨made, second.has held.tail.left⟩

/-- An operand is made of its tokens. -/
theorem OperandTokens.has {allowance : Nat} {tokens : Tokens} {whole : Expr} :
    OperandTokens allowance tokens whole → vocabulary.HasTokens tokens → vocabulary.HasExpr whole
  | .signed _ inner, held => inner.has held.tail
  | .accessed start rest, held => rest.has held.right (start.has held.left)

/-- Accesses are made of their tokens. -/
theorem AccessTokens.has {allowance : Nat} {base whole : Expr} {tokens : Tokens} :
    AccessTokens allowance base tokens whole → vocabulary.HasTokens tokens →
      vocabulary.HasExpr base → vocabulary.HasExpr whole
  | .nil _ _, _, made => made
  | .member _ _ _ rest, held, made => rest.has held.tail.tail ⟨made, held.tail.head⟩
  | .index _ _ within rest, held, made =>
    rest.has held.tail.right.tail ⟨made, within.has held.tail.left⟩

/-- A primary is made of its tokens. -/
theorem PrimaryTokens.has {allowance : Nat} {tokens : Tokens} {whole : Expr} :
    PrimaryTokens allowance tokens whole → vocabulary.HasTokens tokens → vocabulary.HasExpr whole
  | .number _ _ _, held => held.head
  | .yes _ _, _ | .no _ _, _ => trivial
  | .parenthesized _ _ within, held => within.has held.tail.left
  | .identifier _ _ _, held => held.head
  | .call _ _ _ _ listed, held => ⟨held.head, held.call _, trivial, listed.has held.tail.tail.left⟩
  | .construction _ _ _ _ _ _ types listed, held =>
    ⟨held.head, held.call _, types.has held.tail.tail.left, listed.has held.tail.tail.right.tail.tail.left⟩

/-- Arguments are made of their tokens. -/
theorem ArgumentsTokens.has {allowance : Nat} {tokens : Tokens} {arguments : List Expr} :
    ArgumentsTokens allowance tokens arguments → vocabulary.HasTokens tokens →
      vocabulary.HasExprs arguments
  | .nil _, _ => trivial
  | .last one, held => ⟨one.has held, trivial⟩
  | .cons _ one rest, held => ⟨one.has held.left, rest.has held.right.tail⟩

end

/-- An ascription is made of its tokens. -/
theorem AscriptionTokens.has {ascription : Option WrittenType}
    (made : AscriptionTokens allowance tokens ascription) (held : vocabulary.HasTokens tokens) :
    vocabulary.HasType? ascription := by
  cases made with
  | none => exact nofun
  | some _ typed =>
    rintro _ ⟨⟩
    exact typed.has held.tail

/-- An initial value is made of its tokens. -/
theorem InitializerTokens.has {value : Option Expr}
    (made : InitializerTokens allowance tokens value) (held : vocabulary.HasTokens tokens) :
    vocabulary.HasExpr? value := by
  cases made with
  | none => exact nofun
  | some _ made =>
    rintro _ ⟨⟩
    exact made.has held.tail

mutual

/-- A statement is made of its tokens. -/
theorem StatementTokens.has {allowance : Nat} {tokens : Tokens} {statement : Stmt} :
    StatementTokens allowance tokens statement → vocabulary.HasTokens tokens →
      vocabulary.HasStmt statement
  | .letBinding _ _ _ _ _ typed made, held =>
    ⟨held.tail.head, typed.has held.tail.tail.left, made.has held.tail.tail.right.tail.left⟩
  | .varBinding _ _ _ _ typed made, held =>
    ⟨held.tail.head, typed.has held.tail.tail.left, made.has held.tail.tail.right.left⟩
  | .assignment _ _ changed made, held =>
    ⟨changed.has (Vocabulary.HasTokens.left (cons_append ▸ held)), made.has held.tail.right.tail.left⟩
  | .returning _ _ made, held => by
    rintro _ ⟨⟩
    exact made.has held.tail.left
  | .leaving _ _ _, _ => nofun
  | .evaluation _ made, held => made.has (Vocabulary.HasTokens.left (cons_append ▸ held))
  | .block _ _ inner, held => inner.has held.tail.left

/-- Statements are made of their tokens. -/
theorem StatementsTokens.has {allowance : Nat} {tokens : Tokens} {statements : List Stmt} :
    StatementsTokens allowance tokens statements → vocabulary.HasTokens tokens →
      vocabulary.HasStmts statements
  | .nil _, _ => trivial
  | .cons first rest, held => ⟨first.has held.left, rest.has held.right⟩

end

/-- A type is made of the words and literals ahead. -/
theorem writtenType_draws (allowance : Nat) :
    Draws vocabulary (writtenType allowance) vocabulary.HasType := by
  intro cursor written next holds read
  obtain ⟨taken, split, made⟩ := writtenType_takes allowance cursor written next read
  have held : vocabulary.HasTokens cursor.rest := holds
  rw [split] at held
  exact ⟨made.has held.left, held.right⟩

/-- A block is made of the words and literals ahead. -/
theorem block_draws (allowance : Nat) :
    Draws vocabulary (block allowance) fun body => vocabulary.HasStmts body.statements := by
  intro cursor body next holds read
  obtain ⟨tokens, split, made, _⟩ := block_takes allowance cursor body next read
  have held : vocabulary.HasTokens cursor.rest := holds
  rw [split] at held
  exact ⟨made.has held.tail.left, held.tail.right.tail⟩

mutual

/-- A type nests no deeper than its tokens. -/
theorem TypeTokens.depth_le {allowance : Nat} {tokens : Tokens} {written : WrittenType} :
    TypeTokens allowance tokens written → written.depth ≤ allowance
  | .plain _ _ _ => Nat.zero_le _
  | .applied _ _ _ _ listed => listed.depths_le

/-- A type argument nests no deeper than admitted. -/
theorem TypeArgumentTokens.depth_le {allowance : Nat} {tokens : Tokens}
    {argument : TypeArgument} : TypeArgumentTokens allowance tokens argument →
      argument.depth ≤ allowance
  | .size _ _ _ => Nat.zero_le _
  | .type inner => Nat.succ_le_succ inner.depth_le

/-- Lists of type arguments nest no deeper than admitted. -/
theorem TypeArgumentsTokens.depths_le {allowance : Nat} {tokens : Tokens}
    {arguments : List TypeArgument} : TypeArgumentsTokens allowance tokens arguments →
      TypeArgument.depths arguments ≤ allowance
  | .last one => Nat.max_le.mpr ⟨one.depth_le, Nat.zero_le _⟩
  | .cons _ one rest => Nat.max_le.mpr ⟨one.depth_le, rest.depths_le⟩

end

/-- A type nests no deeper than is read. -/
theorem writtenType_depth_le {written : WrittenType}
    (read : writtenType allowance cursor = .ok (written, next)) : written.depth ≤ allowance := by
  obtain ⟨taken, _, made⟩ := writtenType_takes allowance _ _ _ read
  exact made.depth_le

/-- The word or literal of a decorator's argument may occur. -/
def HasDecoratorArgument (vocabulary : Vocabulary) : DecoratorArgument → Prop
  | .name name => vocabulary.word name
  | .number literal => vocabulary.literal literal

/-- The number that a decorator gives is that of a literal. -/
theorem singleIndex_counts {index : Nat}
    (made : ∀ argument ∈ arguments, HasDecoratorArgument vocabulary argument)
    (accepted : singleIndex name arguments = .ok index) : vocabulary.Counts index := by
  unfold singleIndex at accepted
  split at accepted
  · rename_i literal
    split at accepted
    · rename_i value counted
      cases accepted
      exact ⟨literal, made (.number literal) (by simp), counted⟩
    · cases accepted
  · cases accepted

/-- The dimensions of a decorator are positive. -/
theorem dimensions_count {dimensions : List Nat}
    (made : ∀ argument ∈ arguments, HasDecoratorArgument vocabulary argument)
    (accepted : arguments.mapM dimension? = some dimensions) :
    ∀ size ∈ dimensions, 0 < size ∧ vocabulary.Counts size := by
  induction arguments generalizing dimensions with
  | nil =>
    cases accepted
    simp
  | cons first rest ih =>
    simp only [mapM_cons, Option.bind_eq_bind, Option.bind_eq_some_iff, Option.pure_def,
      Option.some.injEq] at accepted
    obtain ⟨size, sized, others, accepted, rfl⟩ := accepted
    have later := ih (fun argument member => made argument (by simp [member])) accepted
    have here : 0 < size ∧ vocabulary.Counts size := by
      unfold dimension? at sized
      split at sized
      · rename_i literal
        obtain ⟨counted, positive⟩ := Option.filter_eq_some_iff.mp sized
        exact ⟨of_decide_eq_true positive, literal, made (.number literal) (by simp), counted⟩
      · cases sized
    simpa using ⟨here, later⟩

/-- A decorator is made of its arguments. -/
theorem attributeOf_has {found : Attribute}
    (made : ∀ argument ∈ arguments, HasDecoratorArgument vocabulary argument)
    (accepted : attributeOf name arguments = .ok found) : vocabulary.HasAttribute found := by
  have single (make : Nat → Attribute) {name : String}
      (has : ∀ index, vocabulary.Counts index → vocabulary.HasAttribute (make index))
      (accepted : (singleIndex name arguments).map make = .ok found) :
      vocabulary.HasAttribute found := by
    cases index : singleIndex name arguments with
    | ok value =>
      rw [index] at accepted
      cases accepted
      exact has value (singleIndex_counts made index)
    | error error =>
      rw [index] at accepted
      cases accepted
  unfold attributeOf at accepted
  split at accepted
  · split at accepted
    · cases accepted
      trivial
    · cases accepted
  · split at accepted
    · exact single .group (fun _ counts => counts) accepted
    · exact single .binding (fun _ counts => counts) accepted
    · exact single .location (fun _ counts => counts) accepted
    · split at accepted
      · rename_i dimensions sized
        split at accepted
        · rename_i few
          cases accepted
          simp only [Bool.and_eq_true, decide_eq_true_eq] at few
          exact ⟨few.1, few.2, dimensions_count made sized⟩
        · cases accepted
      · cases accepted
    · split at accepted
      · split at accepted
        · cases accepted
        · rename_i listed
          cases accepted
          exact .inl (by simpa using listed)
      · cases accepted
    · split at accepted
      · rename_i value
        cases accepted
        exact made (.name value) (by simp)
      · cases accepted
    · cases accepted

/-- A decorator is made of the words and literals ahead. -/
theorem decorator_has {found : Option Attribute} (holds : cursor.Holds vocabulary)
    (read : (decorator cursor).result = .ok (found, next)) :
    ∀ one ∈ found, vocabulary.HasAttribute one := by
  obtain ⟨taken, name, arguments, split, _, listed, accepted⟩ := decorator_takes read
  intro one member
  refine attributeOf_has (fun argument inside => ?_) (accepted one member)
  obtain ⟨located, within, same⟩ := listed argument inside
  have held := (holds located (split ▸ mem_append_left _ within)).1
  rw [same] at held
  cases argument <;> exact held

/-- Groups are counts. -/
theorem lastGroup?_counts (given : vocabulary.HasAttributes attributes) :
    ∀ index ∈ lastGroup? attributes, vocabulary.Counts index := by
  refine List.foldlRecOn (motive := fun found => ∀ index ∈ found, vocabulary.Counts index)
    attributes _ nofun fun before known one member => ?_
  have has := given one member
  split
  · rintro _ ⟨⟩
    exact has
  · exact known

/-- Bindings are counts. -/
theorem lastBinding?_counts (given : vocabulary.HasAttributes attributes) :
    ∀ index ∈ lastBinding? attributes, vocabulary.Counts index := by
  refine List.foldlRecOn (motive := fun found => ∀ index ∈ found, vocabulary.Counts index)
    attributes _ nofun fun before known one member => ?_
  have has := given one member
  split
  · rintro _ ⟨⟩
    exact has
  · exact known

/-- Stages are listed. -/
theorem lists_lastVisibility? (given : vocabulary.HasAttributes attributes) :
    vocabulary.Lists ((lastVisibility? attributes).getD [.vertex, .fragment]) := by
  have listed : ∀ stages ∈ lastVisibility? attributes, vocabulary.Lists stages := by
    refine List.foldlRecOn (motive := fun found => ∀ stages ∈ found, vocabulary.Lists stages)
      attributes _ nofun fun before known one member => ?_
    have has := given one member
    split
    · rintro _ ⟨⟩
      exact has
    · exact known
  cases found : lastVisibility? attributes with
  | none => exact .inl nofun
  | some stages => exact listed stages found

end Surface

/-- The words, literals and comments as features. -/
def Vocabulary.features (vocabulary : Vocabulary) : Surface.Features where
  cursor := Surface.Cursor.Holds vocabulary
  name word _ := vocabulary.word word
  type written := vocabulary.HasType written ∧ written.depth ≤ Surface.nestingLimit
  body body := vocabulary.HasStmts body.statements
  attributed := vocabulary.HasAttribute
  note _ := True

namespace Surface

variable {vocabulary : Vocabulary}

/-- What is read has the features of its tokens. -/
theorem features_hold : vocabulary.features.Hold where
  reaches holds reached := Cursor.Holds.of_suffix holds reached.rest
  resumes holds _ ahead := fun located member => holds located (ahead.subset member)
  name holds read := (identifier_draws _ _ _ holds read).1
  type holds read := ⟨(writtenType_draws _ _ _ _ holds read).1, writtenType_depth_le read⟩
  body holds read := (block_draws _ _ _ _ holds read).1
  attributed holds read := decorator_has holds read
  comment holds ahead := by
    have known := Cursor.Holds.peek holds
    rw [ahead] at known
    exact .inr known
  decorated _ := fun _ _ => trivial
  missing _ := fun _ _ => trivial
  failure _ := trivial
  ending _ := trivial

/-- The address of a uniform is missing or a count. -/
theorem Features.HasUniform.address {uniform : Uniform WrittenType}
    (has : vocabulary.features.HasUniform uniform) :
    (uniform.group = 0 ∨ vocabulary.Counts uniform.group) ∧
      (uniform.binding = 0 ∨ vocabulary.Counts uniform.binding) ∧
        vocabulary.Lists uniform.visibility := by
  obtain ⟨attributes, given, group, binding, visibility⟩ := has.decorated
  have address {found : Option Nat} (counts : ∀ index ∈ found, vocabulary.Counts index) :
      found.getD 0 = 0 ∨ vocabulary.Counts (found.getD 0) := by
    cases found with
    | none => exact .inl rfl
    | some index => exact .inr (counts index rfl)
  rw [group, binding, visibility]
  exact ⟨address (lastGroup?_counts given), address (lastBinding?_counts given),
    lists_lastVisibility? given⟩

/-- The literal is read from a text that starts with a digit. -/
def IsLiteral (literal : Number) : Prop :=
  ∃ first rest, first.isDigit ∧ Number.read (String.ofList (first :: rest)) = .ok literal

/-- The words, literals and comments of source texts. -/
def written : Vocabulary where
  word := Lexer.IsName
  literal := IsLiteral
  comment stages := stages ≠ []

/-- Tokens have words and literals of source texts. -/
theorem hasToken_tokenize (source : SourceText) :
    ∀ located ∈ (tokenize source).tokens, written.HasToken located.token := by
  have known {piece : List Char} {token : Token} (writes : Lexer.Writes piece token) :
      written.HasToken token := by
    cases token with
    | identifier name => exact writes.2
    | number literal =>
      obtain ⟨first, rest, rfl, digit, read⟩ := writes
      exact ⟨first, rest, digit, read⟩
    | visibilityComment stages => exact writes
    | _ => trivial
  obtain ⟨tokens, reports, tiled, divided⟩ := Lexer.scan_tiled .start source.characters
  rw [tokenize, divided]
  refine forall_mem_append.mpr ⟨fun located member => ?_, forall_mem_singleton.mpr trivial⟩
  obtain ⟨piece, -, writes⟩ := (tiled.cut source.remains_start).1 located member
  exact known writes

/-- A program is made of the tokens of its text. -/
theorem read_of_hasTokens (each : vocabulary.HasTokens (tokenize source).tokens) :
    ∀ declaration ∈ (read source).1, vocabulary.features.HasDeclaration declaration := by
  have ahead : (cursorAt source).Holds vocabulary :=
    fun located member => each located ((cursorAt_sublist source).subset member)
  exact (read_has features_hold ahead).1

/-- Without calls, only words and literals matter. -/
theorem read_holds (each : ∀ located ∈ (tokenize source).tokens, vocabulary.HasToken located.token)
    (anywhere : ∀ name span, vocabulary.call name span := by exact fun _ _ => trivial) :
    ∀ declaration ∈ (read source).1, vocabulary.features.HasDeclaration declaration :=
  read_of_hasTokens fun located member => ⟨each located member, fun _ _ _ => anywhere _ _⟩

/-- A program is made of words of source texts. -/
theorem read_hasDeclaration (source : SourceText) :
    ∀ declaration ∈ (read source).1, written.features.HasDeclaration declaration :=
  read_holds (hasToken_tokenize source)

end Surface

end Shading
