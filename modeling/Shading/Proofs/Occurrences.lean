import Shading.Proofs.DerivedPrograms
import Shading.Proofs.Tiles
import Shading.Typed.Traversal

/-!
# Where names are used

A name that is used in the body of a function stands in a statement, behind some statements of its block
and in front of others, and so does every block around it. Lexical scoping is told by this path alone.
In a program that is read from a text, no two names are used at the same place, since each is a token of
its own.
-/

namespace Shading

open List

namespace Surface

mutual

/-- The names that an expression uses, with their places. -/
def Expr.identifiers : Expr → List (String × Span)
  | .number _ _ => []
  | .bool _ _ => []
  | .identifier name span => [(name, span)]
  | .binary _ left right _ => left.identifiers ++ right.identifiers
  | .unary _ operand _ => operand.identifiers
  | .call _ _ arguments _ => Expr.allIdentifiers arguments
  | .member base _ _ => base.identifiers
  | .index base position _ => base.identifiers ++ position.identifiers

/-- The names that expressions use, with their places. -/
def Expr.allIdentifiers : List Expr → List (String × Span)
  | [] => []
  | first :: rest => first.identifiers ++ Expr.allIdentifiers rest

end

/-- The name that a statement declares and where. -/
def declared? : Stmt → Option (String × Span)
  | .letBinding name _ _ span => some (name, span)
  | .varBinding name _ _ span => some (name, span)
  | .assignment .. | .returning .. | .evaluation .. | .block .. => none

/-- Whether a statement declares a name. -/
def declares (name : String) (statement : Stmt) : Bool :=
  (declared? statement).any fun declared => declared.1 = name

/-- The place of a statement in its block. -/
structure Place where
  /-- The statements in front of it. -/
  before : List Stmt
  /-- The statement itself and those behind it. -/
  onward : List Stmt

/-- A use of a name in the body of a function. -/
structure Occurrence where
  function : Function Expr WrittenType
  name : String
  span : Span
  /-- The places of the statements around it, from the inside out. -/
  path : List Place

namespace Occurrence

/-- Whether the name stands for a uniform, a parameter, or what an earlier statement around it
declares. -/
def isBound (program : Program) (occurrence : Occurrence) : Bool :=
  ((uniforms program).any fun uniform => uniform.name = occurrence.name) ||
    (occurrence.function.parameters.any fun parameter => parameter.name = occurrence.name) ||
    occurrence.path.any fun place => place.before.any (declares occurrence.name)

/-- Whether this or a later statement around it declares the name. -/
def isDeclaredLater (occurrence : Occurrence) : Bool :=
  occurrence.path.any fun place => place.onward.any (declares occurrence.name)

end Occurrence

/-- Some uses of names in the statement at the path. -/
def occurrencesAt (function : Function Expr WrittenType) (path : List Place)
    (names : List (String × Span)) : List Occurrence :=
  names.map fun (name, span) => ⟨function, name, span, path⟩

mutual

/-- The uses of names in the statement at the path. -/
def occurrencesIn (function : Function Expr WrittenType) (path : List Place) :
    Stmt → List Occurrence
  | .block statements _ _ _ => occurrencesFrom function path [] statements
  | statement => occurrencesAt function path (Expr.allIdentifiers statement.expressions)

/-- The uses of names in statements behind others. -/
def occurrencesFrom (function : Function Expr WrittenType) (outer : List Place)
    (before : List Stmt) : List Stmt → List Occurrence
  | [] => []
  | first :: rest =>
    occurrencesIn function (⟨before, first :: rest⟩ :: outer) first ++
      occurrencesFrom function outer (before ++ [first]) rest

end

/-- The uses of names in the functions of a program. -/
def occurrences (program : Program) : List Occurrence :=
  (functions program).flatMap fun function => occurrencesFrom function [] [] function.body.statements

/-- The token of a name at a place. -/
def placed (entry : String × Span) : LocatedToken := ⟨.identifier entry.1, entry.2⟩

/-- Joined expressions use the names of both. -/
@[simp] theorem Expr.allIdentifiers_append (left right : List Expr) :
    Expr.allIdentifiers (left ++ right) =
      Expr.allIdentifiers left ++ Expr.allIdentifiers right := by
  induction left with
  | nil => rfl
  | cons first rest ih =>
    rw [cons_append, Expr.allIdentifiers, Expr.allIdentifiers, ih, append_assoc]

mutual

/-- Joined operands use names among their tokens. -/
theorem JoinedTokens.identifiers {allowance least : Nat} {tokens : Tokens} {whole : Expr} :
    JoinedTokens allowance least tokens whole → (whole.identifiers.map placed).Sublist tokens
  | .mk first rest => by
    obtain ⟨more, names, taken⟩ := rest.identifiers
    rw [names, map_append]
    exact first.identifiers.append taken

/-- A chain uses those of its left operand and its tokens. -/
theorem ChainTokens.identifiers {allowance least : Nat} {left : Expr} {tokens : Tokens}
    {whole : Expr} : ChainTokens allowance least left tokens whole →
      ∃ more, whole.identifiers = left.identifiers ++ more ∧ (more.map placed).Sublist tokens
  | .nil _ _ _ => ⟨[], (append_nil _).symm, nil_sublist _⟩
  | .cons _ _ second _ rest => by
    obtain ⟨more, names, taken⟩ := rest.identifiers
    rw [Expr.identifiers, append_assoc] at names
    refine ⟨_, names, ?_⟩
    rw [map_append]
    exact (second.identifiers.append taken).cons _

/-- Operands use names among their tokens. -/
theorem OperandTokens.identifiers {allowance : Nat} {tokens : Tokens} {whole : Expr} :
    OperandTokens allowance tokens whole → (whole.identifiers.map placed).Sublist tokens
  | .signed _ inner => inner.identifiers.cons _
  | .accessed start rest => by
    obtain ⟨more, names, taken⟩ := rest.identifiers
    rw [names, map_append]
    exact start.identifiers.append taken

/-- Accesses use those of their base and their brackets. -/
theorem AccessTokens.identifiers {allowance : Nat} {base : Expr} {tokens : Tokens}
    {whole : Expr} : AccessTokens allowance base tokens whole →
      ∃ more, whole.identifiers = base.identifiers ++ more ∧ (more.map placed).Sublist tokens
  | .nil _ _ => ⟨[], (append_nil _).symm, nil_sublist _⟩
  | .member _ _ _ rest => by
    obtain ⟨more, names, taken⟩ := rest.identifiers
    exact ⟨more, names, (taken.cons _).cons _⟩
  | .index _ _ within rest => by
    obtain ⟨more, names, taken⟩ := rest.identifiers
    rw [Expr.identifiers, append_assoc] at names
    refine ⟨_, names, ?_⟩
    rw [map_append]
    exact (within.identifiers.append (taken.cons _)).cons _

/-- Primaries use names among their tokens. -/
theorem PrimaryTokens.identifiers {allowance : Nat} {tokens : Tokens} {whole : Expr} :
    PrimaryTokens allowance tokens whole → (whole.identifiers.map placed).Sublist tokens
  | .number .. | .yes .. | .no .. => nil_sublist _
  | .parenthesized _ _ within =>
    (within.identifiers.trans (sublist_append_left ..)).cons _
  | .identifier .. => List.Sublist.refl _
  | .call _ _ _ _ listed =>
    ((listed.identifiers.trans (sublist_append_left ..)).cons _).cons _
  | .construction _ _ _ _ _ _ _ listed => by
    refine .cons _ (.cons _ (List.Sublist.trans ?_ (sublist_append_right ..)))
    exact ((listed.identifiers.trans (sublist_append_left ..)).cons _).cons _

/-- Arguments use names among their tokens. -/
theorem ArgumentsTokens.identifiers {allowance : Nat} {tokens : Tokens}
    {arguments : List Expr} : ArgumentsTokens allowance tokens arguments →
      ((Expr.allIdentifiers arguments).map placed).Sublist tokens
  | .nil _ => nil_sublist _
  | .last one => by
    rw [Expr.allIdentifiers, Expr.allIdentifiers, append_nil]
    exact one.identifiers
  | .cons _ one rest => by
    rw [Expr.allIdentifiers, map_append]
    exact one.identifiers.append (rest.identifiers.cons _)

end

mutual

/-- A statement uses names among its tokens. -/
theorem StatementTokens.identifiers {allowance : Nat} {tokens : Tokens}
    {statement : Stmt} : StatementTokens allowance tokens statement →
      ((Expr.allIdentifiers statement.expressions).map placed).Sublist tokens
  | .letBinding _ _ _ _ _ _ made => by
    rw [Statement.expressions, Expr.allIdentifiers, Expr.allIdentifiers, append_nil]
    refine .cons _ (.cons _ (List.Sublist.trans (.cons _ ?_) (sublist_append_right ..)))
    exact made.identifiers.trans (sublist_append_left ..)
  | .varBinding _ _ _ _ _ made => by
    refine .cons _ (.cons _ (List.Sublist.trans ?_ (sublist_append_right ..)))
    refine List.Sublist.trans ?_ (sublist_append_left ..)
    cases made with
    | none => exact nil_sublist _
    | some _ initial =>
      rw [Statement.expressions, Option.toList, Expr.allIdentifiers, Expr.allIdentifiers,
        append_nil]
      exact initial.identifiers.cons _
  | .assignment _ _ changed made => by
    rw [Statement.expressions, Expr.allIdentifiers, Expr.allIdentifiers, Expr.allIdentifiers,
      append_nil, map_append, ← cons_append]
    refine changed.identifiers.append (.cons _ ?_)
    exact made.identifiers.trans (sublist_append_left ..)
  | .returning _ _ made => by
    rw [Statement.expressions, Option.toList, Expr.allIdentifiers, Expr.allIdentifiers,
      append_nil]
    exact (made.identifiers.trans (sublist_append_left ..)).cons _
  | .leaving _ _ _ => nil_sublist _
  | .evaluation _ made => by
    rw [Statement.expressions, Expr.allIdentifiers, Expr.allIdentifiers, append_nil,
      ← cons_append]
    exact made.identifiers.trans (sublist_append_left ..)
  | .block _ _ inner => (inner.identifiers.trans (sublist_append_left ..)).cons _

/-- Statements use names among their tokens. -/
theorem StatementsTokens.identifiers {allowance : Nat} {tokens : Tokens}
    {statements : List Stmt} : StatementsTokens allowance tokens statements →
      ((Expr.allIdentifiers (Statement.allExpressions statements)).map placed).Sublist tokens
  | .nil _ => nil_sublist _
  | .cons first rest => by
    rw [Statement.allExpressions, Expr.allIdentifiers_append, map_append]
    exact first.identifiers.append rest.identifiers

end

mutual

/-- A statement uses the names in its expressions. -/
theorem map_occurrencesIn (function : Function Expr WrittenType) (path : List Place) :
    (statement : Stmt) → ((occurrencesIn function path statement).map fun occurrence =>
      (occurrence.name, occurrence.span)) = Expr.allIdentifiers statement.expressions
  | .block statements _ _ _ => map_occurrencesFrom function path [] statements
  | .letBinding .. | .varBinding .. | .assignment .. | .returning .. | .evaluation .. => by
    rw [occurrencesIn, occurrencesAt, map_map]
    · exact map_id _
    · exact nofun

/-- Statements use the names in their expressions. -/
theorem map_occurrencesFrom (function : Function Expr WrittenType) (outer : List Place)
    (before : List Stmt) : (statements : List Stmt) →
      ((occurrencesFrom function outer before statements).map fun occurrence =>
        (occurrence.name, occurrence.span)) =
        Expr.allIdentifiers (Statement.allExpressions statements)
  | [] => rfl
  | first :: rest => by
    rw [occurrencesFrom, map_append, map_occurrencesIn, map_occurrencesFrom,
      Statement.allExpressions, Expr.allIdentifiers_append]

end

/-- A program uses names among its tokens, in order. -/
theorem ProgramTokens.occurrences {tokens : Tokens} {program : Program}
    (made : ProgramTokens tokens program) :
    ((Surface.occurrences program).map fun occurrence =>
      placed (occurrence.name, occurrence.span)).Sublist tokens := by
  induction made with
  | nil => exact nil_sublist _
  | pass _ _ ih => exact ih.trans (sublist_append_right ..)
  | @cons taken tokens declaration program first _ ih =>
    cases first with
    | function _ declared inner =>
      have split : Surface.occurrences (.function declared :: program) =
          occurrencesFrom declared [] [] declared.body.statements ++ Surface.occurrences program := rfl
      rw [split, map_append]
      refine List.Sublist.append ?_ ih
      refine List.Sublist.trans ?_ (sublist_append_right ..)
      have body := inner.identifiers
      rw [← map_occurrencesFrom declared [] [], map_map] at body
      exact (body.trans (sublist_append_left ..)).cons _
    | struct | uniform => exact ih.trans (sublist_append_right ..)

end Surface

namespace Surface

/-- Some comments are left out. -/
theorem retainHeadings_sublist (depth : Nat) (tokens : Tokens) :
    (retainHeadings depth tokens).Sublist tokens := by
  induction tokens generalizing depth with
  | nil => exact List.Sublist.refl _
  | cons next rest ih =>
    unfold retainHeadings
    split
    · split
      · exact (ih _).cons_cons _
      · exact (ih _).cons _
    · exact (ih _).cons_cons _

/-- The tokens of a text have an end already. -/
theorem terminated_tokenize (source : SourceText) :
    terminated (tokenize source).tokens = (tokenize source).tokens := by
  obtain ⟨tokens, reports, -, divided⟩ := Lexer.scan_tiled .start source.characters
  rw [tokenize, divided, Lexer.closed, terminated, getLast?_concat]

/-- A program is read from tokens of its text. -/
theorem cursorAt_sublist (source : SourceText) :
    (cursorAt source).rest.Sublist (tokenize source).tokens := by
  rw [cursorAt, terminated_tokenize]
  exact (takeWhile_sublist _).trans (retainHeadings_sublist 0 _)

end Surface

end Shading
