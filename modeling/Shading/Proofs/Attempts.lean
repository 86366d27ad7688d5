import Shading.Proofs.Progress

/-!
# Failed attempts leave no trace

Readers hand cursors and levels on as values, so nothing is left of what fails. A parser with one state
has to put it back. Here types are read by such a parser, which counts the brackets that it passes and
the levels that it is in. An attempt puts back the tokens alone, and that is enough: no part of a type
is a bracket that is counted, every level is given back, and nothing is reported.
-/

namespace Shading.Surface

/-- What is kept while tokens are read. -/
structure Parser where
  cursor : Cursor
  /-- Number of brackets that are open before the next token. -/
  depth : Nat
  /-- Number of levels in use. -/
  nesting : Nat
  diagnostics : List Diagnostic

/-- Reads a value and changes the parser, also on failure. -/
abbrev Parsing : Type → Type := ExceptT Failure (StateM Parser)

variable {α β : Type} {parser : Parser} {token : Token} {allowance : Nat}

namespace Parsing

/-- A failure at the next token. -/
def fail (error : SyntaxError) : Parsing α := do throw ⟨error, (← get).cursor⟩

/-- Passes over the next token and counts brackets. -/
def advance : Parsing Unit := modify fun parser =>
  { parser with
    cursor := parser.cursor.advance
    depth := parser.cursor.peek.depthAfter parser.depth }

/-- Reads a certain token. -/
def expect (token : Token) : Parsing Unit := do
  let found := (← get).cursor.peek
  if found = token then advance else fail (.expected token found)

/-- Reads a name and tells where it stands. -/
def identifier : Parsing (String × Span) := do
  let cursor := (← get).cursor
  match cursor.peek with
  | .identifier name =>
    advance
    return (name, cursor.span)
  | found => fail (.expectedIdentifier found)

/-- Reads a type one level deeper and gives the level back. -/
def nested (inner : Parsing WrittenType) : Parsing WrittenType := fun parser =>
  if nestingLimit < parser.nesting + 1 then fail .typeTooDeep parser
  else
    let (outcome, after) := inner { parser with nesting := parser.nesting + 1 }
    (outcome, { after with nesting := after.nesting - 1 })

/-- Reads values divided by commas, at most `bound + 1`. -/
def separated (item : Parsing α) : (bound : Nat) → Parsing (List α)
  | 0 => do return [← item]
  | bound + 1 => do
    let first ← item
    if (← get).cursor.peek = .comma then
      advance
      return first :: (← separated item bound)
    else return [first]

/-- Reads one argument of a type; `inner` reads types. -/
def typeArgument (inner : Parsing WrittenType) : Parsing TypeArgument := do
  match (← get).cursor.peek with
  | .number literal =>
    match literal.index? with
    | some value =>
      advance
      return .size value
    | none => fail .invalidArraySize
  | _ => return .type (← nested inner)

/-- Reads arguments in angle brackets. -/
def typeArguments (inner : Parsing WrittenType) : Parsing (List TypeArgument) := do
  expect .less
  let arguments ← separated (typeArgument inner) (← get).cursor.remaining
  expect .greater
  return arguments

/-- Reads a name and its arguments, if it has any. -/
def namedType (inner : Parsing WrittenType) : Parsing WrittenType := do
  let (name, span) ← identifier
  if (← get).cursor.peek = .less then
    let arguments ← typeArguments inner
    return .mk name arguments (span.through (← get).cursor.previous)
  else return .mk name [] (span.through (← get).cursor.previous)

/-- Reads a type; the limit ends before the `bound` does. -/
def writtenType : (bound : Nat) → Parsing WrittenType
  | 0 => namedType (fail .typeTooDeep)
  | bound + 1 => namedType (writtenType bound)

/-- Reads type arguments if a call follows; else puts the tokens back, and nothing else. -/
def constructorArguments? : StateM Parser (Option (List TypeArgument)) := fun parser =>
  let (outcome, after) := typeArguments (writtenType nestingLimit) parser
  let back := { after with cursor := parser.cursor }
  match outcome with
  | .ok arguments => if after.cursor.peek = .leftParen then (some arguments, after) else (none, back)
  | .error _ => (none, back)

end Parsing

/-- The parser behind what a reader takes or fails at. -/
def Parser.after (parser : Parser) : Except Failure (α × Cursor) → Except Failure α × Parser
  | .ok (value, cursor) => (.ok value, { parser with cursor })
  | .error failure => (.error failure, { parser with cursor := failure.cursor })

namespace Parsing

section Steps

variable {first : Parsing α} {next : α → Parsing β}

/-- Two steps run one after the other. -/
theorem run_bind : (first >>= next) parser =
    ExceptT.bindCont next (first parser).1 (first parser).2 := rfl

/-- The state may be read first. -/
theorem run_get_bind {next : Parser → Parsing β} : (get >>= next) parser = next parser parser := rfl

/-- A step behind a success runs from there. -/
theorem bind_of_ok {value : α} {behind : Parser} (one : first parser = (.ok value, behind)) :
    (first >>= next) parser = next value behind := by
  rw [run_bind, one]
  rfl

/-- Two steps change the tokens only, if both do. -/
theorem bind_after {read : Except Failure (α × Cursor)}
    {more : α × Cursor → Except Failure (β × Cursor)} (one : first parser = parser.after read)
    (two : ∀ value cursor, next value { parser with cursor } = parser.after (more (value, cursor))) :
    (first >>= next) parser = parser.after (read >>= more) := by
  rw [run_bind, one]
  cases read with
  | ok found => exact two found.1 found.2
  | error failure => rfl

end Steps

section Tokens

variable (plain : ∀ depth, token.depthAfter depth = depth)
include plain

/-- A token that is no bracket is not counted. -/
theorem advance_plain (ahead : parser.cursor.peek = token) :
    advance parser = (.ok (), { parser with cursor := parser.cursor.advance }) := by
  change (Except.ok (), { parser with
    cursor := parser.cursor.advance, depth := parser.cursor.peek.depthAfter parser.depth }) = _
  rw [ahead, plain]

/-- A token is expected as the readers expect it. -/
theorem expect_after {next : Unit → Parsing β} {more : Cursor → Except Failure (β × Cursor)}
    (two : ∀ cursor, next () { parser with cursor } = parser.after (more cursor)) :
    (expect token >>= next) parser = parser.after (Surface.expect token parser.cursor >>= more) := by
  unfold Surface.expect Cursor.eat?
  rw [run_bind, expect, run_get_bind]
  split
  · rename_i ahead
    rw [advance_plain plain ahead]
    exact two _
  · rfl

end Tokens

/-- Names are read as the readers read them. -/
theorem identifier_after : identifier parser = parser.after (Surface.identifier parser.cursor) := by
  unfold identifier Surface.identifier
  rw [run_get_bind]
  generalize ahead : parser.cursor.peek = found
  cases found with
  | identifier name => exact bind_of_ok (advance_plain (fun _ => rfl) ahead)
  | _ => rfl

/-- With `allowance` levels left, the parser takes what the reader takes, and only the tokens
change. -/
def Follows (allowance : Nat) (parsing : Parsing α) (reader : Reader α) : Prop :=
  ∀ parser : Parser, nestingLimit - parser.nesting = allowance →
    parsing parser = parser.after (reader parser.cursor)

/-- Separated values are read alike. -/
theorem separated_follows {item : Parsing α} {reader : Reader α}
    (follows : Follows allowance item reader) (bound : Nat) :
    Follows allowance (separated item bound) (Surface.separated reader bound) := by
  induction bound with
  | zero => exact fun parser left => bind_after (follows parser left) fun _ _ => rfl
  | succ bound ih =>
    intro parser left
    refine bind_after (follows parser left) fun value cursor => ?_
    rw [run_get_bind]
    unfold Cursor.eat?
    dsimp only
    split
    · rename_i ahead
      exact (bind_of_ok (advance_plain (fun _ => rfl) ahead)).trans
        (bind_after (ih _ left) fun _ _ => rfl)
    · rfl

section Inner

variable {inner : Parsing WrittenType}
  (within : ∀ smaller, allowance = smaller + 1 → Follows smaller inner (Surface.writtenType smaller))
include within

/-- A level is given back, also behind a failure. -/
theorem nested_after (left : nestingLimit - parser.nesting = allowance) :
    (return .type (← nested inner) : Parsing TypeArgument) parser =
      parser.after (Ways.typeBelow (innerType allowance) parser.cursor) := by
  rw [run_bind, nested]
  cases allowance with
  | zero =>
    rw [if_pos (by omega)]
    rfl
  | succ smaller =>
    have below := within smaller rfl { parser with nesting := parser.nesting + 1 } (by simp only; omega)
    rw [if_neg (by omega), below]
    change _ = parser.after (Surface.writtenType smaller parser.cursor >>= _)
    cases Surface.writtenType smaller parser.cursor with
    | ok | error => rfl

/-- Type arguments are read alike. -/
theorem typeArgument_follows :
    Follows allowance (typeArgument inner) (Surface.typeArgument (innerType allowance)) := by
  intro parser left
  have typed := nested_after within left
  unfold typeArgument Surface.typeArgument
  rw [run_get_bind]
  generalize ahead : parser.cursor.peek = found
  cases found with
  | number literal =>
    dsimp only
    cases literal.index? with
    | some value => exact bind_of_ok (advance_plain (fun _ => rfl) ahead)
    | none => rfl
  | _ => exact typed

/-- Lists of type arguments are read alike. -/
theorem typeArguments_follows :
    Follows allowance (typeArguments inner) (Surface.typeArguments (innerType allowance)) := by
  intro parser left
  refine expect_after (fun _ => rfl) fun cursor => ?_
  rw [run_get_bind]
  refine bind_after (separated_follows (typeArgument_follows within) _ _ left) fun _ _ => ?_
  exact expect_after (fun _ => rfl) fun _ => rfl

/-- Names with arguments are read alike. -/
theorem namedType_follows :
    Follows allowance (namedType inner) (Surface.namedType (innerType allowance)) := by
  intro parser left
  refine bind_after identifier_after fun value cursor => ?_
  dsimp only
  rw [run_get_bind]
  dsimp only
  split
  · exact bind_after (typeArguments_follows within _ left) fun _ _ => rfl
  · rfl

end Inner

/-- Types are read alike; the induction is on the levels. -/
theorem writtenType_follows (bound : Nat) (enough : allowance ≤ bound) :
    Follows allowance (writtenType bound) (Surface.writtenType allowance) := by
  rw [writtenType_eq]
  induction bound generalizing allowance with
  | zero => exact namedType_follows (by omega)
  | succ bound ih =>
    refine namedType_follows fun smaller same => ?_
    rw [writtenType_eq]
    exact ih (by omega)

/-- The attempt gives what the readers give. -/
theorem constructorArguments?_eq (parser : Parser) : constructorArguments? parser =
    match Surface.constructorArguments? (nestingLimit - parser.nesting) parser.cursor with
    | some (arguments, cursor) => (some arguments, { parser with cursor })
    | none => (none, parser) := by
  have read : typeArguments (writtenType nestingLimit) parser = _ :=
    typeArguments_follows (fun smaller same => writtenType_follows _ (by omega)) parser rfl
  unfold constructorArguments? Surface.constructorArguments?
  rw [read]
  cases Surface.typeArguments (innerType (nestingLimit - parser.nesting)) parser.cursor with
  | ok found =>
    obtain ⟨arguments, cursor⟩ := found
    dsimp only [Parser.after]
    split <;> rfl
  | error failure => rfl

end Parsing

/-- A failed attempt to read type arguments leaves the parser as it was, with place, brackets,
levels and reports. If it succeeds, only the place changes: it stands behind a list in angle
brackets and before a parenthesis. -/
theorem failed_attempts_leave_no_trace (parser : Parser) :
    let (found, after) := Parsing.constructorArguments? parser
    constructorArguments? (nestingLimit - parser.nesting) parser.cursor = found.map (·, after.cursor) ∧
      (found = none → after = parser) ∧
      ∀ arguments, found = some arguments → ∃ opening closing paren inner behind,
        parser.cursor.rest =
          ⟨.less, opening⟩ :: (inner ++ ⟨.greater, closing⟩ :: ⟨.leftParen, paren⟩ :: behind) ∧
        TypeArgumentsTokens (nestingLimit - parser.nesting) inner arguments ∧
        after = { parser with
          cursor := ⟨closing, ⟨.leftParen, paren⟩ :: behind, parser.cursor.finish⟩ } := by
  rw [Parsing.constructorArguments?_eq]
  cases attempt : constructorArguments? (nestingLimit - parser.nesting) parser.cursor with
  | none => exact ⟨rfl, fun _ => rfl, by simp⟩
  | some found =>
    obtain ⟨arguments, cursor⟩ := found
    refine ⟨rfl, by simp, ?_⟩
    rintro _ ⟨⟩
    unfold constructorArguments? at attempt
    split at attempt
    · rename_i listed next read
      split at attempt
      · rename_i called
        cases attempt
        obtain ⟨opening, inner, split, made⟩ := typeArguments_takes (innerType_takes _) read
        have paren := Cursor.rest_of_peek called
        have finish := ((innerArguments_advance _).reaches read).finish
        refine ⟨opening, cursor.previous, cursor.span, inner, cursor.advance.rest, ?_, made, ?_⟩
        · rw [split, paren]
        · rw [← paren, ← finish]
      · cases attempt
    · cases attempt

end Shading.Surface
