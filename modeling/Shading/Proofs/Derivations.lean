import Shading.Proofs.Cursors

/-!
# The tokens that trees are read from

Which tokens make which tree is said here once, by relations with one constructor for each way to read a
construct: the tokens of a node are those of its parts in order, with the signs and brackets between
them, and every level of nesting that the readers count is counted. All readers take only what the
relations say, so what holds of the trees in the relations holds of everything that is read.
-/

namespace Shading.Surface

open List Cursor

variable {after : Cursor} {name : String} {span : Span} {value : Expr}

section Elementary

variable {cursor next : Cursor} {token : Token}

/-- The next token stands in front of the others. -/
theorem Cursor.rest_of_peek (ahead : cursor.peek = token)
    (real : token ≠ .eof := by exact nofun) : cursor.rest = ⟨token, cursor.span⟩ :: cursor.advance.rest := by
  unfold Cursor.peek at ahead
  unfold Cursor.span Cursor.advance
  cases tokens : cursor.rest with
  | nil =>
    rw [tokens] at ahead
    exact absurd ahead.symm real
  | cons located others =>
    rw [tokens] at ahead
    rw [← ahead]

/-- The next token has the first place ahead. -/
theorem Cursor.span_of_rest {first : LocatedToken} {others : Tokens}
    (ahead : cursor.rest = first :: others) : cursor.span = first.span := by
  unfold Cursor.span
  rw [ahead]

/-- Behind the next token it is the one read last. -/
theorem Cursor.previous_advance (ahead : cursor.peek = token) (real : token ≠ .eof) :
    cursor.advance.previous = cursor.span := by
  have split := rest_of_peek ahead real
  unfold Cursor.advance
  rw [split]

/-- A token that can be taken stands in front of the others. -/
theorem Cursor.rest_of_eat? (eaten : cursor.eat? token = some next)
    (real : token ≠ .eof := by exact nofun) : cursor.rest = ⟨token, next.previous⟩ :: next.rest := by
  unfold Cursor.eat? at eaten
  split at eaten
  · rename_i ahead
    rw [← Option.some.inj eaten, previous_advance ahead real]
    exact rest_of_peek ahead real
  · cases eaten

/-- An expected token stands in front of the others. -/
theorem rest_of_expect (read : expect token cursor = .ok next)
    (real : token ≠ .eof := by exact nofun) : cursor.rest = ⟨token, next.previous⟩ :: next.rest := by
  unfold expect at read
  split at read
  · rename_i after eaten
    rw [← Except.ok.inj read]
    exact rest_of_eat? eaten real
  · cases read

/-- An expected token is the last one read. -/
theorem span_of_expect (read : expect token cursor = .ok next) (real : token ≠ .eof) :
    cursor.span = next.previous :=
  span_of_rest (rest_of_expect read real)

/-- A name stands in front and is the last token read. -/
theorem rest_of_identifier (read : identifier cursor = .ok ((name, span), next)) :
    cursor.rest = ⟨.identifier name, span⟩ :: next.rest ∧ next.previous = span := by
  unfold identifier at read
  split at read
  · rename_i found ahead
    cases read
    exact ⟨rest_of_peek ahead, previous_advance ahead nofun⟩
  · cases read

/-- A token that is eaten was there. -/
theorem Cursor.remaining_of_eat? (eaten : cursor.eat? token = some next) (real : token ≠ .eof) :
    cursor.remaining = next.remaining + 1 := by
  simp [Cursor.remaining, rest_of_eat? eaten real]

/-- A token that was seen was there. -/
theorem Cursor.remaining_of_peek (ahead : cursor.peek = token) (real : token ≠ .eof) :
    cursor.remaining = cursor.advance.remaining + 1 := by
  rw [Cursor.remaining, rest_of_peek ahead real, length_cons, Cursor.remaining]

/-- A name that is read remains no longer. -/
theorem remaining_of_identifier (read : identifier cursor = .ok ((name, span), next)) :
    cursor.remaining = next.remaining + 1 := by
  rw [Cursor.remaining, (rest_of_identifier read).1, length_cons, Cursor.remaining]

end Elementary

/-- The reader takes tokens that make its value. -/
def Takes {α : Type} (reader : Reader α) (made : Tokens → α → Prop) : Prop :=
  ∀ cursor value after, reader cursor = .ok (value, after) →
    ∃ taken, cursor.rest = taken ++ after.rest ∧ made taken value

/-- One round of the loop over values divided by commas. -/
def separatedStep {α : Type} (item : Reader α) (again : Reader (List α)) : Reader (List α) := fun cursor => do
  let (first, cursor) ← item cursor
  match cursor.eat? .comma with
  | none => .ok ([first], cursor)
  | some cursor =>
    let (rest, cursor) ← again cursor
    .ok (first :: rest, cursor)

section Lists

variable {α : Type} {item : Reader α} {made : Tokens → α → Prop} {all : Tokens → List α → Prop}
  (each : Takes item made) (last : ∀ {tokens one}, made tokens one → all tokens [one])
  (cons : ∀ {tokens others one values} (comma : Span), made tokens one → all others values →
    all (tokens ++ ⟨.comma, comma⟩ :: others) (one :: values))

include each last cons

/-- A comma may go on a list. -/
theorem separatedStep_takes {again : Reader (List α)} (later : Takes again all) :
    Takes (separatedStep item again) all := by
  intro cursor values after read
  obtain ⟨⟨one, middle⟩, first, rest⟩ := bind_eq_ok.mp read
  obtain ⟨taken, split, tokens⟩ := each _ _ _ first
  dsimp only at rest
  split at rest
  · cases rest
    exact ⟨taken, split, last tokens⟩
  · rename_i behind eaten
    obtain ⟨⟨others, final⟩, more, done⟩ := bind_eq_ok.mp rest
    cases done
    obtain ⟨takenRest, splitRest, tokensRest⟩ := later _ _ _ more
    refine ⟨taken ++ ⟨.comma, behind.previous⟩ :: takenRest, ?_, cons _ tokens tokensRest⟩
    rw [split, rest_of_eat? eaten, splitRest, append_assoc, cons_append]

/-- Values divided by commas are taken one by one. -/
theorem separated_takes (bound : Nat) : Takes (separated item bound) all := by
  induction bound with
  | zero =>
    intro cursor values after read
    obtain ⟨⟨one, final⟩, first, done⟩ := bind_eq_ok.mp read
    cases done
    obtain ⟨taken, split, tokens⟩ := each _ _ _ first
    exact ⟨taken, split, last tokens⟩
  | succ bound ih => exact separatedStep_takes each last cons ih

/-- Values up to a closing token are taken one by one. -/
theorem listed_takes (nil : all [] []) (closing : Token) (bound : Nat) :
    Takes (listed closing item bound) all := by
  induction bound with
  | zero =>
    intro cursor values after read
    cases read
    exact ⟨[], rfl, nil⟩
  | succ bound ih =>
    intro cursor values after read
    unfold listed at read
    split at read
    · cases read
      exact ⟨[], rfl, nil⟩
    · exact separatedStep_takes each last cons ih _ _ _ read

end Lists

mutual

/-- The tokens of a type at most `allowance` levels deep. -/
inductive TypeTokens : (allowance : Nat) → Tokens → WrittenType → Prop where
  | plain (allowance : Nat) (name : String) (span : Span) :
      TypeTokens allowance [⟨.identifier name, span⟩] (.mk name [] (span.through span))
  | applied {allowance : Nat} {inner : Tokens} {arguments : List TypeArgument}
      (name : String) (span opening closing : Span)
      (listed : TypeArgumentsTokens allowance inner arguments) :
      TypeTokens allowance
        (⟨.identifier name, span⟩ :: ⟨.less, opening⟩ :: (inner ++ [⟨.greater, closing⟩]))
        (.mk name arguments (span.through closing))

/-- The tokens of a type argument. -/
inductive TypeArgumentTokens : (allowance : Nat) → Tokens → TypeArgument → Prop where
  | size (allowance : Nat) {literal : Number} {value : Nat} (span : Span)
      (counts : literal.index? = some value) :
      TypeArgumentTokens allowance [⟨.number literal, span⟩] (.size value)
  | type {allowance : Nat} {tokens : Tokens} {written : WrittenType}
      (inner : TypeTokens allowance tokens written) :
      TypeArgumentTokens (allowance + 1) tokens (.type written)

/-- The tokens between the angle brackets of a type. -/
inductive TypeArgumentsTokens : (allowance : Nat) → Tokens → List TypeArgument → Prop where
  | last {allowance : Nat} {tokens : Tokens} {argument : TypeArgument}
      (one : TypeArgumentTokens allowance tokens argument) :
      TypeArgumentsTokens allowance tokens [argument]
  | cons {allowance : Nat} {tokens others : Tokens} {argument : TypeArgument}
      {arguments : List TypeArgument} (comma : Span)
      (one : TypeArgumentTokens allowance tokens argument)
      (rest : TypeArgumentsTokens allowance others arguments) :
      TypeArgumentsTokens allowance (tokens ++ ⟨.comma, comma⟩ :: others) (argument :: arguments)

end

/-- Inner readers take types one level less deep. -/
def InnerTakes (allowance : Nat) (inner : Option (Reader WrittenType)) : Prop :=
  ∀ reader ∈ inner, ∃ smaller, allowance = smaller + 1 ∧ Takes reader (TypeTokens smaller)

section Types

variable {allowance : Nat} {inner : Option (Reader WrittenType)}

/-- A type argument takes its tokens. -/
theorem typeArgument_takes (deeper : InnerTakes allowance inner) :
    Takes (typeArgument inner) (TypeArgumentTokens allowance) := by
  intro cursor argument after read
  unfold typeArgument at read
  split at read
  · rename_i literal ahead
    split at read
    · rename_i value counts
      cases read
      exact ⟨_, rest_of_peek ahead, .size allowance _ counts⟩
    · cases read
  · split at read
    · cases read
    · rename_i reader
      obtain ⟨⟨written, final⟩, first, read⟩ := bind_eq_ok.mp read
      cases read
      obtain ⟨smaller, rfl, takes⟩ := deeper reader rfl
      obtain ⟨taken, split, tokens⟩ := takes _ _ _ first
      exact ⟨taken, split, .type tokens⟩

/-- Arguments in angle brackets are taken with the brackets. -/
theorem typeArguments_takes (deeper : InnerTakes allowance inner) {cursor : Cursor}
    {arguments : List TypeArgument} (read : typeArguments inner cursor = .ok (arguments, after)) :
    ∃ opening tokens, cursor.rest =
        ⟨.less, opening⟩ :: (tokens ++ ⟨.greater, after.previous⟩ :: after.rest) ∧
      TypeArgumentsTokens allowance tokens arguments := by
  obtain ⟨afterOpening, opening, read⟩ := bind_eq_ok.mp read
  obtain ⟨⟨listed, afterItems⟩, items, read⟩ := bind_eq_ok.mp read
  obtain ⟨afterClosing, closing, read⟩ := bind_eq_ok.mp read
  cases read
  have takes := separated_takes (typeArgument_takes deeper) TypeArgumentsTokens.last .cons
  obtain ⟨tokens, split, made⟩ := takes _ _ _ _ items
  refine ⟨afterOpening.previous, tokens, ?_, made⟩
  rw [rest_of_expect opening, split, rest_of_expect closing]

/-- A named type takes its tokens. -/
theorem namedType_takes (deeper : InnerTakes allowance inner) :
    Takes (namedType inner) (TypeTokens allowance) := by
  intro cursor written after read
  obtain ⟨⟨⟨name, span⟩, middle⟩, named, read⟩ := bind_eq_ok.mp read
  obtain ⟨front, previous⟩ := rest_of_identifier named
  dsimp only at read
  split at read
  · obtain ⟨⟨arguments, final⟩, listed, read⟩ := bind_eq_ok.mp read
    cases read
    obtain ⟨opening, tokens, split, made⟩ := typeArguments_takes deeper listed
    refine ⟨_, ?_, .applied name span opening _ made⟩
    rw [front, split, cons_append, cons_append, append_assoc, singleton_append]
  · cases read
    rw [previous]
    exact ⟨_, front, .plain allowance name span⟩

end Types

/-- A type takes its tokens. -/
theorem writtenType_takes (allowance : Nat) : Takes (writtenType allowance) (TypeTokens allowance) := by
  induction allowance with
  | zero => exact namedType_takes nofun
  | succ allowance ih =>
    refine namedType_takes ?_
    rintro reader ⟨⟩
    exact ⟨allowance, rfl, ih⟩

/-- An inner type takes its tokens. -/
theorem innerType_takes (allowance : Nat) : InnerTakes allowance (innerType allowance) := by
  cases allowance with
  | zero => exact nofun
  | succ allowance =>
    rintro reader ⟨⟩
    exact ⟨allowance, rfl, writtenType_takes allowance⟩

/-- No operator as tight as the precedence stands there. -/
def Looser (least : Nat) (token : Token) : Prop :=
  ∀ operator, BinaryOperator.ofToken? token = some operator → operator.precedence < least

mutual

/-- Operands joined by operators of at least `least`. -/
inductive JoinedTokens : (allowance least : Nat) → Tokens → Expr → Prop where
  | mk {allowance least : Nat} {operand chain : Tokens} {left whole : Expr}
      (first : OperandTokens allowance operand left)
      (rest : ChainTokens allowance least left chain whole) :
      JoinedTokens allowance least (operand ++ chain) whole

/-- Operators with right operands, each with the tighter operators behind it. -/
inductive ChainTokens : (allowance least : Nat) → (left : Expr) → Tokens → Expr → Prop where
  | nil (allowance least : Nat) (left : Expr) : ChainTokens allowance least left [] left
  | cons {allowance least : Nat} {sign : LocatedToken} {operator : BinaryOperator}
      {operand chain : Tokens} {left right whole : Expr}
      (known : BinaryOperator.ofToken? sign.token = some operator)
      (tight : least ≤ operator.precedence)
      (second : JoinedTokens allowance (operator.precedence + 1) operand right)
      (stopped : ∀ next ∈ chain.head?, Looser (operator.precedence + 1) next.token)
      (rest : ChainTokens allowance least
        (.binary operator left right (left.span.through right.span)) chain whole) :
      ChainTokens (allowance + 1) least left (sign :: (operand ++ chain)) whole

/-- An operand with its unary operators. -/
inductive OperandTokens : (allowance : Nat) → Tokens → Expr → Prop where
  | signed {allowance : Nat} {sign : LocatedToken} {operator : UnaryOperator}
      {tokens : Tokens} {operand : Expr}
      (known : UnaryOperator.ofToken? sign.token = some operator)
      (inner : OperandTokens allowance tokens operand) :
      OperandTokens (allowance + 1) (sign :: tokens)
        (.unary operator operand (sign.span.through operand.span))
  | accessed {allowance : Nat} {first accesses : Tokens} {base whole : Expr}
      (start : PrimaryTokens allowance first base)
      (rest : AccessTokens allowance base accesses whole) :
      OperandTokens allowance (first ++ accesses) whole

/-- The tokens of member and index accesses behind a base. -/
inductive AccessTokens : (allowance : Nat) → (base : Expr) → Tokens → Expr → Prop where
  | nil (allowance : Nat) (base : Expr) : AccessTokens allowance base [] base
  | member {allowance : Nat} {tokens : Tokens} {base whole : Expr} (name : String)
      (dot span : Span)
      (rest : AccessTokens allowance (.member base name (base.span.through span)) tokens whole) :
      AccessTokens (allowance + 1) base (⟨.dot, dot⟩ :: ⟨.identifier name, span⟩ :: tokens) whole
  | index {allowance : Nat} {inner tokens : Tokens} {base position whole : Expr}
      (opening closing : Span) (within : JoinedTokens allowance 1 inner position)
      (rest : AccessTokens allowance (.index base position (base.span.through closing)) tokens
        whole) :
      AccessTokens (allowance + 1) base
        (⟨.leftBracket, opening⟩ :: (inner ++ ⟨.rightBracket, closing⟩ :: tokens)) whole

/-- A literal, name, call or parenthesized expression. -/
inductive PrimaryTokens : (allowance : Nat) → Tokens → Expr → Prop where
  | number (allowance : Nat) (literal : Number) (span : Span) :
      PrimaryTokens allowance [⟨.number literal, span⟩] (.number literal span)
  | yes (allowance : Nat) (span : Span) :
      PrimaryTokens allowance [⟨.trueKeyword, span⟩] (.bool true span)
  | no (allowance : Nat) (span : Span) :
      PrimaryTokens allowance [⟨.falseKeyword, span⟩] (.bool false span)
  | parenthesized {allowance : Nat} {tokens : Tokens} {inner : Expr}
      (opening closing : Span) (within : JoinedTokens allowance 1 tokens inner) :
      PrimaryTokens (allowance + 1)
        (⟨.leftParen, opening⟩ :: (tokens ++ [⟨.rightParen, closing⟩])) inner
  | identifier (allowance : Nat) (name : String) (span : Span) :
      PrimaryTokens allowance [⟨.identifier name, span⟩] (.identifier name span)
  | call {allowance : Nat} {tokens : Tokens} {arguments : List Expr} (name : String)
      (span opening closing : Span) (listed : ArgumentsTokens allowance tokens arguments) :
      PrimaryTokens allowance
        (⟨.identifier name, span⟩ :: ⟨.leftParen, opening⟩ ::
          (tokens ++ [⟨.rightParen, closing⟩]))
        (.call name [] arguments (span.through closing))
  | construction {allowance : Nat} {typeTokens tokens : Tokens} {name : String}
      {typeArguments : List TypeArgument} {arguments : List Expr}
      (span less greater opening closing : Span) (named : takesTypeArguments name)
      (types : TypeArgumentsTokens allowance typeTokens typeArguments)
      (listed : ArgumentsTokens allowance tokens arguments) :
      PrimaryTokens allowance
        (⟨.identifier name, span⟩ :: ⟨.less, less⟩ ::
          (typeTokens ++ ⟨.greater, greater⟩ :: ⟨.leftParen, opening⟩ ::
            (tokens ++ [⟨.rightParen, closing⟩])))
        (.call name typeArguments arguments (span.through closing))

/-- Arguments divided by commas, one perhaps at the end. -/
inductive ArgumentsTokens : (allowance : Nat) → Tokens → List Expr → Prop where
  | nil (allowance : Nat) : ArgumentsTokens allowance [] []
  | last {allowance : Nat} {tokens : Tokens} {argument : Expr}
      (one : JoinedTokens allowance 1 tokens argument) :
      ArgumentsTokens (allowance + 1) tokens [argument]
  | cons {allowance : Nat} {tokens others : Tokens} {argument : Expr}
      {arguments : List Expr} (comma : Span) (one : JoinedTokens allowance 1 tokens argument)
      (rest : ArgumentsTokens (allowance + 1) others arguments) :
      ArgumentsTokens (allowance + 1) (tokens ++ ⟨.comma, comma⟩ :: others) (argument :: arguments)

end

/-- The readers of a level take expressions at most `allowance` deep and stop before looser
operators. -/
structure Level.Takes (allowance : Nat) (level : Level) : Prop where
  binary : ∀ least, Surface.Takes (level.binary least) (JoinedTokens allowance least)
  binaryRest : ∀ least left,
    Surface.Takes (level.binaryRest least left) (ChainTokens allowance least left)
  unary : Surface.Takes level.unary (OperandTokens allowance)
  accesses : ∀ base, Surface.Takes (level.accesses base) (AccessTokens allowance base)
  stops : ∀ least cursor value after, level.binary least cursor = .ok (value, after) →
    Looser least after.peek
  restStops : ∀ least left cursor value after,
    level.binaryRest least left cursor = .ok (value, after) → Looser least after.peek

section Levels

variable {allowance : Nat} {below : Option Level}
  (deeper : ∀ level ∈ below, ∃ smaller, allowance = smaller + 1 ∧ level.Takes smaller)

variable {cursor : Cursor}

include deeper

/-- What is read deeper is read by the level below. -/
theorem of_nested {α : Type} {reader : Level → Reader α} {value : α}
    (read : nested below reader cursor = .ok (value, after)) :
    ∃ level smaller, allowance = smaller + 1 ∧ level.Takes smaller ∧
      reader level cursor = .ok (value, after) := by
  unfold nested at read
  split at read
  · cases read
  · rename_i level
    obtain ⟨smaller, same, takes⟩ := deeper level rfl
    exact ⟨level, smaller, same, takes, read⟩

/-- Arguments take their tokens. -/
theorem listed_takes_arguments (bound : Nat) :
    Takes (listed .rightParen (nested below fun level => level.binary 1) bound)
      (ArgumentsTokens allowance) := by
  have each : Takes (nested below fun level => level.binary 1) fun tokens argument =>
      ∃ smaller, allowance = smaller + 1 ∧ JoinedTokens smaller 1 tokens argument := by
    intro cursor argument after read
    obtain ⟨level, smaller, same, takes, read⟩ := of_nested deeper read
    obtain ⟨taken, split, tokens⟩ := takes.binary 1 _ _ _ read
    exact ⟨taken, split, smaller, same, tokens⟩
  refine listed_takes each ?_ ?_ (.nil allowance) _ bound
  · rintro _ _ ⟨smaller, rfl, one⟩
    exact .last one
  · rintro _ _ _ _ comma ⟨smaller, rfl, one⟩ rest
    exact .cons comma one rest

/-- Arguments are taken with their parentheses. -/
theorem callArguments_takes {arguments : List Expr}
    (read : callArguments below cursor = .ok (arguments, after)) :
    ∃ opening tokens, cursor.rest =
        ⟨.leftParen, opening⟩ :: (tokens ++ ⟨.rightParen, after.previous⟩ :: after.rest) ∧
      ArgumentsTokens allowance tokens arguments := by
  obtain ⟨afterOpening, opening, read⟩ := bind_eq_ok.mp read
  obtain ⟨⟨listed, afterItems⟩, items, read⟩ := bind_eq_ok.mp read
  obtain ⟨afterClosing, closing, read⟩ := bind_eq_ok.mp read
  cases read
  obtain ⟨tokens, split, made⟩ := listed_takes_arguments deeper _ _ _ _ items
  refine ⟨afterOpening.previous, tokens, ?_, made⟩
  rw [rest_of_expect opening, split, rest_of_expect closing]

/-- What stands behind a name is taken with it. -/
theorem named_takes (read : named allowance below name span cursor = .ok (value, after)) :
    ∃ taken, ⟨.identifier name, span⟩ :: cursor.rest = taken ++ after.rest ∧
      PrimaryTokens allowance taken value := by
  unfold named at read
  dsimp only at read
  split at read
  · rename_i typeArguments middle typed
    obtain ⟨⟨arguments, final⟩, listed, read⟩ := bind_eq_ok.mp read
    cases read
    obtain ⟨opening, tokens, split, made⟩ := callArguments_takes deeper listed
    split at typed
    · rename_i admitted
      have constructor := (Bool.and_eq_true_iff.mp admitted).2
      unfold constructorArguments? at typed
      split at typed
      · rename_i found next known
        split at typed
        · cases typed
          obtain ⟨less, typeTokens, splitTypes, types⟩ :=
            typeArguments_takes (innerType_takes allowance) known
          refine ⟨_, ?_, .construction span less middle.previous opening _ constructor types made⟩
          rw [splitTypes, split]
          simp only [cons_append, append_assoc, nil_append]
        · cases typed
      · cases typed
    · cases typed
  · split at read
    · obtain ⟨⟨arguments, final⟩, listed, read⟩ := bind_eq_ok.mp read
      cases read
      obtain ⟨opening, tokens, split, made⟩ := callArguments_takes deeper listed
      refine ⟨_, ?_, .call name span opening _ made⟩
      rw [split]
      simp only [cons_append, append_assoc, nil_append]
    · cases read
      exact ⟨_, rfl, .identifier allowance name span⟩

/-- A primary expression takes its tokens. -/
theorem primary_takes : Takes (primary allowance below) (PrimaryTokens allowance) := by
  intro cursor value after read
  unfold primary at read
  split at read
  · rename_i literal ahead
    cases read
    exact ⟨_, rest_of_peek ahead, .number allowance literal _⟩
  · rename_i ahead
    cases read
    exact ⟨_, rest_of_peek ahead, .yes allowance _⟩
  · rename_i ahead
    cases read
    exact ⟨_, rest_of_peek ahead, .no allowance _⟩
  · rename_i ahead
    obtain ⟨⟨inner, middle⟩, inside, read⟩ := bind_eq_ok.mp read
    obtain ⟨afterClosing, closing, read⟩ := bind_eq_ok.mp read
    cases read
    obtain ⟨level, smaller, rfl, takes, inside⟩ := of_nested deeper inside
    obtain ⟨taken, split, tokens⟩ := takes.binary 1 _ _ _ inside
    refine ⟨_, ?_, .parenthesized cursor.span after.previous tokens⟩
    rw [rest_of_peek ahead, split, rest_of_expect closing]
    simp only [cons_append, append_assoc, nil_append]
  · rename_i name ahead
    obtain ⟨taken, split, tokens⟩ := named_takes deeper read
    exact ⟨taken, (rest_of_peek ahead).trans split, tokens⟩
  · cases read

/-- Accesses take their tokens. -/
theorem accessesFrom_takes (base : Expr) :
    Takes (accessesFrom below base) (AccessTokens allowance base) := by
  intro cursor value after read
  unfold accessesFrom at read
  split at read
  · rename_i ahead
    obtain ⟨level, smaller, rfl, takes, read⟩ := of_nested deeper read
    obtain ⟨⟨⟨name, span⟩, middle⟩, named, read⟩ := bind_eq_ok.mp read
    obtain ⟨taken, split, tokens⟩ := takes.accesses _ _ _ _ read
    refine ⟨_, ?_, .member name cursor.span span tokens⟩
    rw [rest_of_peek ahead, (rest_of_identifier named).1, split]
    rfl
  · rename_i ahead
    obtain ⟨level, smaller, rfl, takes, read⟩ := of_nested deeper read
    obtain ⟨⟨position, middle⟩, inside, read⟩ := bind_eq_ok.mp read
    obtain ⟨afterClosing, closing, read⟩ := bind_eq_ok.mp read
    obtain ⟨inner, splitInner, within⟩ := takes.binary 1 _ _ _ inside
    obtain ⟨taken, split, tokens⟩ := takes.accesses _ _ _ _ read
    refine ⟨_, ?_, .index cursor.span _ within tokens⟩
    rw [rest_of_peek ahead, splitInner, rest_of_expect closing, split]
    simp only [cons_append, append_assoc]
  · cases read
  · cases read
    exact ⟨[], rfl, .nil allowance base⟩

/-- An operand takes its tokens. -/
theorem unaryFrom_takes : Takes (unaryFrom allowance below) (OperandTokens allowance) := by
  intro cursor value after read
  unfold unaryFrom at read
  split at read
  · rename_i operator known
    obtain ⟨⟨operand, final⟩, inside, read⟩ := bind_eq_ok.mp read
    cases read
    obtain ⟨level, smaller, rfl, takes, inside⟩ := of_nested deeper inside
    obtain ⟨taken, split, tokens⟩ := takes.unary _ _ _ inside
    have real := (depthAfter_unary known 0).1
    refine ⟨⟨cursor.peek, cursor.span⟩ :: taken, ?_, @OperandTokens.signed _ ⟨cursor.peek, _⟩ _ _ _ known tokens⟩
    rw [rest_of_peek rfl real, split, cons_append]
  · obtain ⟨⟨base, middle⟩, first, read⟩ := bind_eq_ok.mp read
    obtain ⟨taken, split, start⟩ := primary_takes deeper _ _ _ first
    obtain ⟨takenRest, splitRest, rest⟩ := accessesFrom_takes deeper _ _ _ _ read
    refine ⟨taken ++ takenRest, ?_, .accessed start rest⟩
    rw [split, splitRest, append_assoc]

/-- A chain of operators takes its tokens. -/
theorem binaryRestFrom_takes (least : Nat) (left : Expr) :
    Takes (binaryRestFrom below least left) (ChainTokens allowance least left) := by
  intro cursor value after read
  unfold binaryRestFrom at read
  split at read
  · rename_i operator known
    split at read
    · rename_i tight
      obtain ⟨level, smaller, rfl, takes, read⟩ := of_nested deeper read
      obtain ⟨⟨right, middle⟩, inside, read⟩ := bind_eq_ok.mp read
      obtain ⟨operand, splitOperand, second⟩ := takes.binary _ _ _ _ inside
      obtain ⟨chain, split, rest⟩ := takes.binaryRest _ _ _ _ _ read
      have real := (depthAfter_binary known 0).1
      have stopped : ∀ next ∈ chain.head?, Looser (operator.precedence + 1) next.token := by
        intro next first
        obtain ⟨others, rfl⟩ := head?_eq_some_iff.mp first
        have ahead : middle.peek = next.token := by rw [Cursor.peek, split, cons_append]
        exact ahead ▸ takes.stops _ _ _ _ inside
      refine ⟨⟨cursor.peek, cursor.span⟩ :: (operand ++ chain), ?_,
        @ChainTokens.cons _ _ ⟨cursor.peek, _⟩ _ _ _ _ _ _ known tight second stopped rest⟩
      rw [rest_of_peek rfl real, splitOperand, split, cons_append, append_assoc]
    · cases read
      exact ⟨[], rfl, .nil allowance least left⟩
  · cases read
    exact ⟨[], rfl, .nil allowance least left⟩

/-- A chain stops before a looser operator. -/
theorem looser_of_binaryRestFrom {least : Nat} {left : Expr}
    (read : binaryRestFrom below least left cursor = .ok (value, after)) :
    Looser least after.peek := by
  unfold binaryRestFrom at read
  split at read
  · rename_i operator known
    split at read
    · obtain ⟨level, smaller, rfl, takes, read⟩ := of_nested deeper read
      obtain ⟨_, _, read⟩ := bind_eq_ok.mp read
      exact takes.restStops _ _ _ _ _ read
    · rename_i refused
      cases read
      intro found same
      cases known.symm.trans same
      exact Nat.lt_of_not_le refused
  · rename_i unknown
    cases read
    intro found same
    cases unknown.symm.trans same

/-- A level takes what it should if the one below does. -/
theorem above_takes : (Level.above allowance below).Takes allowance where
  binary least := by
    intro cursor value after read
    obtain ⟨⟨left, middle⟩, first, read⟩ := bind_eq_ok.mp read
    obtain ⟨operand, split, start⟩ := unaryFrom_takes deeper _ _ _ first
    obtain ⟨chain, splitChain, rest⟩ := binaryRestFrom_takes deeper _ _ _ _ _ read
    refine ⟨operand ++ chain, ?_, .mk start rest⟩
    rw [split, splitChain, append_assoc]
  binaryRest := binaryRestFrom_takes deeper
  unary := unaryFrom_takes deeper
  accesses := accessesFrom_takes deeper
  stops least := by
    intro cursor value after read
    obtain ⟨_, _, read⟩ := bind_eq_ok.mp read
    exact looser_of_binaryRestFrom deeper read
  restStops _ _ _ _ _ read := looser_of_binaryRestFrom deeper read

end Levels

/-- Every level takes the tokens of expressions. -/
theorem level_takes (allowance : Nat) : (level allowance).Takes allowance := by
  induction allowance with
  | zero => exact above_takes nofun
  | succ allowance ih =>
    refine above_takes ?_
    rintro below ⟨⟩
    exact ⟨allowance, rfl, ih⟩

/-- An expression is read from its tokens. -/
theorem expression_takes (allowance : Nat) :
    Takes (expression allowance) (JoinedTokens allowance 1) :=
  (level_takes allowance).binary 1

/-- An expression has a token. -/
theorem JoinedTokens.exists_cons {allowance least : Nat} {tokens : Tokens}
    (made : JoinedTokens allowance least tokens value) :
    ∃ first others, tokens = first :: others := by
  obtain ⟨operand, _⟩ := made
  cases operand with
  | signed => exact ⟨_, _, rfl⟩
  | accessed start _ => cases start <;> exact ⟨_, _, rfl⟩

end Shading.Surface
