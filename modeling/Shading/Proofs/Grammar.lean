import Shading.Proofs.Derivations

/-!
# The grammar of expressions

Which tokens make which expression is said here by the grammar of the language: six levels of
left-associative operators, prefix signs, accesses behind a primary, and the primaries themselves. The
readers climb precedences instead: they go on behind an operand as long as the next operator is tight
enough. What keeps the two together is the token where a reader stops: no operator as tight stands
there, so the next operator takes all operands before it as its left operand.
-/

namespace Shading.Surface

open List

/-- The binary operators on the six levels of precedence, from the loosest. -/
def operatorLevels : List (List (Token × BinaryOperator)) :=
  [[(.orOr, .or)],
    [(.andAnd, .and)],
    [(.eqEq, .equal), (.notEq, .notEqual)],
    [(.less, .less), (.greater, .greater), (.lessEq, .lessEqual), (.greaterEq, .greaterEqual)],
    [(.plus, .add), (.minus, .subtract)],
    [(.star, .multiply), (.slash, .divide), (.percent, .remainder)]]

/-- The prefix operators and their tokens. -/
def prefixOperators : List (Token × UnaryOperator) := [(.minus, .negate), (.bang, .not)]

mutual

/-- A name, perhaps with arguments in angle brackets. -/
inductive TypeForm : List LocatedToken → WrittenType → Prop where
  | name (name : String) (span : Span) :
      TypeForm [⟨.identifier name, span⟩] (.mk name [] (span.through span))
  | applied {inner : List LocatedToken} {arguments : List TypeArgument} (name : String)
      (span opening closing : Span) (listed : TypeArgumentsForm inner arguments) :
      TypeForm (⟨.identifier name, span⟩ :: ⟨.less, opening⟩ :: (inner ++ [⟨.greater, closing⟩]))
        (.mk name arguments (span.through closing))

/-- An argument of a type is a size or a type. -/
inductive TypeArgumentForm : List LocatedToken → TypeArgument → Prop where
  | size {literal : Number} {value : Nat} (span : Span) (counts : literal.index? = some value) :
      TypeArgumentForm [⟨.number literal, span⟩] (.size value)
  | type {tokens : List LocatedToken} {written : WrittenType} (form : TypeForm tokens written) :
      TypeArgumentForm tokens (.type written)

/-- Arguments of a type are divided by commas. -/
inductive TypeArgumentsForm : List LocatedToken → List TypeArgument → Prop where
  | last {tokens : List LocatedToken} {argument : TypeArgument}
      (one : TypeArgumentForm tokens argument) : TypeArgumentsForm tokens [argument]
  | cons {tokens others : List LocatedToken} {argument : TypeArgument}
      {arguments : List TypeArgument} (comma : Span) (one : TypeArgumentForm tokens argument)
      (rest : TypeArgumentsForm others arguments) :
      TypeArgumentsForm (tokens ++ ⟨.comma, comma⟩ :: others) (argument :: arguments)

end

mutual

/-- An expression of tighter levels, or one behind an operator of the loosest level and an
expression of the same levels. -/
inductive ExpressionForm : (levels : List (List (Token × BinaryOperator))) →
    List LocatedToken → Expr → Prop where
  | operand {tokens : List LocatedToken} {expression : Expr} (form : UnaryForm tokens expression) :
      ExpressionForm [] tokens expression
  | tighter {level : List (Token × BinaryOperator)}
      {levels : List (List (Token × BinaryOperator))} {tokens : List LocatedToken}
      {expression : Expr} (form : ExpressionForm levels tokens expression) :
      ExpressionForm (level :: levels) tokens expression
  | operation {level : List (Token × BinaryOperator)}
      {levels : List (List (Token × BinaryOperator))} {leftTokens rightTokens : List LocatedToken}
      {left right : Expr} {sign : LocatedToken} {operator : BinaryOperator}
      (known : (sign.token, operator) ∈ level)
      (first : ExpressionForm (level :: levels) leftTokens left)
      (second : ExpressionForm levels rightTokens right) :
      ExpressionForm (level :: levels) (leftTokens ++ sign :: rightTokens)
        (.binary operator left right (left.span.through right.span))

/-- An operand behind any number of unary operators. -/
inductive UnaryForm : List LocatedToken → Expr → Prop where
  | accessed {tokens : List LocatedToken} {expression : Expr}
      (form : PostfixForm tokens expression) : UnaryForm tokens expression
  | signed {sign : LocatedToken} {operator : UnaryOperator} {tokens : List LocatedToken}
      {operand : Expr} (known : (sign.token, operator) ∈ prefixOperators)
      (form : UnaryForm tokens operand) :
      UnaryForm (sign :: tokens) (.unary operator operand (sign.span.through operand.span))

/-- A primary, or an operand before an access. -/
inductive PostfixForm : List LocatedToken → Expr → Prop where
  | primary {tokens : List LocatedToken} {expression : Expr}
      (form : PrimaryForm tokens expression) : PostfixForm tokens expression
  | member {tokens : List LocatedToken} {base : Expr} (name : String) (dot span : Span)
      (form : PostfixForm tokens base) :
      PostfixForm (tokens ++ [⟨.dot, dot⟩, ⟨.identifier name, span⟩])
        (.member base name (base.span.through span))
  | index {tokens inner : List LocatedToken} {base position : Expr} (opening closing : Span)
      (form : PostfixForm tokens base) (within : ExpressionForm operatorLevels inner position) :
      PostfixForm (tokens ++ ⟨.leftBracket, opening⟩ :: (inner ++ [⟨.rightBracket, closing⟩]))
        (.index base position (base.span.through closing))

/-- A literal, a name, a call, or an expression in parentheses. Only vectors, matrices and arrays
take type arguments. -/
inductive PrimaryForm : List LocatedToken → Expr → Prop where
  | number (literal : Number) (span : Span) :
      PrimaryForm [⟨.number literal, span⟩] (.number literal span)
  | yes (span : Span) : PrimaryForm [⟨.trueKeyword, span⟩] (.bool true span)
  | no (span : Span) : PrimaryForm [⟨.falseKeyword, span⟩] (.bool false span)
  | name (name : String) (span : Span) :
      PrimaryForm [⟨.identifier name, span⟩] (.identifier name span)
  | call {inner : List LocatedToken} {arguments : List Expr} (name : String)
      (span opening closing : Span) (listed : ArgumentsForm inner arguments) :
      PrimaryForm
        (⟨.identifier name, span⟩ :: ⟨.leftParen, opening⟩ :: (inner ++ [⟨.rightParen, closing⟩]))
        (.call name [] arguments (span.through closing))
  | construction {typeTokens inner : List LocatedToken} {name : String}
      {typeArguments : List TypeArgument} {arguments : List Expr}
      (span less greater opening closing : Span) (constructs : takesTypeArguments name)
      (types : TypeArgumentsForm typeTokens typeArguments)
      (listed : ArgumentsForm inner arguments) :
      PrimaryForm
        (⟨.identifier name, span⟩ :: ⟨.less, less⟩ :: (typeTokens ++
          ⟨.greater, greater⟩ :: ⟨.leftParen, opening⟩ :: (inner ++ [⟨.rightParen, closing⟩])))
        (.call name typeArguments arguments (span.through closing))
  | parenthesized {inner : List LocatedToken} {expression : Expr} (opening closing : Span)
      (within : ExpressionForm operatorLevels inner expression) :
      PrimaryForm (⟨.leftParen, opening⟩ :: (inner ++ [⟨.rightParen, closing⟩])) expression

/-- Arguments divided by commas, one perhaps at the end. -/
inductive ArgumentsForm : List LocatedToken → List Expr → Prop where
  | nil : ArgumentsForm [] []
  | last {tokens : List LocatedToken} {argument : Expr}
      (one : ExpressionForm operatorLevels tokens argument) : ArgumentsForm tokens [argument]
  | cons {tokens others : List LocatedToken} {argument : Expr} {arguments : List Expr}
      (comma : Span) (one : ExpressionForm operatorLevels tokens argument)
      (rest : ArgumentsForm others arguments) :
      ArgumentsForm (tokens ++ ⟨.comma, comma⟩ :: others) (argument :: arguments)

end

mutual

/-- The tokens of a type have its form. -/
theorem TypeTokens.form {allowance : Nat} {tokens : Tokens} {written : WrittenType} :
    TypeTokens allowance tokens written → TypeForm tokens written
  | .plain _ name span => .name name span
  | .applied name span opening closing listed => .applied name span opening closing listed.form

/-- The tokens of a type argument have its form. -/
theorem TypeArgumentTokens.form {allowance : Nat} {tokens : Tokens}
    {argument : TypeArgument} :
    TypeArgumentTokens allowance tokens argument → TypeArgumentForm tokens argument
  | .size _ span counts => .size span counts
  | .type inner => .type inner.form

/-- Lists of type arguments have their form. -/
theorem TypeArgumentsTokens.form {allowance : Nat} {tokens : Tokens}
    {arguments : List TypeArgument} :
    TypeArgumentsTokens allowance tokens arguments → TypeArgumentsForm tokens arguments
  | .last one => .last one.form
  | .cons comma one rest => .cons comma one.form rest.form

end

/-- The levels of the operators of at least a precedence. -/
def levelsFrom (least : Nat) : List (List (Token × BinaryOperator)) := operatorLevels.drop (least - 1)

/-- An operator stands on the level of its precedence. -/
theorem exists_level {token : Token} {operator : BinaryOperator}
    (known : BinaryOperator.ofToken? token = some operator) :
    ∃ level, (token, operator) ∈ level ∧
      levelsFrom operator.precedence = level :: levelsFrom (operator.precedence + 1) := by
  cases token <;> cases known <;> exact ⟨_, by decide, rfl⟩

/-- Looser operators may be admitted. -/
theorem ExpressionForm.loosen {tokens : Tokens} {expression : Expr} {least tight : Nat}
    (positive : 1 ≤ least) (ordered : least ≤ tight)
    (form : ExpressionForm (levelsFrom tight) tokens expression) :
    ExpressionForm (levelsFrom least) tokens expression := by
  induction ordered with
  | refl => exact form
  | @step more ordered ih =>
    refine ih ?_
    have next : levelsFrom (more + 1) = (levelsFrom more).tail := by
      simp only [levelsFrom, tail_drop]
      congr 1
      have := Nat.le_trans positive ordered
      omega
    rw [next] at form
    cases levels : levelsFrom more with
    | nil =>
      rw [levels] at form
      exact form
    | cons level tighter =>
      rw [levels] at form
      exact .tighter form

/-- Unary operators have their tokens. -/
theorem mem_prefixOperators {token : Token} {operator : UnaryOperator}
    (known : UnaryOperator.ofToken? token = some operator) : (token, operator) ∈ prefixOperators := by
  revert known
  cases token <;> rintro ⟨⟩ <;> decide

/-- Every operator is looser than an operand. -/
theorem looser_of_operand (token : Token) : Looser 7 token := by
  intro operator _
  cases operator <;> decide

mutual

/-- Joined operands have the form of an expression. -/
theorem JoinedTokens.form {allowance least : Nat} {tokens : Tokens} {whole : Expr}
    (positive : 1 ≤ least) : JoinedTokens allowance least tokens whole →
      ExpressionForm (levelsFrom least) tokens whole
  | .mk first rest => by
    -- an operand has no operators at all, so any number of levels may be passed over
    have none : levelsFrom (least + 6) = [] := by
      apply drop_eq_nil_of_le
      simp only [operatorLevels, length_cons, length_nil]
      omega
    refine rest.form positive (Nat.le_add_right _ 6) (none ▸ .operand first.form) fun next _ => ?_
    exact fun operator known => Nat.lt_of_lt_of_le (looser_of_operand _ operator known) (by omega)

/-- A left operand without operators looser than `tight`, before none that is tighter, makes an
expression with the next operator. -/
theorem ChainTokens.form {allowance least tight : Nat} {front tokens : Tokens}
    {left whole : Expr} (positive : 1 ≤ least) (ordered : least ≤ tight)
    (start : ExpressionForm (levelsFrom tight) front left)
    (follows : ∀ next ∈ tokens.head?, Looser (tight + 1) next.token) :
    ChainTokens allowance least left tokens whole →
      ExpressionForm (levelsFrom least) (front ++ tokens) whole
  | .nil _ _ _ => by
    rw [append_nil]
    exact start.loosen positive ordered
  | .cons known admitted second stopped rest => by
    have atMost := Nat.le_of_lt_succ (follows _ rfl _ known)
    have first := start.loosen (Nat.le_trans positive admitted) atMost
    obtain ⟨signs, listed, levels⟩ := exists_level known
    rw [levels] at first
    have joined := ExpressionForm.operation listed first (second.form (Nat.succ_pos _))
    rw [← levels] at joined
    have form := rest.form positive admitted joined stopped
    simpa only [append_assoc, cons_append] using form

/-- Operands have their form. -/
theorem OperandTokens.form {allowance : Nat} {tokens : Tokens} {operand : Expr} :
    OperandTokens allowance tokens operand → UnaryForm tokens operand
  | .signed known inner => .signed (mem_prefixOperators known) inner.form
  | .accessed start rest => .accessed (rest.form (.primary start.form))

/-- Accesses have their form. -/
theorem AccessTokens.form {allowance : Nat} {front tokens : Tokens} {base whole : Expr}
    (start : PostfixForm front base) :
    AccessTokens allowance base tokens whole → PostfixForm (front ++ tokens) whole
  | .nil _ _ => by rwa [append_nil]
  | .member name dot span rest => by
    have form := rest.form (start.member name dot span)
    simpa only [append_assoc, cons_append, nil_append] using form
  | .index opening closing within rest => by
    have form := rest.form (start.index opening closing (within.form (Nat.le_refl 1)))
    simpa only [append_assoc, cons_append, nil_append] using form

/-- Primaries have their form. -/
theorem PrimaryTokens.form {allowance : Nat} {tokens : Tokens} {expression : Expr} :
    PrimaryTokens allowance tokens expression → PrimaryForm tokens expression
  | .number _ literal span => .number literal span
  | .yes _ span => .yes span
  | .no _ span => .no span
  | .parenthesized opening closing within =>
    .parenthesized opening closing (within.form (Nat.le_refl 1))
  | .identifier _ name span => .name name span
  | .call name span opening closing listed => .call name span opening closing listed.form
  | .construction span less greater opening closing constructs types listed =>
    .construction span less greater opening closing constructs types.form listed.form

/-- Arguments have their form. -/
theorem ArgumentsTokens.form {allowance : Nat} {tokens : Tokens} {arguments : List Expr} :
    ArgumentsTokens allowance tokens arguments → ArgumentsForm tokens arguments
  | .nil _ => .nil
  | .last one => .last (one.form (Nat.le_refl 1))
  | .cons comma one rest => .cons comma (one.form (Nat.le_refl 1)) rest.form

end

/-- What is read as an expression is taken from the front of the tokens, with nothing left out, and
the grammar derives it from them. -/
theorem expression_follows_grammar (allowance : Nat) (cursor after : Cursor) (whole : Expr)
    (read : expression allowance cursor = .ok (whole, after)) :
    ∃ taken, cursor.rest = taken ++ after.rest ∧ ExpressionForm operatorLevels taken whole := by
  obtain ⟨taken, split, tokens⟩ := expression_takes allowance _ _ _ read
  exact ⟨taken, split, tokens.form (Nat.le_refl 1)⟩

/-- In `a - b - vec2<f32>(c).x * d;` differences go from left to right, the product comes first, and
the brackets are a constructor's. -/
theorem difference_follows_grammar :
    let place (token : Token) : LocatedToken := ⟨token, .none⟩
    let name (text : String) : Token := .identifier text
    let tokens := [name "a", .minus, name "b", .minus, name "vec2", .less, name "f32", .greater,
      .leftParen, name "c", .rightParen, .dot, name "x", .star, name "d"].map place
    let cursor : Cursor := ⟨.none, tokens ++ [place .semicolon], .none⟩
    let vector : Expr := .call "vec2" [.type (.mk "f32" [] .none)] [.identifier "c" .none] .none
    let whole : Expr := .binary .subtract
      (.binary .subtract (.identifier "a" .none) (.identifier "b" .none) .none)
      (.binary .multiply (.member vector "x" .none) (.identifier "d" .none) .none) .none
    let after : Cursor := ⟨.none, [place .semicolon], .none⟩
    expression nestingLimit cursor = .ok (whole, after) ∧
      ∃ taken, cursor.rest = taken ++ after.rest ∧ ExpressionForm operatorLevels taken whole := by
  intro place name tokens cursor vector whole after
  have read : expression nestingLimit cursor = .ok (whole, after) := by rfl
  exact ⟨read, expression_follows_grammar nestingLimit cursor after whole read⟩

end Shading.Surface
