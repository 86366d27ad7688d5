import Shading.Proofs.Annotations
import Shading.Proofs.Words

/-!
# Constant folding keeps values

Folding keeps the type and the place of every node, and its value as long as the literals that folding
reads lie in the range of their kind. Behind a minus sign that may fail: the other sign of the least
signed integer is no integer of a word.
-/

namespace Shading.Typed.Expr

open Option

open Typing (AllAnnotated FollowsRule)

variable {operator : BinaryOperator} {type : Option Ty} {span : Span} {literal : Number}
  {expression left right operand : Expr} {word : Word}

/-- The literal of a value has the type it is given. -/
@[simp] theorem type_ofValue (type : Option Ty) (span : Span) (value : Constant.Value) :
    (ofValue type span value).type = type := by
  cases value <;> rfl

/-- The literal of a value stands where it is put. -/
@[simp] theorem span_ofValue (type : Option Ty) (span : Span) (value : Constant.Value) :
    (ofValue type span value).span = span := by
  cases value <;> rfl

/-- Folding keeps the type of an expression. -/
theorem type_folded (expression : Expr) : expression.folded.type = expression.type := by
  cases expression with
  | binary operator left right type span =>
    simp only [folded, foldBinary]
    split <;> simp
  | unary operator operand type span =>
    simp only [folded, foldUnary]
    split <;> simp
  | _ => simp [folded]

/-- Folding keeps the place of an expression. -/
theorem span_folded (expression : Expr) : expression.folded.span = expression.span := by
  cases expression with
  | binary operator left right type span =>
    simp only [folded, foldBinary]
    split <;> first | exact span_ofValue .. | rfl
  | unary operator operand type span =>
    simp only [folded, foldUnary]
    split <;> first | exact span_ofValue .. | rfl
  | _ => rfl

variable {environment : String → Option Word}

/-- A negated literal has the negated word. -/
theorem word?_negate (literal : Number) :
    Number.word? { literal with value := literal.value.negate } =
      literal.word?.bind (Word.unary? .negate) := by
  simp only [Number.word?, Binary64.whole?_negate]
  cases literal.kind.sign? with
  | none => rfl
  | some isSigned =>
    cases literal.value.whole? with
    | none => rfl
    | some integer => cases isSigned <;> simp [Word.ofBits, Word.unary?, BitVec.ofInt_neg]

/-- A literal has the value that folding reads. -/
theorem eval_of_value? {value : Constant.Value} (constant : expression.value? = some value) :
    expression.eval environment = value.word? := by
  unfold value? at constant
  split at constant
  · rw [← Option.some.inj constant]
    rfl
  · rw [← Option.some.inj constant]
    rfl
  · rw [← Option.some.inj constant, Constant.Value.word?, word?_negate]
    rfl
  · cases constant

/-- The literal of a value has that value. -/
theorem eval_ofValue (type : Option Ty) (span : Span) (value : Constant.Value) :
    (ofValue type span value).eval environment = value.word? := by
  cases value <;> rfl

/-- The number that folding reads in an operand. -/
def operand? (operand other : Expr) : Option Number :=
  match operand.folded.value?, other.folded.value? with
  | some (.number literal), some _ => some literal
  | _, _ => none

/-- What folding reads in the operands of a node lies in range. -/
def ReadsInRange : Expr → Prop
  | .binary _ left right _ _ =>
    (∀ literal ∈ operand? left right, literal.Fits) ∧ ∀ literal ∈ operand? right left, literal.Fits
  | _ => True

/-- A value does not depend on an operand it does not ask for. -/
theorem binary?_mono {left : Word} {right other : Option Word}
    (more : ∀ value, right = some value → other = some value)
    (meant : Word.binary? operator left right = some word) :
    Word.binary? operator left other = some word := by
  unfold Word.binary? at meant ⊢
  split
  · rwa [if_pos ‹_›] at meant
  · rw [if_neg ‹_›, bind_eq_some_iff] at meant
    obtain ⟨value, found, meant⟩ := meant
    rw [more value found, bind_some, meant]

/-- Folding an operation in range keeps its value. -/
theorem eval_foldBinary (reads : ReadsInRange (.binary operator left right type span))
    (meant : (Expr.binary operator left.folded right.folded type span).eval environment = some word) :
    (foldBinary operator left.folded right.folded type span).eval environment = some word := by
  unfold foldBinary
  split
  · rename_i value computed
    simp only [foldedBinary?, bind_eq_some_iff] at computed
    obtain ⟨leftValue, leftConstant, rightValue, rightConstant, computed⟩ := computed
    simp only [eval, eval_of_value? leftConstant, eval_of_value? rightConstant,
      bind_eq_some_iff] at meant
    obtain ⟨leftWord, leftFound, meant⟩ := meant
    rw [eval_ofValue]
    refine Constant.binary?_word ?_ ?_ leftFound computed meant
    · rintro literal rfl
      exact reads.1 literal (by simp [operand?, leftConstant, rightConstant])
    · rintro literal rfl
      exact reads.2 literal (by simp [operand?, leftConstant, rightConstant])
  · exact meant

/-- Folding a unary operation keeps its value. -/
theorem eval_foldUnary {operator : UnaryOperator}
    (meant : (Expr.unary operator operand type span).eval environment = some word) :
    (foldUnary operator operand type span).eval environment = some word := by
  unfold foldUnary
  split
  · rename_i value computed
    unfold foldedUnary? at computed
    split at computed
    · rw [← Option.some.inj computed]
      exact meant
    · cases computed
  · exact meant

/-- Folding an expression keeps its value. -/
theorem eval_folded (reads : ∀ node ∈ expression.nodes, ReadsInRange node)
    (meant : expression.eval environment = some word) :
    expression.folded.eval environment = some word := by
  induction expression using induction_parts generalizing word with
  | step expression ih =>
    obtain ⟨here, below⟩ := forall_nodes.mp reads
    cases expression with
    | number | bool | identifier => exact meant
    | binary operator left right type span =>
      refine eval_foldBinary here ?_
      simp only [eval, bind_eq_some_iff] at meant ⊢
      obtain ⟨leftWord, leftMeant, meant⟩ := meant
      refine ⟨leftWord, ?_, binary?_mono ?_ meant⟩
      · exact ih left (by simp [parts]) (below left (by simp [parts])) leftMeant
      · intro value rightMeant
        exact ih right (by simp [parts]) (below right (by simp [parts])) rightMeant
    | unary operator operand type span =>
      refine eval_foldUnary ?_
      simp only [eval, bind_eq_some_iff] at meant ⊢
      obtain ⟨value, operandMeant, meant⟩ := meant
      exact ⟨value, ih operand (by simp [parts]) (below operand (by simp [parts]))
        operandMeant, meant⟩
    | call | member | index => cases meant

/-- Folding reads a number in a literal, an operation on numbers, or a minus sign before what is
folded to a literal. -/
inductive ReadAs : Number → Expr → Prop where
  | literal {literal : Number} {type : Option Ty} {span : Span} :
      ReadAs literal (.number literal type span)
  | computed {operator : BinaryOperator} {left right : Expr} {type : Option Ty} {span : Span}
      {leftLiteral rightLiteral literal : Number}
      (leftRead : left.folded.value? = some (.number leftLiteral))
      (rightRead : right.folded.value? = some (.number rightLiteral))
      (result : Constant.numbers? operator leftLiteral rightLiteral = some (.number literal)) :
      ReadAs literal (.binary operator left right type span)
  | negated {operand : Expr} {type innerType : Option Ty} {span innerSpan : Span} {inner : Number}
      (inside : operand.folded = .number inner innerType innerSpan) :
      ReadAs { inner with value := inner.value.negate } (.unary .negate operand type span)

/-- A binary operation read as a number is computed. -/
theorem readAs_binary
    (constant : (Expr.binary operator left right type span).folded.value? = some (.number literal)) :
    ReadAs literal (.binary operator left right type span) := by
  simp only [folded, foldBinary] at constant
  split at constant
  · rename_i value computed
    cases value with
    | bool value => simp [ofValue, value?] at constant
    | number found =>
      simp only [ofValue, value?, Option.some.injEq, Constant.Value.number.injEq] at constant
      subst constant
      simp only [foldedBinary?, bind_eq_some_iff] at computed
      obtain ⟨leftValue, leftRead, rightValue, rightRead, computed⟩ := computed
      cases leftValue <;> cases rightValue
      case number.number leftLiteral rightLiteral => exact .computed leftRead rightRead computed
      case bool.bool leftValue rightValue => cases operator <;> cases computed
      case number.bool => cases computed
      case bool.number => cases computed
  · cases constant

/-- A unary one is a minus sign before a literal. -/
theorem readAs_unary {operator : UnaryOperator}
    (constant : (Expr.unary operator operand type span).folded.value? = some (.number literal)) :
    ReadAs literal (.unary operator operand type span) := by
  simp only [folded, foldUnary] at constant
  split at constant
  · rename_i value computed
    unfold foldedUnary? at computed
    split at computed
    · rw [← Option.some.inj computed] at constant
      simp [ofValue, value?] at constant
    · cases computed
  · unfold value? at constant
    split at constant
    · rename_i same
      cases same
    · cases constant
    · rename_i inner _ _ _ _ same
      obtain ⟨rfl, inside, rfl, rfl⟩ := Expr.unary.inj same
      rw [← Constant.Value.number.inj (Option.some.inj constant)]
      exact .negated inside
    · cases constant

/-- What folding reads is a literal, computed, or negated. -/
theorem readAs_of_value? (constant : expression.folded.value? = some (.number literal)) :
    ReadAs literal expression := by
  cases expression with
  | number found type span =>
    simp only [folded, value?, Option.some.injEq, Constant.Value.number.injEq] at constant
    subst constant
    exact .literal
  | binary operator left right type span => exact readAs_binary constant
  | unary operator operand type span => exact readAs_unary constant
  | _ => simp [folded, value?] at constant

variable {context : Typing.Context}

/-- Where nothing is told, an operation has the type of its rule. -/
theorem binary_accepted {leftType rightType : Ty}
    (annotated : Typing.Annotated context [] (.binary operator left right type span))
    (leftTyped : left.type = some leftType) (rightTyped : right.type = some rightType) :
    ∃ target, Typing.binary operator leftType rightType = .ok target ∧ type = some target := by
  have follows := annotated.follows
  simp only [FollowsRule, Typing.verdict, type_binary, leftTyped, rightTyped, bind_some,
    map_some] at follows
  cases result : Typing.binary operator leftType rightType with
  | ok target => exact ⟨target, rfl, by rw [follows, result]; rfl⟩
  | error error =>
    rw [result] at follows
    have explained := annotated.explained follows (by simp [parts, leftTyped, rightTyped])
    simp [Typing.Explained] at explained

/-- A minus sign has the type of its operand, by its rule or before a literal. -/
theorem negate_accepted {operandType : Ty}
    (annotated : Typing.Annotated context [] (.unary .negate operand type span))
    (typed : operand.type = some operandType) :
    type = some operandType ∧
      (Typing.unary .negate operandType = .ok operandType ∨ operand.literalValue?.isSome) := by
  rcases annotated.follows with follows | ⟨literal, _, same⟩
  · simp only [Typing.verdict, typed, map_some, bind_some] at follows
    cases result : Typing.unary .negate operandType with
    | ok target =>
      have same : target = operandType := by
        simp only [Typing.unary] at result
        split at result
        · exact (Except.ok.inj result).symm
        · cases result
      rw [result] at follows
      exact ⟨by rw [follows, same]; rfl, .inl (by rw [same])⟩
    | error error =>
      rw [result] at follows
      have explained := annotated.explained follows (by simp [parts, typed])
      simp [Typing.Explained] at explained
  · exact ⟨by rw [same, typed], .inr literal⟩

/-- Kinds of one type are merged to a kind of it. -/
theorem scalar_merge? {left right kind : Number.Kind} (merged : left.merge? right = some kind)
    (same : left.scalar = right.scalar) : kind.scalar = left.scalar := by
  unfold Number.Kind.merge? at merged
  split at merged
  · rw [← Option.some.inj merged, same]
  · split at merged
    · rw [← Option.some.inj merged]
    · split at merged
      · rw [← Option.some.inj merged]
      · cases merged

/-- An operation that gives a number is arithmetic. -/
theorem numbers?_number {left right : Number}
    (computed : Constant.numbers? operator left right = some (.number literal)) :
    operator.isLogical = false ∧ operator.isComparison = false ∧
      left.kind.merge? right.kind = some literal.kind := by
  simp only [Constant.numbers?, bind_eq_some_iff] at computed
  obtain ⟨kind, merged, computed⟩ := computed
  split at computed
  · simp at computed
  · rename_i comparison
    simp only [map_eq_some_iff, Constant.Value.number.injEq] at computed
    obtain ⟨value, computed, rfl⟩ := computed
    refine ⟨?_, by simpa using comparison, merged⟩
    cases operator <;> cases kind <;>
      simp_all [BinaryOperator.isLogical, Constant.arithmetic?, Constant.bounded?,
        Constant.integer?, Constant.float?]

/-- Operations on scalars have the type of both. -/
theorem binary_scalars {left right : Scalar} {target : Ty} (logical : operator.isLogical = false)
    (comparison : operator.isComparison = false)
    (accepted : Typing.binary operator (.scalar left) (.scalar right) = .ok target) :
    left = right ∧ target = .scalar left := by
  simp only [Typing.binary, logical, comparison, Bool.false_eq_true, if_false] at accepted
  split at accepted
  · rename_i numeric
    simp only [Ty.element?, Bool.and_eq_true, decide_eq_true_eq, Option.some.injEq] at numeric
    exact ⟨numeric.2, (Except.ok.inj accepted).symm⟩
  · cases accepted

/-- The kind of what folding reads names the type. -/
theorem type_of_folded (annotated : AllAnnotated context [] expression)
    (constant : expression.folded.value? = some (.number literal)) :
    expression.type = some (.scalar literal.kind.scalar) := by
  induction expression using induction_parts generalizing literal with
  | step expression ih =>
    obtain ⟨here, below⟩ := forall_nodes.mp annotated
    cases readAs_of_value? constant with
    | literal => exact here.follows
    | computed leftRead rightRead result =>
      have leftTyped := ih _ (by simp [parts]) (below _ (by simp [parts])) leftRead
      have rightTyped := ih _ (by simp [parts]) (below _ (by simp [parts])) rightRead
      obtain ⟨logical, comparison, merged⟩ := numbers?_number result
      obtain ⟨target, accepted, typed⟩ := binary_accepted here leftTyped rightTyped
      obtain ⟨same, rfl⟩ := binary_scalars logical comparison accepted
      rw [type_binary, typed, scalar_merge? merged same]
    | @negated operand _ _ _ _ inner inside =>
      have read : operand.folded.value? = some (.number inner) := by rw [inside]; rfl
      have typed := ih operand (by simp [parts]) (below operand (by simp [parts])) read
      exact (negate_accepted here typed).1

/-- A literal lies in range, also behind a typed minus sign. -/
def LiteralFits : Expr → Prop
  | .number literal _ _ => literal.Fits
  | .unary .negate (.number literal _ _) type _ =>
    type ≠ none → Number.Fits { literal with value := literal.value.negate }
  | _ => True

/-- A minus sign before what is folded to the least integer. -/
def negatesLeast : Expr → Bool
  | .unary .negate operand _ _ =>
    match operand.folded with
    | .number literal _ _ =>
      literal.kind = .i32 && literal.value.key = Number.leastI32 * Binary64.one
    | _ => false
  | _ => false

/-- Folding reads through such a minus sign. -/
def readsThroughLeast : Expr → Bool
  | .binary _ left right _ _ =>
    left.folded.value?.isSome && right.folded.value?.isSome && (left.negatesLeast || right.negatesLeast)
  | _ => false

/-- A computed integer can be negated unless it is the least. -/
theorem negated_fits {left right : Number}
    (computed : Constant.numbers? operator left right = some (.number literal))
    (signed : literal.kind ≠ .u32)
    (notLeast : ¬ (literal.kind = .i32 ∧ literal.value.key = Number.leastI32 * Binary64.one)) :
    Number.Fits { literal with value := literal.value.negate } := by
  refine Number.fits_of_inRange fun isSigned sign => ?_
  obtain ⟨integer, whole, range⟩ := Constant.numbers?_integer computed sign
  refine ⟨-integer, by simp [Binary64.whole?_negate, whole], ?_⟩
  have kind : literal.kind = .i32 := by
    cases found : literal.kind with
    | i32 => rfl
    | u32 => exact absurd found signed
    | abstract | f32 | f16 =>
      rw [found] at sign
      cases sign
  have isTrue : isSigned = true := by simpa [kind, Number.Kind.sign?] using sign.symm
  subst isTrue
  have different : integer ≠ Number.leastI32 := by
    rintro rfl
    exact notLeast ⟨kind, Binary64.key_of_whole? whole⟩
  simp only [Word.InRange, Word.least, Word.greatest, if_true, Number.leastI32,
    Number.greatestI32] at range different ⊢
  omega

/-- What folding reads lies in range unless read through such a sign. -/
theorem fits_of_value? (annotated : AllAnnotated context [] expression)
    (fits : expression.LiteralFits) (notLeast : expression.negatesLeast = false)
    (constant : expression.folded.value? = some (.number literal)) : literal.Fits := by
  obtain ⟨here, below⟩ := forall_nodes.mp annotated
  cases readAs_of_value? constant with
  | literal => exact fits
  | computed _ _ result =>
    exact Number.fits_of_inRange fun _ sign => Constant.numbers?_integer result sign
  | @negated operand type _ _ _ inner inside =>
    have read : operand.folded.value? = some (.number inner) := by rw [inside]; rfl
    have operandTyped := type_of_folded (below operand (by simp [parts])) read
    obtain ⟨typed, admitted⟩ := negate_accepted here operandTyped
    cases readAs_of_value? read with
    | literal => exact fits (by rw [typed]; simp)
    | computed _ _ result =>
      refine negated_fits result ?_ ?_
      · intro unsigned
        rw [unsigned] at admitted
        simp [Typing.unary, Number.Kind.scalar, Ty.element?, literalValue?] at admitted
      · rintro ⟨kind, least⟩
        simp only [negatesLeast, inside, kind, least, decide_true, Bool.and_self] at notLeast
        cases notLeast
    | negated _ => simp [folded, foldUnary, foldedUnary?] at inside

/-- The operands of a node lie in range unless read through such a sign. -/
theorem readsInRange (annotated : AllAnnotated context [] (.binary operator left right type span))
    (leftFits : left.LiteralFits) (rightFits : right.LiteralFits)
    (safe : (Expr.binary operator left right type span).readsThroughLeast = false) :
    ReadsInRange (.binary operator left right type span) := by
  obtain ⟨here, below⟩ := forall_nodes.mp annotated
  have inner {operand other : Expr} (isPart : operand ∈ [left, right]) (fits : operand.LiteralFits)
      (notLeast : operand.folded.value?.isSome → other.folded.value?.isSome →
        operand.negatesLeast = false) : ∀ literal ∈ operand? operand other, literal.Fits := by
    intro literal read
    unfold operand? at read
    split at read
    · rename_i found value constant otherConstant
      cases read
      exact fits_of_value? (below operand isPart) fits
        (notLeast (by simp [constant]) (by simp [otherConstant])) constant
    · cases read
  have bothSafe (leftConstant : left.folded.value?.isSome) (rightConstant : right.folded.value?.isSome) :
      left.negatesLeast = false ∧ right.negatesLeast = false := by
    simpa [readsThroughLeast, leftConstant, rightConstant] using safe
  constructor
  · exact inner (by simp) leftFits fun leftConstant rightConstant =>
      (bothSafe leftConstant rightConstant).1
  · exact inner (by simp) rightFits fun rightConstant leftConstant =>
      (bothSafe leftConstant rightConstant).2

end Shading.Typed.Expr
