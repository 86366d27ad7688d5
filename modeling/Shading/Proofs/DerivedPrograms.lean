import Shading.Proofs.Progress

/-!
# The tokens that programs are read from

Statements, blocks and declarations are read from tokens in order, as expressions are. An item that
cannot be read is passed over, so the tokens of the declarations are pieces of the tokens of the text,
one behind the other. A function ends with the tokens of its body.
-/

namespace Shading.Surface

open List Cursor

variable {cursor after : Cursor} {tokens : Tokens} {declaration : Declaration}

/-- The tokens of a type behind a colon, if there is one. -/
inductive AscriptionTokens (allowance : Nat) : Tokens → Option WrittenType → Prop where
  | none : AscriptionTokens allowance [] none
  | some {tokens : Tokens} {written : WrittenType} (colon : Span)
      (typed : TypeTokens allowance tokens written) :
      AscriptionTokens allowance (⟨.colon, colon⟩ :: tokens) (some written)

/-- A value behind an assignment sign, or nothing. -/
inductive InitializerTokens (allowance : Nat) : Tokens → Option Expr → Prop where
  | none : InitializerTokens allowance [] none
  | some {tokens : Tokens} {value : Expr} (sign : Span)
      (made : JoinedTokens allowance 1 tokens value) :
      InitializerTokens allowance (⟨.assign, sign⟩ :: tokens) (some value)

mutual

/-- The tokens of a statement at most `allowance` levels deep. -/
inductive StatementTokens : (allowance : Nat) → Tokens → Stmt → Prop where
  | letBinding {allowance : Nat} {types tokens : Tokens}
      {ascription : Option WrittenType} {value : Expr} (name : String)
      (keyword place sign stop : Span) (typed : AscriptionTokens allowance types ascription)
      (made : JoinedTokens allowance 1 tokens value) :
      StatementTokens allowance
        (⟨.letKeyword, keyword⟩ :: ⟨.identifier name, place⟩ ::
          (types ++ ⟨.assign, sign⟩ :: (tokens ++ [⟨.semicolon, stop⟩])))
        (.letBinding name ascription value (keyword.through stop))
  | varBinding {allowance : Nat} {types tokens : Tokens}
      {ascription : Option WrittenType} {value : Option Expr} (name : String)
      (keyword place stop : Span) (typed : AscriptionTokens allowance types ascription)
      (made : InitializerTokens allowance tokens value) :
      StatementTokens allowance
        (⟨.varKeyword, keyword⟩ :: ⟨.identifier name, place⟩ ::
          (types ++ (tokens ++ [⟨.semicolon, stop⟩])))
        (.varBinding name ascription value (keyword.through stop))
  | assignment {allowance : Nat} {first : LocatedToken} {others tokens : Tokens}
      {target value : Expr} (sign stop : Span)
      (changed : JoinedTokens allowance 1 (first :: others) target)
      (made : JoinedTokens allowance 1 tokens value) :
      StatementTokens allowance
        (first :: (others ++ ⟨.assign, sign⟩ :: (tokens ++ [⟨.semicolon, stop⟩])))
        (.assignment target value (first.span.through stop))
  | returning {allowance : Nat} {tokens : Tokens} {value : Expr} (keyword stop : Span)
      (made : JoinedTokens allowance 1 tokens value) :
      StatementTokens allowance (⟨.returnKeyword, keyword⟩ :: (tokens ++ [⟨.semicolon, stop⟩]))
        (.returning (some value) (keyword.through stop))
  | leaving (allowance : Nat) (keyword stop : Span) :
      StatementTokens allowance [⟨.returnKeyword, keyword⟩, ⟨.semicolon, stop⟩]
        (.returning none (keyword.through stop))
  | evaluation {allowance : Nat} {first : LocatedToken} {others : Tokens} {value : Expr}
      (stop : Span) (made : JoinedTokens allowance 1 (first :: others) value) :
      StatementTokens allowance (first :: (others ++ [⟨.semicolon, stop⟩]))
        (.evaluation value (first.span.through stop))
  | block {allowance : Nat} {tokens : Tokens} {statements : List Stmt}
      (opening closing : Span) (inner : StatementsTokens allowance tokens statements) :
      StatementTokens (allowance + 1)
        (⟨.leftBrace, opening⟩ :: (tokens ++ [⟨.rightBrace, closing⟩]))
        (.block statements opening closing (opening.through closing))

/-- The tokens of statements one behind the other. -/
inductive StatementsTokens : (allowance : Nat) → Tokens → List Stmt → Prop where
  | nil (allowance : Nat) : StatementsTokens allowance [] []
  | cons {allowance : Nat} {tokens others : Tokens} {statement : Stmt}
      {statements : List Stmt} (first : StatementTokens allowance tokens statement)
      (rest : StatementsTokens allowance others statements) :
      StatementsTokens allowance (tokens ++ others) (statement :: statements)

end

section Statements

variable {allowance : Nat} {start : Span}

/-- An ascription takes its tokens. -/
theorem ascription_takes : Takes (ascription allowance) (AscriptionTokens allowance) := by
  intro cursor written after read
  unfold ascription at read
  split at read
  · rename_i next eaten
    obtain ⟨⟨type, final⟩, typed, read⟩ := bind_eq_ok.mp read
    cases read
    obtain ⟨taken, split, tokens⟩ := writtenType_takes allowance _ _ _ typed
    refine ⟨_, ?_, .some next.previous tokens⟩
    rw [rest_of_eat? eaten, split, cons_append]
  · cases read
    exact ⟨[], rfl, .none⟩

/-- An initial value takes its tokens. -/
theorem initializer_takes : Takes (initializer allowance) (InitializerTokens allowance) := by
  intro cursor value after read
  unfold initializer at read
  split at read
  · rename_i next eaten
    obtain ⟨⟨given, final⟩, made, read⟩ := bind_eq_ok.mp read
    cases read
    obtain ⟨taken, split, tokens⟩ := expression_takes allowance _ _ _ made
    refine ⟨_, ?_, .some next.previous tokens⟩
    rw [rest_of_eat? eaten, split, cons_append]
  · cases read
    exact ⟨[], rfl, .none⟩

/-- A `let` statement is taken with its keyword. -/
theorem letRest_takes : Takes (letRest allowance start) fun taken =>
    StatementTokens allowance (⟨.letKeyword, start⟩ :: taken) := by
  intro cursor statement after read
  obtain ⟨⟨⟨name, place⟩, afterName⟩, named, read⟩ := bind_eq_ok.mp read
  obtain ⟨⟨written, afterType⟩, ascribed, read⟩ := bind_eq_ok.mp read
  obtain ⟨afterSign, sign, read⟩ := bind_eq_ok.mp read
  obtain ⟨⟨value, afterValue⟩, valued, read⟩ := bind_eq_ok.mp read
  obtain ⟨final, stop, read⟩ := bind_eq_ok.mp read
  cases read
  obtain ⟨types, splitTypes, typed⟩ := ascription_takes _ _ _ ascribed
  obtain ⟨tokens, split, made⟩ := expression_takes allowance _ _ _ valued
  refine ⟨_, ?_, .letBinding name start place afterSign.previous after.previous typed made⟩
  rw [(rest_of_identifier named).1, splitTypes, rest_of_expect sign, split,
    rest_of_expect stop]
  simp only [cons_append, append_assoc, nil_append]

/-- A `var` statement is taken with its keyword. -/
theorem varRest_takes : Takes (varRest allowance start) fun taken =>
    StatementTokens allowance (⟨.varKeyword, start⟩ :: taken) := by
  intro cursor statement after read
  obtain ⟨⟨⟨name, place⟩, afterName⟩, named, read⟩ := bind_eq_ok.mp read
  obtain ⟨⟨written, afterType⟩, ascribed, read⟩ := bind_eq_ok.mp read
  obtain ⟨⟨value, afterValue⟩, valued, read⟩ := bind_eq_ok.mp read
  obtain ⟨final, stop, read⟩ := bind_eq_ok.mp read
  cases read
  obtain ⟨types, splitTypes, typed⟩ := ascription_takes _ _ _ ascribed
  obtain ⟨tokens, split, made⟩ := initializer_takes _ _ _ valued
  refine ⟨_, ?_, .varBinding name start place after.previous typed made⟩
  rw [(rest_of_identifier named).1, splitTypes, split, rest_of_expect stop]
  simp only [cons_append, append_assoc, nil_append]

/-- A `return` statement is taken with its keyword. -/
theorem returnRest_takes : Takes (returnRest allowance start) fun taken =>
    StatementTokens allowance (⟨.returnKeyword, start⟩ :: taken) := by
  intro cursor statement after read
  unfold returnRest at read
  split at read
  · rename_i eaten
    cases read
    exact ⟨_, rest_of_eat? eaten, .leaving allowance start _⟩
  · obtain ⟨⟨value, afterValue⟩, valued, read⟩ := bind_eq_ok.mp read
    obtain ⟨final, stop, read⟩ := bind_eq_ok.mp read
    cases read
    obtain ⟨tokens, split, made⟩ := expression_takes allowance _ _ _ valued
    refine ⟨_, ?_, .returning start after.previous made⟩
    rw [split, rest_of_expect stop, append_assoc, singleton_append]

/-- An assignment or an expression on its own is taken. -/
theorem plainStatement_takes {statement : Stmt}
    (read : plainStatement allowance cursor.span cursor = .ok (statement, after)) :
    ∃ taken, cursor.rest = taken ++ after.rest ∧ StatementTokens allowance taken statement := by
  obtain ⟨⟨target, afterTarget⟩, targeted, read⟩ := bind_eq_ok.mp read
  obtain ⟨tokens, split, changed⟩ := expression_takes allowance _ _ _ targeted
  obtain ⟨first, others, rfl⟩ := changed.exists_cons
  rw [cons_append] at split
  rw [span_of_rest split] at read
  dsimp only at read
  split at read
  · rename_i afterSign eaten
    obtain ⟨⟨value, afterValue⟩, valued, read⟩ := bind_eq_ok.mp read
    obtain ⟨final, stop, read⟩ := bind_eq_ok.mp read
    cases read
    obtain ⟨valueTokens, splitValue, made⟩ := expression_takes allowance _ _ _ valued
    refine ⟨_, ?_, .assignment afterSign.previous after.previous changed made⟩
    rw [split, rest_of_eat? eaten, splitValue, rest_of_expect stop]
    simp only [cons_append, append_assoc, nil_append]
  · obtain ⟨final, stop, read⟩ := bind_eq_ok.mp read
    cases read
    refine ⟨_, ?_, .evaluation after.previous changed⟩
    rw [split, rest_of_expect stop]
    simp only [cons_append, append_assoc, nil_append]

/-- The reader takes a block; a brace is read last. -/
def TakesBlock (allowance : Nat) (reader : Reader (Block Expr WrittenType)) : Prop :=
  ∀ cursor body after, reader cursor = .ok (body, after) → ∃ tokens,
    cursor.rest =
        ⟨.leftBrace, body.opening⟩ :: (tokens ++ ⟨.rightBrace, body.closing⟩ :: after.rest) ∧
      StatementsTokens allowance tokens body.statements ∧ after.previous = body.closing

variable {inner : Option (Reader (Block Expr WrittenType))}
  (deeper : ∀ reader ∈ inner, ∃ smaller, allowance = smaller + 1 ∧ TakesBlock smaller reader)

include deeper

/-- A statement takes its tokens. -/
theorem statement_takes : Takes (statement allowance inner) (StatementTokens allowance) := by
  intro cursor value after read
  have keyword {token : Token} {reader : Reader Stmt} (ahead : cursor.peek = token)
      (real : token ≠ .eof)
      (takes : Takes reader fun taken => StatementTokens allowance (⟨token, cursor.span⟩ :: taken))
      (read : reader cursor.advance = .ok (value, after)) :
      ∃ taken, cursor.rest = taken ++ after.rest ∧ StatementTokens allowance taken value := by
    obtain ⟨taken, split, made⟩ := takes _ _ _ read
    exact ⟨_, by rw [rest_of_peek ahead real, split, cons_append], made⟩
  unfold statement at read
  split at read
  · rename_i ahead
    exact keyword ahead nofun letRest_takes read
  · rename_i ahead
    exact keyword ahead nofun varRest_takes read
  · rename_i ahead
    exact keyword ahead nofun returnRest_takes read
  · split at read
    · cases read
    · rename_i reader
      obtain ⟨⟨body, next⟩, braced, read⟩ := bind_eq_ok.mp read
      cases read
      obtain ⟨smaller, rfl, takes⟩ := deeper reader rfl
      obtain ⟨tokens, split, made, last⟩ := takes _ _ _ braced
      rw [span_of_rest split, last]
      refine ⟨_, ?_, .block body.opening body.closing made⟩
      rw [split, cons_append, append_assoc, singleton_append]
  · exact plainStatement_takes read

/-- Statements take their tokens. -/
theorem statements_take (bound : Nat) :
    Takes (statements (statement allowance inner) bound) (StatementsTokens allowance) := by
  induction bound with
  | zero =>
    intro cursor values after read
    cases read
    exact ⟨[], rfl, .nil allowance⟩
  | succ bound ih =>
    intro cursor values after read
    unfold statements at read
    split at read
    · cases read
      exact ⟨[], rfl, .nil allowance⟩
    · obtain ⟨⟨first, middle⟩, one, read⟩ := bind_eq_ok.mp read
      obtain ⟨⟨others, final⟩, more, read⟩ := bind_eq_ok.mp read
      cases read
      obtain ⟨taken, split, made⟩ := statement_takes deeper _ _ _ one
      obtain ⟨takenRest, splitRest, madeRest⟩ := ih _ _ _ more
      refine ⟨taken ++ takenRest, ?_, .cons made madeRest⟩
      rw [split, splitRest, append_assoc]

/-- A block in braces takes its tokens. -/
theorem braced_takes : TakesBlock allowance (braced allowance inner) := by
  intro cursor body after read
  obtain ⟨afterOpening, opening, read⟩ := bind_eq_ok.mp read
  obtain ⟨⟨statements, afterItems⟩, items, read⟩ := bind_eq_ok.mp read
  obtain ⟨final, closing, read⟩ := bind_eq_ok.mp read
  cases read
  have front := rest_of_expect opening
  have back := rest_of_expect closing
  obtain ⟨tokens, split, made⟩ := statements_take deeper _ _ _ _ items
  refine ⟨tokens, ?_, made, (span_of_rest back).symm⟩
  rw [span_of_rest front, span_of_rest back, front, split, back]

end Statements

/-- A block is read from its tokens. -/
theorem block_takes (allowance : Nat) : TakesBlock allowance (block allowance) := by
  induction allowance with
  | zero => exact braced_takes nofun
  | succ allowance ih =>
    refine braced_takes ?_
    rintro reader ⟨⟩
    exact ⟨allowance, rfl, ih⟩

/-- Whether an item may end with the token. -/
def endsItem : Token → Bool
  | .rightBrace | .semicolon => true
  | _ => false

/-- A struct ends with a brace or a semicolon. -/
theorem struct_takes {declared : Struct WrittenType}
    (read : (struct cursor).result = .ok (declared, after)) :
    ∃ taken last, cursor.rest = taken ++ last :: after.rest ∧ endsItem last.token := by
  obtain ⟨afterKeyword, keyword, read⟩ := noted_bind_eq_ok.mp read
  obtain ⟨⟨⟨name, span⟩, afterName⟩, named, read⟩ := noted_bind_eq_ok.mp read
  obtain ⟨afterOpening, opening, read⟩ := noted_bind_eq_ok.mp read
  obtain ⟨⟨fields, afterFields⟩, listed, read⟩ := noted_bind_eq_ok.mp read
  obtain ⟨final, closing, read⟩ := noted_bind_eq_ok.mp read
  cases read
  have behindName := (identifier_advances.suffix named).trans (expect_suffix keyword)
  obtain ⟨before, front⟩ :=
    ((fields_advance _).suffix listed).trans ((expect_suffix opening).trans behindName)
  rw [rest_of_expect closing] at front
  unfold Cursor.skip
  split
  · rename_i marked
    refine ⟨before ++ [⟨.rightBrace, final.previous⟩], ⟨.semicolon, final.span⟩, ?_, rfl⟩
    rw [← front, rest_of_peek marked, append_assoc, singleton_append]
  · exact ⟨before, _, front.symm, rfl⟩

/-- A uniform ends with a semicolon. -/
theorem uniform_takes {attributes : List Attribute} {declared : Uniform WrittenType}
    (read : (uniform attributes cursor).result = .ok (declared, after)) :
    ∃ taken last, cursor.rest = taken ++ last :: after.rest ∧ endsItem last.token := by
  obtain ⟨afterKeyword, keyword, read⟩ := noted_bind_eq_ok.mp read
  obtain ⟨⟨⟨name, span⟩, afterName⟩, named, read⟩ := noted_bind_eq_ok.mp read
  obtain ⟨afterColon, colon, read⟩ := noted_bind_eq_ok.mp read
  obtain ⟨⟨written, afterType⟩, typed, read⟩ := noted_bind_eq_ok.mp read
  obtain ⟨final, stop, read⟩ := noted_bind_eq_ok.mp read
  obtain ⟨_, _, read⟩ := noted_bind_eq_ok.mp read
  obtain ⟨_, _, read⟩ := noted_bind_eq_ok.mp read
  cases read
  have behindName := (identifier_advances.suffix named).trans (uniformKeyword_suffix keyword)
  obtain ⟨before, front⟩ :=
    ((writtenType_advances _).suffix typed).trans ((expect_suffix colon).trans behindName)
  exact ⟨before, _, by rw [← front, rest_of_expect stop], rfl⟩

/-- A declaration; functions end with their body. -/
inductive DeclarationTokens : Tokens → Declaration → Prop where
  | function {tokens : Tokens} (before : Tokens)
      (declared : Function Expr WrittenType)
      (inner : StatementsTokens nestingLimit tokens declared.body.statements) :
      DeclarationTokens
        (before ++ ⟨.leftBrace, declared.body.opening⟩ ::
          (tokens ++ [⟨.rightBrace, declared.body.closing⟩]))
        (.function declared)
  | struct {tokens : Tokens} (declared : Struct WrittenType) (nonempty : tokens ≠ []) :
      DeclarationTokens tokens (.struct declared)
  | uniform {tokens : Tokens} (declared : Uniform WrittenType) (nonempty : tokens ≠ []) :
      DeclarationTokens tokens (.uniform declared)

/-- Tokens before a declaration may count to it. -/
theorem DeclarationTokens.prepend (made : DeclarationTokens tokens declaration)
    (before : Tokens) : DeclarationTokens (before ++ tokens) declaration := by
  cases made with
  | function earlier declared inner =>
    rw [← append_assoc]
    exact .function (before ++ earlier) declared inner
  | struct declared nonempty => exact .struct declared (by simp [nonempty])
  | uniform declared nonempty => exact .uniform declared (by simp [nonempty])

/-- A function takes its tokens. -/
theorem function_takes (attributes : List Attribute) {declared : Function Expr WrittenType}
    (read : (function attributes cursor).result = .ok (declared, after)) :
    ∃ taken last, cursor.rest = taken ++ last :: after.rest ∧ endsItem last.token ∧
      DeclarationTokens (taken ++ [last]) (.function declared) := by
  obtain ⟨afterKeyword, keyword, read⟩ := noted_bind_eq_ok.mp read
  obtain ⟨⟨⟨name, span⟩, afterName⟩, named, read⟩ := noted_bind_eq_ok.mp read
  obtain ⟨afterOpening, opening, read⟩ := noted_bind_eq_ok.mp read
  obtain ⟨⟨parameters, afterParameters⟩, listed, read⟩ := noted_bind_eq_ok.mp read
  obtain ⟨afterClosing, closing, read⟩ := noted_bind_eq_ok.mp read
  obtain ⟨⟨⟨returnType, returnAttributes⟩, afterResult⟩, result, read⟩ := noted_bind_eq_ok.mp read
  obtain ⟨⟨body, final⟩, braced, read⟩ := noted_bind_eq_ok.mp read
  cases read
  have behindName := (identifier_advances.suffix named).trans (expect_suffix keyword)
  have behindParameters :=
    ((parameters_advance _).suffix listed).trans ((expect_suffix opening).trans behindName)
  obtain ⟨before, front⟩ :=
    (returnPart_advances.suffix result).trans ((expect_suffix closing).trans behindParameters)
  obtain ⟨tokens, split, made, _⟩ := block_takes nestingLimit _ _ _ braced
  refine ⟨before ++ ⟨.leftBrace, body.opening⟩ :: tokens, ⟨.rightBrace, body.closing⟩, ?_, rfl, ?_⟩
  · rw [← front, split, append_assoc, cons_append]
  · rw [append_assoc, cons_append]
    exact DeclarationTokens.function before (Function.mk ..) made

/-- An item ends with a brace or a semicolon. -/
theorem item_takes (read : (item cursor).result = .ok (declaration, after)) :
    ∃ taken last, cursor.rest = taken ++ last :: after.rest ∧ endsItem last.token ∧
      DeclarationTokens (taken ++ [last]) declaration := by
  obtain ⟨⟨headed, middle⟩, heads, read⟩ := noted_bind_eq_ok.mp read
  obtain ⟨before, front⟩ := (heading_advances _ _).suffix heads
  have asUniform (read : (uniform headed.uniformAttributes middle >>= fun found =>
      pure (Declaration.uniform found.1, found.2)).result = .ok (declaration, after)) :
      ∃ taken last, middle.rest = taken ++ last :: after.rest ∧ endsItem last.token ∧
        DeclarationTokens (taken ++ [last]) declaration := by
    obtain ⟨⟨declared, final⟩, made, read⟩ := noted_bind_eq_ok.mp read
    cases read
    obtain ⟨taken, last, split, ends⟩ := uniform_takes made
    exact ⟨taken, last, split, ends, .uniform _ (by simp)⟩
  have declared : ∃ taken last, middle.rest = taken ++ last :: after.rest ∧ endsItem last.token ∧
      DeclarationTokens (taken ++ [last]) declaration := by
    dsimp only at read
    split at read
    · obtain ⟨⟨declared, final⟩, made, read⟩ := noted_bind_eq_ok.mp read
      cases read
      exact function_takes _ made
    · obtain ⟨⟨declared, final⟩, made, read⟩ := noted_bind_eq_ok.mp read
      cases read
      obtain ⟨taken, last, split, ends⟩ := struct_takes made
      exact ⟨taken, last, split, ends, .struct _ (by simp)⟩
    · exact asUniform read
    · exact asUniform read
    · split at read <;> cases read
  obtain ⟨taken, last, split, ends, made⟩ := declared
  refine ⟨before ++ taken, last, by rw [← front, split, append_assoc], ends, ?_⟩
  rw [append_assoc]
  exact made.prepend before

/-- The declarations of a program in order, others passed over. -/
inductive ProgramTokens : Tokens → Program → Prop where
  | nil (tokens : Tokens) : ProgramTokens tokens []
  | pass {tokens : Tokens} {program : Program} (passed : Tokens)
      (rest : ProgramTokens tokens program) : ProgramTokens (passed ++ tokens) program
  | cons {taken tokens : Tokens} {declaration : Declaration} {program : Program}
      (first : DeclarationTokens taken declaration) (rest : ProgramTokens tokens program) :
      ProgramTokens (taken ++ tokens) (declaration :: program)

/-- Reading goes on at one of the tokens ahead. -/
theorem synchronize_suffix (depth : Nat) (tokens : Tokens) :
    (synchronize depth tokens).2 <:+ tokens := by
  induction tokens generalizing depth with
  | nil => exact suffix_refl _
  | cons next rest ih =>
    unfold synchronize
    split
    · exact suffix_refl _
    · exact (ih _).trans (suffix_cons next rest)

/-- Items take the tokens of a program. -/
theorem items_take (bound : Nat) (cursor : Cursor) :
    ∀ program ∈ (items bound cursor).declarations, ProgramTokens cursor.rest program := by
  induction bound generalizing cursor with
  | zero =>
    rintro _ ⟨⟩
    exact .nil _
  | succ bound ih =>
    intro program declared
    unfold items at declared
    split at declared
    · cases declared
      exact .nil _
    · dsimp only at declared
      split at declared
      · rename_i declaration next read
        obtain ⟨others, rest, rfl⟩ := Option.map_eq_some_iff.mp declared
        obtain ⟨taken, last, split, _, made⟩ := item_takes read
        rw [split, ← singleton_append, ← append_assoc]
        exact .cons made (ih next others rest)
      · rename_i failure read
        split at declared
        · obtain ⟨others, rest, rfl⟩ := Option.map_eq_some_iff.mp declared
          obtain ⟨passed, split⟩ :=
            (synchronize_suffix _ _).trans (drop_suffix _ cursor.rest)
          rw [← split]
          exact .pass passed (ih _ others rest)
        · cases declared

/-- A program is read from the tokens of its text. -/
theorem read_takes (source : SourceText) : ProgramTokens (cursorAt source).rest (read source).1 := by
  have program : (read source).1 =
      (items (cursorAt source).remaining (cursorAt source)).declarations.getD [] := rfl
  rw [program]
  cases declared : (items (cursorAt source).remaining (cursorAt source)).declarations with
  | none => exact .nil _
  | some declarations => exact items_take _ _ declarations declared

end Shading.Surface
