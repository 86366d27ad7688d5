import Shading.Surface.Cursor

/-!
# Reading types

A written type is a name, perhaps with arguments in angle brackets: types again, or sizes. Each
level of angle brackets is one level of nesting.
-/

namespace Shading.Surface

/-- Reads one argument of a type; `inner` reads deeper types, if admitted. -/
def typeArgument (inner : Option (Reader WrittenType)) (cursor : Cursor) :
    Except Failure (TypeArgument × Cursor) :=
  match cursor.peek with
  | .number literal =>
    match literal.index? with
    | some value => .ok (.size value, cursor.advance)
    | none => fail .invalidArraySize cursor
  | _ =>
    match inner with
    | none => fail .typeTooDeep cursor
    | some inner => do
      let (written, cursor) ← inner cursor
      .ok (.type written, cursor)

/-- Reads arguments in angle brackets. -/
def typeArguments (inner : Option (Reader WrittenType)) (cursor : Cursor) :
    Except Failure (List TypeArgument × Cursor) := do
  let cursor ← expect .less cursor
  let (arguments, cursor) ← separated (typeArgument inner) cursor.remaining cursor
  let cursor ← expect .greater cursor
  .ok (arguments, cursor)

/-- Reads a name and its arguments, if it has any. -/
def namedType (inner : Option (Reader WrittenType)) (cursor : Cursor) :
    Except Failure (WrittenType × Cursor) := do
  let ((name, span), cursor) ← identifier cursor
  if cursor.peek = .less then
    let (arguments, cursor) ← typeArguments inner cursor
    .ok (.mk name arguments (span.through cursor.previous), cursor)
  else .ok (.mk name [] (span.through cursor.previous), cursor)

/-- Reads a type that may nest `allowance` levels deep. -/
def writtenType : (allowance : Nat) → Reader WrittenType
  | 0 => namedType none
  | allowance + 1 => namedType (some (writtenType allowance))

/-- Reads types one level deeper, if `allowance` admits that. -/
def innerType : (allowance : Nat) → Option (Reader WrittenType)
  | 0 => none
  | allowance + 1 => some (writtenType allowance)

/-- A type is read with its inner types. -/
theorem writtenType_eq (allowance : Nat) : writtenType allowance = namedType (innerType allowance) := by
  cases allowance <;> rfl

end Shading.Surface
