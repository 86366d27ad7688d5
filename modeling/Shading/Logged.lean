/-!
# Values with a log

A computation that never fails but may have something to say gives its value together with what it
said, in order.
-/

namespace Shading

/-- A value and the entries that were written on the way to it. -/
structure Logged (Entry α : Type) where
  value : α
  log : List Entry
deriving Repr

namespace Logged

variable {Entry α β : Type}

/-- Writes entries and gives no value. -/
def write (entries : List Entry) : Logged Entry Unit := ⟨(), entries⟩

instance : Monad (Logged Entry) where
  pure value := ⟨value, []⟩
  bind first next :=
    let second := next first.value
    ⟨second.value, first.log ++ second.log⟩

/-- A value is kept. -/
@[simp] theorem value_pure (value : α) : (pure value : Logged Entry α).value = value := rfl

/-- A value tells nothing. -/
@[simp] theorem log_pure (value : α) : (pure value : Logged Entry α).log = [] := rfl

/-- The second step is made of the value of the first. -/
@[simp] theorem value_bind (first : Logged Entry α) (next : α → Logged Entry β) :
    (first >>= next).value = (next first.value).value := rfl

/-- Both steps are told. -/
@[simp] theorem log_bind (first : Logged Entry α) (next : α → Logged Entry β) :
    (first >>= next).log = first.log ++ (next first.value).log := rfl

/-- Keeps the value of a success; an error becomes an entry. -/
def ofExcept (result : Except Entry α) : Logged Entry (Option α) :=
  match result with
  | .ok value => ⟨some value, []⟩
  | .error entry => ⟨none, [entry]⟩

end Logged

end Shading
