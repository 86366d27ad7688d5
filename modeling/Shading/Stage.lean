/-!
# Pipeline stages and decorators

A decorator `@name(arguments)` attaches a pipeline stage, an address or a role to a declaration, a
parameter, a field or a return type.
-/

namespace Shading

/-- The stage of the pipeline in which an entry point runs. -/
inductive Stage where
  | vertex
  | fragment
  | compute
deriving DecidableEq, Repr, Inhabited

namespace Stage

/-- The name of a stage in source and output. -/
def name : Stage → String
  | .vertex => "vertex"
  | .fragment => "fragment"
  | .compute => "compute"

/-- The stage of a name. -/
def ofName? : String → Option Stage
  | "vertex" => some .vertex
  | "fragment" => some .fragment
  | "compute" => some .compute
  | _ => none

/-- Stages are found by their names. -/
theorem ofName?_name (stage : Stage) : ofName? stage.name = some stage := by
  cases stage <;> rfl

end Stage

/-- A decorator whose arguments have been checked. -/
inductive Attribute where
  | stage (which : Stage)
  | workgroupSize (dimensions : List Nat)
  | group (index : Nat)
  | binding (index : Nat)
  | visibility (stages : List Stage)
  | builtin (name : String)
  | location (index : Nat)
deriving DecidableEq, Repr, Inhabited

namespace Attribute

/-- How a decorator is written. -/
def text : Attribute → String
  | .stage which => "@" ++ which.name
  | .workgroupSize dimensions => "@workgroup_size(" ++ ", ".intercalate (dimensions.map Nat.repr) ++ ")"
  | .group index => "@group(" ++ index.repr ++ ")"
  | .binding index => "@binding(" ++ index.repr ++ ")"
  | .visibility stages => "@visibility(" ++ ", ".intercalate (stages.map Stage.name) ++ ")"
  | .builtin name => "@builtin(" ++ name ++ ")"
  | .location index => "@location(" ++ index.repr ++ ")"

/-- The stages that decorators name, in order. -/
def stages (attributes : List Attribute) : List Stage :=
  attributes.filterMap fun
    | .stage which => some which
    | _ => none

/-- The first builtin value that decorators name. -/
def firstBuiltin? (attributes : List Attribute) : Option String :=
  attributes.findSome? fun
    | .builtin name => some name
    | _ => none

/-- The first location that decorators name. -/
def firstLocation? (attributes : List Attribute) : Option Nat :=
  attributes.findSome? fun
    | .location index => some index
    | _ => none

/-- The first workgroup size that decorators name. -/
def workgroupSize? (attributes : List Attribute) : Option (List Nat) :=
  attributes.findSome? fun
    | .workgroupSize dimensions => some dimensions
    | _ => none

/-- Whether a decorator gives a group or a binding. -/
def isBinding : Attribute → Bool
  | .group _ | .binding _ => true
  | _ => false

end Attribute

end Shading
