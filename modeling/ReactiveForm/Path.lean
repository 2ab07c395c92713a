import ReactiveForm.Text.Pieces

/-!
# Dependency paths

A rule names the controls that it depends on by paths relative to the control that carries it. A
path is cut at `/` into groups. A group that is empty, `.` or `..` is a navigation step of its own;
every other group is cut at `.` into the names of children.

| path           | steps                                |
|----------------|--------------------------------------|
| `age`          | child `age`                          |
| `./car.make`   | stay, child `car`, child `make`      |
| `../age`       | parent, child `age`                  |
| `/nicknames.0` | root, child `nicknames`, child `0`   |

A path is followed step by step. Where a step leads nowhere the path resolves to nothing, which is
never an error.
-/

namespace ReactiveForm

/-- One step of a path. -/
inductive Step where
  /-- Go to the root. -/
  | root
  /-- Go to the parent. -/
  | parent
  /-- Stay. -/
  | current
  /-- Go to a named child of a group or to the item of an array at an index. -/
  | child (name : String)
deriving DecidableEq, Inhabited

namespace Step

/-- How a step is shown. -/
def label : Step → String
  | root => "<root>"
  | parent => ".."
  | current => "."
  | child name => name

/-- How a step is written as a group of a path. -/
def group : Step → String
  | root => ""
  | parent => ".."
  | current => "."
  | child name => name

/-- The steps of one group. A group such as `a..b` has the empty name among its children, which no
control has. -/
def ofGroup (g : List Char) : List Step :=
  match g with
  | [] => [root]
  | ['.'] => [current]
  | ['.', '.'] => [parent]
  | g => (Text.pieces '.' g).map fun name => child (String.ofList name)

/-- The steps of a path. -/
def ofPath (path : String) : List Step :=
  (Text.pieces '/' path.toList).flatMap ofGroup

end Step

/-- What a tree of controls offers for following a path. -/
structure Navigator (α : Type) where
  /-- The root. -/
  root : α
  /-- The parent of a control. The root has none. -/
  parent : α → Option α
  /-- The child of a control by its name or index. -/
  child : α → String → Option α

namespace Navigator

variable {α : Type}

/-- Where one step leads. -/
def step (nav : Navigator α) (here : α) : Step → Option α
  | .root => some nav.root
  | .parent => nav.parent here
  | .current => some here
  | .child name => nav.child here name

/-- Where a list of steps leads. -/
def follow (nav : Navigator α) : α → List Step → Option α
  | start, [] => some start
  | start, s :: steps => (nav.step start s).bind fun next => nav.follow next steps

/-- Where a path leads from an anchor. -/
def resolve (nav : Navigator α) (anchor : α) (path : String) : Option α :=
  nav.follow anchor (Step.ofPath path)

/-- Following one list of steps and then another is following both in a row. -/
theorem follow_append (nav : Navigator α) (start : α) (s t : List Step) :
    nav.follow start (s ++ t) = (nav.follow start s).bind fun mid => nav.follow mid t := by
  induction s generalizing start with
  | nil => rfl
  | cons x s ih =>
    simp only [List.cons_append, follow]
    cases nav.step start x with
    | none => rfl
    | some next => exact ih next

end Navigator

/-! ## Places in the model

Where a property stands in a model, and where a control stands in a form, is written with dots from
the root down. The root itself is the empty path.
-/

/-- Put a segment below a place. -/
def joinPath (parent segment : String) : String :=
  if parent.isEmpty then segment else parent ++ "." ++ segment

end ReactiveForm
