import ReactiveForm.Recompute.Engine

/-!
# Sessions

A session is a form over time: with or without a scheduler attached, with observers of its
structure, and with a clock. Edits and lookups happen at once. Pipelines only run when time passes.

An edit checks first whether it can be made, and then it changes the form step by step: it stores a
value or restructures an array, runs the validity tests of the edited control and of its ancestors,
and publishes their new values, from the inside out. An edit that fails leaves the session as far as
it has come (`Editing`).

A change to the structure is told before it is published: the scheduler fits its pipelines to the
new structure, and each observer records the change and the form that it sees. The values of the
array and its ancestors are published after that, so that new pipelines receive them.
-/

namespace ReactiveForm

/-- An observer of the structure of a form. -/
structure Observer where
  /-- The number under which it was registered. -/
  number : Nat
  /-- Whether anybody still holds it. -/
  held : Bool
  /-- The changes to the structure that it was told, each with the form at that moment. -/
  seen : List (StructureChange × Form)
deriving Inhabited

/-- The observer that is told a change, and looks at the form. -/
def Observer.tell (o : Observer) (change : StructureChange) (form : Form) : Observer :=
  { o with seen := o.seen ++ [(change, form)] }

/-- A form over time. -/
structure Session where
  /-- The form. -/
  form : Form
  /-- The scheduler, if one is attached. -/
  scheduler : Option Scheduler
  /-- The observers of the structure, in the order in which they were registered. -/
  observers : List Observer
  /-- How many observers were registered so far. -/
  registered : Nat
  /-- The moment, in milliseconds since the beginning. -/
  clock : Nat
  /-- The rules whose inquiry was started, in order. -/
  asked : List Rule
deriving Inhabited

namespace Session

/-- A session with a new form. -/
def start (f : Form) : Session := ⟨f, none, [], 0, 0, []⟩

/-- The session with another form. -/
def withForm (s : Session) (form : Form) : Session := { s with form }

/-- The session with empty records of called rules. -/
def clearCalled (s : Session) : Session := { s with form := s.form.clearCalled, asked := [] }

/-- Tell a change to the structure of the form to the scheduler and to the observers. Those that
nobody holds any more are forgotten. -/
def notify (s : Session) (change : StructureChange) : Session :=
  { s with
    scheduler := s.scheduler.map fun sched => sched.rebuild s.form
    observers := (s.observers.filter Observer.held).map fun o => o.tell change s.form }

/-! ## Edits -/

/-- An edit of a session: what it gives back or why it fails, and the session that it leaves. -/
abbrev Editing := EStateM FormError Session

namespace Editing

/-- The form as it is. -/
def form : Editing Form := return (← get).form

/-- Change the form. -/
def modifyForm (change : Form → Form) : Editing Unit := modify fun s => s.withForm (change s.form)

/-- The control with a number. -/
def control (id : ControlId) : Editing Control := do
  match (← form).control? id with
  | some c => return c
  | none => throw (.unknownControl id)

/-- Give a field a new value. -/
def setValue (id : ControlId) (value : Json) : Editing Unit := do
  let c ← control id
  if c.kind ≠ .field then throw (.notAField ((← form).pathOrEmpty id))
  modifyForm fun f => f.stored id value
  let lineage := (← form).lineage id
  modifyForm fun f => f.refreshLineage lineage
  modifyForm fun f => f.publish lineage

/-- Run the tests along the lineage of an array with a new structure, tell the change, and publish
it. -/
def spread (lineage : List ControlId) (change : StructureChange) : Editing Unit := do
  modifyForm fun f => f.refreshLineage lineage
  modify fun s => s.notify change
  modifyForm fun f => f.publish lineage
  modifyForm fun f => f.announce change

/-- Put an item into an array. The result is the number of its control. -/
def insert (array : ControlId) (index : Nat) (value : Json) : Editing ControlId := do
  let c ← control array
  match c.children, c.property.bind Property.item? with
  | .indexed items, some item =>
    if items.length < index then
      throw (.indexOutOfBounds ((← form).pathOrEmpty array) index items.length)
    let first := (← form).slots.size
    modifyForm fun f => f.grown array items index item value
    let created := (← form).idsFrom first
    let lineage := (← form).lineage array
    modifyForm fun f => f.refreshNew created
    spread lineage (.inserted array index)
    return first
  | _, _ => throw (.notAnArray ((← form).pathOrEmpty array))

/-- Put an item at the end of an array. The result is the number of its control. -/
def push (array : ControlId) (value : Json) : Editing ControlId := do
  let c ← control array
  match c.children with
  | .indexed items => insert array items.length value
  | _ => throw (.notAnArray ((← form).pathOrEmpty array))

/-- Take an item out of an array. The result is the value that it had. -/
def remove (array : ControlId) (index : Nat) : Editing Json := do
  let c ← control array
  match c.children with
  | .indexed items =>
    match items[index]? with
    | none => throw (.indexOutOfBounds ((← form).pathOrEmpty array) index items.length)
    | some item =>
      let value := (← form).value item
      modifyForm fun f => f.shrunk array items index item
      spread ((← form).lineage array) (.removed array index)
      return value
  | _ => throw (.notAnArray ((← form).pathOrEmpty array))

/-- Add a message of a caller, or replace the one with the same key. -/
def setExternal (id : ControlId) (key message : String) : Editing Unit := do
  let _ ← control id
  modifyForm fun f => f.modifyState id (·.setExternal key message)

/-- Take away a message of a caller. The result is whether it was there. -/
def clearExternal (id : ControlId) (key : String) : Editing Bool := do
  let c ← control id
  modifyForm fun f => f.modifyState id (·.clearExternal key)
  return c.state.hasExternal key

end Editing

/-! ## Observing the structure -/

/-- Register an observer. The result is its number. -/
def observe (s : Session) : Nat × Session :=
  (s.registered,
    { s with
      observers := s.observers ++ [⟨s.registered, true, []⟩]
      registered := s.registered + 1 })

/-- Let go of an observer. -/
def unobserve (s : Session) (number : Nat) : Session :=
  { s with
    observers := s.observers.map fun o =>
      if o.number = number then { o with held := false } else o }

/-- What an observer was told since the last time. -/
def takeObserved (s : Session) (number : Nat) : List (StructureChange × Form) × Session :=
  ((s.observers.filter (·.number = number)).flatMap Observer.seen,
    { s with
      observers := s.observers.map fun o =>
        if o.number = number then { o with seen := [] } else o })

/-! ## Scheduling -/

/-- Attach a scheduler, in place of one that is there. -/
def attach (s : Session) : Session := { s with scheduler := some (.attach s.form) }

/-- Drop the scheduler together with all that its pipelines are doing. -/
def detach (s : Session) : Session := { s with scheduler := none }

/-- The form with its scheduler, if one is attached. -/
def engine? (s : Session) : Option Engine :=
  s.scheduler.map fun sched => ⟨s.form, sched, s.clock, s.asked⟩

/-- The session with the form and the scheduler of an engine. -/
def withEngine (s : Session) (e : Engine) : Session :=
  { s with form := e.form, scheduler := some e.scheduler, clock := e.clock, asked := e.asked }

/-- Make the pipelines for dependencies anew. -/
def rebuild (s : Session) : Session :=
  { s with scheduler := s.scheduler.map fun sched => sched.rebuild s.form }

/-- Run the validity tests of a control and request an inquiry that cannot be left out. -/
def force (s : Session) (id : ControlId) : Session :=
  match s.engine? with
  | some e => s.withEngine (e.force id)
  | none => s

/-- Let time pass. -/
def advance (s : Session) (ms : Nat) : Session :=
  match s.engine? with
  | some e => s.withEngine (e.advance ms)
  | none => { s with clock := s.clock + ms }

end Session

end ReactiveForm
