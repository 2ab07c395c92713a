import ReactiveForm.Recompute.Pipeline

/-!
# The pipelines of a form

A scheduler holds the pipelines of one form. The pipelines for dependencies are made anew whenever
the structure of the form changes, because the paths of dependencies may lead elsewhere then. The
pipelines for a control's own changes stay for as long as the control exists.

Paths of dependencies start at the parent of the control. A path that leads nowhere has no pipeline.
-/

namespace ReactiveForm

/-- The pipelines for the own changes of a control. -/
structure OwnPipelines where
  /-- The control. -/
  control : ControlId
  /-- Runs the tests of editability and visibility, if there are any. -/
  editability : Option ChangePipeline
  /-- Runs the inquiries of the validity tests, if there are any. -/
  inquiry : Option InquiryPipeline
deriving Inhabited

namespace OwnPipelines

/-- How many pipelines these are. -/
def count (o : OwnPipelines) : Nat := o.editability.toList.length + o.inquiry.toList.length

end OwnPipelines

/-- The pipelines of a form and the table of its controls. -/
structure Scheduler where
  /-- The pipelines for dependencies, in the order of the controls. -/
  dependencies : List ChangePipeline
  /-- The pipelines for own changes, of each control that has a property. -/
  own : List OwnPipelines
  /-- The table of the controls. -/
  table : ScheduleTable
deriving Inhabited

namespace Scheduler

/-- A scheduler without pipelines. -/
def empty : Scheduler := ⟨[], [], []⟩

/-! ## Making pipelines -/

/-- A pipeline that watches a control, if it is there. -/
def watch? (f : Form) (control watched : ControlId) (reaction : Reaction)
    (settings : ChangeSettings) : Option ChangePipeline :=
  if f.contains watched then
    (f.changes? watched).map fun stream =>
      ⟨control, watched, reaction, .create stream settings⟩
  else none

/-- The paths on which the validity tests of a property depend. -/
def validPaths (p : Property) : List String := Test.dependencyPaths p.validTests

/-- The paths on which the tests of editability and visibility of a property depend. -/
def editPaths (p : Property) : List String :=
  distinct (Test.dependencyPaths p.editTests ++ Test.dependencyPaths p.viewTests)

/-- The control from which the dependencies of a control are looked up. -/
def anchor (f : Form) (id : ControlId) : ControlId := (f.parent? id).getD Form.root

/-- The pipelines of a control for paths of dependencies. -/
def watchPaths (f : Form) (id : ControlId) (reaction : Reaction) (settings : ChangeSettings)
    (paths : List String) : List ChangePipeline :=
  paths.filterMap fun path =>
    (f.resolve (anchor f id) path).bind fun watched => watch? f id watched reaction settings

/-- The pipelines of a control for its dependencies. -/
def dependenciesOf (f : Form) (id : ControlId) : List ChangePipeline :=
  match f.property? id with
  | none => []
  | some p =>
    let policy := f.policy id
    watchPaths f id .validity policy.dependencyValid (validPaths p)
      ++ watchPaths f id .editability policy.dependencyEdit (editPaths p)

/-- The pipeline for the inquiries of a control, with a request for the first one. -/
def inquiryOf? (f : Form) (id : ControlId) (p : Property) : Option InquiryPipeline :=
  if p.validTests.any Test.hasInquiry then
    (f.changes? id).map fun stream =>
      ⟨id, p.validTests, (f.policy id).selfAsyncValid, stream.subscribe, 1, .waiting⟩
  else none

/-- The pipelines of a control for its own changes. A control without a property has none. -/
def ownOf? (f : Form) (id : ControlId) : Option OwnPipelines :=
  (f.property? id).map fun p =>
    { control := id
      editability :=
        if p.editTests.isEmpty ∧ p.viewTests.isEmpty then none
        else watch? f id id .editability (f.policy id).selfEdit
      inquiry := inquiryOf? f id p }

/-- Whether the scheduler has met a control already. -/
def knows (s : Scheduler) (id : ControlId) : Bool := s.own.any (·.control == id)

/-- Fit the pipelines to the current structure of the form. -/
def rebuild (s : Scheduler) (f : Form) : Scheduler :=
  let live := f.controls
  let added := (live.filter fun id => !s.knows id).filterMap (ownOf? f)
  let inquiring := (added.filter (·.inquiry.isSome)).map OwnPipelines.control
  { dependencies := live.flatMap (dependenciesOf f)
    own := s.own.filter (fun o => f.contains o.control) ++ added
    table := inquiring.foldl (fun t id => t.modify id fun e => e) (s.table.retain f) }

/-- A scheduler for a form. Every inquiry is requested once. -/
def attach (f : Form) : Scheduler := empty.rebuild f

/-! ## Looking at a scheduler -/

/-- How many pipelines watch dependencies. -/
def dependencyCount (s : Scheduler) : Nat := s.dependencies.length

/-- How many pipelines watch own changes. -/
def ownCount (s : Scheduler) : Nat := s.own.foldr (fun o n => o.count + n) 0

/-- The counters of a control for which something was done or recorded. -/
def stats? (s : Scheduler) (id : ControlId) : Option ScheduleStats :=
  (s.table.lookup id).map ScheduleEntry.stats

/-- The inquiry pipeline of a control. -/
def inquiry? (s : Scheduler) (id : ControlId) : Option InquiryPipeline :=
  (s.own.find? (·.control == id)).bind OwnPipelines.inquiry

/-! ## Changing a scheduler -/

/-- Change the entry of a control. -/
def modifyEntry (s : Scheduler) (id : ControlId) (change : ScheduleEntry → ScheduleEntry) :
    Scheduler :=
  { s with table := s.table.modify id change }

/-- Change the own pipelines of a control. -/
def modifyOwn (s : Scheduler) (id : ControlId) (change : OwnPipelines → OwnPipelines) :
    Scheduler :=
  { s with own := s.own.map fun o => if o.control = id then change o else o }

/-- Put an inquiry pipeline in the place of the former one. -/
def putInquiry (s : Scheduler) (p : InquiryPipeline) : Scheduler :=
  s.modifyOwn p.control fun o => { o with inquiry := some p }

/-- Make the next inquiry of a control a forced one. -/
def markForce (s : Scheduler) (id : ControlId) : Scheduler :=
  s.modifyEntry id fun e => { e with force := true }

/-- Request an inquiry. A control without inquiries ignores it. -/
def request (s : Scheduler) (id : ControlId) : Scheduler :=
  s.modifyOwn id fun o =>
    { o with inquiry := o.inquiry.map fun p => { p with requests := p.requests + 1 } }

end Scheduler

end ReactiveForm
