import ReactiveForm.Recompute.Scheduler

/-!
# Running the pipelines

A form with a scheduler moves by two kinds of steps: a pipeline that has something to do takes one
step at the current moment, or the clock moves on. The clock only moves when no pipeline can take a
step, and then to the next moment at which one can. Where several things are there that an inquiry
pipeline waits for, a step takes the one that its `Race` puts first.

## Shape of a run

Letting time pass runs all that is ready, moves the clock to the next deadline, and so on up to the
given moment. A pipeline that has taken a step goes on until it has to wait, and then the first
pipeline that can take a step is next. This is one run among all that are possible: pipelines can
take turns in any order, and their races can end either way. The run ends because every step uses up
something: a value in a stream, a request, the end of a debounce or of an evaluation. `Engine.work`
weighs all of this so that each step lowers it, and bounds the number of steps of the run.
-/

namespace ReactiveForm

/-- A form with its scheduler at a moment. -/
structure Engine where
  /-- The form. -/
  form : Form
  /-- The scheduler of the form. -/
  scheduler : Scheduler
  /-- The moment, in milliseconds since the beginning. -/
  clock : Nat
  /-- The rules whose inquiry was started, in order. -/
  asked : List Rule
deriving Inhabited

/-- The name of a pipeline. -/
inductive PipelineRef where
  /-- A pipeline for a dependency, by its position. -/
  | dependency (index : Nat)
  /-- The pipeline for the editability of a control. -/
  | editability (control : ControlId)
  /-- The pipeline for the inquiries of a control. -/
  | inquiry (control : ControlId)
deriving DecidableEq, Inhabited

namespace Engine

/-! ## Reactions to a change -/

/-- Do what a change triggers for a control. -/
def react (e : Engine) (control : ControlId) : Reaction → Engine
  | .validity =>
    let counted := (e.scheduler.markForce control).modifyEntry control fun entry =>
      entry.count fun s => { s with dependencyValidityRuns := s.dependencyValidityRuns + 1 }
    { e with
      form := (e.form.refreshValidity control).2
      scheduler := counted.request control }
  | .editability =>
    let counted := e.scheduler.modifyEntry control fun entry =>
      entry.count fun s => { s with editabilityRuns := s.editabilityRuns + 1 }
    { e with
      form := (e.form.refreshEditability control).2
      scheduler := counted }

/-- One step of a pipeline that runs checks: the pipeline behind it and whether it yields. -/
def stepChange? (e : Engine) (p : ChangePipeline) : Option (ChangePipeline × Bool) :=
  (e.form.changes? p.watched).bind fun stream =>
    (p.watcher.step? e.clock stream).map fun (yielded, watcher) =>
      ({ p with watcher }, yielded.isSome)

/-- React if a pipeline that runs checks has yielded. -/
def reactIf (e : Engine) (p : ChangePipeline) (yielded : Bool) : Engine :=
  if yielded then e.react p.control p.reaction else e

/-- One step of the pipeline for a dependency. -/
def stepDependency? (e : Engine) (index : Nat) : Option Engine :=
  e.scheduler.dependencies[index]?.bind fun p =>
    (e.stepChange? p).map fun (p, yielded) =>
      let s := { e.scheduler with dependencies := e.scheduler.dependencies.set index p }
      { e with scheduler := s }.reactIf p yielded

/-- One step of the pipeline for the editability of a control. -/
def stepEditability? (e : Engine) (control : ControlId) : Option Engine :=
  ((e.scheduler.own.find? (·.control == control)).bind OwnPipelines.editability).bind fun p =>
    (e.stepChange? p).map fun (p, yielded) =>
      let s := e.scheduler.modifyOwn control fun o => { o with editability := some p }
      { e with scheduler := s }.reactIf p yielded

/-! ## Inquiries -/

/-- Put an inquiry pipeline with a new phase in the place of the former one. -/
def enter (e : Engine) (p : InquiryPipeline) (phase : InquiryPhase) : Engine :=
  { e with scheduler := e.scheduler.putInquiry { p with phase } }

/-- Answer a trigger by the errors of the last evaluation. -/
def passThrough (e : Engine) (p : InquiryPipeline) (errors : Option TestResults) : Engine :=
  let counted := e.scheduler.modifyEntry p.control fun entry =>
    entry.count fun s => { s with passthroughs := s.passthroughs + 1 }
  { e with
    form := e.form.applyAsyncValidity p.control errors
    scheduler := counted }.enter p .waiting

/-- Start an evaluation of the tests on a value. Where a further trigger outruns it, the rules that
it asks at once are still to be asked. -/
def evaluate (e : Engine) (p : InquiryPipeline) (forced outrun : Bool) (value : Json) : Engine :=
  let runs := TestResults.runInquiries value e.form.rootValue p.tests
  let counted := e.scheduler.modifyEntry p.control fun entry =>
    entry.count fun s => { s with asyncRuns := s.asyncRuns + 1 }
  let evaluation : Evaluation :=
    { value
      forced
      results := runs.results
      finish := e.clock + runs.duration
      upcoming := (if outrun then runs.askedAtOnce.map (e.clock, ·) else [])
        ++ runs.askedLater.map fun c => (e.clock + c.1, c.2) }
  { e with
    scheduler := counted
    asked := e.asked ++ if outrun then [] else runs.askedAtOnce }.enter p (.evaluating evaluation)

/-- Decide on the current value: answer by the last results if the value is the one that they are
about, and otherwise evaluate it. A forced trigger is always evaluated. -/
def decide (e : Engine) (p : InquiryPipeline) (forced outrun : Bool) : Engine :=
  let value := e.form.value p.control
  let entry := e.scheduler.table.entry p.control
  if !forced && p.settings.distinct && entry.lastProcessed.any (· == value) then
    e.passThrough p entry.lastErrors
  else e.evaluate p forced outrun value

/-- Begin with a trigger that was taken. A forced one does not wait for further triggers. -/
def begin (e : Engine) (p : InquiryPipeline) (outrun : Bool) : Engine :=
  let forced := (e.scheduler.table.entry p.control).force
  let e := { e with
    form := e.form.setPending p.control true
    scheduler := e.scheduler.modifyEntry p.control fun entry => { entry with force := false } }
  if forced ∨ p.settings.debounce = 0 then e.decide p forced outrun
  else e.enter p (.gathering (e.clock + p.settings.debounce))

/-- Apply the results of an evaluation, behind the last of its rules. -/
def complete (e : Engine) (p : InquiryPipeline) (evaluation : Evaluation) : Engine :=
  let errors := evaluation.results.errors?
  { e with
    form := e.form.applyAsyncValidity p.control errors
    scheduler := e.scheduler.modifyEntry p.control fun entry =>
      { entry with lastProcessed := some evaluation.value, lastErrors := errors }
    asked := e.asked ++ p.due e.clock }.enter p .waiting

/-- Give up an evaluation for a trigger that was taken. If it was forced, the next one is. -/
def supersede (e : Engine) (p : InquiryPipeline) (evaluation : Evaluation) (outrun : Bool) :
    Engine :=
  let counted := e.scheduler.modifyEntry p.control fun entry =>
    { entry.count fun s => { s with superseded := s.superseded + 1 } with
      force := entry.force || evaluation.forced }
  { e with scheduler := counted }.begin p outrun

/-- One step of the pipeline for the inquiries of a control. A further trigger comes before the end
of a debounce. -/
def stepInquiry? (e : Engine) (control : ControlId) (race : Race) : Option Engine :=
  (e.scheduler.inquiry? control).bind fun p =>
    (e.form.changes? control).bind fun stream =>
      match p.phase with
      | .ended => none
      | .waiting =>
        match p.trigger stream race with
        | .taken p => some (e.begin p (p.outruns stream race))
        | .ended => some (e.enter p .ended)
        | .pending => none
      | .gathering deadline =>
        match p.trigger stream race with
        | .taken p => some (e.begin p (p.outruns stream race))
        | .ended => some (e.enter p .ended)
        | .pending => if deadline ≤ e.clock then some (e.decide p false false) else none
      | .evaluating evaluation =>
        if evaluation.finish ≤ e.clock ∧ p.outruns stream race = false then
          some (e.complete p evaluation)
        else
          match p.trigger stream race with
          | .taken p => some (e.supersede p evaluation (p.outruns stream race))
          | .ended => some (e.enter p .ended)
          | .pending => none

/-! ## Runs -/

/-- One step of a pipeline, none if it has to wait. -/
def step? (e : Engine) (r : PipelineRef) (race : Race) : Option Engine :=
  match r with
  | .dependency index => e.stepDependency? index
  | .editability control => e.stepEditability? control
  | .inquiry control => e.stepInquiry? control race

/-- All pipelines: those for dependencies, and then those for own changes. -/
def pipelines (e : Engine) : List PipelineRef :=
  (List.range e.scheduler.dependencies.length).map .dependency
    ++ e.scheduler.own.flatMap fun o => [.editability o.control, .inquiry o.control]

/-- The next step: of the pipeline that took the last one if it can go on, and otherwise of the
first one that can. Its races end as usual. -/
def next? (e : Engine) (last : Option PipelineRef) : Option (PipelineRef × Engine) :=
  (last.toList ++ e.pipelines).findSome? fun r => (e.step? r .usual).map fun e => (r, e)

/-- The moments at which a pipeline can go on without a trigger. -/
def deadlines (e : Engine) : List Nat :=
  e.scheduler.dependencies.filterMap (·.watcher.deadline?)
    ++ e.scheduler.own.flatMap fun o =>
      (o.editability.bind (·.watcher.deadline?)).toList
        ++ (o.inquiry.bind InquiryPipeline.deadline?).toList

/-- The earliest of these moments. -/
def nextDeadline? (e : Engine) : Option Nat := e.deadlines.min?

/-- Whether no pipeline can take a step, now or later, unless something changes. -/
def isSettled (e : Engine) : Bool := (e.next? none).isNone && e.deadlines.isEmpty

/-- Move the clock. Evaluations under way ask the rules that are due by then. -/
def tick (e : Engine) (now : Nat) : Engine :=
  let inquiries := e.scheduler.own.filterMap OwnPipelines.inquiry
  let s := { e.scheduler with
    own := e.scheduler.own.map fun o => { o with inquiry := o.inquiry.map (·.tick now) } }
  { e with
    scheduler := s
    clock := now
    asked := e.asked ++ inquiries.flatMap (·.due now) }

/-- The work that a pipeline that runs checks still has. A value in its stream weighs more than the
request that it may lead to, and so does the end of a burst. -/
def changeWork (e : Engine) (p : ChangePipeline) : Nat :=
  match e.form.changes? p.watched with
  | some stream => p.watcher.work stream 5 4
  | none => 0

/-- The work that an inquiry pipeline still has. -/
def inquiryWork (e : Engine) (p : InquiryPipeline) : Nat :=
  match e.form.changes? p.control with
  | some stream => p.work stream
  | none => 0

/-- The work that the pipelines of a control still have. -/
def ownWork (e : Engine) (o : OwnPipelines) : Nat :=
  (o.editability.map e.changeWork).getD 0 + (o.inquiry.map e.inquiryWork).getD 0

/-- The work that all pipelines still have. Every step lowers it. -/
def work (e : Engine) : Nat :=
  e.scheduler.dependencies.foldr (fun p n => e.changeWork p + n) 0
    + e.scheduler.own.foldr (fun o n => e.ownWork o + n) 0

/-- Run up to a moment, for a bounded number of steps and moves of the clock. -/
def runWithin : Nat → Nat → Option PipelineRef → Engine → Engine
  | 0, target, _, e => e.tick target
  | n + 1, target, last, e =>
    match e.next? last with
    | some (r, e) => runWithin n target (some r) e
    | none =>
      match e.nextDeadline? with
      | none => e.tick target
      | some deadline =>
        if deadline ≤ target then runWithin n target none (e.tick deadline) else e.tick target

/-- Run up to a moment. Between two moves of the clock there is a step, so that twice the work is
enough. -/
def runUntil (e : Engine) (target : Nat) : Engine := runWithin (2 * e.work + 1) target none e

/-- Let time pass. -/
def advance (e : Engine) (ms : Nat) : Engine := e.runUntil (e.clock + ms)

/-- Run the validity tests of a control and request an inquiry that cannot be left out. -/
def force (e : Engine) (id : ControlId) : Engine :=
  { e with
    form := (e.form.refreshValidity id).2
    scheduler := (e.scheduler.markForce id).request id }

end Engine

end ReactiveForm
