import ReactiveForm.Form.Edit
import ReactiveForm.Recompute.Burst
import ReactiveForm.Test.Basic

/-!
# Pipelines

A scheduler keeps a control up to date through pipelines. Each of them waits for one kind of trigger
and then runs some of the control's tests. Three kinds run tests by their checks when a change
stream yields a value; the fourth one runs the validity tests by their inquiries.

An inquiry pipeline waits for several things at once: for a change, for a request, and for the
results of an evaluation. Where more than one of them is there, nothing says which comes first. A
step is therefore told how its races end (`Race`).

Beside its pipelines a control has an entry in a table, which records whether the next inquiry is
forced, what the last completed inquiry was about, and how often what was done.
-/

namespace ReactiveForm

/-! ## Pipelines that run checks -/

/-- What a change triggers. -/
inductive Reaction where
  /-- Run the validity tests, and request an inquiry that cannot be left out. -/
  | validity
  /-- Run the tests of editability and visibility. -/
  | editability
deriving DecidableEq, Inhabited

/-- A pipeline that runs tests of a control when a change stream yields a value. -/
structure ChangePipeline where
  /-- The control whose tests are run. -/
  control : ControlId
  /-- The control whose changes are watched. -/
  watched : ControlId
  /-- What a change triggers. -/
  reaction : Reaction
  /-- The watcher of the changes. -/
  watcher : Watcher
deriving Inhabited

/-! ## Pipelines that run inquiries -/

/-- An evaluation by inquiries that is under way. -/
structure Evaluation where
  /-- The value that it is about. -/
  value : Json
  /-- Whether it was forced. -/
  forced : Bool
  /-- What its results will be. -/
  results : TestResults
  /-- When its results are there. -/
  finish : Nat
  /-- The rules that are still to be asked, each with the time for it. -/
  upcoming : List (Nat × Rule)
deriving Inhabited

/-- What an inquiry pipeline is doing. -/
inductive InquiryPhase where
  /-- It waits for a trigger. -/
  | waiting
  /-- It waits for further triggers until the time is up. -/
  | gathering (deadline : Nat)
  /-- It waits for the results of an evaluation. -/
  | evaluating (e : Evaluation)
  /-- Nothing more: the stream has ended. -/
  | ended
deriving Inhabited

/-- A pipeline that runs the validity tests of a control by their inquiries. It is triggered by the
changes of the control and by requests. -/
structure InquiryPipeline where
  /-- The control. -/
  control : ControlId
  /-- The tests. -/
  tests : List Test
  /-- The debounce, and whether a value is left out that was evaluated last. -/
  settings : ChangeSettings
  /-- The receiver of the control's changes. -/
  receiver : Nat
  /-- The number of requests that were not taken yet. -/
  requests : Nat
  /-- What the pipeline is doing. -/
  phase : InquiryPhase
deriving Inhabited

/-- What the next trigger of an inquiry pipeline is. -/
inductive Trigger where
  /-- A request or a change, and the pipeline behind it. -/
  | taken (p : InquiryPipeline)
  /-- The end of the stream. -/
  | ended
  /-- Nothing so far. -/
  | pending
deriving Inhabited

namespace Trigger

/-- Whether a trigger is there. -/
def isReady : Trigger → Bool
  | .pending => false
  | .taken _ | .ended => true

/-- The first one of two triggers that is there. -/
def orElse : Trigger → Trigger → Trigger
  | .pending, later => later
  | first, _ => first

end Trigger

/-- How the races of a step end: what is looked for first where a pipeline waits for several things
at once. It only matters where more than one of them is there. -/
structure Race where
  /-- Whether a change, or the end of the stream, is looked for before a request. -/
  changeFirst : Bool
  /-- Whether a further trigger is looked for before the results of an evaluation. -/
  triggerFirst : Bool
deriving DecidableEq, Inhabited

/-- Requests come before changes, and results before triggers. -/
def Race.usual : Race := ⟨false, false⟩

namespace InquiryPipeline

/-- Take a request. -/
def takeRequest (p : InquiryPipeline) : Trigger :=
  if 0 < p.requests then .taken { p with requests := p.requests - 1 } else .pending

/-- Take the next change. -/
def takeChange (p : InquiryPipeline) (stream : Stream Json) : Trigger :=
  match stream.next? p.receiver with
  | some (_, receiver) => .taken { p with receiver }
  | none => if stream.closed then .ended else .pending

/-- Take a trigger: a request or the next change. -/
def trigger (p : InquiryPipeline) (stream : Stream Json) (race : Race) : Trigger :=
  if race.changeFirst then (p.takeChange stream).orElse p.takeRequest
  else p.takeRequest.orElse (p.takeChange stream)

/-- Whether a further trigger is there and comes before the results of an evaluation. -/
def outruns (p : InquiryPipeline) (stream : Stream Json) (race : Race) : Bool :=
  race.triggerFirst && (p.trigger stream race).isReady

/-- Whether the pipeline holds a trigger: it is debouncing or evaluating. -/
def isBusy (p : InquiryPipeline) : Bool :=
  match p.phase with
  | .gathering _ | .evaluating _ => true
  | .waiting | .ended => false

/-- When the pipeline can go on without a further trigger. -/
def deadline? (p : InquiryPipeline) : Option Nat :=
  match p.phase with
  | .gathering deadline => some deadline
  | .evaluating e => some e.finish
  | .waiting | .ended => none

/-- The rules that an evaluation under way asks up to a moment. -/
def due (p : InquiryPipeline) (now : Nat) : List Rule :=
  match p.phase with
  | .evaluating e => (e.upcoming.filter (·.1 ≤ now)).map Prod.snd
  | _ => []

/-- The pipeline when the rules up to a moment have been asked. -/
def tick (p : InquiryPipeline) (now : Nat) : InquiryPipeline :=
  match p.phase with
  | .evaluating e =>
    { p with phase := .evaluating { e with upcoming := e.upcoming.filter (now < ·.1) } }
  | _ => p

/-- A bound on the steps that the pipeline can make: three for each trigger, two for the end of a
debounce, one for the end of an evaluation, and one for the end of the stream. -/
def work (p : InquiryPipeline) (stream : Stream Json) : Nat :=
  let queued := 3 * (stream.unread p.receiver + p.requests)
  match p.phase with
  | .waiting => queued + 1
  | .gathering _ => queued + 3
  | .evaluating _ => queued + 2
  | .ended => 0

end InquiryPipeline

/-! ## The table -/

/-- How often a scheduler did what for a control. -/
structure ScheduleStats where
  /-- Evaluations by inquiries that were started. -/
  asyncRuns : Nat
  /-- Triggers that were answered by the last results. -/
  passthroughs : Nat
  /-- Evaluations that were given up for a further trigger. -/
  superseded : Nat
  /-- Runs of the validity tests because of a dependency. -/
  dependencyValidityRuns : Nat
  /-- Runs of the tests of editability and visibility. -/
  editabilityRuns : Nat
deriving DecidableEq, Inhabited

/-- What a scheduler records about a control. -/
structure ScheduleEntry where
  /-- Whether the next inquiry is forced. -/
  force : Bool
  /-- The value of the last completed evaluation. -/
  lastProcessed : Option Json
  /-- The errors of the last completed evaluation. -/
  lastErrors : Option TestResults
  /-- How often what was done. -/
  stats : ScheduleStats
deriving Inhabited

namespace ScheduleEntry

/-- The entry of a control for which nothing was done. -/
def initial : ScheduleEntry := ⟨false, none, none, ⟨0, 0, 0, 0, 0⟩⟩

/-- The entry with other counters. -/
def count (e : ScheduleEntry) (change : ScheduleStats → ScheduleStats) : ScheduleEntry :=
  { e with stats := change e.stats }

end ScheduleEntry

/-- Entries by their controls, in the order in which they were made. -/
abbrev ScheduleTable := List (ControlId × ScheduleEntry)

namespace ScheduleTable

/-- The entry of a control, or the initial one. -/
def entry (t : ScheduleTable) (id : ControlId) : ScheduleEntry :=
  (t.lookup id).getD .initial

/-- Change the entry of a control, which is made if it is not there. -/
def modify (t : ScheduleTable) (id : ControlId) (change : ScheduleEntry → ScheduleEntry) :
    ScheduleTable :=
  if (t.lookup id).isSome then t.map fun e => if e.1 = id then (id, change e.2) else e
  else t ++ [(id, change .initial)]

/-- Drop the entries of controls that the form does not have. -/
def retain (t : ScheduleTable) (f : Form) : ScheduleTable := t.filter fun e => f.contains e.1

end ScheduleTable

end ReactiveForm
