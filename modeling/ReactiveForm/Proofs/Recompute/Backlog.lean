import ReactiveForm.Proofs.Recompute.Evaluations
import ReactiveForm.Proofs.Recompute.Tally

/-!
# What is left to do

A value that is queued is good for one pass, and so is a burst of values that a pipeline is waiting
out (`openPasses`). A trigger that is queued is good for one evaluation, and so is the one that an
inquiry pipeline holds in a debounce (`openEvaluations`). A pipeline has one timer at most.

A step makes no more than it uses up: a pass uses up a value or a debounce (`Attached.passes_le`),
and an evaluation uses up a trigger or a debounce. Only passes that run validity tests queue further
triggers, one each (`Attached.evaluations_le`). Time alone lets timers run out.
-/

namespace ReactiveForm

/-- Whether a pipeline is inside a debounce. -/
def ChangePipeline.isGathering (q : ChangePipeline) : Bool := q.watcher.deadline?.isSome

/-- Whether an inquiry pipeline is inside a debounce, at the end of which it will decide. -/
def InquiryPhase.isGathering : InquiryPhase → Bool
  | .gathering _ => true
  | _ => false

theorem InquiryPhase.isGathering_tick (phase : InquiryPhase) (now : Nat) :
    (phase.tick now).isGathering = phase.isGathering := by
  cases phase <;> rfl

/-- A pipeline that waits for the end of a debounce has not started an evaluation. -/
theorem InquiryPhase.gathering_add_evaluation_le (phase : InquiryPhase) :
    (if phase.isGathering then 1 else 0) + phase.evaluation?.toList.length ≤ 1 := by
  cases phase <;> simp [isGathering, evaluation?]

/-- How many triggers an inquiry pipeline has before it. -/
def InquiryPipeline.queued (f : Form) (p : InquiryPipeline) : Nat :=
  ((f.changes? p.control).map fun s => s.unread p.receiver).getD 0 + p.requests

theorem InquiryPipeline.Takes.queued_add_one {f : Form} {p p' : InquiryPipeline}
    {s : Stream Json} (hstream : f.changes? p.control = some s) (hs : s.Sound)
    (h : p.Takes s p') : p'.queued f + 1 = p.queued f := by
  have htaken := h.unread_add_requests hs
  rw [queued, queued, h.control, hstream]
  exact htaken

namespace Engine

variable {e e' : Engine} {race : Race}

/-! ## What is counted -/

/-- The passes of all controls. -/
def allPasses (e : Engine) (reaction : Reaction) : Nat :=
  total (fun id => e.passes id reaction) e.form.controls

/-- The evaluations of all controls that were started. -/
def allEvaluations (e : Engine) : Nat := total e.asyncRuns e.form.controls

/-- The values that are queued for passes, and the pipelines that are inside a debounce. -/
def openPasses (e : Engine) (reaction : Reaction) : Nat :=
  let pipelines := e.scheduler.changePipelines.filter fun q => q.reaction = reaction
  total (·.unread e.form) pipelines + pipelines.countP ChangePipeline.isGathering

/-- The triggers that are queued for inquiries, and the pipelines that hold one in a debounce. -/
def openEvaluations (e : Engine) : Nat :=
  total (·.queued e.form) e.scheduler.inquiryPipelines +
    e.scheduler.inquiryPipelines.countP (·.phase.isGathering)

/-- The timers that are running. -/
def timers (e : Engine) : Nat := e.deadlines.countP fun deadline => e.clock < deadline

/-- The timers that run out up to a moment. -/
def expiries (e : Engine) (now : Nat) : Nat :=
  e.deadlines.countP fun deadline => e.clock < deadline ∧ deadline ≤ now

/-! ## Counts as weights -/

/-- A pipeline weighs as much as the passes that it can still trigger. -/
def passWeights (f : Form) (reaction : Reaction) : Weights where
  change q :=
    if q.reaction = reaction then q.unread f + if q.isGathering then 1 else 0 else 0
  inquiry _ := 0

/-- A pipeline weighs as much as the evaluations that it can still start. -/
def evaluationWeights (f : Form) : Weights where
  change _ := 0
  inquiry p := p.queued f + if p.phase.isGathering then 1 else 0

/-- A pipeline weighs one while it has a timer running. -/
def timerWeights (now : Nat) : Weights where
  change q := q.watcher.deadline?.toList.countP fun deadline => now < deadline
  inquiry p := p.deadline?.toList.countP fun deadline => now < deadline

theorem openPasses_eq (e : Engine) (reaction : Reaction) :
    e.openPasses reaction = e.scheduler.weight (passWeights e.form reaction) := by
  have hchange : ∀ l : List ChangePipeline,
      total (·.unread e.form) (l.filter fun q => q.reaction = reaction) +
          (l.filter fun q => q.reaction = reaction).countP ChangePipeline.isGathering =
        total (passWeights e.form reaction).change l := by
    intro l
    induction l with
    | nil => rfl
    | cons q l ih =>
        rw [total_cons, ← ih, passWeights]
        by_cases hq : q.reaction = reaction
        · simp [hq, List.countP_cons]
          omega
        · simp [hq]
  have hinquiry : total (passWeights e.form reaction).inquiry e.scheduler.inquiryPipelines = 0 :=
    total_zero _
  rw [openPasses, hchange, Scheduler.weight, hinquiry, Nat.add_zero]

theorem openEvaluations_eq (e : Engine) :
    e.openEvaluations = e.scheduler.weight (evaluationWeights e.form) := by
  have hchange := total_zero e.scheduler.changePipelines
  rw [openEvaluations, ← total_ite, ← total_add, Scheduler.weight, evaluationWeights, hchange,
    Nat.zero_add]

theorem openPasses_of_sameDocument (hdoc : Form.SameDocument e'.form e.form) (reaction : Reaction) :
    e'.openPasses reaction = e'.scheduler.weight (passWeights e.form reaction) := by
  have hsame : passWeights e'.form reaction = passWeights e.form reaction := by
    refine congrArg (Weights.mk · fun _ => 0) (funext fun q => ?_)
    rw [ChangePipeline.unread_congr (hdoc.changes _)]
  rw [openPasses_eq, hsame]

theorem openEvaluations_of_sameDocument (hdoc : Form.SameDocument e'.form e.form) :
    e'.openEvaluations = e'.scheduler.weight (evaluationWeights e.form) := by
  have hsame : evaluationWeights e'.form = evaluationWeights e.form := by
    refine congrArg (Weights.mk fun _ => 0) (funext fun p => ?_)
    rw [InquiryPipeline.queued, InquiryPipeline.queued, hdoc.changes]
  rw [openEvaluations_eq, hsame]

theorem timers_eq (e : Engine) : e.timers = e.scheduler.weight (timerWeights e.clock) := by
  have hchange : ∀ l : List ChangePipeline,
      (l.filterMap (·.watcher.deadline?)).countP (fun deadline => e.clock < deadline) =
        total (timerWeights e.clock).change l := by
    intro l
    induction l with
    | nil => rfl
    | cons q l ih =>
        have hweight : (timerWeights e.clock).change q =
            q.watcher.deadline?.toList.countP fun deadline => e.clock < deadline := rfl
        rw [total_cons, ← ih, List.filterMap_cons, hweight]
        cases q.watcher.deadline? with
        | none => simp
        | some deadline =>
            simp only [Option.toList_some, List.countP_cons, List.countP_nil]
            omega
  have hown : ∀ l : List OwnPipelines,
      (l.flatMap fun o => (o.editability.bind (·.watcher.deadline?)).toList ++
          (o.inquiry.bind InquiryPipeline.deadline?).toList).countP
            (fun deadline => e.clock < deadline) =
        total (fun o => (o.editability.map (timerWeights e.clock).change).getD 0 +
          (o.inquiry.map (timerWeights e.clock).inquiry).getD 0) l := by
    intro l
    induction l with
    | nil => rfl
    | cons o l ih =>
        rw [total_cons, ← ih, List.flatMap_cons, List.countP_append, List.countP_append]
        cases o.editability <;> cases o.inquiry <;> rfl
  rw [timers, deadlines, List.countP_append, hchange, hown, Scheduler.weight_own]

end Engine

/-! ## Single pipelines -/

section Watchers

variable {w w' : Watcher} {s : Stream Json} {v : Json} {y : Option Json} {now receiver : Nat}

/-- A value that a watcher has received, alone or at the end of a burst, is used up. -/
theorem Watcher.Offers.unread_add_one_le (hs : s.Sound) (h : Offers w now s v receiver) :
    s.unread receiver + 1 ≤ s.unread w.receiver + if w.deadline?.isSome then 1 else 0 := by
  cases h with
  | value hnext =>
      have hunread := Stream.unread_of_next? hs hnext
      omega
  | burst hphase => simp [deadline?, hphase]

/-- A step of a watcher uses up a value or a debounce, and more than that if it yields. -/
theorem Watcher.Move.unread_le (hs : s.Sound) (h : Move w now s y w') :
    s.unread w'.receiver + (if w'.deadline?.isSome then 1 else 0) + (if y.isSome then 1 else 0) ≤
      s.unread w.receiver + if w.deadline?.isSome then 1 else 0 := by
  cases h with
  | gather hnext =>
      have hunread := Stream.unread_of_next? hs hnext
      simp [deadline?]
      omega
  | yield hoffer =>
      have hused := hoffer.unread_add_one_le hs
      simpa [deadline?] using hused
  | ignore hoffer =>
      have hused := hoffer.unread_add_one_le hs
      simp [deadline?] at hused ⊢
      omega
  | finish =>
      simp [deadline?]

end Watchers

namespace Engine

variable {e e' : Engine} {race : Race}

theorem passWeights_le {p : ChangePipeline} {y : Option Json} {w : Watcher} {s : Scheduler}
    (h : e.Sound) (hstep : e.ChangeStep p y w s) (reaction : Reaction) :
    (passWeights e.form reaction).change { p with watcher := w } +
        (if y.isSome = true ∧ p.reaction = reaction then 1 else 0) ≤
      (passWeights e.form reaction).change p := by
  obtain ⟨stream, hstream, hs, -, -, hmove⟩ := hstep.exists_move h
  have hle := hmove.unread_le hs
  by_cases hreaction : p.reaction = reaction
  · simp only [passWeights, hreaction, ChangePipeline.unread, hstream, Option.map_some,
      Option.getD_some, and_true, if_true]
    exact hle
  · simp [passWeights, hreaction]

private theorem evaluationWeights_complete {p p' : InquiryPipeline} {v : Evaluation}
    (hp : e.scheduler.inquiry? p.control = some p)
    (hp' : (e.complete p v).scheduler.inquiry? p.control = some p') :
    (e.complete p v).asyncRuns p.control + (evaluationWeights e.form).inquiry p' ≤
      e.asyncRuns p.control + (evaluationWeights e.form).inquiry p := by
  have hruns : (e.complete p v).asyncRuns p.control = e.asyncRuns p.control :=
    congrArg (·.stats.asyncRuns) (entry_complete e p v)
  have hnext := inquiry?_complete hp v
  rw [hp'] at hnext
  cases hnext
  rw [hruns]
  exact Nat.add_le_add_left (Nat.le_add_right (p.queued e.form) _) _

private theorem evaluationWeights_turns {p p' q : InquiryPipeline} {phase : InquiryPhase}
    (h : e.Sound) (hp : e.scheduler.inquiry? p.control = some p)
    (hp' : e'.scheduler.inquiry? p.control = some p') (hturns : Turns e p q phase e') :
    e'.asyncRuns p.control + (evaluationWeights e.form).inquiry p' ≤
      e.asyncRuns p.control + (evaluationWeights e.form).inquiry p := by
  have hnext := hturns.inquiry
  rw [hp'] at hnext
  cases hnext
  have hphase := phase.gathering_add_evaluation_le
  have hqueued : ({ q with phase } : InquiryPipeline).queued e.form = q.queued e.form := rfl
  simp only [hturns.asyncRuns, evaluationWeights, hqueued]
  rcases hturns.used with ⟨stream, hstream, htakes⟩ | ⟨rfl, ⟨deadline, hgathering⟩, hdecided⟩
  · -- a trigger is worth an evaluation, or a debounce at the end of which there is one
    obtain ⟨-, stream', hstream', hs, -⟩ := h.inquiry hp
    rw [hstream] at hstream'
    cases hstream'
    have htaken := htakes.queued_add_one hstream hs
    omega
  · -- the end of a debounce is worth an evaluation
    have hbefore : q.phase.isGathering = true := by rw [hgathering]; rfl
    have hafter : phase.isGathering = false := by
      rcases hdecided with rfl | ⟨v, rfl⟩ <;> rfl
    rw [hafter] at hphase
    rw [hbefore, hafter]
    simp only [Bool.false_eq_true, if_false, if_true] at hphase ⊢
    omega

/-- A step of an inquiry pipeline uses up a trigger or a debounce if it starts an evaluation. -/
theorem evaluationWeights_le {p p' : InquiryPipeline} (h : e.Sound)
    (hstep : e.stepInquiry? p.control race = some e') (hp : e.scheduler.inquiry? p.control = some p)
    (hp' : e'.scheduler.inquiry? p.control = some p') :
    e'.asyncRuns p.control + (evaluationWeights e.form).inquiry p' ≤
      e.asyncRuns p.control + (evaluationWeights e.form).inquiry p := by
  obtain ⟨q, hq, -, hcases⟩ := own_step_cases h hstep
  rw [hp] at hq
  cases hq
  rcases hcases with ⟨v, -, -, -, rfl⟩ | ⟨-, q, phase, hturns⟩
  · exact evaluationWeights_complete hp hp'
  · exact evaluationWeights_turns h hp hp' hturns

private theorem evaluationWeights_request (f : Form) (p : InquiryPipeline) :
    (evaluationWeights f).inquiry { p with requests := p.requests + 1 } ≤
      (evaluationWeights f).inquiry p + 1 := by
  have hqueued : InquiryPipeline.queued f { p with requests := p.requests + 1 } =
      p.queued f + 1 := rfl
  simp only [evaluationWeights, hqueued]
  omega

/-- A pipeline has one timer at most. -/
theorem timerWeights_le (now : Nat) :
    (∀ q, (timerWeights now).change q ≤ 1) ∧ ∀ p, (timerWeights now).inquiry p ≤ 1 := by
  have hle : ∀ d : Option Nat, d.toList.countP (fun deadline => now < deadline) ≤ 1 := fun d =>
    Nat.le_trans List.countP_le_length (by cases d <;> simp)
  exact ⟨fun _ => hle _, fun _ => hle _⟩

/-! ## Steps -/

/-- The pipelines are those of a scheduler that is attached to the form. -/
structure Attached (e : Engine) : Prop where
  sound : e.Sound
  subscribed : Scheduler.Subscribed e.form e.scheduler

namespace Attached

theorem nodup (h : e.Attached) : (e.scheduler.own.map OwnPipelines.control).Nodup :=
  h.subscribed.nodup

theorem step (h : e.Attached) {r : PipelineRef} (hstep : e.step? r race = some e') :
    e'.Attached where
  sound := h.sound.step hstep
  subscribed := h.subscribed.congr (sameDocument_step h.sound hstep).sameTree.symm
    (sameOutline_step h.sound hstep).symm

theorem tick (h : e.Attached) (now : Nat) : (e.tick now).Attached where
  sound := h.sound.tick now
  subscribed := h.subscribed.congr (.refl _) (sameOutline_tick e now).symm

theorem moves (h : e.Attached) {r : PipelineRef} (hstep : e.step? r race = some e') : e.Moves e' :=
  moves_of_step? h.nodup h.sound hstep

private theorem mem_controls (h : e.Attached) {id : ControlId}
    (hsome : (e.scheduler.inquiry? id).isSome = true) : id ∈ e.form.controls := by
  obtain ⟨p, hp⟩ := Option.isSome_iff_exists.1 hsome
  exact Scheduler.mem_controls.2 (h.subscribed.contains_of_inquiry? hp)

private theorem nodup_controls (f : Form) : f.controls.Nodup := List.nodup_range.filter _

/-- A pipeline that yields makes one pass, and one that yields nothing makes none. -/
private theorem allPasses_le {p : ChangePipeline} {y : Option Json} {w : Watcher} {s : Scheduler}
    (hstep : e.ChangeStep p y w s) (reaction : Reaction) :
    total (fun id => ({ e with scheduler := s }.reactIf { p with watcher := w } y.isSome).passes id
        reaction) e.form.controls ≤
      total (fun id => e.passes id reaction) e.form.controls +
        if y.isSome = true ∧ p.reaction = reaction then 1 else 0 := by
  refine total_add_le (a := p.control) (m := 0) (nodup_controls e.form) (fun id hid => ?_) ?_
    (.inr (Nat.zero_le _))
  · rw [passes_changeStep hstep, if_neg fun hmine => hid hmine.2.1]
  · rw [passes_changeStep hstep]
    simp only [true_and]
    split <;> omega

/-- A pass that requests an inquiry is among those of the controls of the form. -/
private theorem le_allPasses (h : e.Attached) {p : ChangePipeline} {y : Option Json} {w : Watcher}
    {s : Scheduler} (hstep : e.ChangeStep p y w s) :
    (total (fun id => e.passes id .validity) e.form.controls +
        if y.isSome = true ∧ p.reaction = .validity ∧ (s.inquiry? p.control).isSome = true then 1
        else 0) ≤
      total (fun id => ({ e with scheduler := s }.reactIf { p with watcher := w } y.isSome).passes
        id .validity) e.form.controls := by
  refine total_add_le (a := p.control) (n := 0) (nodup_controls e.form) (fun id hid => ?_) ?_ ?_
  · rw [passes_changeStep hstep, if_neg fun hmine => hid hmine.2.1]
  · rw [passes_changeStep hstep]
    by_cases hrequests : y.isSome = true ∧ p.reaction = .validity ∧
        (s.inquiry? p.control).isSome = true
    · refine Nat.le_of_eq ?_
      rw [if_pos hrequests, if_pos ⟨hrequests.1, rfl, hrequests.2.1⟩]
    · rw [if_neg hrequests]
      split <;> omega
  · by_cases hsome : (s.inquiry? p.control).isSome = true
    · exact .inl (h.mem_controls (hstep.inquiry _ ▸ hsome))
    · rw [if_neg fun hrequests => hsome hrequests.2.2]
      exact .inr (Nat.le_refl 0)

/-- A step sets one timer at most. -/
theorem timers_le (h : e.Attached) {r : PipelineRef} (hstep : e.step? r race = some e') :
    e'.timers ≤ e.timers + 1 := by
  rw [timers_eq, timers_eq, clock_step h.sound hstep]
  cases h.moves hstep with
  | @change p y w s hchange hweight =>
      have hmoved := hweight (timerWeights e.clock)
      have hone := (timerWeights_le e.clock).1 { p with watcher := w }
      have hreact := weight_reactIf_le (e := { e with scheduler := s }) (w := timerWeights e.clock)
        (hchange.outline.controls ▸ h.nodup) (fun _ => Nat.le_refl _) { p with watcher := w } y
      dsimp only at hreact
      omega
  | @inquiry p p' _ _ _ _ _ _ hweight =>
      have hmoved := hweight (timerWeights e.clock)
      have hone := (timerWeights_le e.clock).2 p'
      omega

/-- A pass uses up a value or a debounce. -/
theorem passes_le (h : e.Attached) {r : PipelineRef} (hstep : e.step? r race = some e')
    (reaction : Reaction) :
    e'.allPasses reaction + e'.openPasses reaction ≤
      e.allPasses reaction + e.openPasses reaction := by
  have hdoc := sameDocument_step h.sound hstep
  rw [openPasses_of_sameDocument hdoc, openPasses_eq e, allPasses, allPasses,
    Scheduler.controls_congr hdoc.sameTree]
  cases h.moves hstep with
  | @change p y w s hchange hweight =>
      have hmoved := hweight (passWeights e.form reaction)
      have hopen := passWeights_le h.sound hchange reaction
      have hreact := weight_reactIf_le (e := { e with scheduler := s })
        (w := passWeights e.form reaction) (hchange.outline.controls ▸ h.nodup)
        (fun _ => Nat.le_refl _) { p with watcher := w } y
      -- only the control of the pipeline makes a pass, and only one
      have hpasses := allPasses_le hchange reaction
      dsimp only at hreact
      omega
  | inquiry _ _ _ hframe hweight =>
      have hmoved := hweight (passWeights e.form reaction)
      have hpasses : (fun id => e'.passes id reaction) = fun id => e.passes id reaction :=
        funext fun id => passes_of_inquiryFrame hframe id reaction
      rw [hpasses]
      exact Nat.add_le_add_left hmoved _

/-- An evaluation uses up a trigger or a debounce, and a pass that runs validity tests makes one
trigger. -/
theorem evaluations_le (h : e.Attached) {r : PipelineRef} (hstep : e.step? r race = some e') :
    e'.allEvaluations + e'.openEvaluations + e.allPasses .validity ≤
      e.allEvaluations + e.openEvaluations + e'.allPasses .validity := by
  have hdoc := sameDocument_step h.sound hstep
  rw [openEvaluations_of_sameDocument hdoc, openEvaluations_eq e, allEvaluations, allEvaluations,
    allPasses, allPasses, Scheduler.controls_congr hdoc.sameTree]
  cases h.moves hstep with
  | @change p y w s hchange hweight =>
      have hmoved : s.weight (evaluationWeights e.form) ≤
          e.scheduler.weight (evaluationWeights e.form) := hweight (evaluationWeights e.form)
      have hreact := weight_reactIf (e := { e with scheduler := s })
        (w := evaluationWeights e.form) (n := 1) (hchange.outline.controls ▸ h.nodup)
        (evaluationWeights_request e.form) { p with watcher := w } y
      have hruns : ({ e with scheduler := s }.reactIf { p with watcher := w } y.isSome).asyncRuns =
          e.asyncRuns :=
        funext fun id => congrArg (·.stats.asyncRuns) (Spares.changeStep hchange id).record
      have hpasses := le_allPasses h hchange
      rw [hruns]
      dsimp only at hreact
      omega
  | @inquiry p p' _ _ hstep' hp hp' hframe hweight =>
      have hmoved := hweight (evaluationWeights e.form)
      have hpasses : (fun id => e'.passes id .validity) = fun id => e.passes id .validity :=
        funext fun id => passes_of_inquiryFrame hframe id .validity
      have hcontrol : p.control ∈ e.form.controls := h.mem_controls (by rw [hp]; rfl)
      have hruns : total e'.asyncRuns e.form.controls + (evaluationWeights e.form).inquiry p' ≤
          total e.asyncRuns e.form.controls + (evaluationWeights e.form).inquiry p :=
        total_add_le (nodup_controls e.form)
          (fun id hid => congrArg (·.stats.asyncRuns) (hframe.entry id hid))
          (evaluationWeights_le h.sound hstep' hp hp') (.inl hcontrol)
      rw [hpasses]
      omega

end Attached

/-! ## The clock -/

theorem openPasses_tick (e : Engine) (now : Nat) (reaction : Reaction) :
    (e.tick now).openPasses reaction = e.openPasses reaction := by
  rw [openPasses_eq, openPasses_eq, weight_tick]
  rfl

theorem openEvaluations_tick (e : Engine) (now : Nat) :
    (e.tick now).openEvaluations = e.openEvaluations := by
  have hform : (e.tick now).form = e.form := rfl
  rw [openEvaluations_eq, openEvaluations_eq, weight_tick, hform]
  refine congrArg (fun inquiry => e.scheduler.weight ⟨_, inquiry⟩) (funext fun p => ?_)
  have hqueued : InquiryPipeline.queued e.form { p with phase := p.phase.tick now } =
      p.queued e.form := rfl
  simp only [evaluationWeights, InquiryPipeline.tick_eq, hqueued, InquiryPhase.isGathering_tick]

/-- When time passes, timers go on or run out. -/
theorem timers_tick_add_expiries {now : Nat} (hlater : e.clock ≤ now) :
    (e.tick now).timers + e.expiries now = e.timers := by
  have hsplit : ∀ l : List Nat, (l.countP fun deadline => now < deadline) +
      (l.countP fun deadline => e.clock < deadline ∧ deadline ≤ now) =
        l.countP fun deadline => e.clock < deadline := by
    intro l
    induction l with
    | nil => rfl
    | cons deadline l ih =>
        simp only [List.countP_cons, decide_eq_true_eq]
        by_cases hover : now < deadline
        · rw [if_pos hover, if_neg fun h => Nat.not_lt.2 h.2 hover,
            if_pos (Nat.lt_of_le_of_lt hlater hover)]
          omega
        · rw [if_neg hover]
          have hdue := Nat.le_of_not_lt hover
          simp only [hdue, and_true]
          omega
  have hclock : (e.tick now).clock = now := rfl
  rw [timers, deadlines_tick, hclock]
  exact hsplit e.deadlines

end Engine

end ReactiveForm
