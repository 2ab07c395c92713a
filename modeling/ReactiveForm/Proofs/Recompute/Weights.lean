import ReactiveForm.Proofs.Recompute.Events

/-!
# What pipelines weigh

How much work is left, how many values are queued, how many timers run: all this is counted by
giving each pipeline a weight and taking the sum over all pipelines of a scheduler
(`Scheduler.weight`).

A step moves one pipeline, and one that runs checks may have its control request an inquiry beside
that. All other pipelines stay, so that the sum changes by what the moved pipeline has lost or
gained (`Moves`), and by what a request weighs (`weight_react`). To bound a sum over any number of
steps it is enough to look at a single pipeline.
-/

namespace ReactiveForm

/-! ## Sums -/

/-- The sum of what the members of a list weigh. -/
def total {α : Type} (weigh : α → Nat) (l : List α) : Nat := l.foldr (fun a n => weigh a + n) 0

section Sums

variable {α β : Type} {weigh weigh' : α → Nat} {l : List α}

@[simp] theorem total_nil (weigh : α → Nat) : total weigh [] = 0 := rfl

@[simp] theorem total_cons (weigh : α → Nat) (a : α) (l : List α) :
    total weigh (a :: l) = weigh a + total weigh l := rfl

theorem total_append (weigh : α → Nat) (l l' : List α) :
    total weigh (l ++ l') = total weigh l + total weigh l' := by
  induction l with
  | nil => simp
  | cons a l ih => simp only [List.cons_append, total_cons, ih, Nat.add_assoc]

theorem total_map (weigh : β → Nat) (f : α → β) (l : List α) :
    total weigh (l.map f) = total (fun a => weigh (f a)) l := by
  induction l with
  | nil => rfl
  | cons a l ih => simp only [List.map_cons, total_cons, ih]

theorem total_set {i : Nat} {a : α} (weigh : α → Nat) (ha : l[i]? = some a) (b : α) :
    total weigh (l.set i b) + weigh a = total weigh l + weigh b := by
  induction l generalizing i with
  | nil => cases ha
  | cons first l ih =>
      cases i with
      | zero =>
          cases ha
          simp only [List.set_cons_zero, total_cons]
          omega
      | succ i =>
          have hrest := ih (i := i) (by simpa using ha)
          simp only [List.set_cons_succ, total_cons]
          omega

theorem total_congr (hsame : ∀ a ∈ l, weigh a = weigh' a) : total weigh l = total weigh' l := by
  induction l with
  | nil => rfl
  | cons a l ih =>
      rw [total_cons, total_cons, hsame a List.mem_cons_self,
        ih fun b hb => hsame b (List.mem_cons_of_mem _ hb)]

theorem total_ite (P : α → Bool) (l : List α) :
    total (fun a => if P a then 1 else 0) l = l.countP P := by
  induction l with
  | nil => rfl
  | cons a l ih =>
      rw [total_cons, ih, List.countP_cons]
      omega

theorem total_zero (l : List α) : total (fun _ => 0) l = 0 := by
  induction l with
  | nil => rfl
  | cons a l ih => rw [total_cons, ih]

theorem total_add (weigh weigh' : α → Nat) (l : List α) :
    total (fun a => weigh a + weigh' a) l = total weigh l + total weigh' l := by
  induction l with
  | nil => rfl
  | cons a l ih =>
      simp only [total_cons, ih]
      omega

theorem total_le (hle : ∀ a ∈ l, weigh' a ≤ weigh a) : total weigh' l ≤ total weigh l := by
  induction l with
  | nil => exact Nat.le_refl 0
  | cons first l ih =>
      have hfirst := hle first List.mem_cons_self
      have hrest := ih fun a ha => hle a (List.mem_cons_of_mem _ ha)
      simp only [total_cons]
      omega

/-- Where only one of several different members weighs otherwise than before, the sum differs by as
much as that one does. -/
theorem total_add_le {a : α} {m n : Nat} (hnodup : l.Nodup)
    (hother : ∀ b, b ≠ a → weigh' b = weigh b) (ha : weigh' a + m ≤ weigh a + n)
    (hmem : a ∈ l ∨ m ≤ n) : total weigh' l + m ≤ total weigh l + n := by
  induction l with
  | nil =>
      rcases hmem with hmem | hle
      · cases hmem
      · simpa using hle
  | cons first l ih =>
      rw [List.nodup_cons] at hnodup
      simp only [total_cons]
      by_cases heq : first = a
      · subst heq
        -- the one that differs does not come again
        have hrest : total weigh' l ≤ total weigh l := by
          refine total_le fun b hb => Nat.le_of_eq (hother b ?_)
          rintro rfl
          exact hnodup.1 hb
        omega
      · have hrest := ih hnodup.2 (hmem.imp_left fun hmem => (List.mem_cons.1 hmem).resolve_left
          fun h => heq h.symm)
        have hfirst := hother first heq
        omega

end Sums

/-! ## Weights -/

/-- What single pipelines weigh. -/
structure Weights where
  change : ChangePipeline → Nat
  inquiry : InquiryPipeline → Nat

namespace Scheduler

variable {s s' : Scheduler} {w : Weights} {control : ControlId}

/-- The pipelines that run checks. -/
def changePipelines (s : Scheduler) : List ChangePipeline :=
  s.dependencies ++ s.own.filterMap OwnPipelines.editability

/-- The pipelines that run inquiries. -/
def inquiryPipelines (s : Scheduler) : List InquiryPipeline :=
  s.own.filterMap OwnPipelines.inquiry

/-- What all pipelines weigh. -/
def weight (s : Scheduler) (w : Weights) : Nat :=
  total w.change s.changePipelines + total w.inquiry s.inquiryPipelines

/-- What the own pipelines of a control weigh. -/
def ownWeight (s : Scheduler) (w : Weights) (id : ControlId) : Nat :=
  ((s.editability? id).map w.change).getD 0 + ((s.inquiry? id).map w.inquiry).getD 0

/-- The own pipelines counted control by control. -/
theorem weight_own (s : Scheduler) (w : Weights) :
    s.weight w = total w.change s.dependencies + total (fun o =>
      (o.editability.map w.change).getD 0 + (o.inquiry.map w.inquiry).getD 0) s.own := by
  have hown : ∀ own : List OwnPipelines,
      total w.change (own.filterMap OwnPipelines.editability) +
          total w.inquiry (own.filterMap OwnPipelines.inquiry) =
        total (fun o => (o.editability.map w.change).getD 0 + (o.inquiry.map w.inquiry).getD 0)
          own := by
    intro own
    induction own with
    | nil => rfl
    | cons o own ih =>
        rw [total_cons, ← ih]
        cases hedit : o.editability <;> cases hinquiry : o.inquiry <;>
          simp [hedit, hinquiry] <;> omega
  rw [weight, changePipelines, inquiryPipelines, total_append, Nat.add_assoc, hown]

/-- The own pipelines looked up by their controls. -/
theorem weight_eq (hnodup : (s.own.map OwnPipelines.control).Nodup) (w : Weights) :
    s.weight w = total w.change s.dependencies +
      total (s.ownWeight w) (s.own.map OwnPipelines.control) := by
  rw [weight_own, total_map]
  refine congrArg _ (total_congr fun o ho => ?_)
  rw [ownWeight, editability?, inquiry?_eq, own?_of_mem hnodup ho, Option.bind_some,
    Option.bind_some]

/-- The own pipelines of one control change. -/
private theorem weight_add_le (hnodup : (s.own.map OwnPipelines.control).Nodup)
    (control : ControlId) {m n : Nat}
    (hcontrols : s'.own.map OwnPipelines.control = s.own.map OwnPipelines.control)
    (hdependencies : s'.dependencies = s.dependencies)
    (hother : ∀ other, other ≠ control → s'.ownWeight w other = s.ownWeight w other)
    (hcontrol : s'.ownWeight w control + m ≤ s.ownWeight w control + n)
    (hmem : control ∈ s.own.map OwnPipelines.control ∨ m ≤ n) :
    s'.weight w + m ≤ s.weight w + n := by
  have hsum := total_add_le hnodup hother hcontrol hmem
  rw [weight_eq hnodup, weight_eq (hcontrols ▸ hnodup), hcontrols, hdependencies]
  omega

private theorem mem_controls_of_own? {o : OwnPipelines} (ho : s.own? control = some o) :
    control ∈ s.own.map OwnPipelines.control :=
  List.mem_map.2 ⟨o, mem_own_of_own? ho, control_of_own? ho⟩

private theorem weight_setDependency {i : Nat} {p : ChangePipeline}
    (hp : s.dependencies[i]? = some p) (q : ChangePipeline) :
    ({ s with dependencies := s.dependencies.set i q } : Scheduler).weight w + w.change p ≤
      s.weight w + w.change q := by
  have hsum := total_set w.change hp q
  simp only [weight_own]
  omega

private theorem weight_setEditability (hnodup : (s.own.map OwnPipelines.control).Nodup)
    {p : ChangePipeline} (hp : s.editability? control = some p) (q : ChangePipeline) :
    (s.modifyOwn control fun o => { o with editability := some q }).weight w + w.change p ≤
      s.weight w + w.change q := by
  have hlookup := editability?_setEditability (p := q) hp
  have hinquiry := fun other => inquiry?_setEditability s control other q
  obtain ⟨o, ho, -⟩ := Option.bind_eq_some_iff.1 hp
  refine weight_add_le hnodup control ?_ rfl ?_ ?_ (.inl (mem_controls_of_own? ho))
  · exact controls_modifyOwn (by exact fun _ => rfl) s control
  · intro other hother
    rw [ownWeight, ownWeight, hlookup, if_neg hother, hinquiry]
  · rw [ownWeight, ownWeight, hlookup, if_pos rfl, hinquiry, hp]
    simp only [Option.map_some, Option.getD_some]
    omega

end Scheduler

namespace Engine

variable {e e' : Engine} {w : Weights} {control : ControlId} {race : Race}

/-! ## Steps -/

/-- A reaction requests at most one inquiry, and only from a pipeline that is there. -/
theorem weight_react {n : Nat} (hnodup : (e.scheduler.own.map OwnPipelines.control).Nodup)
    (hrequest : ∀ p : InquiryPipeline,
      w.inquiry { p with requests := p.requests + 1 } ≤ w.inquiry p + n)
    (control : ControlId) (reaction : Reaction) :
    (e.react control reaction).scheduler.weight w ≤ e.scheduler.weight w +
      if reaction = .validity ∧ (e.scheduler.inquiry? control).isSome = true then n else 0 := by
  refine Scheduler.weight_add_le hnodup control (m := 0)
    (sameOutline_react e control reaction).controls (dependencies_react e control reaction)
    ?_ ?_ (.inr (Nat.zero_le _))
  · intro other hother
    rw [Scheduler.ownWeight, Scheduler.ownWeight, editability?_react, inquiry?_react,
      if_neg fun h => hother h.1]
  · rw [Scheduler.ownWeight, Scheduler.ownWeight, editability?_react, inquiry?_react]
    cases hp : e.scheduler.inquiry? control with
    | none => simp
    | some p =>
        have hle := hrequest p
        cases reaction with
        | validity =>
            simp only [and_self, if_true, Option.map_some, Option.getD_some, Option.isSome_some]
            omega
        | editability => simp

theorem weight_reactIf {n : Nat} (hnodup : (e.scheduler.own.map OwnPipelines.control).Nodup)
    (hrequest : ∀ p : InquiryPipeline,
      w.inquiry { p with requests := p.requests + 1 } ≤ w.inquiry p + n)
    (p : ChangePipeline) (y : Option Json) :
    (e.reactIf p y.isSome).scheduler.weight w ≤ e.scheduler.weight w +
      if y.isSome = true ∧ p.reaction = .validity ∧
        (e.scheduler.inquiry? p.control).isSome = true then n else 0 := by
  cases y with
  | none => exact Nat.le_add_right _ _
  | some v =>
      rw [reactIf_some]
      simpa only [Option.isSome_some, true_and] using
        weight_react hnodup hrequest p.control p.reaction

theorem weight_reactIf_le (hnodup : (e.scheduler.own.map OwnPipelines.control).Nodup)
    (hrequest : ∀ p : InquiryPipeline,
      w.inquiry { p with requests := p.requests + 1 } ≤ w.inquiry p)
    (p : ChangePipeline) (y : Option Json) :
    (e.reactIf p y.isSome).scheduler.weight w ≤ e.scheduler.weight w := by
  have hle := weight_reactIf (n := 0) hnodup hrequest p y
  rw [ite_self] at hle
  exact hle

/-- A step moves one pipeline and leaves all others, apart from an inquiry that is requested. -/
inductive Moves (e : Engine) : Engine → Prop where
  /-- A pipeline that runs checks has moved, and its control reacts if it has yielded. -/
  | change {p : ChangePipeline} {y : Option Json} {watcher : Watcher} {s : Scheduler}
      (hstep : e.ChangeStep p y watcher s)
      (hweight : ∀ w : Weights,
        s.weight w + w.change p ≤ e.scheduler.weight w + w.change { p with watcher }) :
      Moves e ({ e with scheduler := s }.reactIf { p with watcher } y.isSome)
  /-- An inquiry pipeline has moved. -/
  | inquiry {p p' : InquiryPipeline} {race : Race} {e' : Engine}
      (hstep : e.stepInquiry? p.control race = some e')
      (hp : e.scheduler.inquiry? p.control = some p)
      (hp' : e'.scheduler.inquiry? p.control = some p') (hframe : InquiryFrame p.control e e')
      (hweight : ∀ w : Weights,
        e'.scheduler.weight w + w.inquiry p ≤ e.scheduler.weight w + w.inquiry p') :
      Moves e e'

private theorem weight_of_inquiryFrame {p p' : InquiryPipeline}
    (hnodup : (e.scheduler.own.map OwnPipelines.control).Nodup)
    (hp : e.scheduler.inquiry? control = some p) (hp' : e'.scheduler.inquiry? control = some p')
    (hframe : InquiryFrame control e e') (w : Weights) :
    e'.scheduler.weight w + w.inquiry p ≤ e.scheduler.weight w + w.inquiry p' := by
  obtain ⟨o, ho, -⟩ := Option.bind_eq_some_iff.1 hp
  refine Scheduler.weight_add_le hnodup control hframe.outline.controls hframe.dependencies ?_ ?_
    (.inl (Scheduler.mem_controls_of_own? ho))
  · intro other hother
    rw [Scheduler.ownWeight, Scheduler.ownWeight, hframe.editability, hframe.inquiry other hother]
  · rw [Scheduler.ownWeight, Scheduler.ownWeight, hframe.editability, hp, hp']
    simp only [Option.map_some, Option.getD_some]
    omega

theorem moves_of_step? (hnodup : (e.scheduler.own.map OwnPipelines.control).Nodup) (h : e.Sound)
    {r : PipelineRef} (hstep : e.step? r race = some e') : e.Moves e' := by
  cases r with
  | dependency i =>
      obtain ⟨p, y, watcher, s, hchange, rfl, hp, rfl⟩ :=
        exists_changeStep_of_stepDependency? hstep
      exact .change hchange fun w => Scheduler.weight_setDependency hp _
  | editability id =>
      obtain ⟨p, y, watcher, s, hchange, rfl, hp, rfl⟩ :=
        exists_changeStep_of_stepEditability? hstep
      exact .change hchange fun w => Scheduler.weight_setEditability hnodup hp _
  | inquiry id =>
      obtain ⟨p, stream, hp, hstream, hinquiry⟩ := inquiryStep_of_stepInquiry? hstep
      obtain ⟨rfl, stream', hstream', -, hopen, -⟩ := h.inquiry hp
      rw [hstream] at hstream'
      cases hstream'
      have hframe := hinquiry.frame hp
      obtain ⟨p', phase, -, -, hp'⟩ := hinquiry.exists_inquiry? hp hopen
      exact .inquiry hstep hp hp' hframe fun w => weight_of_inquiryFrame hnodup hp hp' hframe w

/-! ## The clock -/

/-- Time alone leaves the pipelines that run checks, and inquiries at most ask further rules. -/
theorem weight_tick (e : Engine) (now : Nat) (w : Weights) :
    (e.tick now).scheduler.weight w =
      e.scheduler.weight ⟨w.change, fun p => w.inquiry (p.tick now)⟩ := by
  have hown : (e.tick now).scheduler.own =
      e.scheduler.own.map fun o => { o with inquiry := o.inquiry.map (·.tick now) } := rfl
  have hdependencies : (e.tick now).scheduler.dependencies = e.scheduler.dependencies := rfl
  rw [Scheduler.weight_own, Scheduler.weight_own, hown, hdependencies, total_map]
  simp only [Option.map_map]
  rfl

end Engine

end ReactiveForm
