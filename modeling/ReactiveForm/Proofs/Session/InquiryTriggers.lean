import ReactiveForm.Proofs.Recompute.Deliberation
import ReactiveForm.Proofs.Session.ForcedInquiries
import ReactiveForm.Proofs.Session.Triggers

/-!
# Triggers of inquiries

The inquiry pipeline of a control is triggered when it is new and whenever the value of the control
changes (`triggersIn`). The other reason for an inquiry is that it is requested: it is forced, or a
pass over the validity tests of the control ends in one (`Op.requests`).

Where nothing is requested, an operation that is no step of the pipeline leaves it as it is
(`Engine.Idles`), and it sends to the stream that the pipeline listens to just if it changes the
value (`exists_sendTimes_of_apply`). Both together are what the pipeline sees of such an operation
(`leaves_of_apply`).
-/

namespace ReactiveForm

/-! ## Inquiries that are left alone -/

namespace Engine

variable {e e' : Engine} {control : ControlId} {race : Race}

/-- At a moment nothing is requested of the inquiry pipeline of a control and it makes no step. A
pipeline that is new holds a request. -/
structure Idles (control : ControlId) (e e' : Engine) : Prop where
  clock : e'.clock = e.clock
  inquiry : e'.form.contains control = true →
    e'.scheduler.inquiry? control = e.scheduler.inquiry? control ∨
      e.scheduler.inquiry? control = none ∧ ∀ p, e'.scheduler.inquiry? control = some p →
        p.phase = .waiting ∧ 0 < p.requests
  force : (e.entry control).force = false → (e'.entry control).force = false

namespace Idles

theorem of_same (hclock : e'.clock = e.clock)
    (hinquiry : e'.scheduler.inquiry? control = e.scheduler.inquiry? control)
    (hforce : (e'.entry control).force = (e.entry control).force) : Idles control e e' :=
  ⟨hclock, fun _ => .inl hinquiry, hforce.trans⟩

theorem of_scheduler (hclock : e'.clock = e.clock) (h : e'.scheduler = e.scheduler) :
    Idles control e e' :=
  .of_same hclock (by rw [h]) (by rw [entry, entry, h])

private theorem changeStep {q : ChangePipeline} {y : Option Json} {w : Watcher} {s : Scheduler}
    (hstep : e.ChangeStep q y w s)
    (hpasses : ({ e with scheduler := s }.reactIf { q with watcher := w } y.isSome).passes control
      .validity ≤ e.passes control .validity) :
    Idles control e ({ e with scheduler := s }.reactIf { q with watcher := w } y.isSome) := by
  have hentry : entry { e with scheduler := s } control = e.entry control :=
    congrArg (·.entry control) hstep.table
  have hclock := clock_reactIf { e with scheduler := s } { q with watcher := w } y
  cases y with
  | none => exact .of_same hclock (hstep.inquiry control) (congrArg ScheduleEntry.force hentry)
  | some u =>
      -- the control makes no pass, so what is run is no test of its validity
      have hother : ¬ (control = q.control ∧ q.reaction = .validity) := by
        rintro ⟨hcontrol, hreaction⟩
        rw [passes_changeStep hstep, if_pos ⟨rfl, hcontrol, hreaction⟩] at hpasses
        omega
      refine .of_same hclock ?_ ?_
      · rw [reactIf_some, inquiry?_react, if_neg hother]
        exact hstep.inquiry control
      · rw [reactIf_some, entry, entry_react, ← hentry]
        split
        · rename_i hcontrol
          cases hreaction : q.reaction with
          | validity => exact absurd ⟨hcontrol, hreaction⟩ hother
          | editability => rfl
        · rfl

/-- A step of another pipeline in which the control makes no pass over its validity tests. -/
theorem step (h : e.Sound) {r : PipelineRef} (hr : r ≠ .inquiry control)
    (hstep : e.step? r race = some e')
    (hpasses : e'.passes control .validity ≤ e.passes control .validity) : Idles control e e' := by
  cases r with
  | dependency i =>
      obtain ⟨q, y, w, s, hchange, rfl⟩ := changeStep_of_stepDependency? hstep
      exact changeStep hchange hpasses
  | editability id =>
      obtain ⟨q, y, w, s, hchange, rfl⟩ := changeStep_of_stepEditability? hstep
      exact changeStep hchange hpasses
  | inquiry id =>
      have hclock := clock_step h (r := .inquiry id) hstep
      obtain ⟨q, stream, hq, -, hinquiry⟩ := inquiryStep_of_stepInquiry? hstep
      obtain ⟨rfl, -⟩ := h.inquiry hq
      have frame := hinquiry.frame hq
      have hne : control ≠ q.control := fun heq => hr (by rw [heq])
      exact .of_same hclock (frame.inquiry control hne)
        (congrArg ScheduleEntry.force (frame.entry control hne))

theorem rebuild (e : Engine) {g f : Form} (htree : Form.SameTree f g) :
    Idles control e { e with form := f, scheduler := e.scheduler.rebuild g } := by
  refine ⟨rfl, fun hid => ?_, fun hforce => ?_⟩
  · rw [htree.contains] at hid
    have hown := Scheduler.own?_rebuild e.scheduler g control
    rw [if_pos hid] at hown
    cases ho : e.scheduler.own? control with
    | some o =>
        rw [ho, Option.some_or, ← ho] at hown
        refine .inl ?_
        rw [Scheduler.inquiry?_eq, Scheduler.inquiry?_eq, hown]
    | none =>
        rw [ho, Option.none_or] at hown
        refine .inr ⟨by rw [Scheduler.inquiry?_eq, ho, Option.bind_none], fun p hp => ?_⟩
        rw [Scheduler.inquiry?_eq, hown] at hp
        obtain ⟨o, hnew, hp⟩ := Option.bind_eq_some_iff.1 hp
        obtain ⟨hphase, hrequests⟩ := Scheduler.waiting_of_ownOf? hnew hp
        exact ⟨hphase, hrequests ▸ Nat.zero_lt_one⟩
  · by_cases hid : g.contains control = true
    · exact (congrArg ScheduleEntry.force (Scheduler.entry_rebuild e.scheduler hid)).trans hforce
    · exact congrArg ScheduleEntry.force (Scheduler.entry_rebuild_of_not_contains e.scheduler hid)

end Idles

end Engine

namespace Session

variable {s s' : Session} {e e' : Engine} {op : Op} {control x : Nat} {race : Race}

theorem Effect.idles (h : Effect e op e') (hsound : e.Sound)
    (hother : op.AvoidsInquiry control) (hwait : ∀ ms, op ≠ .wait ms)
    (hforce : op ≠ .force control)
    (hpasses : (∃ r race, op = .turn r race) →
      e'.passes control .validity ≤ e.passes control .validity) : Engine.Idles control e e' := by
  cases h with
  | moment h =>
      cases h with
      | none => exact .of_scheduler rfl rfl
      | set => exact .of_scheduler rfl rfl
      | external => exact .of_scheduler rfl rfl
      | force id =>
          have hne : control ≠ id := fun heq => hforce (by rw [heq])
          refine .of_same rfl ?_ ?_
          · rw [Engine.inquiry?_force, if_neg hne]
          · rw [Engine.entry_force, if_neg hne]
      | @step r race _ hstep =>
          exact .step hsound (fun heq => hother race (by rw [heq])) hstep (hpasses ⟨r, race, rfl⟩)
      | tick ms now => exact absurd rfl (hwait ms)
  | write => exact .of_scheduler rfl rfl
  | revalidate => exact .of_scheduler rfl rfl
  | reassess => exact .of_scheduler rfl rfl
  | rebuild => exact .rebuild e (.refl e.form)
  | @perform op x edit => exact .rebuild e (Form.sameTree_edit_publish edit)

/-- Whether an operation requests an inquiry of a control. -/
def Op.requests (s : Session) (control : Nat) (op : Op) : Bool :=
  match op with
  | .force id => id == control
  | .turn _ _ => decide (s.passes control .validity < (s.apply op).passes control .validity)
  | _ => false

theorem requests_iff : op.requests s control = true ↔ s.Requests op control := by
  cases op <;> simp [Op.requests, Requests]

/-! ## Changes of a value -/

/-- Whether an operation changes the value of a control: it edits the control or one inside it. -/
def Op.changes (s : Session) (control : Nat) (op : Op) : Bool :=
  op.succeeds s && op.target?.any fun x => ((s.apply op).form.lineage x).contains control

/-- The document is left alone by an operation that does not edit it. -/
theorem Effect.sameDocument (h : Effect e op e') (hsound : e.Sound) (htarget : op.target? = none) :
    Form.SameDocument e'.form e.form := by
  cases h with
  | moment h =>
      cases h with
      | none => exact .refl e.form
      | set => cases htarget
      | external _ id change =>
          exact Form.sameDocument_modifyState e.form id fun st =>
            { st with externalErrors := change st.externalErrors }
      | force id => exact Form.sameDocument_refreshValidity e.form id
      | step hstep => exact Engine.sameDocument_step hsound hstep
      | tick => exact .refl e.form
  | write id change => exact Form.sameDocument_modifyState e.form id change
  | revalidate id => exact Form.sameDocument_refreshValidity e.form id
  | reassess id => exact Form.sameDocument_refreshEditability e.form id
  | rebuild => exact .refl e.form
  | perform hedits =>
      obtain ⟨x, hx⟩ := exists_target?_of_editsStructure hedits
      rw [htarget] at hx
      cases hx

/-- An edit sends to the stream of a control as often as the control is in the lineage. -/
theorem Edited.changes? (h : s.Edited x s') (hid : s'.form.contains control = true)
    {stream : Stream Json} (hs : s.form.changes? control = some stream) :
    ∃ v, s'.form.changes? control =
      some (stream.sendTimes v ((s'.form.lineage x).count control)) := by
  cases h with
  | @set v f hset =>
      refine ⟨f.value control, ?_⟩
      have hsent := Form.changes?_of_setValue hset control
      rw [hs, Option.map_some, ← (Form.sameTree_setValue hset).lineage] at hsent
      exact hsent
  | @perform edit hedit =>
      have htree := Form.sameTree_edit_publish edit
      have hlineage : edit.lineage = (s.perform edit).form.lineage x :=
        hedit.lineage_eq.trans (htree.lineage x).symm
      have hall : edit.lineage.filter edit.form.contains = edit.lineage :=
        List.filter_eq_self.2 fun member hmember =>
          Form.contains_of_mem_lineage (hedit.lineage_eq ▸ hmember)
      have hsent := Form.changes?_edit_publish edit control
      rw [hall, hedit.reshapes.changes? (htree.contains control ▸ hid) hs, Option.map_some,
        hlineage] at hsent
      exact ⟨_, hsent⟩

/-- An operation sends to the stream of a control if it changes its value. -/
theorem exists_sendTimes_of_apply (hop : op.keepsScheduler = true)
    (hmoment : ∀ ms, op ≠ .advance ms) (hsound : s.Sound) (he : s.engine? = some e)
    (hid : (s.apply op).form.contains control = true) {stream : Stream Json}
    (hs : s.form.changes? control = some stream) :
    ∃ v n, (s.apply op).form.changes? control = some (stream.sendTimes v n) ∧
      (op.changes s control = true ↔ 0 < n) := by
  have hsame : (s.apply op).form.changes? control = s.form.changes? control →
      op.changes s control = false → ∃ v n, (s.apply op).form.changes? control =
        some (stream.sendTimes v n) ∧ (op.changes s control = true ↔ 0 < n) := fun heq hnot =>
    ⟨default, 0, heq.trans hs, by simp [hnot]⟩
  cases htarget : op.target? with
  | none =>
      obtain ⟨e', he', heffect⟩ := effect_of_apply hop hmoment he
      have hdoc := heffect.sameDocument (hsound.serves he).sound htarget
      rw [form_of_engine? he, form_of_engine? he'] at hdoc
      exact hsame (hdoc.changes control) (by simp [Op.changes, htarget])
  | some x =>
      rcases edited_of_target? (s := s) htarget with ⟨hfails, heq⟩ | ⟨hsucceeds, hedited⟩
      · exact hsame (by rw [heq]) (by simp [Op.changes, hfails])
      · obtain ⟨v, hsent⟩ := hedited.changes? hid hs
        refine ⟨v, _, hsent, ?_⟩
        simp [Op.changes, hsucceeds, htarget, List.count_pos_iff]

/-! ## Logs of triggers and decisions -/

/-- Whether a scheduler is attached that has an inquiry pipeline for a control. -/
def inquires (s : Session) (control : Nat) : Bool :=
  s.engine?.any fun e => (e.scheduler.inquiry? control).isSome

/-- The moment of an operation, if it triggers the inquiry pipeline of a control: the pipeline is
new behind it, or it changes the value of the control. -/
def triggersIn (s : Session) (control : Nat) (op : Op) : List Nat :=
  if (s.apply op).inquires control && (!s.inquires control || op.changes s control) then [s.clock]
  else []

/-- The moments at which the inquiry pipeline of a control is triggered in a run. -/
def triggerLog (s : Session) (control : Nat) : List Op → List Nat
  | [] => []
  | op :: ops => s.triggersIn control op ++ (s.apply op).triggerLog control ops

/-- The decision that the inquiry pipeline of a control makes in an operation, if it makes one. -/
def decisionsIn (s : Session) (control : Nat) : Op → List Decision
  | .turn (.inquiry id) race =>
    if id = control then
      (s.engine?.bind fun e => (e.stepInquiry? control race).bind (e.decision? control)).toList
    else []
  | _ => []

/-- The decisions that the inquiry pipeline of a control makes in a run. -/
def decisionLog (s : Session) (control : Nat) : List Op → List Decision
  | [] => []
  | op :: ops => s.decisionsIn control op ++ (s.apply op).decisionLog control ops

theorem triggerLog_append (s : Session) (control : Nat) (ops more : List Op) :
    s.triggerLog control (ops ++ more) =
      s.triggerLog control ops ++ (s.run ops).triggerLog control more := by
  induction ops generalizing s with
  | nil => rfl
  | cons op ops ih =>
      rw [List.cons_append, triggerLog, triggerLog, ih (s.apply op), List.append_assoc]
      rfl

theorem decisionLog_append (s : Session) (control : Nat) (ops more : List Op) :
    s.decisionLog control (ops ++ more) =
      s.decisionLog control ops ++ (s.run ops).decisionLog control more := by
  induction ops generalizing s with
  | nil => rfl
  | cons op ops ih =>
      rw [List.cons_append, decisionLog, decisionLog, ih (s.apply op), List.append_assoc]
      rfl

theorem inquires_of_engine? (he : s.engine? = some e) :
    s.inquires control = (e.scheduler.inquiry? control).isSome := by
  rw [inquires, he, Option.any_some]

theorem triggersIn_eq_nil (hnone : (s.apply op).inquires control = false) :
    s.triggersIn control op = [] := by
  rw [triggersIn, hnone, Bool.false_and]
  rfl

/-- A control has no number yet, or it is there. -/
def Awaits (s : Session) (control : Nat) : Prop :=
  s.form.contains control = true ∨ s.form.changes? control = none

theorem idles_of_apply (he : s.engine? = some e) (heffect : Effect e op e')
    (he' : (s.apply op).engine? = some e') (hsound : e.Sound) (hwait : ∀ ms, op ≠ .wait ms)
    (hother : op.AvoidsInquiry control) (hrequests : ¬ s.Requests op control) :
    Engine.Idles control e e' := by
  refine heffect.idles hsound hother hwait (fun heq => hrequests (.inl heq)) fun hturn => ?_
  refine Nat.le_of_not_lt fun hlt => hrequests (.inr ⟨hturn, ?_⟩)
  rwa [passes_of_engine? he, passes_of_engine? he']

/-- An operation that requests nothing, lets no time pass, and makes no step of a pipeline leaves it
as it is, and it triggers the pipeline if it changes the value of the control. -/
theorem leaves_of_apply {p : InquiryPipeline} (hsound : s.Sound) (he : s.engine? = some e)
    (hp : e.scheduler.inquiry? p.control = some p) (hop : op.keepsScheduler = true)
    (hmoment : ∀ ms, op ≠ .advance ms) (hwait : ∀ ms, op ≠ .wait ms)
    (hother : op.AvoidsInquiry p.control) (hrequests : ¬ s.Requests op p.control)
    (hlive : (s.apply op).Awaits p.control) (he' : (s.apply op).engine? = some e') :
    e.Leaves p (s.triggersIn p.control op) e' := by
  have hserves := hsound.serves he
  obtain ⟨-, stream, hstream, -, -, hle, -⟩ := hserves.sound.inquiry hp
  have heffect : Effect e op e' := by
    obtain ⟨e₁, he₁, heffect⟩ := effect_of_apply hop hmoment he
    rw [he'] at he₁
    cases he₁
    exact heffect
  have hidles := idles_of_apply he heffect he' hserves.sound hwait hother hrequests
  -- a control with a pipeline has a number
  have hid : (s.apply op).form.contains p.control = true := by
    refine hlive.resolve_right fun hnone => ?_
    have hunborn := (heffect.follows hserves.sound).unborn ((form_of_engine? he').symm ▸ hnone)
    rw [hstream] at hunborn
    cases hunborn
  have hid' : e'.form.contains p.control = true := form_of_engine? he' ▸ hid
  have hsame : e'.scheduler.inquiry? p.control = e.scheduler.inquiry? p.control := by
    refine (hidles.inquiry hid').resolve_right fun hnew => ?_
    rw [hp] at hnew
    cases hnew.1
  refine ⟨hidles.clock, hsame, hidles.force, (heffect.spares hserves.sound hother hid').record, ?_⟩
  obtain ⟨v, n, hsent, hchanges⟩ := exists_sendTimes_of_apply hop hmoment hsound he hid
    (form_of_engine? he ▸ hstream)
  rw [← form_of_engine? he'] at hsent
  have htriggers : s.triggersIn p.control op =
      if op.changes s p.control then [e.clock] else [] := by
    rw [triggersIn, inquires_of_engine? he', inquires_of_engine? he, hsame, hp,
      clock_of_engine? he]
    rfl
  rw [htriggers]
  cases hchanged : op.changes s p.control with
  | false =>
      rw [hchanged] at hchanges
      have hzero : n = 0 := by simpa using hchanges
      subst hzero
      have hstays : e'.form.changes? p.control = e.form.changes? p.control :=
        hsent.trans hstream.symm
      exact .inl ⟨rfl, or_congr .rfl ⟨fun hnew => hnew.congr hstays.symm,
        fun hold => hold.congr hstays⟩⟩
  | true =>
      have hpositive := hchanges.1 hchanged
      exact .inr ⟨rfl, .inr ⟨_, hsent, by rw [Stream.sent_sendTimes]; omega⟩⟩

private theorem kept_of_waits (he : s.engine? = some e) (hwaits : op.waits = true) :
    ∃ e', (s.apply op).engine? = some e' ∧ e.Kept e' := by
  cases op with
  | advance | turn | wait => exact kept_of_apply rfl rfl he
  | _ => cases hwaits

/-- The time that passes triggers nothing. -/
theorem triggersIn_of_waits (hsound : s.Sound) (he : s.engine? = some e)
    (hwaits : op.waits = true) : s.triggersIn control op = [] := by
  obtain ⟨e', he', hkept⟩ := kept_of_waits he hwaits
  have houtline := congrArg Option.isSome
    ((Engine.sameOutline_of_kept (hsound.serves he) hkept).inquiry? control)
  rw [Option.isSome_map, Option.isSome_map] at houtline
  have hchanges : op.changes s control = false := by
    cases op with
    | advance | turn | wait => exact Bool.and_false _
    | _ => cases hwaits
  rw [triggersIn, inquires_of_engine? he', inquires_of_engine? he, houtline, hchanges]
  cases (e.scheduler.inquiry? control).isSome <;> rfl

theorem triggerLog_of_waits {ops : List Op} (hsound : s.Sound) (he : s.engine? = some e)
    (hwaits : ∀ op ∈ ops, op.waits = true) : s.triggerLog control ops = [] := by
  induction ops generalizing s e with
  | nil => rfl
  | cons op ops ih =>
      obtain ⟨e', he', -⟩ := kept_of_waits he (hwaits op List.mem_cons_self)
      rw [triggerLog, triggersIn_of_waits hsound he (hwaits op List.mem_cons_self),
        List.nil_append]
      exact ih (sound_apply hsound op) he' fun o ho => hwaits o (List.mem_cons_of_mem _ ho)

theorem decisionsIn_of_ne (s : Session) (hother : op.AvoidsInquiry control) :
    s.decisionsIn control op = [] := by
  cases op with
  | turn r race =>
      cases r with
      | inquiry id => exact if_neg fun heq => hother race (by rw [heq])
      | _ => rfl
  | _ => rfl

theorem decisionsIn_turn (he : s.engine? = some e) :
    s.decisionsIn control (.turn (.inquiry control) race) =
      ((e.stepInquiry? control race).bind (e.decision? control)).toList := by
  rw [decisionsIn, if_pos rfl, he, Option.bind_some]

end Session

end ReactiveForm
