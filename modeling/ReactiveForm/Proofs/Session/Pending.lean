import ReactiveForm.Proofs.Recompute.Evaluations
import ReactiveForm.Proofs.Session.AsyncValidity
import ReactiveForm.Proofs.Session.Effects
import ReactiveForm.Proofs.Session.Turns

/-!
# Pending inquiries

A control is to be pending while its inquiry pipeline debounces or evaluates. The flag is put up by
the pipeline when it takes a trigger and taken down when it has an answer, and a step always ends
with a flag that agrees with the phase of the pipeline (`Flagged.pending_eq`).

A scheduler that is dropped takes its pipelines along in whatever phase they are, and no one takes
the flags down that they have put up. So a form without a scheduler has the flags of the moment at
which the last scheduler was dropped (`pending_of_run`), and a control can be pending although
nothing inquires about it (`not_tellsPending_inquiringDropped`). A scheduler that is attached later
on puts this right: each of its inquiry pipelines has a request from the start, and when that has
been taken the flag agrees with the phase again. Until then there is a request for each flag that is
up (`Flags`).
-/

namespace ReactiveForm

namespace Engine

variable {e e' : Engine} {control : ControlId} {st : ControlState} {race : Race}

/-- Whether an inquiry pipeline debounces or evaluates for the control. -/
def isBusy (e : Engine) (control : ControlId) : Bool :=
  (e.scheduler.inquiry? control).any InquiryPipeline.isBusy

/-- The flag of a control is up while its pipeline is busy. If it is up otherwise, the pipeline has
a request to take. -/
structure Flags (e : Engine) (control : ControlId) (st : ControlState) : Prop where
  pending : e.isBusy control = true → st.pending = true
  exists_trigger : st.pending = true → ∃ p, e.scheduler.inquiry? control = some p ∧
    (p.isBusy = true ∨ 0 < p.requests)

/-- The flags of all controls are as they should be. -/
def Flagged (e : Engine) : Prop :=
  ∀ control st, e.form.state? control = some st → e.Flags control st

theorem isBusy_eq {p : InquiryPipeline} (hp : e.scheduler.inquiry? control = some p) :
    e.isBusy control = p.isBusy := by
  rw [isBusy, hp, Option.any_some]

theorem isBusy_attach (f : Form) (clock : Nat) (asked : List Rule) (control : ControlId) :
    isBusy ⟨f, .attach f, clock, asked⟩ control = false := by
  rw [isBusy, Option.any_eq_false]
  intro p hp
  simp [InquiryPipeline.isBusy, (Scheduler.waiting_attach hp).1]

theorem Flags.of_eq (h : st.pending = e.isBusy control) : e.Flags control st where
  pending := h.trans
  exists_trigger hpending := by
    obtain ⟨p, hp, hbusy⟩ := (Option.any_eq_true _ _).1 (h.symm.trans hpending)
    exact ⟨p, hp, .inl hbusy⟩

namespace Flagged

/-- Behind a step of the inquiry pipeline the flag agrees with its phase. -/
theorem pending_eq (h : e.Flagged) (hsound : e.Sound)
    (hstep : e.stepInquiry? control race = some e')
    (hst : e'.form.state? control = some st) : st.pending = e'.isBusy control := by
  obtain ⟨p, hp, rfl, ⟨v, -, -, -, rfl⟩ | ⟨-, p', phase, hturns⟩⟩ := own_step_cases hsound hstep
  · rw [isBusy_eq (inquiry?_complete hp v)]
    exact (Shows.applyAsyncValidity e p.control _ hst).1
  · obtain ⟨st₀, hst₀, ⟨⟨deadline, hphase⟩, hpending⟩ | hpending, -⟩ := hturns.shows st hst
    · -- the flag is up since the beginning of the debounce
      have hbusy : e.isBusy p.control = true := by
        rw [isBusy_eq hp, InquiryPipeline.isBusy, hphase]
      rw [isBusy_eq hturns.inquiry, hpending, (h p.control st₀ hst₀).pending hbusy, Bool.true_and]
    · rw [isBusy_eq hturns.inquiry, hpending]

/-- All flags are as they should be for a new scheduler if they were so before. -/
theorem attach (h : e.Flagged) (hs : Scheduler.Subscribed e.form e.scheduler) {f : Form}
    (hform : f = e.form) (clock : Nat) (asked : List Rule) :
    Flagged ⟨f, .attach f, clock, asked⟩ := by
  subst hform
  intro control st hst
  refine ⟨fun hbusy => ?_, fun hpending => ?_⟩
  · rw [isBusy_attach] at hbusy
    cases hbusy
  · obtain ⟨p, hp, -⟩ := (h control st hst).exists_trigger hpending
    obtain ⟨q, hq⟩ := hs.exists_inquiry?_attach hp
    exact ⟨q, hq, .inr (Nat.lt_of_lt_of_eq Nat.zero_lt_one (Scheduler.waiting_attach hq).2.symm)⟩

/-- Where no step is next, all requests have been taken. -/
theorem pending_iff_of_next? (h : e.Flagged) (hsound : e.Sound) (hnext : e.next? none = none)
    (hst : e.form.state? control = some st) :
    st.pending = true ↔ e.isBusy control = true := by
  refine ⟨fun hpending => ?_, (h control st hst).pending⟩
  obtain ⟨p, hp, hbusy | hpos⟩ := (h control st hst).exists_trigger hpending
  · exact (isBusy_eq hp).trans hbusy
  · have hsome := isSome_stepInquiry? hsound hp hpos .usual
    rw [stepInquiry?_of_next? hnext hp] at hsome
    cases hsome

end Flagged

/-- Where inquiries are spared, a pipeline stays busy or idle. -/
theorem Spares.isBusy (h : Spares control e e') : e'.isBusy control = e.isBusy control := by
  cases hp : e.scheduler.inquiry? control with
  | none =>
      rw [Engine.isBusy, Engine.isBusy, hp, Option.any_none, Option.any_eq_false]
      intro p' hp'
      simp [InquiryPipeline.isBusy, h.fresh hp hp']
  | some p =>
      obtain ⟨n, phase, hphase, hp'⟩ := h.inquiry hp
      rw [isBusy_eq hp, isBusy_eq hp']
      rcases hphase with rfl | ⟨now, rfl⟩
      · rfl
      · exact p.isBusy_tick now

/-- Where inquiries are spared, a flag that stays as it is is as it should be still. -/
theorem Spares.flags (h : Spares control e e') {st' : ControlState} (hflags : e.Flags control st)
    (hsame : st'.pending = st.pending) : e'.Flags control st' where
  pending hbusy := hsame.trans (hflags.pending (h.isBusy.symm.trans hbusy))
  exists_trigger hpending := by
    obtain ⟨p, hp, htrigger⟩ := hflags.exists_trigger (hsame.symm.trans hpending)
    obtain ⟨n, phase, -, hp'⟩ := h.inquiry hp
    refine ⟨_, hp', htrigger.imp (fun hbusy => ?_) fun hpos => Nat.lt_of_lt_of_le hpos ?_⟩
    · rw [← isBusy_eq hp', h.isBusy, isBusy_eq hp, hbusy]
    · exact Nat.le_add_right _ _

end Engine

namespace Session

variable {s : Session} {e : Engine} {op : Op} {ops : List Op} {control : Nat} {race : Race}

/-! ## Operations with a scheduler -/

/-- An operation writes no flags by hand. -/
def Op.KeepsPending (op : Op) : Prop :=
  ∀ id change, op = .writeState id change → ∀ st : ControlState, (change st).pending = st.pending

theorem flagged_of_engine? (hsound : s.Sound) (hs : s.Subscribed) (hparents : s.form.ParentsBefore)
    (hwrites : op.KeepsPending) (hop : op.keepsScheduler = true)
    (hmoment : ∀ ms, op ≠ .advance ms) (he : s.engine? = some e) (h : e.Flagged) :
    ∃ e', (s.apply op).engine? = some e' ∧ e'.Flagged := by
  obtain ⟨e', he', heffect⟩ := effect_of_apply hop hmoment he
  have hserves := (hsound.serves he).sound
  refine ⟨e', he', fun control st hst => ?_⟩
  rcases op.turn_or_avoidsInquiry control with ⟨race, rfl⟩ | hother
  · rcases turn_cases he (.inquiry control) with hsame | ⟨e₁, hstep, he₁⟩
    · rw [hsame, he] at he'
      cases he'
      exact h control st hst
    · rw [he₁] at he'
      cases he'
      exact .of_eq (h.pending_eq hserves hstep hst)
  · have hid : e'.form.contains control = true := by
      rw [← Form.isSome_state?, hst]
      rfl
    have hspares := heffect.spares hserves hother hid
    have hcarries : Carries ControlState.pending e.form e'.form control :=
      heffect.carries (fun _ _ hpending _ => hpending) hserves (form_of_engine? he ▸ hparents)
        hother hwrites
    rcases hcarries st hst with ⟨st₀, hst₀, hsame⟩ | ⟨hnew, hdown⟩
    · exact hspares.flags (h control st₀ hst₀) hsame
    · -- a control that is new had no pipeline before
      have hidle : e.isBusy control = false := by
        rw [Engine.isBusy, Option.any_eq_false]
        intro p hp
        have hold := (hs e he).contains_of_inquiry? hp
        rw [← Form.isSome_state?, hnew] at hold
        cases hold
      exact .of_eq (hdown.trans (hspares.isBusy.trans hidle).symm)

/-! ## Operations without a scheduler -/

/-- Without a scheduler no pipeline can do anything to the form. -/
theorem form_apply_of_drives (hnone : s.engine? = none) (hdrives : op.drives = true) :
    (s.apply op).form = s.form := by
  cases op with
  | force id => simp only [apply, force, hnone]
  | advance ms => simp only [apply, advance, hnone]
  | turn r race => simp [apply, hnone]
  | wait ms => simp only [apply, hnone]
  | _ => cases hdrives

/-- An operation by which no pipeline works does the same to a form with a new scheduler. -/
theorem form_apply_attach (hdrives : op.drives = false) (hop : op.keepsScheduler = true) :
    (s.attach.apply op).form = (s.apply op).form := by
  have hform : s.attach.form = s.form := rfl
  cases op with
  | setValue id value =>
      simp only [apply_setValue, setValue_eq, hform]
      cases s.form.setValue id value <;> rfl
  | insert array index value =>
      simp only [apply_insert, insert_eq, hform]
      cases s.form.prepareInsert array index value <;> rfl
  | push array value =>
      simp only [apply_push, push_eq, hform]
      cases s.form.preparePush array value <;> rfl
  | remove array index =>
      simp only [apply_remove, remove_eq, hform]
      cases s.form.prepareRemove array index <;> rfl
  | setExternal id key message =>
      simp only [apply_setExternal, setExternal_eq, hform]
      cases s.form.setExternal id key message <;> rfl
  | clearExternal id key =>
      simp only [apply_clearExternal, clearExternal_eq, hform]
      cases s.form.clearExternal id key <;> rfl
  | attach => cases hop
  | detach => cases hop
  | _ => first | rfl | cases hdrives

section Unattached

variable {α : Type} {shown : ControlState → α} (hshown : AboutInquiries shown)

include hshown

/-- Without a scheduler it stays as it is what inquiries show. -/
theorem carries_apply_of_none (hsound : s.Sound) (hparents : s.form.ParentsBefore)
    (hwrites : ∀ id change, op = .writeState id change → ∀ st, shown (change st) = shown st)
    (hnone : s.engine? = none) (hattach : op ≠ .attach) :
    (s.apply op).engine? = none ∧ Form.Follows s.form (s.apply op).form ∧
      Carries shown s.form (s.apply op).form control := by
  by_cases hop : op.keepsScheduler = true
  · refine ⟨engine?_apply_of_none hnone hop, ?_⟩
    cases hdrives : op.drives with
    | true =>
        rw [form_apply_of_drives hnone hdrives]
        exact ⟨(Form.SameTree.refl _).follows, .refl _ _⟩
    | false =>
        have hmoment : ∀ ms, op ≠ .advance ms := by
          rintro ms rfl
          cases hdrives
        have hother : op.AvoidsInquiry control := by
          rintro race rfl
          cases hdrives
        have he : s.attach.engine? = some ⟨s.form, .attach s.form, s.clock, s.asked⟩ := rfl
        obtain ⟨e', he', heffect⟩ := effect_of_apply hop hmoment he
        have hserves := ((sound_apply hsound .attach).serves he).sound
        rw [← form_apply_attach hdrives hop, ← form_of_engine? he']
        exact ⟨heffect.follows hserves,
          heffect.carries hshown hserves hparents hother hwrites⟩
  · cases op with
    | attach => exact absurd rfl hattach
    | detach => exact ⟨rfl, (Form.SameTree.refl _).follows, .refl _ _⟩
    | _ => exact absurd rfl hop

theorem carries_run_of_none (hsound : s.Sound) (hparents : s.form.ParentsBefore)
    (hwrites : ∀ op ∈ ops, ∀ id change, op = .writeState id change →
      ∀ st, shown (change st) = shown st)
    (hnone : s.engine? = none) (hattach : .attach ∉ ops) :
    (s.run ops).engine? = none ∧ Form.Follows s.form (s.run ops).form ∧
      Carries shown s.form (s.run ops).form control := by
  induction ops generalizing s with
  | nil => exact ⟨hnone, (Form.SameTree.refl _).follows, .refl _ _⟩
  | cons op ops ih =>
      obtain ⟨hnone', hfollows, hcarries⟩ : _ ∧ _ ∧
          Carries shown s.form (s.apply op).form control :=
        carries_apply_of_none hshown hsound hparents (hwrites op List.mem_cons_self) hnone
          fun heq => hattach (heq ▸ List.mem_cons_self)
      obtain ⟨hnone'', hfollows', hcarries'⟩ := ih (sound_apply hsound op)
        (parentsBefore_apply hsound hparents op)
        (fun op hop => hwrites op (List.mem_cons_of_mem _ hop)) hnone'
        fun hmem => hattach (List.mem_cons_of_mem _ hmem)
      exact ⟨hnone'', hfollows.trans hfollows', hcarries.trans hcarries' hfollows hfollows'⟩

end Unattached

/-! ## Runs -/

/-- The form with its scheduler, or with a new one where none is attached. -/
def engineOrNew (s : Session) : Engine :=
  s.engine?.getD ⟨s.form, .attach s.form, s.clock, s.asked⟩

theorem engineOrNew_of_some (he : s.engine? = some e) : s.engineOrNew = e := by
  rw [engineOrNew, he, Option.getD_some]

theorem engineOrNew_of_none (hnone : s.engine? = none) :
    s.engineOrNew = ⟨s.form, .attach s.form, s.clock, s.asked⟩ := by
  rw [engineOrNew, hnone, Option.getD_none]

theorem form_engineOrNew (s : Session) : s.engineOrNew.form = s.form := by
  cases he : s.engine? with
  | none => rw [engineOrNew_of_none he]
  | some e => rw [engineOrNew_of_some he, form_of_engine? he]

theorem Subscribed.engineOrNew (hs : s.Subscribed) :
    Scheduler.Subscribed s.engineOrNew.form s.engineOrNew.scheduler := by
  cases he : s.engine? with
  | none =>
      rw [engineOrNew_of_none he]
      exact .attach s.form
  | some e =>
      rw [engineOrNew_of_some he]
      exact hs e he

/-- An operation leaves the flags as they should be. Where no scheduler is attached they are so for
a new one. -/
theorem flagged_apply (hsound : s.Sound) (hs : s.Subscribed) (hparents : s.form.ParentsBefore)
    (hwrites : op.KeepsPending) (hmoment : ∀ ms, op ≠ .advance ms) (h : s.engineOrNew.Flagged) :
    (s.apply op).engineOrNew.Flagged := by
  have hform : s.form = s.engineOrNew.form := (form_engineOrNew s).symm
  by_cases hop : op.keepsScheduler = true
  · cases he : s.engine? with
    | some e =>
        rw [engineOrNew_of_some he] at h
        obtain ⟨e', he', h'⟩ := flagged_of_engine? hsound hs hparents hwrites hop hmoment he h
        rw [engineOrNew_of_some he']
        exact h'
    | none =>
        rw [engineOrNew_of_none (engine?_apply_of_none he hop)]
        cases hdrives : op.drives with
        | true => exact h.attach hs.engineOrNew ((form_apply_of_drives he hdrives).trans hform) _ _
        | false =>
            -- the operation does the same with a scheduler that is attached before
            have hnew : s.attach.engine? = some s.engineOrNew := by
              rw [engineOrNew_of_none he]
              rfl
            have hsound' : s.attach.Sound := sound_apply hsound .attach
            have hs' : s.attach.Subscribed := subscribed_apply hsound hs .attach
            obtain ⟨e', he', h'⟩ :=
              flagged_of_engine? hsound' hs' hparents hwrites hop hmoment hnew h
            refine h'.attach (subscribed_apply hsound' hs' op e' he') ?_ _ _
            rw [form_of_engine? he', form_apply_attach hdrives hop]
  · cases op with
    | attach => exact h.attach hs.engineOrNew hform _ _
    | detach => exact h.attach hs.engineOrNew hform _ _
    | _ => exact absurd rfl hop

theorem flagged_run (hsound : s.Sound) (hs : s.Subscribed) (hparents : s.form.ParentsBefore)
    (hwrites : ∀ op ∈ ops, op.KeepsPending) (hmoments : ∀ op ∈ ops, ∀ ms, op ≠ .advance ms)
    (h : s.engineOrNew.Flagged) : (s.run ops).engineOrNew.Flagged := by
  induction ops generalizing s with
  | nil => exact h
  | cons op ops ih =>
      have h' := flagged_apply hsound hs hparents (hwrites op List.mem_cons_self)
        (hmoments op List.mem_cons_self) h
      exact ih (sound_apply hsound op) (subscribed_apply hsound hs op)
        (parentsBefore_apply hsound hparents op)
        (fun op hop => hwrites op (List.mem_cons_of_mem _ hop))
        (fun op hop => hmoments op (List.mem_cons_of_mem _ hop)) h'

/-- No pipeline can make a step without time passing. -/
def AtRest (s : Session) : Prop := ∀ e, s.engine? = some e → e.next? none = none

/-- The controls that are pending are those for which an inquiry pipeline of the scheduler debounces
or evaluates. -/
def TellsPending (s : Session) : Prop :=
  ∀ control st, s.form.state? control = some st →
    (st.pending = true ↔ ∃ e, s.engine? = some e ∧ e.isBusy control = true)

section Built

variable {m : Model} {data : Json} {c : Config}

private theorem pending_start {st : ControlState}
    (hst : (start (.build m data c)).form.state? control = some st) : st.pending = false :=
  (Form.inquired_build hst).1

/-- The flags are as they should be after each operation, those by which time passes being broken up
into turns and moments. -/
private theorem flagged_of_run (hwrites : ∀ op ∈ ops, op.KeepsPending)
    (hs : (start (.build m data c)).run ops = s) : s.engineOrNew.Flagged := by
  have hsound := sound_start m data c
  have hsubscribed : (start (.build m data c)).Subscribed := .of_none rfl
  rw [← hs, ← run_turns hsound hsubscribed]
  refine flagged_run hsound hsubscribed (Form.parentsBefore_build m data c) (fun op hop => ?_)
    (fun op hop ms heq => ?_) fun control st hst => ?_
  · rcases mem_turns hop with ⟨hop, -⟩ | ⟨r, rfl⟩ | ⟨ms, rfl⟩
    · exact hwrites op hop
    · exact fun id change heq => by cases heq
    · exact fun id change heq => by cases heq
  · exact advance_not_mem_turns _ _ ms (heq ▸ hop)
  · exact .of_eq ((pending_start hst).trans (Engine.isBusy_attach _ _ _ _).symm)

private theorem tellsPending_of_atRest (hwrites : ∀ op ∈ ops, op.KeepsPending)
    (hs : (start (.build m data c)).run ops = s) (hsome : s.engine?.isSome = true)
    (hrest : s.AtRest) : s.TellsPending := by
  intro control st hst
  obtain ⟨e, he⟩ := Option.isSome_iff_exists.1 hsome
  have hflagged := flagged_of_run hwrites hs
  rw [engineOrNew_of_some he] at hflagged
  have hsound : s.Sound := hs ▸ sound_run (sound_start m data c) ops
  rw [← form_of_engine? he] at hst
  rw [hflagged.pending_iff_of_next? (hsound.serves he).sound (hrest e he) hst]
  refine ⟨fun hbusy => ⟨e, he, hbusy⟩, fun ⟨e', he', hbusy⟩ => ?_⟩
  rw [he] at he'
  cases he'
  exact hbusy

private theorem carries_of_detach {before after : List Op}
    (hwrites : ∀ op ∈ after, op.KeepsPending) (hattach : .attach ∉ after)
    (hs : (start (.build m data c)).run (before ++ .detach :: after) = s) (control : ControlId) :
    Carries ControlState.pending ((start (.build m data c)).run before).form s.form control := by
  have hsound := sound_start m data c
  have hparents : (start (.build m data c)).form.ParentsBefore := Form.parentsBefore_build m data c
  have hafter : s = ((start (.build m data c)).run before).detach.run after := by
    rw [← hs, run_append]
    rfl
  rw [hafter]
  exact (carries_run_of_none (fun _ _ hpending _ => hpending)
    (sound_apply (sound_run hsound before) .detach) (parentsBefore_run hsound hparents before)
    hwrites rfl hattach).2.2

private theorem tellsPending_of_unattached (hwrites : ∀ op ∈ ops, op.KeepsPending)
    (hs : (start (.build m data c)).run ops = s) (hattach : .attach ∉ ops) : s.TellsPending := by
  subst hs
  intro control st hst
  obtain ⟨hnone, -, hcarries⟩ : _ ∧ _ ∧ Carries ControlState.pending
      (start (.build m data c)).form ((start (.build m data c)).run ops).form control :=
    carries_run_of_none (fun _ _ hpending _ => hpending) (sound_start m data c)
      (Form.parentsBefore_build m data c) hwrites rfl hattach
  have hpending : st.pending = false := by
    rcases hcarries st hst with ⟨st₀, hst₀, hsame⟩ | ⟨-, hinitial⟩
    · exact hsame.trans (pending_start hst₀)
    · exact hinitial
  simp [hpending, hnone]

end Built

/-- The flags tell what is pending while a scheduler is attached, and before the first one is. After
any operations by which no caller writes the flags by hand: if a scheduler is attached and no
pipeline can make a step, the controls that are pending are those for which an inquiry pipeline
debounces or evaluates. When the scheduler is dropped the flags stay as they are at that moment,
until another one is attached. If none was ever attached, no control is pending. -/
theorem pending_of_run {m : Model} {data : Json} {c : Config}
    (hwrites : ∀ op ∈ ops, op.KeepsPending) (hs : (start (.build m data c)).run ops = s) :
    (s.engine?.isSome = true → s.AtRest → s.TellsPending) ∧
      (∀ before after, ops = before ++ .detach :: after → .attach ∉ after → ∀ control,
        Carries ControlState.pending ((start (.build m data c)).run before).form s.form control) ∧
      (.attach ∉ ops → s.TellsPending) := by
  refine ⟨tellsPending_of_atRest hwrites hs, fun before after heq hattach control => ?_,
    tellsPending_of_unattached hwrites hs⟩
  subst heq
  refine carries_of_detach (fun op hop => hwrites op ?_) hattach hs control
  exact List.mem_append_right before (List.mem_cons_of_mem _ hop)

/-! ## Dropped in between

A scheduler is dropped while a field is inquired about. The evaluation is gone with it, and the flag
of the field is up for good.
-/

/-- A field is inquired about. -/
def inquiring : Session :=
  (start (.build inquiredPair pairData .standard)).run [.attach, .advance 55]

/-- The scheduler is dropped, and then time passes. -/
def inquiringDropped : Session := inquiring.run [.detach, .advance 1000]

/-- While the scheduler is attached the flag is right, and it is up. It stays as it is when the
scheduler is dropped. -/
theorem pending_inquiring :
    inquiring.TellsPending ∧ (inquiring.form.state? 1).any ControlState.pending = true ∧
      Carries ControlState.pending inquiring.form inquiringDropped.form 1 := by
  have hwrites : ∀ {ops : List Op}, (∀ op ∈ ops, op.drives = true ∨ op.keepsScheduler = false) →
      ∀ op ∈ ops, op.KeepsPending := by
    rintro ops hops op hop id change rfl
    rcases hops _ hop with hdrives | hkeeps
    · cases hdrives
    · cases hkeeps
  have hrest : inquiring.AtRest := fun e he => by
    have hnone : inquiring.engine?.all (fun e => (e.next? none).isNone) = true := by
      decide +kernel
    rw [he, Option.all_some, Option.isNone_iff_eq_none] at hnone
    exact hnone
  obtain ⟨htells, -, -⟩ := @pending_of_run inquiring [.attach, .advance 55] inquiredPair pairData
    .standard (hwrites (by decide)) rfl
  obtain ⟨-, hkept, -⟩ := @pending_of_run inquiringDropped
    [.attach, .advance 55, .detach, .advance 1000] inquiredPair pairData .standard
    (hwrites (by decide)) rfl
  exact ⟨htells (by decide +kernel) hrest, by decide +kernel,
    hkept [.attach, .advance 55] [.advance 1000] rfl (by simp) 1⟩

/-- Without a scheduler no pipeline is left, and the field is pending. -/
theorem not_tellsPending_inquiringDropped :
    inquiringDropped.AtRest ∧ ¬ inquiringDropped.TellsPending := by
  have hnone : inquiringDropped.engine? = none := rfl
  refine ⟨fun e he => ?_, fun htells => ?_⟩
  · rw [hnone] at he
    cases he
  · obtain ⟨st, hst, hpending⟩ := (Option.any_eq_true _ _).1
      (by decide +kernel : (inquiringDropped.form.state? 1).any ControlState.pending = true)
    obtain ⟨e, he, -⟩ := (htells 1 st hst).1 hpending
    rw [hnone] at he
    cases he

end Session

end ReactiveForm
