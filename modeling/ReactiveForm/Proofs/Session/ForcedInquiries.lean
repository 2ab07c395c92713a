import ReactiveForm.Proofs.Session.AsyncValidity
import ReactiveForm.Proofs.Session.Effects
import ReactiveForm.Proofs.Session.Resubscription
import ReactiveForm.Proofs.Session.Turns

/-!
# Forced inquiries are made

An inquiry of a control is forced by a caller, or by the pipeline for a dependency when the control
makes a pass (`Requests`). From then on the control is either pressed, and its inquiry pipeline can
start a forced evaluation at once, or a forced evaluation is under way (`Engine.Prompt`). No
operation on the rest of the form leads out of this. A step of the pipeline itself leads from the
first to the second, from one forced evaluation to another one that takes its place, or to the end
of an evaluation. A session in which a control is still prompt is not settled. So an evaluation that
was started after the request is completed before (`exists_makes_of_request`).
-/

namespace ReactiveForm

/-- The next inquiry is forced and its pipeline does not wait for anything, or a forced evaluation
is under way. -/
def Engine.Prompt (e : Engine) (control : ControlId) : Prop :=
  (e.Presses control ∧ ∀ race, (e.step? (.inquiry control) race).isSome = true) ∨
    ∃ v : Evaluation, v.forced = true ∧ e.Inquires control v

namespace Session

variable {s : Session} {e e' : Engine} {op : Op} {ops : List Op} {control n : Nat} {v : Evaluation}

/-- A scheduler is attached, and this holds for the form with it. -/
def Holds (s : Session) (P : Engine → Prop) : Prop := ∃ e, s.engine? = some e ∧ P e

/-- A caller forces an inquiry of a control, or the control makes a pass in the turn of a pipeline.
-/
def Requests (s : Session) (op : Op) (control : Nat) : Prop :=
  op = .force control ∨ (∃ r race, op = .turn r race) ∧
    s.passes control .validity < (s.apply op).passes control .validity

/-- How often a control was answered by its last results. -/
def passthroughs (s : Session) (control : Nat) : Nat :=
  (s.engine?.map fun e => e.passthroughs control).getD 0

/-- An evaluation stays under way during some operations, and the next turn of the pipeline
completes it. -/
structure Finishes (s : Session) (control n : Nat) (mid : List Op) (race : Race) (v : Evaluation) :
    Prop where
  underWay : s.Throughout mid fun t =>
    t.Holds fun e => e.Inquires control v ∧ e.passthroughs control = n
  completes : ∃ e e', (s.run mid).engine? = some e ∧
    ((s.run mid).apply (.turn (.inquiry control) race)).engine? = some e' ∧
      e.Completes control v e' ∧ e'.passthroughs control = n

/-- A control stays prompt during the first operations, the next turn of its pipeline starts a
forced evaluation of its validity tests on the values of that moment, and this evaluation is
finished. The number of passthroughs stays the same. -/
structure Makes (s : Session) (control n : Nat) (first : List Op) (race : Race) (mid : List Op)
    (race' : Race) (v : Evaluation) : Prop where
  prompt : s.Throughout first fun t =>
    t.Holds fun e => e.Prompt control ∧ e.passthroughs control = n
  starts : ∃ e e' p, (s.run first).engine? = some e ∧
    ((s.run first).apply (.turn (.inquiry control) race)).engine? = some e' ∧
      e.form.property? control = some p ∧ e.Starts control p.validTests v e'
  finishes : ((s.run first).apply (.turn (.inquiry control) race)).Finishes control n mid race' v

/-- Some operations finish an evaluation that is under way. -/
def Finished (s : Session) (control n : Nat) (ops : List Op) (v : Evaluation) : Prop :=
  ∃ mid race last, ops = mid ++ .turn (.inquiry control) race :: last ∧
    s.Finishes control n mid race v

/-- A forced inquiry is made in the course of some operations. -/
def Made (s : Session) (control n : Nat) (ops : List Op) : Prop :=
  ∃ first race mid race' last v, ops = first ++ .turn (.inquiry control) race ::
    (mid ++ .turn (.inquiry control) race' :: last) ∧ s.Makes control n first race mid race' v

/-! ## One operation -/

/-- What an operation makes of a control that is pressed. -/
theorem next_of_presses (hop : op.keepsScheduler = true) (hmoment : ∀ ms, op ≠ .advance ms)
    (h : s.Sound) (hs : s.Subscribed) (he : s.engine? = some e) (hpresses : e.Presses control)
    (hid : (s.apply op).form.contains control = true) :
    ∃ e', (s.apply op).engine? = some e' ∧ e'.passthroughs control = e.passthroughs control ∧
      (e'.Presses control ∨ (∃ race, op = .turn (.inquiry control) race) ∧
        ∃ p v, e.form.property? control = some p ∧ e.Starts control p.validTests v e') := by
  rcases op.turn_or_avoidsInquiry control with ⟨race, rfl⟩ | hturn
  · rcases turn_cases he (.inquiry control) with heq | ⟨e', hstep, he'⟩
    · exact ⟨e, by rwa [heq], rfl, .inl hpresses⟩
    · obtain ⟨hsame, hnext⟩ := hpresses.step (h.serves he).sound hstep
      refine ⟨e', he', hsame, hnext.imp_right fun ⟨q, v, hq, hstarts⟩ => ⟨⟨race, rfl⟩, ?_⟩⟩
      obtain ⟨p, hp, htests⟩ := (hs e he).exists_property_of_inquiry? hq
      exact ⟨p, v, hp, htests ▸ hstarts⟩
  · obtain ⟨e', he', hspares⟩ := spares_of_apply hop hmoment hturn h he hid
    exact ⟨e', he', hspares.passthroughs, .inl (hspares.presses hpresses)⟩

/-- What an operation makes of a forced evaluation that is under way. -/
theorem next_of_inquires (hop : op.keepsScheduler = true) (hmoment : ∀ ms, op ≠ .advance ms)
    (h : s.Sound) (hs : s.Subscribed) (he : s.engine? = some e) (hforced : v.forced = true)
    (hv : e.Inquires control v) (hid : (s.apply op).form.contains control = true) :
    ∃ e', (s.apply op).engine? = some e' ∧ e'.passthroughs control = e.passthroughs control ∧
      (e'.Inquires control v ∨ (∃ race, op = .turn (.inquiry control) race) ∧
        (e.Completes control v e' ∨ ∃ p v', e.form.property? control = some p ∧
          e.Starts control p.validTests v' e')) := by
  rcases op.turn_or_avoidsInquiry control with ⟨race, rfl⟩ | hturn
  · rcases turn_cases he (.inquiry control) with heq | ⟨e', hstep, he'⟩
    · exact ⟨e, by rwa [heq], rfl, .inl hv⟩
    · obtain ⟨hsame, hnext⟩ := hv.step hforced (h.serves he).sound hstep
      refine ⟨e', he', hsame, .inr ⟨⟨race, rfl⟩, hnext.imp_right fun ⟨q, v', hq, hstarts⟩ => ?_⟩⟩
      obtain ⟨p, hp, htests⟩ := (hs e he).exists_property_of_inquiry? hq
      exact ⟨p, v', hp, htests ▸ hstarts⟩
  · obtain ⟨e', he', hspares⟩ := spares_of_apply hop hmoment hturn h he hid
    exact ⟨e', he', hspares.passthroughs, .inl (hspares.inquires hv)⟩

/-! ## From the request to the end of an evaluation -/

theorem Made.cons (hnow : s.Holds fun e => e.Prompt control ∧ e.passthroughs control = n)
    (h : (s.apply op).Made control n ops) : s.Made control n (op :: ops) := by
  obtain ⟨first, race, mid, race', last, v, rfl, hmakes⟩ := h
  exact ⟨op :: first, race, mid, race', last, v, rfl, throughout_cons.2 ⟨hnow, hmakes.prompt⟩,
    hmakes.starts, hmakes.finishes⟩

theorem Finished.cons (hnow : s.Holds fun e => e.Inquires control v ∧ e.passthroughs control = n)
    (h : (s.apply op).Finished control n ops v) : s.Finished control n (op :: ops) v := by
  obtain ⟨mid, race, last, rfl, hfinishes⟩ := h
  exact ⟨op :: mid, race, last, rfl, throughout_cons.2 ⟨hnow, hfinishes.underWay⟩,
    hfinishes.completes⟩

/-- An evaluation that is started is finished, or a forced one is made in its place. -/
private theorem made_of_starts {p : Property} (he : s.engine? = some e)
    (he' : (s.apply (.turn (.inquiry control) race)).engine? = some e')
    (hprompt : e.Prompt control) (hn : e.passthroughs control = n)
    (hp : e.form.property? control = some p) (hstarts : e.Starts control p.validTests v e')
    (hrest : (s.apply (.turn (.inquiry control) race)).Finished control n ops v ∨
      (s.apply (.turn (.inquiry control) race)).Made control n ops) :
    s.Made control n (.turn (.inquiry control) race :: ops) := by
  have hnow : s.Holds fun e => e.Prompt control ∧ e.passthroughs control = n :=
    ⟨e, he, hprompt, hn⟩
  rcases hrest with ⟨mid, race', last, rfl, hfinishes⟩ | hmade
  · exact ⟨[], race, mid, race', last, v, rfl, throughout_nil.2 hnow,
      ⟨e, e', p, he, he', hp, hstarts⟩, hfinishes⟩
  · exact .cons hnow hmade

/-- The pipeline of a settled session waits, and nothing is requested. -/
private theorem idle_of_isSettled (control : Nat) (h : s.Sound) (he : s.engine? = some e)
    (hsettled : s.isSettled = true) :
    ¬ e.Presses control ∧ ∀ v, ¬ e.Inquires control v := by
  have hquiet : e.isSettled = true := by simpa [isSettled, he] using hsettled
  have hwaiting := fun {p} =>
    @Engine.waiting_of_isSettled e hquiet (h.serves he).sound control p
  refine ⟨fun hpresses => ?_, fun v hv => ?_⟩
  · obtain ⟨p, hp, hpos⟩ := hpresses.requested
    have hzero := (hwaiting hp).2.1
    omega
  · obtain ⟨p, evaluation, hp, hphase, -⟩ := hv
    rw [(hwaiting hp).1] at hphase
    cases hphase

/-- Before a session is settled, a control that is pressed gets its forced inquiry, and a forced
evaluation under way is finished, or a forced one is made in its place. -/
theorem made_of_isSettled (h : s.Sound) (hs : s.Subscribed) (he : s.engine? = some e)
    (hn : e.passthroughs control = n) (hkeeps : ∀ op ∈ ops, op.keepsScheduler = true)
    (hmoments : ∀ op ∈ ops, ∀ ms, op ≠ .advance ms)
    (hlive : s.Throughout ops fun t => t.form.contains control = true)
    (hsettled : (s.run ops).isSettled = true) :
    (e.Presses control → s.Made control n ops) ∧
      ∀ v, v.forced = true → e.Inquires control v →
        s.Finished control n ops v ∨ s.Made control n ops := by
  induction ops generalizing s e with
  | nil =>
      obtain ⟨hpresses, hinquires⟩ := idle_of_isSettled control h he hsettled
      exact ⟨fun h => absurd h hpresses, fun v _ hv => absurd hv (hinquires v)⟩
  | cons op ops ih =>
      have hop := hkeeps op List.mem_cons_self
      have hmoment := hmoments op List.mem_cons_self
      obtain ⟨hnow, hlive⟩ := throughout_cons.1 hlive
      have hid := hlive.now
      have hrest : ∀ {e'}, (s.apply op).engine? = some e' →
          e'.passthroughs control = n → _ := fun he' hn' =>
        ih (sound_apply h op) (subscribed_apply h hs op) he' hn'
          (fun o ho => hkeeps o (List.mem_cons_of_mem _ ho))
          (fun o ho => hmoments o (List.mem_cons_of_mem _ ho)) hlive hsettled
      refine ⟨fun hpresses => ?_, fun v hforced hv => ?_⟩
      · have hprompt : e.Prompt control :=
          .inl ⟨hpresses, fun _ => hpresses.isSome_step? (h.serves he).sound⟩
        obtain ⟨e', he', hsame, hnext⟩ := next_of_presses hop hmoment h hs he hpresses hid
        obtain ⟨hwhenPressed, hwhenInquiring⟩ := hrest he' (hsame.trans hn)
        rcases hnext with hpresses' | ⟨⟨race, rfl⟩, p, v, hp, hstarts⟩
        · exact .cons ⟨e, he, hprompt, hn⟩ (hwhenPressed hpresses')
        · exact made_of_starts he he' hprompt hn hp hstarts
            (hwhenInquiring v hstarts.forced hstarts.inquires)
      · have hprompt : e.Prompt control := .inr ⟨v, hforced, hv⟩
        obtain ⟨e', he', hsame, hnext⟩ := next_of_inquires hop hmoment h hs he hforced hv hid
        obtain ⟨-, hwhenInquiring⟩ := hrest he' (hsame.trans hn)
        rcases hnext with hv' | ⟨⟨race, rfl⟩, hcompletes | ⟨p, v', hp, hstarts⟩⟩
        · exact (hwhenInquiring v hforced hv').imp (.cons ⟨e, he, hv, hn⟩)
            (.cons ⟨e, he, hprompt, hn⟩)
        · exact .inl ⟨[], race, ops, rfl, throughout_nil.2 ⟨e, he, hv, hn⟩,
            ⟨e, e', he, he', hcompletes, hsame.trans hn⟩⟩
        · exact .inr (made_of_starts he he' hprompt hn hp hstarts
            (hwhenInquiring v' hstarts.forced hstarts.inquires))

/-- A request makes the control press. -/
theorem presses_of_requests (h : s.Sound) (hs : s.Subscribed) (he : s.engine? = some e)
    (hrequests : s.Requests op control) {p : Property} (hp : s.form.property? control = some p)
    (hinquiry : p.validTests.any Test.hasInquiry = true) :
    ∃ e', (s.apply op).engine? = some e' ∧ e'.Presses control := by
  obtain ⟨q, hq⟩ : ∃ q, e.scheduler.inquiry? control = some q := by
    have houtline := (hs e he).inquiry? (form_of_engine? he ▸ hp)
    rw [if_pos hinquiry] at houtline
    obtain ⟨q, hq, -⟩ := Option.map_eq_some_iff.1 houtline
    exact ⟨q, hq⟩
  rcases hrequests with rfl | ⟨⟨r, race, rfl⟩, hpass⟩
  · simp only [apply, force, he]
    exact ⟨_, engine?_withEngine s _, Engine.presses_force hq⟩
  · rcases turn_cases he r with heq | ⟨e', hstep, he'⟩
    · rw [heq] at hpass
      exact absurd hpass (Nat.lt_irrefl _)
    · rw [passes_of_engine? he, passes_of_engine? he'] at hpass
      exact ⟨e', he', Engine.presses_of_step (h.serves he).sound hstep hq hpass⟩

/-- A forced request is never lost, however the races of the pipelines end. When an inquiry of a
control with inquiries is forced at some moment of a run, the control stays there, the scheduler
stays attached, and the session is settled later, then in between an evaluation of the validity
tests was started on the values of that time, and it was completed and its errors were recorded.
Until it was started, the pipeline of the control could always start a forced evaluation at once, or
one was under way, and the control was never answered by its last results. -/
theorem exists_makes_of_request {m : Model} {data : Json} {c : Config} {before after rest : List Op}
    {all : List Op} {request : Op} {p : Property}
    (hrun : (start (.build m data c)).turns all = before ++ request :: (after ++ rest))
    (hs : (start (.build m data c)).run before = s) (hattached : s.scheduler.isSome = true)
    (hrequests : s.Requests request control) (hp : s.form.property? control = some p)
    (hinquiry : p.validTests.any Test.hasInquiry = true)
    (hkeeps : ∀ op ∈ after, op.keepsScheduler = true)
    (hlive : (s.apply request).Throughout after fun t => t.form.contains control = true)
    (hsettled : ((s.apply request).run after).isSettled = true) :
    (start (.build m data c)).run all = ((s.apply request).run after).run rest ∧
      ∃ first race mid race' last v,
        after = first ++ .turn (.inquiry control) race ::
          (mid ++ .turn (.inquiry control) race' :: last) ∧
        (s.apply request).Makes control ((s.apply request).passthroughs control) first race mid
          race' v := by
  have hstart := sound_start m data c
  have hunattached : (start (.build m data c)).Subscribed := .of_none rfl
  refine ⟨?_, ?_⟩
  · rw [← run_turns hstart hunattached all, hrun, run_append, hs]
    exact run_append _ _ _
  · have hsound : s.Sound := hs ▸ sound_run hstart before
    have hsubscribed : s.Subscribed := hs ▸ subscribed_run hstart hunattached before
    obtain ⟨sched, hsched⟩ := Option.isSome_iff_exists.1 hattached
    have he : s.engine? = some ⟨s.form, sched, s.clock, s.asked⟩ := by rw [engine?, hsched]; rfl
    obtain ⟨e', he', hpresses⟩ := presses_of_requests hsound hsubscribed he hrequests hp hinquiry
    have hn : e'.passthroughs control = (s.apply request).passthroughs control := by
      rw [passthroughs, he']
      rfl
    have hmoments : ∀ op ∈ after, ∀ ms, op ≠ .advance ms := by
      rintro op hop ms rfl
      refine advance_not_mem_turns (start (.build m data c)) all ms ?_
      rw [hrun]
      simp [hop]
    exact (made_of_isSettled (sound_apply hsound request)
      (subscribed_apply hsound hsubscribed request) he' hn hkeeps hmoments hlive hsettled).1
      hpresses

/-- A field whose dependency has changed, at the moment at which its pipeline reacts to that. The
first inquiry is still requested. -/
def pressedPair : Session :=
  (start (.build inquiredPair pairData .standard)).run
    [.attach, otherBecomesTwo, .turn (.dependency 0) .usual, .wait 100]

/-- The change forces an inquiry. When the results of the evaluation that is started for it are
there, the request that was there before outruns them, and the evaluation is done anew. -/
theorem exists_makes_pressedPair :
    let t := pressedPair.apply (.turn (.dependency 0) .usual)
    let after : List Op :=
      [.turn (.inquiry 1) .usual, .wait 10, .turn (.inquiry 1) ⟨true, true⟩, .wait 10,
        .turn (.inquiry 1) .usual]
    (t.run after).isSettled = true ∧ ∃ first race mid race' last v,
      after = first ++ .turn (.inquiry 1) race :: (mid ++ .turn (.inquiry 1) race' :: last) ∧
        t.Makes 1 0 first race mid race' v := by
  obtain ⟨p, hp, hinquiry⟩ := (Option.any_eq_true _ _).1
    (by decide +kernel :
      (pressedPair.form.property? 1).any (·.validTests.any Test.hasInquiry) = true)
  have hn : (pressedPair.apply (.turn (.dependency 0) .usual)).passthroughs 1 = 0 := by
    decide +kernel
  have hmakes := (@exists_makes_of_request pressedPair 1 inquiredPair pairData .standard
    [.attach, otherBecomesTwo, .turn (.dependency 0) .usual, .wait 100]
    [.turn (.inquiry 1) .usual, .wait 10, .turn (.inquiry 1) ⟨true, true⟩, .wait 10,
      .turn (.inquiry 1) .usual] []
    [.attach, otherBecomesTwo, .turn (.dependency 0) .usual, .wait 100,
      .turn (.dependency 0) .usual, .turn (.inquiry 1) .usual, .wait 10,
      .turn (.inquiry 1) ⟨true, true⟩, .wait 10, .turn (.inquiry 1) .usual]
    (.turn (.dependency 0) .usual) p rfl rfl (by decide +kernel)
    (.inr ⟨⟨_, _, rfl⟩, by decide +kernel⟩) hp hinquiry (by decide)
    (throughout_cons.2 ⟨by decide +kernel, throughout_cons.2 ⟨by decide +kernel,
      throughout_cons.2 ⟨by decide +kernel, throughout_cons.2 ⟨by decide +kernel,
        throughout_cons.2 ⟨by decide +kernel, throughout_nil.2 (by decide +kernel)⟩⟩⟩⟩⟩)
    (by decide +kernel)).2
  rw [hn] at hmakes
  exact ⟨by decide +kernel, hmakes⟩

end Session

end ReactiveForm
