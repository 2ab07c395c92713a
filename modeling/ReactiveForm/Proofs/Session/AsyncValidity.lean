import ReactiveForm.Proofs.Recompute.Answers
import ReactiveForm.Proofs.Session.Runs

/-!
# Validity by inquiries is up to date

Whatever happens to a form while its structure stays, the inquiry pipeline of a control answers for
what it does (`Answered`). In a settled state it waits without a trigger before it, so the result
that it keeps is shown, and it is about a form with the present value (`Answered.of_isSettled`).
Where all dependencies are covered, they had their present values in that form too
(`AsyncCovered.of_isSettled`).

A pipeline that leaves out a value that it evaluated last takes equal values for the same. Then the
value that was evaluated is equal to the present one, and it can be the zero of the other sign
(`stale_reply_unsignedPair`).
-/

namespace ReactiveForm

namespace Engine

variable {e e' : Engine} {p : InquiryPipeline} {race : Race}

/-! ## Events that write nothing about inquiries -/

section Unasked

variable {control : Nat}

/-- Only its own inquiry pipeline writes what a control shows of inquiries. -/
theorem Event.keepsShowing (hevent : Event e e') (sound : e.Sound)
    (hnone : e.scheduler.inquiry? control = none) : KeepsShowing e e' control := by
  cases hevent with
  | step hstep =>
      refine keepsShowing_step sound ?_ hstep
      rintro rfl
      obtain ⟨q, stream, hq, -⟩ := inquiryStep_of_stepInquiry? hstep
      rw [hnone] at hq
      cases hq
  | tick now => exact fun s hs => ⟨s, hs, rfl, rfl⟩
  | set hset => exact keepsShowing_set hset
  | external id change => exact keepsShowing_external e id change
  | force id => exact keepsShowing_force e id

/-- Without an inquiry pipeline a control goes on showing of inquiries what it has shown. -/
theorem Events.keepsShowing (hrun : Events e e') (sound : e.Sound)
    (hnone : e.scheduler.inquiry? control = none) : KeepsShowing e e' control := by
  induction hrun with
  | refl => exact fun s hs => ⟨s, hs, rfl, rfl⟩
  | tail hrun hevent ih =>
      intro s' hs'
      have houtline := (hrun.sameOutline sound).inquiry? control
      rw [hnone, Option.map_none, Option.map_eq_none_iff] at houtline
      obtain ⟨s, hs, hpending, herrors⟩ :=
        hevent.keepsShowing (hrun.sound sound) houtline s' hs'
      obtain ⟨s₀, hs₀, hpending₀, herrors₀⟩ := ih s hs
      exact ⟨s₀, hs₀, hpending.trans hpending₀, herrors.trans herrors₀⟩

/-- A control without an inquiry pipeline has no errors by inquiries if it had none at the start. -/
theorem Events.asyncErrors_eq_none (hrun : Events e e') (sound : e.Sound)
    (hnone : e.scheduler.inquiry? control = none)
    (hstart : ∀ s, e.form.state? control = some s → s.asyncErrors = none) :
    ∀ s, e'.form.state? control = some s → s.asyncErrors = none := by
  intro s' hs'
  obtain ⟨s, hs, -, herrors⟩ := hrun.keepsShowing sound hnone s' hs'
  exact herrors.trans (hstart s hs)

end Unasked

/-! ## Answers of a control -/

/-- The inquiry pipeline of a control answers for what it does. -/
def Answered (e : Engine) (control : Nat) (K A : Form → Prop → Prop) : Prop :=
  ∃ p, e.scheduler.inquiry? control = some p ∧ e.Answers K A p

namespace Answered

variable {control : Nat} {K K' A A' : Form → Prop → Prop}

theorem imp (h : e.Answered control K A) (hK : ∀ past excuse, K past excuse → K' past excuse)
    (hA : ∀ past excuse, A past excuse → A' past excuse) : e.Answered control K' A' := by
  obtain ⟨p, hp, hanswers⟩ := h
  exact ⟨p, hp, hanswers.imp hK hA⟩

/-- Another pipeline goes on without a reaction. -/
theorem watch (h : e.Answered control K A) {q : ChangePipeline} {y : Option Json} {w : Watcher}
    {s : Scheduler} (hstep : e.ChangeStep q y w s) :
    Answered { e with scheduler := s } control K A := by
  obtain ⟨p, hp, hanswers⟩ := h
  have hentry : ({ e with scheduler := s } : Engine).entry p.control = e.entry p.control :=
    congrArg (fun t => ScheduleTable.entry t p.control) hstep.table
  refine ⟨p, (hstep.inquiry _).trans hp, ?_⟩
  exact hanswers.carry (.refl _) (fun s hs => ⟨s, hs, rfl, rfl⟩)
    (congrArg ScheduleEntry.force hentry) (congrArg ScheduleEntry.lastProcessed hentry)
    (congrArg ScheduleEntry.lastErrors hentry) (fun _ _ => id) (fun _ _ => id) id (.inr rfl)

/-- A pass of the control itself forces an inquiry. -/
theorem react_self (h : e.Answered control K A) (sound : e.Sound) (hK : Excusable K')
    (hA : Excusable A') : (e.react control .validity).Answered control K' A' := by
  obtain ⟨p, hp, hanswers⟩ := h
  obtain ⟨rfl, -⟩ := sound.inquiry hp
  have hentry : (e.react p.control .validity).entry p.control =
      (e.entry p.control).noted .validity := (entry_react _ _ _ _).trans (if_pos rfl)
  refine ⟨{ p with requests := p.requests + 1 }, ?_,
    hanswers.request hK hA (sameDocument_react e _ _) (keepsShowing_react e _ _) ?_ ?_ ?_⟩
  · rw [inquiry?_react, if_pos ⟨rfl, rfl⟩, hp, Option.map_some]
  · rw [hentry]
    rfl
  · rw [hentry]
    rfl
  · rw [hentry]
    rfl

/-- Any other reaction leaves the inquiries of the control alone. -/
theorem react_of_ne (h : e.Answered control K A) (sound : e.Sound) {other : ControlId}
    {reaction : Reaction} (hne : ¬ (control = other ∧ reaction = .validity)) :
    (e.react other reaction).Answered control K A := by
  obtain ⟨p, hp, hanswers⟩ := h
  obtain ⟨rfl, -⟩ := sound.inquiry hp
  have hdoc := sameDocument_react e other reaction
  have hsame : ((e.react other reaction).entry p.control).force = (e.entry p.control).force ∧
      ((e.react other reaction).entry p.control).lastProcessed =
        (e.entry p.control).lastProcessed ∧
      ((e.react other reaction).entry p.control).lastErrors = (e.entry p.control).lastErrors := by
    rw [entry, entry_react]
    split
    · rename_i hcontrol
      cases reaction with
      | validity => exact absurd ⟨hcontrol, rfl⟩ hne
      | editability => exact ⟨rfl, rfl, rfl⟩
    · exact ⟨rfl, rfl, rfl⟩
  refine ⟨p, ?_, hanswers.carry hdoc.sameTree (keepsShowing_react e _ _) hsame.1 hsame.2.1
    hsame.2.2 (fun _ _ => id) (fun _ _ => id) (fun hunread => hunread.congr (hdoc.changes _))
    (.inr (hdoc.value _))⟩
  rw [inquiry?_react, if_neg hne, hp]

/-- A step of a pipeline that runs checks. -/
theorem changeStep (h : e.Answered control K A) (sound : e.Sound) (hK : Excusable K')
    (hA : Excusable A') {q : ChangePipeline} {y : Option Json} {w : Watcher} {s : Scheduler}
    (hstep : e.ChangeStep q y w s)
    (hkeep : ({ e with scheduler := s }.reactIf { q with watcher := w } y.isSome).passes control
      .validity = e.passes control .validity →
      (∀ past excuse, K past excuse → K' past excuse) ∧
        ∀ past excuse, A past excuse → A' past excuse) :
    ({ e with scheduler := s }.reactIf { q with watcher := w } y.isSome).Answered control
      K' A' := by
  have hpasses := passes_changeStep hstep control .validity
  have hwatched := h.watch hstep
  have sound' := hstep.sound sound
  cases y with
  | none =>
      obtain ⟨hkept, hawaited⟩ := hkeep (by simpa using hpasses)
      exact hwatched.imp hkept hawaited
  | some v =>
      rw [reactIf_some] at hpasses hkeep ⊢
      by_cases hown : control = q.control ∧ q.reaction = .validity
      · obtain ⟨rfl, hreaction⟩ := hown
        rw [hreaction]
        exact hwatched.react_self sound' hK hA
      · rw [if_neg fun hreacts => hown hreacts.2] at hpasses
        obtain ⟨hkept, hawaited⟩ := hkeep hpasses
        exact (hwatched.react_of_ne sound' hown).imp hkept hawaited

/-- A step of some pipeline. What held of the form of the kept result, and of the form of the
evaluation under way, goes on to hold. When an evaluation is completed, its form becomes that of the
kept result, and when one is started, its form is the present one. -/
theorem step (h : e.Answered control K A) (sound : e.Sound) (hK : Excusable K) (hA : Excusable A)
    (hK' : Excusable K') (hA' : Excusable A') {r : PipelineRef} (hstep : e.step? r race = some e')
    (hother : r ≠ .inquiry control → e'.passes control .validity = e.passes control .validity →
      (∀ past excuse, K past excuse → K' past excuse) ∧
        ∀ past excuse, A past excuse → A' past excuse)
    (hkept : r = .inquiry control → ∀ p, e.scheduler.inquiry? control = some p →
      e.GivesUp p race → ∀ past excuse, K past excuse → K' past excuse)
    (happlied : r = .inquiry control → ∀ p, e.scheduler.inquiry? control = some p →
      ¬ e.GivesUp p race → ∀ past excuse, A past excuse → K' past excuse)
    (hread : e.asyncRuns control < e'.asyncRuns control → ∀ excuse, A' e'.form excuse) :
    e'.Answered control K' A' := by
  cases r with
  | dependency i =>
      obtain ⟨p, y, w, s, hchange, rfl⟩ := changeStep_of_stepDependency? hstep
      exact h.changeStep sound hK' hA' hchange (hother (by simp))
  | editability id =>
      obtain ⟨p, y, w, s, hchange, rfl⟩ := changeStep_of_stepEditability? hstep
      exact h.changeStep sound hK' hA' hchange (hother (by simp))
  | inquiry id =>
      obtain ⟨p, hp, hanswers⟩ := h
      obtain ⟨rfl, s, hs, -, hopen, -⟩ := sound.inquiry hp
      obtain ⟨q, stream, hq, hstream, hinquiry⟩ := inquiryStep_of_stepInquiry? hstep
      obtain ⟨rfl, -⟩ := sound.inquiry hq
      have frame := hinquiry.frame hq
      by_cases hid : q.control = p.control
      · rw [hid, hp] at hq
        cases hq
        rw [hs] at hstream
        cases hstream
        exact hinquiry.answers hK hA hK' hp hopen hs hanswers (hkept rfl p hp) (happlied rfl p hp)
          hread
      · obtain ⟨hkept, hawaited⟩ := hother (fun heq => hid (PipelineRef.inquiry.inj heq))
          (passes_of_inquiryFrame frame p.control .validity)
        have hid : p.control ≠ q.control := Ne.symm hid
        have hentry : e'.entry p.control = e.entry p.control := frame.entry _ hid
        refine ⟨p, (frame.inquiry _ hid).trans hp, hanswers.carry frame.document.sameTree ?_
          (congrArg ScheduleEntry.force hentry) (congrArg ScheduleEntry.lastProcessed hentry)
          (congrArg ScheduleEntry.lastErrors hentry) hkept hawaited
          (fun hunread => hunread.congr (frame.document.changes _))
          (.inr (frame.document.value _))⟩
        intro s' hs'
        exact ⟨s', (frame.state _ hid).symm.trans hs', rfl, rfl⟩

theorem tick (h : e.Answered control K A) (hK : Excusable K) (now : Nat) :
    (e.tick now).Answered control K A := by
  obtain ⟨p, hp, hanswers⟩ := h
  exact ⟨p.tick now, by rw [inquiry?_tick, hp, Option.map_some], hanswers.tick hK now⟩

/-- A new value of the control or of something below it is a change to be received. -/
theorem set (h : e.Answered control K A) (fit : e.Fit) {id : ControlId} {v : Json} {f : Form}
    (hset : e.form.setValue id v = .ok f) (hK : ∀ past excuse, K past excuse → K' past excuse)
    (hA : ∀ past excuse, A past excuse → A' past excuse) :
    { e with form := f }.Answered control K' A' := by
  obtain ⟨p, hp, hanswers⟩ := h
  obtain ⟨rfl, hsound⟩ := fit.sound.inquiry hp
  have hsent := Form.changes?_of_setValue hset p.control
  refine ⟨p, hp, hanswers.carry (Form.sameTree_setValue hset) (keepsShowing_set hset) rfl rfl rfl
    hK hA ?_ ?_⟩
  · by_cases hmem : p.control ∈ e.form.lineage id
    · exact fun _ => hsound.unread_of_sendTimes (List.count_pos_iff.2 hmem) hsent
    · exact fun hunread => hunread.congr (Form.changes?_of_notMem_lineage hset hmem)
  · by_cases hmem : p.control ∈ e.form.lineage id
    · exact .inl (hsound.unread_of_sendTimes (List.count_pos_iff.2 hmem) hsent)
    · exact .inr (Form.value_of_setValue hset fit.tree hmem)

theorem external (h : e.Answered control K A) (id : ControlId)
    (change : List (String × String) → List (String × String))
    (hK : ∀ past excuse, K past excuse → K' past excuse)
    (hA : ∀ past excuse, A past excuse → A' past excuse) :
    { e with
      form := e.form.modifyState id fun s =>
        { s with externalErrors := change s.externalErrors } }.Answered control K' A' := by
  obtain ⟨p, hp, hanswers⟩ := h
  have hdoc := Form.sameDocument_modifyState e.form id fun s =>
    { s with externalErrors := change s.externalErrors }
  exact ⟨p, hp, hanswers.carry hdoc.sameTree (keepsShowing_external e id change) rfl rfl rfl hK hA
    (fun hunread => hunread.congr (hdoc.changes _)) (.inr (hdoc.value _))⟩

theorem force (h : e.Answered control K A) (sound : e.Sound) (hK' : Excusable K')
    (hA' : Excusable A') (id : ControlId)
    (hK : control ≠ id → ∀ past excuse, K past excuse → K' past excuse)
    (hA : control ≠ id → ∀ past excuse, A past excuse → A' past excuse) :
    (e.force id).Answered control K' A' := by
  obtain ⟨p, hp, hanswers⟩ := h
  obtain ⟨rfl, -⟩ := sound.inquiry hp
  have hdoc := sameDocument_force e id
  have hshows : KeepsShowing e (e.force id) p.control := keepsShowing_force e id
  by_cases hid : p.control = id
  · have hentry : (e.force id).entry p.control = { e.entry p.control with force := true } :=
      (entry_force e id p.control).trans (if_pos hid)
    have hforce := congrArg ScheduleEntry.force hentry
    have hlast := congrArg ScheduleEntry.lastProcessed hentry
    have herrors := congrArg ScheduleEntry.lastErrors hentry
    refine ⟨{ p with requests := p.requests + 1 }, ?_,
      hanswers.request hK' hA' hdoc hshows hforce hlast herrors⟩
    rw [inquiry?_force, if_pos hid, hp, Option.map_some]
  · have hentry : (e.force id).entry p.control = e.entry p.control :=
      (entry_force e id p.control).trans (if_neg hid)
    refine ⟨p, ?_, hanswers.carry hdoc.sameTree hshows (congrArg ScheduleEntry.force hentry)
      (congrArg ScheduleEntry.lastProcessed hentry) (congrArg ScheduleEntry.lastErrors hentry)
      (hK hid) (hA hid) (fun hunread => hunread.congr (hdoc.changes _)) (.inr (hdoc.value _))⟩
    rw [inquiry?_force, if_neg hid, hp]

/-- In a settled state there is no excuse. The kept result is shown, and it is about a form in which
the control had its present value, as far as the pipeline tells values apart. -/
theorem of_isSettled (h : e.Answered control K A) (hK : Excusable K) (sound : e.Sound)
    (hsettled : e.isSettled = true) :
    ∃ p past, e.scheduler.inquiry? control = some p ∧ Form.SameTree past e.form ∧
      e.Shows control false (past.reply control p.tests).errors? ∧
      p.settings.Equates (past.value control) (e.form.value control) ∧ K past False := by
  obtain ⟨p, hp, hanswers⟩ := h
  obtain ⟨hphase, hzero, hunread⟩ := waiting_of_isSettled hsettled sound hp
  obtain ⟨rfl, -⟩ := sound.inquiry hp
  have hidle : p.isBusy = false := by simp [InquiryPipeline.isBusy, hphase]
  -- nothing is requested, so no inquiry is forced and the first one is over
  have hunforced : ¬ (e.entry p.control).force = true := fun hforce =>
    absurd (hanswers.forced hforce) (by omega)
  obtain ⟨v, hv⟩ : ∃ v, (e.entry p.control).lastProcessed = some v := by
    cases hlast : (e.entry p.control).lastProcessed with
    | some v => exact ⟨v, rfl⟩
    | none =>
        rcases hanswers.first hlast with hbusy | hpos
        · simp [hidle] at hbusy
        · omega
  obtain ⟨past, htree, hvalue, herrors, hpast⟩ := hanswers.keeps v hv
  have hshows := hanswers.shows
  rw [hidle, herrors] at hshows
  refine ⟨p, past, hp, htree, hshows, ?_, hK.imp hpast ?_⟩
  · rw [← hvalue]
    rcases hanswers.recent v hv with hbusy | hpos | hnew | hequates
    · simp [hidle] at hbusy
    · omega
    · exact absurd hnew hunread
    · exact hequates
  · rintro (hforce | ⟨evaluation, hevaluating, -⟩)
    · exact hunforced hforce
    · rw [hphase] at hevaluating
      cases hevaluating

end Answered

/-- What the inquiry pipeline of a control answers for is about a form whose dependencies are
covered. -/
def AsyncCovered (e : Engine) (control : Nat) : Prop :=
  e.Answered control (e.Covers control .validity) (e.Covers control .validity)

namespace AsyncCovered

variable {control : Nat}

theorem event (h : AsyncCovered e control) (fit : e.Fit) (hall : e.AsksForAll control .validity)
    (hevent : Event e e') : AsyncCovered e' control := by
  have hX := excusable_covers e control .validity
  have hX' := excusable_covers e' control .validity
  cases hevent with
  | @step r race _ hstep =>
      have hkeep : e'.passes control .validity = e.passes control .validity →
          ∀ past excuse, e.Covers control .validity past excuse →
            e'.Covers control .validity past excuse := fun hquiet _ _ hcovered =>
        hcovered.step fit hall hstep hquiet
      have hown : r = .inquiry control →
          e'.passes control .validity = e.passes control .validity := fun heq => by
        rw [heq] at hstep
        exact passes_of_stepInquiry? fit.sound hstep control .validity
      exact Answered.step h fit.sound hX hX hX' hX' hstep
        (fun _ hquiet => ⟨hkeep hquiet, hkeep hquiet⟩) (fun heq _ _ _ => hkeep (hown heq))
        (fun heq _ _ _ => hkeep (hown heq)) fun _ excuse => .self e' control .validity excuse
  | tick now => exact Answered.tick h hX' now
  | set hset =>
      exact Answered.set h fit hset (fun _ _ hcovered => hcovered.set fit hset)
        fun _ _ hcovered => hcovered.set fit hset
  | external id change =>
      have hdoc := Form.sameDocument_modifyState e.form id fun s =>
        { s with externalErrors := change s.externalErrors }
      exact Answered.external h id change (fun _ _ hcovered => hcovered.document hdoc rfl)
        fun _ _ hcovered => hcovered.document hdoc rfl
  | force id =>
      have hdoc := sameDocument_force e id
      exact Answered.force h fit.sound hX' hX' id (fun _ _ _ hcovered => hcovered.document hdoc rfl)
        fun _ _ _ hcovered => hcovered.document hdoc rfl

theorem events (h : AsyncCovered e control) (fit : e.Fit)
    (hpolicy : (e.form.policy control).dependencyValid.distinct = false)
    (hrun : Events e e') : AsyncCovered e' control := by
  induction hrun with
  | refl => exact h
  | tail hrun hevent ih =>
      refine ih.event (hrun.fit fit) (asksForAll (hrun.fit fit).dependencies ?_) hevent
      rw [Scheduler.dependencySettings, (hrun.sameTree fit.sound).policy]
      exact hpolicy

/-- In a settled state the kept result is the reply to the present values of the control and of its
dependencies, and it is the one that is shown. -/
theorem of_isSettled (h : AsyncCovered e control) (fit : e.Fit) (hsettled : e.isSettled = true) :
    ∃ p past, e.scheduler.inquiry? control = some p ∧ Form.SameTree past e.form ∧
      e.Shows control false (past.reply control p.tests).errors? ∧
      p.settings.Equates (past.value control) (e.form.value control) ∧
      ∀ d, Scheduler.DependsOn e.form control d .validity → past.value d = e.form.value d := by
  obtain ⟨p, past, hp, htree, hshows, hequates, hcovers⟩ :=
    Answered.of_isSettled h (excusable_covers e control .validity) fit.sound hsettled
  exact ⟨p, past, hp, htree, hshows, hequates,
    fun d hdep => hcovers.of_isSettled fit hsettled hdep⟩

end AsyncCovered

end Engine

namespace Session

variable {m : Model} {data : Json} {c : Config}

/-- The inquiry that is requested at the start is the first one. -/
theorem answered_launched {control : Nat} {K A : Form → Prop → Prop} {p : Property}
    (hp : (launched m data c).form.property? control = some p)
    (hinquiry : p.validTests.any Test.hasInquiry = true) :
    (launched m data c).Answered control K A := by
  obtain ⟨q, hq⟩ := (fit_launched m data c).own.exists_inquiry hp hinquiry
  have hstart : q.phase = .waiting ∧ q.requests = 1 := by
    have hattach := (Scheduler.inquiry?_attach (Form.build m data c) control).symm.trans hq
    obtain ⟨_, -, hq⟩ := Option.bind_eq_some_iff.1 hattach
    obtain ⟨-, hq⟩ := Option.ite_none_right_eq_some.1 hq
    obtain ⟨stream, -, rfl⟩ := Option.map_eq_some_iff.1 hq
    exact ⟨rfl, rfl⟩
  have hentry : (launched m data c).entry q.control = .initial := Scheduler.entry_attach _ _
  refine ⟨q, hq, ?_, ?_, ?_, ?_, ?_, ?_⟩
  · intro s hs
    have hbusy : q.isBusy = false := by simp [InquiryPipeline.isBusy, hstart.1]
    rw [hbusy, hentry]
    exact Form.inquired_build hs
  · intro _
    omega
  · intro _
    exact .inr (by omega)
  · intro evaluation hphase
    rw [hstart.1] at hphase
    cases hphase
  · intro v hv
    rw [hentry] at hv
    cases hv
  · intro v hv
    rw [hentry] at hv
    cases hv

/-- Whenever a session that was launched is settled, no inquiry is under way, and the errors that
are recorded about a control by inquiries are those of its validity tests on its present value, and
on some document that has this value at the control and the present values at all controls to which
the paths of its validity tests lead. A pipeline that ignores repeated values takes equal ones for
the same, so there the value is the present one up to the signs of zeros. -/
theorem exists_reply_of_isSettled {ops : List Op} (hquiet : ∀ op ∈ ops, op.isQuiet = true)
    {s : Session} (hs : (launch m data c).run ops = s) (hsettled : s.isSettled = true)
    {control : Nat} {p : Property} (hp : s.form.property? control = some p)
    (hinquiry : p.validTests.any Test.hasInquiry = true)
    {state : ControlState} (hstate : s.form.state? control = some state)
    (hpolicy : (s.form.policy control).dependencyValid.distinct = false) :
    state.pending = false ∧
      ∃ value root, (s.form.policy control).selfAsyncValid.Equates value (s.form.value control) ∧
        (∀ place, s.form.place? control = some place → root.place place = value) ∧
        (∀ d, Scheduler.DependsOn s.form control d .validity → s.form.AgreesAt root d) ∧
        state.asyncErrors =
          (TestResults.runInquiries value root p.validTests).results.errors? := by
  obtain ⟨e, -, hform, hevents, hsettled⟩ := exists_engine_of_isSettled hquiet hs hsettled
  rw [← hform] at hp hstate hpolicy ⊢
  have fit := fit_launched m data c
  have htree := hevents.sameTree fit.sound
  have fit' := hevents.fit fit
  have hstart : (launched m data c).AsyncCovered control :=
    answered_launched ((htree.property? control).symm.trans hp) hinquiry
  obtain ⟨q, past, hq, hpast, hshows, hequates, hagree⟩ :=
    (hstart.events fit (htree.policy control ▸ hpolicy) hevents).of_isSettled fit' hsettled
  obtain ⟨p', hp', -, htests, hsettings⟩ := fit'.own.inquiry hq
  rw [hp] at hp'
  cases hp'
  obtain ⟨hpending, herrors⟩ := hshows state hstate
  refine ⟨hpending, past.value control, past.rootValue, hsettings ▸ hequates, ?_,
    fun d hdep => hpast.agreesAt fit'.tree (hagree d hdep), ?_⟩
  · intro place hplace
    exact (hpast.symm.soundTree fit'.tree).rootValue_place ((hpast.place? control).trans hplace)
  · rw [herrors, htests, Form.reply]

/-- A field that is inquired into some time after the other one has changed, and after a change of
its own unless it has the value that was evaluated last. -/
def inquiredPair : Model :=
  pairModel { Property.template with
    validTests := [pairTest none (some otherIsOne)]
    policy := some { ChangePolicy.immediate with
      dependencyValid := ⟨100, false⟩
      selfAsyncValid := ⟨50, true⟩ } }

/-- The other field becomes two and the field itself gets its value once more, and then there is
time enough. -/
def inquiredPairRun : Session :=
  (launch inquiredPair pairData .standard).run
    [.advance 20, .setValue 2 (.natural 2), .setValue 1 (.natural 1), .advance 1000]

/-- The dependent field is settled with the errors for a document that has the new value. -/
theorem exists_reply_inquiredPair :
    inquiredPairRun.isSettled = true ∧
      ∃ state p value root, inquiredPairRun.form.state? 1 = some state ∧
        inquiredPairRun.form.property? 1 = some p ∧ state.pending = false ∧
        (inquiredPairRun.form.policy 1).selfAsyncValid.Equates value
          (inquiredPairRun.form.value 1) ∧
        root.place [.key "b"] = inquiredPairRun.form.rootValue.place [.key "b"] ∧
        state.asyncErrors = (TestResults.runInquiries value root p.validTests).results.errors? := by
  obtain ⟨state, hstate⟩ := Option.isSome_iff_exists.1
    (by decide +kernel : (inquiredPairRun.form.state? 1).isSome = true)
  obtain ⟨p, hp, htests⟩ := (Option.any_eq_true _ _).1
    (by decide +kernel : (inquiredPairRun.form.property? 1).any (fun p =>
      p.validTests.any Test.hasInquiry && Scheduler.validPaths p == ["b"]) = true)
  rw [Bool.and_eq_true, beq_iff_eq] at htests
  have hdep : Scheduler.DependsOn inquiredPairRun.form 1 2 .validity :=
    ⟨p, "b", hp, by simp [Scheduler.pathsFor, htests.2], by decide +kernel⟩
  obtain ⟨hpending, value, root, hequates, -, hagree, herrors⟩ :=
    @exists_reply_of_isSettled inquiredPair pairData .standard
      [.advance 20, .setValue 2 (.natural 2), .setValue 1 (.natural 1), .advance 1000]
      (by decide) inquiredPairRun rfl (by decide +kernel) 1 p hp htests.1 state hstate
      (by decide +kernel)
  exact ⟨by decide +kernel, state, p, value, root, hstate, hp, hpending, hequates,
    hagree 2 hdep [.key "b"] (by decide +kernel), herrors⟩

/-- Whether a document is anything but a number with a point that has a minus sign. -/
def isUnsigned : Json → Bool
  | .real x => !x.negative
  | _ => true

/-- A rule that inquires whether there is no minus sign. -/
def unsignedRule : Rule := ⟨none, none, some fun value _ => ⟨isUnsigned value, 0⟩, []⟩

/-- A field that is inquired into after a change unless it has the value that was evaluated last. -/
def unsignedPair : Model :=
  pairModel { Property.template with
    validTests := [.ofRules (.rule unsignedRule)]
    policy := some { ChangePolicy.immediate with selfAsyncValid := ⟨0, true⟩ } }

/-- The field is zero, and then it becomes minus zero. -/
def unsignedPairRun : Session :=
  (launch unsignedPair (.object [("a", .real (.zero false)), ("b", .null)]) .standard).run
    [.advance 0, .setValue 1 (.real (.zero true)), .advance 0]

/-- For the pipeline the two zeros are one value, but an inquiry can tell them apart. So a field is
settled with the errors of a value that it does not have any more, and there is no document on which
they are those of the present value. -/
theorem stale_reply_unsignedPair :
    unsignedPairRun.isSettled = true ∧
      (unsignedPairRun.form.policy 1).dependencyValid.distinct = false ∧
      ∃ state, unsignedPairRun.form.state? 1 = some state ∧ ∀ root, state.asyncErrors ≠
        (TestResults.runInquiries (unsignedPairRun.form.value 1) root
          (unsignedPairRun.form.testsOf 1 Property.validTests)).results.errors? := by
  obtain ⟨state, hstate, hnone⟩ := (Option.any_eq_true _ _).1
    (by decide +kernel : (unsignedPairRun.form.state? 1).any (fun s => s.asyncErrors.isNone) = true)
  have htests : unsignedPairRun.form.testsOf 1 Property.validTests =
      [.ofRules (.rule unsignedRule)] := (sameTree_of_launch (by decide)).testsOf 1 _
  have hsign : isUnsigned (unsignedPairRun.form.value 1) = false := by decide +kernel
  refine ⟨by decide +kernel, by decide +kernel, state, hstate, fun root => ?_⟩
  have hresults : (TestResults.runInquiries (unsignedPairRun.form.value 1) root
      [.ofRules (.rule unsignedRule)]).results = ⟨[.ofOutcome (.ofRules (.rule unsignedRule))
        (.ofBool (isUnsigned (unsignedPairRun.form.value 1)))]⟩ := rfl
  rw [Option.isNone_iff_eq_none.1 hnone, htests, hresults, hsign]
  exact fun heq => by cases heq

end Session

end ReactiveForm
