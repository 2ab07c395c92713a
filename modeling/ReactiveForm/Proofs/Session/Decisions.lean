import ReactiveForm.Proofs.Session.ControlTree
import ReactiveForm.Proofs.Session.Evaluations
import ReactiveForm.Proofs.Session.InquiryTriggers

/-!
# Decisions of inquiries in runs

The logs of what triggers the inquiry pipeline of a control and of what it decides say what they
should at every moment of a run (`Engine.Chronicles`), so long as nothing requests an inquiry. A
control that has no pipeline yet has not been triggered, and a new one is triggered at once
(`Engine.Deliberates.first`). From there on an operation is a step of the pipeline, time that
passes, or an operation that leaves the pipeline as it is (`chronicles_of_apply`).

A deadline must not be slept through, so time has to pass in pieces (`Prompt`). This is how
`advance` breaks it up (`prompt_turns`). When it is done the pipeline has nothing to do
(`rests_advance`), and then it has decided about all bursts that are over
(`deliberates_of_attach`).
-/

namespace ReactiveForm

/-- A control without an inquiry pipeline has no triggers, and about one with it the logs say what
they should as long as no trigger comes at the end of a debounce, nor at the end of an evaluation
if triggers may be looked for before results. -/
structure Engine.Chronicles (e : Engine) (control : ControlId) (eager : Prop) (triggers : List Nat)
    (log : List Decision) (events : List EvaluationEvent) : Prop where
  absent : e.scheduler.inquiry? control = none → triggers = [] ∧ log = [] ∧ events = [] ∧
    (e.entry control).force = false ∧ (e.entry control).record = .initial
  present : ∀ p, e.scheduler.inquiry? control = some p → p.settings.debounce ≠ 0 →
    p.settings.Spaced triggers → (eager → Decision.Apart triggers log) →
      e.Deliberates p triggers log events

namespace Session

variable {s : Session} {e : Engine} {op : Op} {control : Nat} {triggers : List Nat} {race : Race}
  {log : List Decision} {events : List EvaluationEvent} {eager : Prop}

/-! ## One operation -/

section apply

variable (hsound : s.Sound) (he : s.engine? = some e)
  (h : e.Chronicles control eager triggers log events)

include hsound he h

/-- A turn of the pipeline. -/
theorem chronicles_of_turn (heager : race.triggerFirst = true → eager) :
    ∃ e', (s.apply (.turn (.inquiry control) race)).engine? = some e' ∧
      e'.Chronicles control eager triggers
        (log ++ s.decisionsIn control (.turn (.inquiry control) race))
        (events ++ s.evaluationEvents control (.turn (.inquiry control) race)) := by
  have hserves := hsound.serves he
  have hturn : s.apply (.turn (.inquiry control) race) =
      ((e.stepInquiry? control race).map s.withEngine).getD s := by
    simp only [apply, he, Option.bind_some]
    rfl
  have hevents : s.evaluationEvents control (.turn (.inquiry control) race) =
      ((e.stepInquiry? control race).map (e.evaluationEvents control race)).getD [] := by
    rw [evaluationEvents, if_pos rfl, he, Option.bind_some]
  rw [decisionsIn_turn he, hevents, hturn]
  cases hstep : e.stepInquiry? control race with
  | none =>
      refine ⟨e, he, ?_⟩
      simpa only [Option.bind_none, Option.toList_none, Option.map_none, Option.getD_none,
        List.append_nil] using h
  | some e' =>
      obtain ⟨p, -, hp, -⟩ := Engine.inquiryStep_of_stepInquiry? hstep
      obtain ⟨rfl, -⟩ := hserves.sound.inquiry hp
      have houtline := (Engine.sameOutline_step hserves.sound (r := .inquiry p.control)
        hstep).inquiry? p.control
      rw [hp, Option.map_some] at houtline
      obtain ⟨q, hq, houtline⟩ := Option.map_eq_some_iff.1 houtline
      obtain ⟨hcontrol, -, hsettings⟩ := InquiryPipeline.eq_of_outline houtline
      refine ⟨e', engine?_withEngine s e', ?_⟩
      refine ⟨fun hnone => ?_, fun q' hq' hpos hspaced hapart => ?_⟩
      · rw [hq] at hnone
        cases hnone
      · rw [hq] at hq'
        cases hq'
        rw [hsettings] at hpos hspaced
        have hbefore : eager → Decision.Apart triggers log := fun heager => by
          have hafter := hapart heager
          rw [← List.append_nil triggers] at hafter
          exact hafter.of_append
        obtain ⟨p', houtline', hdeliberates⟩ :=
          (h.present p hp hpos hspaced hbefore).step hserves.sound hpos hspaced
            (fun hfirst => hbefore (heager hfirst)) hstep
        have hsame := hdeliberates.inquiry
        rw [(InquiryPipeline.eq_of_outline houtline').1, hq] at hsame
        cases hsame
        exact hdeliberates

/-- Time passes while the pipeline has nothing to do. -/
theorem chronicles_of_wait {ms : Nat} (hrests : e.Rests control (e.clock + ms)) :
    ∃ e', (s.apply (.wait ms)).engine? = some e' ∧
      e'.Chronicles control eager triggers log events := by
  have hwait : (s.apply (.wait ms)).engine? = some (e.tick (e.clock + ms)) := by
    simp only [apply, he]
    exact engine?_withEngine s _
  have hinquiry := Engine.inquiry?_tick e (e.clock + ms) control
  refine ⟨_, hwait, ?_⟩
  cases hp : e.scheduler.inquiry? control with
  | none =>
      rw [hp, Option.map_none] at hinquiry
      refine ⟨fun _ => h.absent hp, fun q hq => ?_⟩
      rw [hinquiry] at hq
      cases hq
  | some p =>
      obtain ⟨rfl, -⟩ := (hsound.serves he).sound.inquiry hp
      obtain ⟨hnone, hahead⟩ := hrests p hp
      rw [hp, Option.map_some, InquiryPipeline.tick_eq] at hinquiry
      refine ⟨fun hgone => ?_, fun q hq hpos hspaced hapart => ?_⟩
      · rw [hinquiry] at hgone
        cases hgone
      · rw [hinquiry] at hq
        cases hq
        exact (h.present p hp hpos hspaced hapart).tick hnone (Nat.le_add_right _ _) hahead

variable (hs : s.Subscribed)

include hs

/-- An operation that requests nothing, lets no time pass, and makes no step of the pipeline. -/
theorem chronicles_of_other (hop : op.keepsScheduler = true) (hmoment : ∀ ms, op ≠ .advance ms)
    (hwait : ∀ ms, op ≠ .wait ms) (hother : op.AvoidsInquiry control)
    (hrequests : ¬ s.Requests op control) (hlive : (s.apply op).Awaits control) :
    ∃ e', (s.apply op).engine? = some e' ∧
      e'.Chronicles control eager (triggers ++ s.triggersIn control op) log events := by
  have hserves := hsound.serves he
  obtain ⟨e', he', heffect⟩ := effect_of_apply hop hmoment he
  refine ⟨e', he', ?_⟩
  cases hp : e.scheduler.inquiry? control with
  | none =>
      have hidles := idles_of_apply he heffect he' hserves.sound hwait hother hrequests
      obtain ⟨rfl, rfl, rfl, hforce, hrecord⟩ := h.absent hp
      have hforce' := hidles.force hforce
      have hrecord' := heffect.record_initial hserves.sound hother hrecord
      refine ⟨fun hnone => ⟨?_, rfl, rfl, hforce', hrecord'⟩, fun p hnew _ _ _ => ?_⟩
      · rw [triggersIn_eq_nil (by rw [inquires_of_engine? he', hnone]; rfl), List.append_nil]
      · obtain ⟨rfl, -⟩ := ((sound_apply hsound op).serves he').sound.inquiry hnew
        have hid := (subscribed_apply hsound hs op e' he').contains_of_inquiry? hnew
        obtain hsame | ⟨-, hwaiting⟩ := hidles.inquiry hid
        · rw [hnew, hp] at hsame
          cases hsame
        · obtain ⟨hphase, hpos⟩ := hwaiting p hnew
          have htriggers : s.triggersIn p.control op = [e'.clock] := by
            rw [triggersIn, inquires_of_engine? he', inquires_of_engine? he, hnew, hp,
              hidles.clock, clock_of_engine? he]
            rfl
          rw [htriggers]
          exact .first hnew hphase hpos hforce' hrecord'
  | some p =>
      obtain ⟨rfl, -⟩ := hserves.sound.inquiry hp
      have hleaves := leaves_of_apply hsound he hp hop hmoment hwait hother hrequests hlive he'
      have hp' := hleaves.inquiry.trans hp
      refine ⟨fun hnone => ?_, fun q hq hpos hspaced hapart => ?_⟩
      · rw [hp'] at hnone
        cases hnone
      · rw [hp'] at hq
        cases hq
        have hbefore : eager → Decision.Apart triggers log := fun heager => by
          have hafter := hapart heager
          rw [← List.append_nil log] at hafter
          exact hafter.of_append
        exact (h.present p hp hpos (List.isChain_append.1 hspaced).1 hbefore).leave hleaves

/-- An operation that requests nothing, and that lets time pass only while the pipeline has nothing
to do. -/
theorem chronicles_of_apply (hop : op.keepsScheduler = true) (hmoment : ∀ ms, op ≠ .advance ms)
    (hprompt : ∀ ms, op = .wait ms → s.Holds fun e => e.Rests control (e.clock + ms))
    (heager : ∀ r race, op = .turn r race → race.triggerFirst = true → eager)
    (hrequests : ¬ s.Requests op control) (hlive : (s.apply op).Awaits control) :
    ∃ e', (s.apply op).engine? = some e' ∧
      e'.Chronicles control eager (triggers ++ s.triggersIn control op)
        (log ++ s.decisionsIn control op) (events ++ s.evaluationEvents control op) := by
  rcases op.turn_or_avoidsInquiry control with ⟨race, rfl⟩ | hother
  · rw [triggersIn_of_waits hsound he rfl, List.append_nil]
    exact chronicles_of_turn hsound he h (heager _ race rfl)
  · rw [decisionsIn_of_ne s hother, evaluationEvents_of_ne s hother, List.append_nil,
      List.append_nil]
    by_cases hwait : ∃ ms, op = .wait ms
    · obtain ⟨ms, rfl⟩ := hwait
      obtain ⟨e₀, he₀, hrests⟩ := hprompt ms rfl
      rw [he] at he₀
      cases he₀
      rw [triggersIn_of_waits hsound he rfl, List.append_nil]
      exact chronicles_of_wait hsound he h hrests
    · exact chronicles_of_other hsound he h hs hop hmoment (fun ms heq => hwait ⟨ms, heq⟩) hother
        hrequests hlive

end apply

/-! ## Runs -/

/-- Whether no operation of a run requests an inquiry of a control. -/
def unrequested (control : Nat) : Session → List Op → Bool
  | _, [] => true
  | s, op :: ops => !op.requests s control && unrequested control (s.apply op) ops

/-- Time passes only while the inquiry pipeline of a control has nothing to do. -/
def Prompt (control : Nat) : Session → List Op → Prop
  | _, [] => True
  | s, op :: ops =>
    (∀ ms, op = .wait ms → s.Holds fun e => e.Rests control (e.clock + ms)) ∧
      Prompt control (s.apply op) ops

theorem unrequested_cons {ops : List Op} : unrequested control s (op :: ops) = true ↔
    ¬ s.Requests op control ∧ unrequested control (s.apply op) ops = true := by
  rw [unrequested, Bool.and_eq_true, Bool.not_eq_true', ← Bool.not_eq_true, requests_iff]

theorem unrequested_append {ops more : List Op} : unrequested control s (ops ++ more) = true ↔
    unrequested control s ops = true ∧ unrequested control (s.run ops) more = true := by
  induction ops generalizing s with
  | nil => exact (and_iff_right rfl).symm
  | cons op ops ih =>
      rw [List.cons_append, unrequested_cons, unrequested_cons, ih, and_assoc]
      rfl

theorem prompt_append {ops more : List Op} :
    Prompt control s (ops ++ more) ↔ Prompt control s ops ∧ Prompt control (s.run ops) more := by
  induction ops generalizing s with
  | nil => exact (and_iff_right trivial).symm
  | cons op ops ih =>
      rw [List.cons_append, Prompt, Prompt, ih, and_assoc]
      rfl

theorem Awaits.of_run {ops : List Op} (hsound : s.Sound) (h : (s.run ops).Awaits control) :
    s.Awaits control :=
  have hfollows := follows_run hsound ops
  h.elim hfollows.contains fun hunborn => .inr (hfollows.unborn hunborn)

/-- A run of operations that request nothing, and that let time pass only while the pipeline has
nothing to do. -/
theorem chronicles_of_run {ops : List Op} (hsound : s.Sound) (he : s.engine? = some e)
    (h : e.Chronicles control eager triggers log events) (hs : s.Subscribed)
    (hkeeps : ∀ op ∈ ops, op.keepsScheduler = true) (hmoments : ∀ op ∈ ops, ∀ ms, op ≠ .advance ms)
    (hprompt : Prompt control s ops)
    (heager : ∀ op ∈ ops, ∀ r race, op = .turn r race → race.triggerFirst = true → eager)
    (hrequests : unrequested control s ops = true) (hlive : (s.run ops).Awaits control) :
    ∃ e', (s.run ops).engine? = some e' ∧
      e'.Chronicles control eager (triggers ++ s.triggerLog control ops)
        (log ++ s.decisionLog control ops) (events ++ s.evaluationLog control ops) := by
  induction ops generalizing s e triggers log events with
  | nil =>
      refine ⟨e, he, ?_⟩
      simpa only [triggerLog, decisionLog, evaluationLog, List.append_nil] using h
  | cons op ops ih =>
      have hnext := sound_apply hsound op
      obtain ⟨hfirst, hrest⟩ := unrequested_cons.1 hrequests
      obtain ⟨e', he', h'⟩ := chronicles_of_apply hsound he h hs (hkeeps op List.mem_cons_self)
        (hmoments op List.mem_cons_self) hprompt.1 (heager op List.mem_cons_self) hfirst
        (Awaits.of_run hnext hlive)
      obtain ⟨e'', he'', h''⟩ := ih hnext he' h' (subscribed_apply hsound hs op)
        (fun o ho => hkeeps o (List.mem_cons_of_mem _ ho))
        (fun o ho => hmoments o (List.mem_cons_of_mem _ ho)) hprompt.2
        (fun o ho => heager o (List.mem_cons_of_mem _ ho)) hrest hlive
      refine ⟨e'', he'', ?_⟩
      simpa only [triggerLog, decisionLog, evaluationLog, List.append_assoc] using h''

/-! ## Time that is broken up -/

private theorem prompt_wait {target : Nat} (hsound : s.Sound) (he : s.engine? = some e)
    (hnext : e.next? none = none) (hle : e.clock ≤ target)
    (hlater : ∀ t ∈ e.deadlines, target ≤ t) :
    ∀ ms, Op.wait (target - e.clock) = .wait ms →
      s.Holds fun e => e.Rests control (e.clock + ms) := by
  rintro ms heq
  cases heq
  refine ⟨e, he, Engine.rests_of_next? (hsound.serves he).sound hnext ?_⟩
  rwa [Nat.add_sub_cancel' hle]

/-- Time that is broken up passes only while no pipeline has anything to do. -/
theorem prompt_turnsWithin {n target : Nat} {last : Option PipelineRef} (hsound : s.Sound)
    (he : s.engine? = some e) (hnodup : (e.scheduler.own.map OwnPipelines.control).Nodup)
    (hle : e.clock ≤ target) (hn : e.Affords last n) :
    Prompt control s (turnsWithin n target last e) := by
  have h := (hsound.serves he).sound
  induction n generalizing s e last with
  | zero => exact absurd hn (Engine.not_affords_zero hnodup h last)
  | succ n ih =>
      unfold turnsWithin
      cases hnext : e.next? last with
      | some next =>
          obtain ⟨r, e'⟩ := next
          have hstep := Engine.step?_of_next? hnext
          have hturn : s.apply (.turn r .usual) = s.withEngine e' := by simp [apply, he, hstep]
          have he' : (s.apply (.turn r .usual)).engine? = some e' :=
            hturn ▸ engine?_withEngine s e'
          have hsound' := sound_apply hsound (.turn r .usual)
          have hturns : ∀ ms, Op.turn r .usual = .wait ms →
              s.Holds fun e => e.Rests control (e.clock + ms) := fun ms heq => Op.noConfusion heq
          exact ⟨hturns, ih hsound' he' ((Engine.sameOutline_step h hstep).controls ▸ hnodup)
            (Engine.clock_step h hstep ▸ hle) (hn.step hnodup h hstep)
            (hsound'.serves he').sound⟩
      | none =>
          have hquiet := Engine.next?_none_of_next? hnext
          dsimp only
          cases hdue : e.nextDeadline? with
          | none =>
              have hnil : e.deadlines = [] := List.min?_eq_none_iff.1 hdue
              exact ⟨prompt_wait hsound he hquiet hle (by simp [hnil]), trivial⟩
          | some deadline =>
              have hfirst := (List.min?_eq_some_iff.1 hdue).2
              dsimp only
              split
              · rename_i hin
                have hahead : e.clock ≤ deadline := Nat.le_of_lt
                  (Engine.clock_lt_of_mem_deadlines hnodup h hquiet (List.min?_mem hdue))
                have he' : (s.apply (.wait (deadline - e.clock))).engine? =
                    some (e.tick deadline) := by
                  simp only [apply, he, Nat.add_sub_cancel' hahead]
                  exact engine?_withEngine s _
                have hsound' := sound_apply hsound (.wait (deadline - e.clock))
                exact ⟨prompt_wait hsound he hquiet hahead hfirst, ih hsound' he'
                  ((Engine.sameOutline_tick e deadline).controls ▸ hnodup) hin
                  (hn.tick hnodup h hnext hdue) (h.tick deadline)⟩
              · rename_i hout
                exact ⟨prompt_wait hsound he hquiet hle fun t ht =>
                  Nat.le_trans (Nat.le_of_lt (Nat.lt_of_not_le hout)) (hfirst t ht), trivial⟩

/-- A run whose time passes by `advance` is broken up promptly. -/
theorem prompt_turns {ops : List Op} (hsound : s.Sound) (hs : s.Subscribed)
    (he : s.engine? = some e) (hkeeps : ∀ op ∈ ops, op.keepsScheduler = true)
    (hwait : ∀ op ∈ ops, ∀ ms, op ≠ .wait ms) : Prompt control s (s.turns ops) := by
  induction ops generalizing s e with
  | nil => trivial
  | cons op ops ih =>
      have hfirst : Prompt control s (s.turnsOf op) := by
        by_cases hadvance : ∃ ms, op = .advance ms
        · obtain ⟨ms, rfl⟩ := hadvance
          rw [turnsOf, he]
          exact prompt_turnsWithin hsound he (hs e he).nodup (Nat.le_add_right _ _)
            (.inl (Nat.lt_succ_self _))
        · have hself : s.turnsOf op = [op] := by
            cases op with
            | advance ms => exact absurd ⟨ms, rfl⟩ hadvance
            | _ => rfl
          rw [hself]
          exact ⟨fun ms heq => absurd heq (hwait op List.mem_cons_self ms), trivial⟩
      obtain ⟨e', he'⟩ := exists_engine?_apply (hkeeps op List.mem_cons_self) he
      rw [turns, prompt_append, run_turnsOf hsound hs]
      exact ⟨hfirst, ih (sound_apply hsound op) (subscribed_apply hsound hs op) he'
        (fun o ho => hkeeps o (List.mem_cons_of_mem _ ho))
        fun o ho => hwait o (List.mem_cons_of_mem _ ho)⟩

/-- When time has passed the pipelines have nothing to do. -/
theorem rests_advance (hserves : e.Serves)
    (hnodup : (e.scheduler.own.map OwnPipelines.control).Nodup) (ms : Nat) (control : Nat) :
    (e.advance ms).clock = e.clock + ms ∧ (e.advance ms).Rests control (e.clock + ms + 1) := by
  obtain ⟨e', ⟨hsound, -⟩, hquiet, hlater, heq⟩ := @Engine.advance_spec
    (fun e => e.Sound ∧ (e.scheduler.own.map OwnPipelines.control).Nodup) e ms (fun h => h.1) (fun h => h.2)
    (fun h hstep => ⟨h.1.step hstep, (Engine.sameOutline_step h.1 hstep).controls ▸ h.2⟩)
    (fun {e} now h _ _ => ⟨h.1.tick now, (Engine.sameOutline_tick e now).controls ▸ h.2⟩)
    ⟨hserves.sound, hnodup⟩
  rw [heq]
  exact ⟨rfl, (Engine.rests_of_next? hsound hquiet hlater).tick _⟩

/-! ## From the beginning -/

/-- A scheduler that is attached triggers its pipelines. -/
theorem chronicles_attach (hsound : s.Sound) (hdetached : s.scheduler = none) :
    ∃ e, (s.apply .attach).engine? = some e ∧
      e.Chronicles control eager (s.triggersIn control .attach) [] [] := by
  have he : (s.apply .attach).engine? = some ⟨s.form, .attach s.form, s.clock, s.asked⟩ := rfl
  have hbefore : s.inquires control = false := by
    rw [inquires, engine?, hdetached]
    rfl
  have hentry : (Scheduler.attach s.form).table.entry control = .initial :=
    Scheduler.entry_attach s.form control
  refine ⟨_, he, fun hnone => ⟨?_, rfl, rfl, ?_, ?_⟩, fun p hp _ _ _ => ?_⟩
  · exact triggersIn_eq_nil (by rw [inquires_of_engine? he, hnone]; rfl)
  · exact congrArg ScheduleEntry.force hentry
  · exact congrArg ScheduleEntry.record hentry
  · obtain ⟨rfl, -⟩ := ((sound_apply hsound .attach).serves he).sound.inquiry hp
    obtain ⟨hphase, hrequests⟩ := Scheduler.waiting_attach hp
    have htriggers : s.triggersIn p.control .attach = [s.clock] := by
      rw [triggersIn, inquires_of_engine? he, hp, hbefore]
      rfl
    rw [htriggers]
    exact .first hp hphase (hrequests ▸ Nat.zero_lt_one) (congrArg ScheduleEntry.force hentry)
      (congrArg ScheduleEntry.record hentry)

/-- Whether some turn of a run looks for a trigger before the results of an evaluation. -/
def IsEager (ops : List Op) : Prop := ∃ r race, .turn r race ∈ ops ∧ race.triggerFirst = true

/-- What a scheduler does from its attachment on, as long as it stays and time passes by `advance`.
-/
theorem chronicles_of_attach {ops : List Op} (hsound : s.Sound) (hdetached : s.scheduler = none)
    (hkeeps : ∀ op ∈ ops, op.keepsScheduler = true) (hwait : ∀ op ∈ ops, ∀ ms, op ≠ .wait ms)
    (hrequests : unrequested control s (s.turns (.attach :: ops)) = true)
    (hlive : (s.run (.attach :: ops)).Awaits control) :
    ∃ e, (s.run (.attach :: ops)).engine? = some e ∧
      e.Chronicles control (IsEager ops) (s.triggerLog control (s.turns (.attach :: ops)))
        (s.decisionLog control (s.turns (.attach :: ops)))
        (s.evaluationLog control (s.turns (.attach :: ops))) := by
  obtain ⟨e, he, h⟩ := chronicles_attach hsound hdetached
  have hsound' := sound_apply hsound .attach
  have hs' : (s.apply .attach).Subscribed :=
    subscribed_apply hsound (.of_none (engine?_of_scheduler_none hdetached)) .attach
  have hrun := run_turns hsound' hs' ops
  have heager : ∀ op ∈ (s.apply .attach).turns ops, ∀ r race, op = .turn r race →
      race.triggerFirst = true → IsEager ops := by
    rintro op hop r race rfl hfirst
    rcases mem_turns hop with ⟨hmem, -⟩ | ⟨r', heq⟩ | ⟨ms, heq⟩
    · exact ⟨r, race, hmem, hfirst⟩
    · cases heq
      cases hfirst
    · cases heq
  obtain ⟨e', he', h'⟩ := chronicles_of_run hsound' he h hs'
    (fun op hop => keepsScheduler_of_mem_turns hkeeps hop)
    (fun op hop ms heq => advance_not_mem_turns _ _ ms (heq ▸ hop))
    (prompt_turns hsound' hs' he hkeeps hwait) heager (unrequested_cons.1 hrequests).2
    (hrun.symm ▸ hlive)
  exact ⟨e', hrun ▸ he', h'⟩

/-! ## At rest -/

/-- Where the last operation has let time pass, no pipeline has anything to do. -/
theorem rests_of_getLast? {ops : List Op} {ms : Nat} (hsound : s.Sound) (hs : s.Subscribed)
    (hattached : s.engine? = some e) (hkeeps : ∀ op ∈ ops, op.keepsScheduler = true)
    (hlast : ops.getLast? = some (.advance ms)) :
    ∃ e, (s.run ops).engine? = some e ∧ e.Rests control (e.clock + 1) := by
  obtain ⟨before, rfl⟩ := List.getLast?_eq_some_iff.1 hlast
  have hbefore : ∀ op ∈ before, op.keepsScheduler = true := fun op hop =>
    hkeeps op (List.mem_append_left _ hop)
  obtain ⟨e', he'⟩ := exists_engine?_run hbefore hattached
  have hsound' := sound_run hsound before
  have hs' := subscribed_run hsound hs before
  obtain ⟨hclock, hrests⟩ := rests_advance (hsound'.serves he') (hs' e' he').nodup ms control
  rw [run_append]
  exact ⟨_, engine?_apply_advance he' ms, hclock ▸ hrests⟩

section attached

variable {ops : List Op} {ms : Nat} {p : Property} {settings : ChangeSettings}

/-- Some time after a scheduler was attached, a control with inquiries has a pipeline that has
nothing to do and that has decided once per burst. -/
theorem deliberates_of_attach (hsound : s.Sound) (hdetached : s.scheduler = none)
    (hkeeps : ∀ op ∈ ops, op.keepsScheduler = true) (hwait : ∀ op ∈ ops, ∀ time, op ≠ .wait time)
    (hlast : ops.getLast? = some (.advance ms))
    (hp : (s.run (.attach :: ops)).form.property? control = some p)
    (hinquiry : p.validTests.any Test.hasInquiry = true)
    (hpolicy : ((s.run (.attach :: ops)).form.policy control).selfAsyncValid = settings)
    (hpos : settings.debounce ≠ 0)
    (hrequests : unrequested control s (s.turns (.attach :: ops)) = true)
    (hspaced : settings.Spaced (s.triggerLog control (s.turns (.attach :: ops))))
    (hapart : IsEager ops → Decision.Apart (s.triggerLog control (s.turns (.attach :: ops)))
      (s.decisionLog control (s.turns (.attach :: ops)))) :
    ∃ e q, (s.run (.attach :: ops)).engine? = some e ∧ q.control = control ∧
      q.tests = p.validTests ∧ q.settings = settings ∧
      e.Deliberates q (s.triggerLog control (s.turns (.attach :: ops)))
        (s.decisionLog control (s.turns (.attach :: ops)))
        (s.evaluationLog control (s.turns (.attach :: ops))) ∧ e.Rests control (e.clock + 1) := by
  have hunattached : s.Subscribed := .of_none (engine?_of_scheduler_none hdetached)
  obtain ⟨e, he, h⟩ := chronicles_of_attach hsound hdetached hkeeps hwait hrequests
    (.inl (Scheduler.contains_of_property? hp))
  have houtline := (subscribed_run hsound hunattached (.attach :: ops) e he).inquiry?
    (form_of_engine? he ▸ hp)
  rw [if_pos hinquiry, form_of_engine? he, hpolicy] at houtline
  obtain ⟨q, hq, houtline⟩ := Option.map_eq_some_iff.1 houtline
  have hsettings : q.settings = settings := congrArg InquiryPipeline.settings houtline
  obtain ⟨e', he', hrests⟩ := rests_of_getLast? (s := s.apply .attach)
    (sound_apply hsound .attach) (subscribed_apply hsound hunattached .attach) rfl hkeeps hlast
  have hsame : e' = e := Option.some.inj (he'.symm.trans he)
  exact ⟨e, q, he, congrArg InquiryPipeline.control houtline,
    congrArg InquiryPipeline.tests houtline, hsettings,
    h.present q hq (hsettings ▸ hpos) (hsettings ▸ hspaced) hapart, hsame ▸ hrests⟩

end attached

end Session

end ReactiveForm
