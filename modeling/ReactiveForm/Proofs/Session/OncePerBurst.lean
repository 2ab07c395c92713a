import ReactiveForm.Proofs.Form.Replacement
import ReactiveForm.Proofs.Session.Decisions

/-!
# Inquiries are decided once per burst

While the value of a control is the one that was evaluated last, its pipeline does not start an
evaluation (`repeats_of_run`). So a value that is set twice within a debounce leads to no evaluation
if it was evaluated last (`asyncRuns_settingTwice`), and to at most one in any case, because the two
are in one burst (`triggerLog_settingTwice`). The main result is `decidesOnce_of_run`: from the
attachment of a scheduler on there is one decision for each burst of triggers.
-/

namespace ReactiveForm

namespace Session

variable {s : Session} {e : Engine} {op : Op} {control : Nat} {triggers : List Nat}
  {log : List Decision} {events : List EvaluationEvent}

/-! ## Values that come back -/

section repeats

variable {p : InquiryPipeline} {X : Json} {n : Nat} (hdistinct : p.settings.distinct = true)
  (hpos : p.settings.debounce ≠ 0)

include hdistinct hpos

/-- An operation behind which a control has the value that was evaluated last. -/
theorem repeats_of_apply (hsound : s.Sound) (he : s.engine? = some e) (h : e.Repeats p X n)
    (hop : op.keepsScheduler = true) (hmoment : ∀ ms, op ≠ .advance ms)
    (hprompt : ∀ ms, op = .wait ms → s.Holds fun e => e.Rests p.control (e.clock + ms))
    (hrequests : ¬ s.Requests op p.control) (hlive : (s.apply op).Awaits p.control)
    (hvalue : (s.apply op).form.value p.control = X) :
    ∃ e' p', (s.apply op).engine? = some e' ∧ p'.outline = p.outline ∧ e'.Repeats p' X n := by
  obtain ⟨e', he', -⟩ := effect_of_apply hop hmoment he
  refine ⟨e', ?_⟩
  rcases op.turn_or_avoidsInquiry p.control with ⟨race, rfl⟩ | hother
  · cases hstep : e.stepInquiry? p.control race with
    | none =>
        have hnothing : e' = e := by simpa [apply, he, Engine.step?, hstep] using he'.symm
        exact ⟨p, he', rfl, hnothing ▸ h⟩
    | some next =>
        have hnext : e' = next := by
          simpa [apply, he, Engine.step?, hstep, engine?_withEngine] using he'.symm
        obtain ⟨p', houtline, h'⟩ := h.step (hsound.serves he).sound hdistinct hpos hstep
        exact ⟨p', he', houtline, hnext ▸ h'⟩
  · by_cases hwait : ∃ ms, op = .wait ms
    · obtain ⟨ms, rfl⟩ := hwait
      obtain ⟨e₀, he₀, hrests⟩ := hprompt ms rfl
      rw [he] at he₀
      cases he₀
      have htick : e' = e.tick (e.clock + ms) := by
        simpa [apply, he, engine?_withEngine] using he'.symm
      exact ⟨{ p with phase := p.phase.tick (e.clock + ms) }, he', rfl,
        htick ▸ h.tick (hrests p h.inquiry).1 (e.clock + ms)⟩
    · have hleaves := leaves_of_apply hsound he h.inquiry hop hmoment
        (fun ms heq => hwait ⟨ms, heq⟩) hother hrequests hlive he'
      exact ⟨p, he', rfl, h.leave hleaves (form_of_engine? he' ▸ hvalue)⟩

/-- While a control has the value that was evaluated last, no evaluation is started. -/
theorem repeats_of_run {ops : List Op} (hsound : s.Sound) (he : s.engine? = some e)
    (h : e.Repeats p X n) (hkeeps : ∀ op ∈ ops, op.keepsScheduler = true)
    (hmoments : ∀ op ∈ ops, ∀ ms, op ≠ .advance ms) (hprompt : Prompt p.control s ops)
    (hrequests : unrequested p.control s ops = true) (hlive : (s.run ops).Awaits p.control)
    (hvalue : s.Throughout ops fun t => t.form.value p.control = X) :
    ∃ e', (s.run ops).engine? = some e' ∧ e'.asyncRuns p.control = n := by
  induction ops generalizing s e p with
  | nil => exact ⟨e, he, h.runs⟩
  | cons op ops ih =>
      have hnext := sound_apply hsound op
      obtain ⟨hfirst, hrest⟩ := unrequested_cons.1 hrequests
      obtain ⟨-, hvalues⟩ := throughout_cons.1 hvalue
      obtain ⟨e', p', he', houtline, h'⟩ := repeats_of_apply hdistinct hpos hsound he h
        (hkeeps op List.mem_cons_self) (hmoments op List.mem_cons_self) hprompt.1 hfirst
        (Awaits.of_run hnext hlive) hvalues.now
      obtain ⟨hcontrol, -, hsettings⟩ := InquiryPipeline.eq_of_outline houtline
      rw [← hsettings] at hdistinct hpos
      rw [← hcontrol] at hrest hlive hvalues ⊢
      exact ih hdistinct hpos hnext he' h' (fun o ho => hkeeps o (List.mem_cons_of_mem _ ho))
        (fun o ho => hmoments o (List.mem_cons_of_mem _ ho)) (hcontrol ▸ hprompt.2) hrest hlive
        hvalues

end repeats

/-- The value of a control stays while nothing else is done than to let time pass and to set it once
more. -/
theorem throughout_value {ops : List Op} {X : Json} (hsound : s.Sound) (he : s.engine? = some e)
    (hops : ∀ op ∈ ops, (∀ ms, op ≠ .advance ms) ∧
      (op.waits = true ∨ op = .setValue control X))
    (hvalue : s.form.value control = X) :
    s.Throughout ops fun t => t.form.value control = X := by
  induction ops generalizing s e with
  | nil => exact throughout_nil.2 hvalue
  | cons op ops ih =>
      refine throughout_cons.2 ⟨hvalue, ?_⟩
      obtain ⟨hmoment, hcases⟩ := hops op List.mem_cons_self
      have hkeeps : op.keepsScheduler = true := by
        rcases hcases with hwaits | rfl
        · cases op <;> first | rfl | cases hwaits
        · rfl
      obtain ⟨e', he', heffect⟩ := effect_of_apply hkeeps hmoment he
      refine ih (sound_apply hsound op) he' (fun o ho => hops o (List.mem_cons_of_mem _ ho)) ?_
      rcases hcases with hwaits | rfl
      · have htarget : op.target? = none := by
          cases op <;> first | rfl | cases hwaits
        have hdoc := heffect.sameDocument (hsound.serves he).sound htarget
        rw [← form_of_engine? he', hdoc.value, form_of_engine? he, hvalue]
      · simp only [apply_setValue, setValue_eq]
        cases hset : s.form.setValue control X with
        | error err => exact hvalue
        | ok f => exact Form.value_of_setValue_self hset

private theorem triggerLog_turnsOf_advance (hsound : s.Sound) (he : s.engine? = some e) (ms : Nat) :
    s.triggerLog control (s.turnsOf (.advance ms)) = [] := by
  refine triggerLog_of_waits hsound he fun op hop => ?_
  rcases mem_turnsOf hop with ⟨rfl, hnot⟩ | ⟨r, rfl⟩ | ⟨time, rfl⟩
  · exact absurd rfl (hnot ms)
  · rfl
  · rfl

/-- The operations by which a control gets the same value twice. -/
def settingTwice (control : Nat) (X : Json) (between after : Nat) : List Op :=
  [.setValue control X, .advance between, .setValue control X, .advance after]

section setValue

variable {X : Json} (hsound : s.Sound) (he : s.engine? = some e)
  (hinquires : s.inquires control = true) (hok : (s.setValue control X).isOk = true)

include he hinquires hok

/-- A value that is set triggers the pipeline. -/
theorem triggersIn_setValue : ∃ f, s.form.setValue control X = .ok f ∧
    (s.apply (.setValue control X)).engine? = some { e with form := f } ∧
      s.triggersIn control (.setValue control X) = [s.clock] := by
  obtain ⟨f, hset⟩ : ∃ f, s.form.setValue control X = .ok f := by
    rw [setValue_eq] at hok
    cases hset : s.form.setValue control X with
    | error err => simp [hset, Except.map, Except.isOk, Except.toBool] at hok
    | ok f => exact ⟨f, rfl⟩
  have happly : s.apply (.setValue control X) = s.withForm f := by
    simp only [apply_setValue, setValue_eq, hset]
    rfl
  have he₁ : (s.apply (.setValue control X)).engine? = some { e with form := f } :=
    happly ▸ engine?_withForm he f
  refine ⟨f, hset, he₁, ?_⟩
  have hid : f.contains control = true :=
    (Form.sameTree_setValue hset).contains control ▸ Form.contains_of_setValue hset
  have hmem : ((s.apply (.setValue control X)).form.lineage control).contains control = true := by
    rw [happly, List.contains_iff_mem]
    exact Form.mem_lineage_self hid
  have hafter : (s.apply (.setValue control X)).inquires control = true := by
    rw [inquires_of_engine? he] at hinquires
    rw [inquires_of_engine? he₁]
    exact hinquires
  rw [triggersIn, hafter, Op.changes, Op.succeeds, hok, Op.target?, Option.any_some, hmem]
  simp

include hsound

/-- A value that is set twice triggers the pipeline at once and perhaps a second time. -/
theorem triggerLog_settingTwice (hs : s.Subscribed) (between after : Nat) :
    ∃ more, s.triggerLog control (s.turns (settingTwice control X between after)) =
      s.clock :: more ∧ ∀ t ∈ more, t = s.clock + between := by
  obtain ⟨f, -, he₁, hfirst⟩ := triggersIn_setValue he hinquires hok
  have hsound₁ := sound_apply hsound (.setValue control X)
  have hs₁ := subscribed_apply hsound hs (.setValue control X)
  have he₂ := engine?_apply_advance he₁ between
  have hsound₂ := sound_apply hsound₁ (.advance between)
  have hs₂ := subscribed_apply hsound₁ hs₁ (.advance between)
  have hclock : ((s.apply (.setValue control X)).apply (.advance between)).clock =
      s.clock + between := by
    rw [← clock_of_engine? he₂, (rests_advance (hsound₁.serves he₁) (hs₁ _ he₁).nodup between
      control).1, ← clock_of_engine? he]
  obtain ⟨e₃, he₃⟩ := @exists_engine?_apply _ _ (.setValue control X) rfl he₂
  have hlog : s.triggerLog control (s.turns (settingTwice control X between after)) =
      s.triggersIn control (.setValue control X) ++
        ((s.apply (.setValue control X)).apply (.advance between)).triggersIn control
          (.setValue control X) := by
    simp only [settingTwice, turns, List.append_nil, triggerLog_append, run_turnsOf hsound hs,
      run_turnsOf hsound₁ hs₁, run_turnsOf hsound₂ hs₂]
    rw [triggerLog_turnsOf_advance hsound₁ he₁, triggerLog_turnsOf_advance
      (sound_apply hsound₂ (.setValue control X)) he₃]
    simp [turnsOf, triggerLog]
  refine ⟨_, hlog.trans (congrArg (· ++ _) hfirst), fun t ht => ?_⟩
  rw [triggersIn, hclock] at ht
  split at ht
  · exact List.mem_singleton.1 ht
  · cases ht

end setValue

/-- While time is broken up nothing else is done than to let it pass. -/
private theorem waits_of_mem_turns {X : Json} {between after : Nat}
    (hop : op ∈ s.turns [.advance between, .setValue control X, .advance after]) :
    op.keepsScheduler = true ∧ (∀ ms, op ≠ .advance ms) ∧
      (op.waits = true ∨ op = .setValue control X) := by
  rcases mem_turns hop with ⟨hmem, hnot⟩ | ⟨r, rfl⟩ | ⟨ms, rfl⟩
  · simp only [List.mem_cons, List.not_mem_nil, or_false] at hmem
    rcases hmem with rfl | rfl | rfl
    · exact absurd rfl (hnot between)
    · exact ⟨rfl, nofun, .inr rfl⟩
    · exact absurd rfl (hnot after)
  · exact ⟨rfl, nofun, .inl rfl⟩
  · exact ⟨rfl, nofun, .inl rfl⟩

section settingTwice

variable {q : InquiryPipeline} {X : Json} {between after : Nat} (hsound : s.Sound)
  (hs : s.Subscribed) (he : s.engine? = some e) (h : e.Deliberates q triggers log events)
  (hrests : e.Rests q.control (e.clock + 1)) (hpos : q.settings.debounce ≠ 0)
  (hok : (s.setValue q.control X).isOk = true)

include hsound hs he h hrests hpos hok

/-- A value that is set twice within the debounce leads to one decision at most. -/
theorem asyncRuns_settingTwice_le (hbetween : between < q.settings.debounce)
    {e' : Engine} {further : List Decision} {events' : List EvaluationEvent}
    (h' : e'.DecidesOnce q.control q.settings q.tests
      (triggers ++ s.triggerLog q.control (s.turns (settingTwice q.control X between after)))
      (log ++ further) events') :
    e'.asyncRuns q.control ≤ e.asyncRuns q.control + 1 := by
  have hinquires : s.inquires q.control = true := by
    rw [inquires_of_engine? he, h.inquiry]
    rfl
  obtain ⟨more, hmore, hmoment⟩ := triggerLog_settingTwice hsound he hinquires hok hs between after
  rw [← clock_of_engine? he] at hmore hmoment
  rw [hmore] at h'
  exact (h.decidesOnce hrests).asyncRuns_le h' hpos hmoment (Nat.add_lt_add_left hbetween _)

/-- A value that was evaluated last is set twice while the pipeline has nothing to do. -/
theorem asyncRuns_settingTwice (hdistinct : q.settings.distinct = true)
    (hlast : (e.entry q.control).lastProcessed.any (· == X) = true)
    (hrequests : unrequested q.control s
      (s.turns (settingTwice q.control X between after)) = true)
    (hlive : (s.run (settingTwice q.control X between after)).Awaits q.control) :
    ∃ e', (s.run (settingTwice q.control X between after)).engine? = some e' ∧
      e'.asyncRuns q.control = e.asyncRuns q.control := by
  have hinquires : s.inquires q.control = true := by
    rw [inquires_of_engine? he, h.inquiry]
    rfl
  obtain ⟨f, hset, he₁, hfirst⟩ := triggersIn_setValue he hinquires hok
  have hsound₁ := sound_apply hsound (.setValue q.control X)
  have hs₁ := subscribed_apply hsound hs (.setValue q.control X)
  have hrest : (s.apply (.setValue q.control X)).run
      [.advance between, .setValue q.control X, .advance after] =
        s.run (settingTwice q.control X between after) := rfl
  obtain ⟨hunrequested, hrequests₁⟩ := unrequested_cons.1 hrequests
  have hleaves : e.Leaves q (s.triggersIn q.control (.setValue q.control X))
      { e with form := f } :=
    leaves_of_apply hsound he h.inquiry rfl nofun nofun nofun hunrequested
      (Awaits.of_run hsound₁ (hrest ▸ hlive)) he₁
  have hvalue : f.value q.control = X := Form.value_of_setValue_self hset
  have hrepeats : Engine.Repeats { e with form := f } q X (e.asyncRuns q.control) := by
    refine ⟨hleaves.inquiry.trans h.inquiry, hleaves.force h.force, hvalue, hlast, rfl,
      fun v hv => ⟨h.unforced v (by rw [hv]; rfl), ?_, ?_⟩⟩
    · exact (hrests q h.inquiry).2 v.finish (by rw [InquiryPipeline.deadline?, hv]; rfl)
    · refine hleaves.triggers.elim (fun hnone => ?_) And.right
      rw [hfirst] at hnone
      cases hnone.1
  have hrun := run_turns hsound₁ hs₁ [.advance between, .setValue q.control X, .advance after]
  have hops := fun op hop => @waits_of_mem_turns (s.apply (.setValue q.control X)) op q.control X
    between after hop
  obtain ⟨e', he', hruns⟩ := repeats_of_run hdistinct hpos hsound₁ he₁ hrepeats
    (fun op hop => (hops op hop).1) (fun op hop => (hops op hop).2.1)
    (prompt_turns hsound₁ hs₁ he₁ (by simp [Op.keepsScheduler]) (by simp)) hrequests₁
    (by rw [hrun, hrest]; exact hlive)
    (throughout_value hsound₁ he₁ (fun op hop => (hops op hop).2)
      (form_of_engine? he₁ ▸ hvalue))
  rw [hrun, hrest] at he'
  exact ⟨e', he', hruns⟩

end settingTwice

/-! ## The main result -/

/-- Inquiries are decided once per burst. Take any session without a scheduler, attach one to it,
and let it stay while any operations follow, where time passes by `advance` and does so in the end.
A control with inquiries and a debounce is triggered when its pipeline is made and whenever its
value changes. If nothing else requests an inquiry of it, no trigger comes just at the end of the
debounce after another one, and none at the end of an evaluation where a race could put it first,
then:

* broken up into turns the operations lead to the same session;
* the pipeline decides once for each burst of triggers that is over, at the end of the debounce
  after the last one of them and on the values of that moment. It is answered by the last results if
  repeated values are left out and the control has the value that was completely evaluated last, and
  otherwise it starts an evaluation. Evaluations are given up if the next burst begins before their
  results are there, and all others are completed then. The counters and the last results are those
  of these decisions (`Engine.DecidesOnce`);
* when a value is set and then set again within the debounce, this leads to one evaluation at most,
  and to none if repeated values are left out and this one was evaluated last. -/
theorem decidesOnce_of_run {m : Model} {data : Json} {c : Config} {r : Session}
    {setup ops : List Op} {ms : Nat} {p : Property} {settings : ChangeSettings}
    (hr : (start (.build m data c)).run setup = r) (hdetached : r.scheduler = none)
    (hkeeps : ∀ op ∈ ops, op.keepsScheduler = true) (hwait : ∀ op ∈ ops, ∀ time, op ≠ .wait time)
    (hlast : ops.getLast? = some (.advance ms)) (hs : r.run (.attach :: ops) = s)
    (hp : s.form.property? control = some p) (hinquiry : p.validTests.any Test.hasInquiry = true)
    (hpolicy : (s.form.policy control).selfAsyncValid = settings) (hpos : 0 < settings.debounce)
    (hrequests : unrequested control r (r.turns (.attach :: ops)) = true)
    (hspaced : settings.Spaced (r.triggerLog control (r.turns (.attach :: ops))))
    (hapart : IsEager ops → Decision.Apart (r.triggerLog control (r.turns (.attach :: ops)))
      (r.decisionLog control (r.turns (.attach :: ops)))) :
    let all := r.turns (.attach :: ops)
    r.run all = s ∧ ∃ e, s.engine? = some e ∧
      e.DecidesOnce control settings p.validTests (r.triggerLog control all)
        (r.decisionLog control all) (r.evaluationLog control all) ∧
      ∀ before time X between after e₀,
        ops = before ++ .advance time :: settingTwice control X between after →
        (r.run (.attach :: (before ++ [.advance time]))).engine? = some e₀ →
        ((r.run (.attach :: (before ++ [.advance time]))).setValue control X).isOk = true →
        between < settings.debounce →
        e.asyncRuns control ≤ e₀.asyncRuns control + 1 ∧
          (settings.distinct = true →
            (e₀.entry control).lastProcessed.any (· == X) = true →
            e.asyncRuns control = e₀.asyncRuns control) := by
  have hsound : r.Sound := hr ▸ sound_run (sound_start m data c) setup
  have hunattached : r.Subscribed := .of_none (engine?_of_scheduler_none hdetached)
  subst hs
  obtain ⟨e, q, he, rfl, htests, hsettings, hdeliberates, hrests⟩ := deliberates_of_attach hsound
    hdetached hkeeps hwait hlast hp hinquiry hpolicy (Nat.ne_of_gt hpos) hrequests hspaced hapart
  have hdecides := hdeliberates.decidesOnce hrests
  rw [hsettings, htests] at hdecides
  refine ⟨run_turns hsound hunattached _, e, he, hdecides, ?_⟩
  rintro before time X between after e₀ rfl he₀ hok hbetween
  have hsplit : Op.attach :: (before ++ .advance time :: settingTwice q.control X between after) =
      (.attach :: (before ++ [.advance time])) ++ settingTwice q.control X between after := by
    simp
  have hmem : ∀ op ∈ before ++ [.advance time],
      op ∈ before ++ .advance time :: settingTwice q.control X between after := fun op hop => by
    rcases List.mem_append.1 hop with hop | hop
    · exact List.mem_append_left _ hop
    · cases List.mem_singleton.1 hop
      simp
  have hsound₀ := sound_run hsound (.attach :: (before ++ [.advance time]))
  have hs₀ := subscribed_run hsound hunattached (.attach :: (before ++ [.advance time]))
  have hrun := run_turns hsound hunattached (.attach :: (before ++ [.advance time]))
  rw [hsplit, turns_append] at hrequests hspaced hapart hdecides
  rw [triggerLog_append, hrun] at hspaced hapart hdecides
  rw [decisionLog_append, hrun] at hapart hdecides
  rw [hsplit, run_append] at hp hpolicy he
  have hkept : ∀ op ∈ settingTwice q.control X between after, op.editsStructure = false := by
    simp [settingTwice, Op.editsStructure]
  have htree := sameTree_run hsound₀ hkept
  obtain ⟨hrequests₀, hrequests₁⟩ := unrequested_append.1 hrequests
  rw [hrun] at hrequests₁
  obtain ⟨e₁, q₀, he₁, hcontrol, htests₀, hsettings₀, hdeliberates₀, hrests₀⟩ :=
    deliberates_of_attach hsound hdetached (fun op hop => hkeeps op (hmem op hop))
      (fun op hop => hwait op (hmem op hop)) List.getLast?_concat (htree.property? _ ▸ hp) hinquiry
      (htree.policy _ ▸ hpolicy) (Nat.ne_of_gt hpos) hrequests₀ (List.isChain_append.1 hspaced).1
      fun ⟨r', race, hturn, hfirst⟩ => (hapart ⟨r', race, hmem _ hturn, hfirst⟩).of_append
  rw [he₀] at he₁
  cases he₁
  rw [← hcontrol, ← htests₀, ← hsettings₀] at hdecides
  rw [← hcontrol] at hok hdeliberates₀ hrests₀ hrequests₁ he hp ⊢
  have hpos₀ : q₀.settings.debounce ≠ 0 := hsettings₀ ▸ Nat.ne_of_gt hpos
  refine ⟨asyncRuns_settingTwice_le hsound₀ hs₀ he₀ hdeliberates₀ hrests₀ hpos₀ hok
    (hsettings₀ ▸ hbetween) hdecides, fun hdistinct hprocessed => ?_⟩
  obtain ⟨e', he', hruns⟩ := asyncRuns_settingTwice hsound₀ hs₀ he₀ hdeliberates₀ hrests₀ hpos₀
    hok (hsettings₀ ▸ hdistinct) hprocessed hrequests₁ (.inl (Scheduler.contains_of_property? hp))
  rw [he] at he'
  cases he'
  exact hruns

/-- The dependent field gets the value again that it has, and once more within its debounce. -/
def repeatedValue : List Op := .advance 100 :: settingTwice 1 (.natural 1) 20 100

/-- Behind the first evaluation the field is answered by its results, and only once. -/
theorem decidesOnce_repeatedValue :
    let r := start (.build inquiredPair pairData .standard)
    let all := r.turns (.attach :: repeatedValue)
    r.triggerLog 1 all = [0, 100, 120] ∧ ∃ e e₀ p,
      (r.run (.attach :: repeatedValue)).engine? = some e ∧ e.form.property? 1 = some p ∧
      e.DecidesOnce 1 ⟨50, true⟩ p.validTests (r.triggerLog 1 all) (r.decisionLog 1 all)
        (r.evaluationLog 1 all) ∧
      (r.run [.attach, .advance 100]).engine? = some e₀ ∧ e.asyncRuns 1 = e₀.asyncRuns 1 := by
  intro r all
  obtain ⟨p, hp, hinquiry⟩ := (Option.any_eq_true _ _).1
    (by decide +kernel : ((r.run (.attach :: repeatedValue)).form.property? 1).any
      (·.validTests.any Test.hasInquiry) = true)
  obtain ⟨e₀, he₀, hprocessed⟩ := (Option.any_eq_true _ _).1
    (by decide +kernel : (r.run [.attach, .advance 100]).engine?.any
      (fun e => (e.entry 1).lastProcessed.any (· == .natural 1)) = true)
  have htriggers : r.triggerLog 1 all = [0, 100, 120] := by decide +kernel
  obtain ⟨-, e, he, hdecides, htwice⟩ := @decidesOnce_of_run _ 1 inquiredPair pairData .standard r
    [] repeatedValue 100 p ⟨50, true⟩ rfl rfl (by simp [repeatedValue, settingTwice,
      Op.keepsScheduler]) (by simp [repeatedValue, settingTwice]) rfl rfl hp hinquiry
    (by decide +kernel) (by decide) (by decide +kernel) (htriggers ▸ by decide)
    (fun ⟨_, _, hturn, _⟩ => by simp [repeatedValue, settingTwice] at hturn)
  obtain ⟨-, hnone⟩ := htwice [] 100 (.natural 1) 20 100 e₀ rfl he₀ (by decide +kernel) (by decide)
  exact ⟨htriggers, e, e₀, p, he, form_of_engine? he ▸ hp, hdecides, he₀, hnone rfl hprocessed⟩

end Session

end ReactiveForm
