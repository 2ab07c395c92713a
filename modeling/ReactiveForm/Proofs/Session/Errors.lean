import ReactiveForm.Proofs.Session.Faults
import ReactiveForm.Proofs.Session.Writers

/-!
# Where the errors of a control come from

A log of a control has the results of all passes over its validity tests, the results of all its
evaluations by inquiries that were applied, and all calls by which callers wrote its messages
(`Log`). As long as no caller writes a state by hand, the errors that the control shows are what
the last entries of these three lists say (`Reflects`), and so is its validity
(`Reflects.isValid_iff`). That is kept by every operation (`told_apply`).

A trigger that is answered by the errors of the last evaluation writes them once more. They are
those that the control shows already, also behind a change of the scheduler: the entry of a new one
has nothing to answer by until an evaluation is completed (`Remembers`).
-/

namespace ReactiveForm

/-- The results of an evaluation, if they are applied. -/
def EvaluationEvent.applied? : EvaluationEvent → Option TestResults
  | .completed v => some v.results
  | _ => none

theorem EvaluationEvent.applied?_eq_some {event : EvaluationEvent} {results : TestResults} :
    event.applied? = some results ↔ ∃ v, event = .completed v ∧ v.results = results := by
  cases event <;> simp [applied?]

theorem TestResults.passed_of_errors? {r : TestResults} (h : r.errors? = none) :
    r.passed = true := by
  unfold errors? at h
  split at h
  · assumption
  · cases h

theorem TestResults.exists_failed_of_errors? {r errors : TestResults}
    (h : r.errors? = some errors) : ∃ t ∈ errors.results, t.passed = false := by
  unfold errors? at h
  split at h
  · cases h
  · rename_i hfailed
    cases h
    simpa [passed] using hfailed

namespace Session

variable {s : Session} {e : Engine} {op : Op} {ops : List Op} {control : ControlId}
  {st st' : ControlState} {key : String}

/-! ## Replaying calls -/

/-- The message under a key behind a call. -/
def MessageCall.answer (key : String) (found : Option String) : MessageCall → Option String
  | .set k message => if key = k then some message else found
  | .clear k => if key = k then none else found

/-- The message under a key behind calls on a control that had none. The last call about the key
decides. -/
def MessageCall.replay (calls : List MessageCall) (key : String) : Option String :=
  calls.foldl (MessageCall.answer key) none

theorem lookup_write (messages : List (String × String)) (call : MessageCall) (key : String) :
    (MessageCall.write messages call).lookup key = call.answer key (messages.lookup key) := by
  cases call with
  | set k message => exact Keyed.lookup_insert k message messages key
  | clear k => exact Keyed.lookup_filter_ne k messages key

theorem lookup_foldl_write (calls : List MessageCall) (messages : List (String × String))
    (key : String) : (calls.foldl MessageCall.write messages).lookup key =
      calls.foldl (MessageCall.answer key) (messages.lookup key) := by
  induction calls generalizing messages with
  | nil => rfl
  | cons call calls ih => rw [List.foldl_cons, List.foldl_cons, ih, lookup_write]

theorem ascending_foldl_write (calls : List MessageCall) {messages : List (String × String)}
    (h : Keyed.Ascending messages) :
    Keyed.Ascending (calls.foldl MessageCall.write messages) := by
  induction calls generalizing messages with
  | nil => exact h
  | cons call calls ih =>
      refine ih ?_
      cases call with
      | set k message => exact h.insert
      | clear k => exact List.Pairwise.filter _ h

/-! ## Logs -/

/-- What has been said about the errors of a control. -/
@[ext]
structure Log where
  /-- The results of the passes over its validity tests. -/
  checked : List TestResults
  /-- The results of its evaluations by inquiries that were applied. -/
  answered : List TestResults
  /-- The calls on its messages that succeeded. -/
  calls : List MessageCall

instance : Append Log where
  append a b := ⟨a.checked ++ b.checked, a.answered ++ b.answered, a.calls ++ b.calls⟩

/-- Nothing was said. -/
def Log.empty : Log := ⟨[], [], []⟩

theorem Log.append_empty (log : Log) : log ++ Log.empty = log :=
  Log.ext (List.append_nil _) (List.append_nil _) (List.append_nil _)

theorem Log.append_assoc (a b c : Log) : a ++ b ++ c = a ++ (b ++ c) :=
  Log.ext (List.append_assoc ..) (List.append_assoc ..) (List.append_assoc ..)

/-- The log of a control of a form that was just made. Its tests have been run once. -/
def logAtStart (f : Form) (control : ControlId) : Log :=
  ⟨if (f.property? control).isSome = true then [f.verdict control Property.validTests] else [],
    [], []⟩

/-- What an operation adds to the log of a control. -/
def logOf (s : Session) (control : ControlId) (op : Op) : Log where
  checked :=
    if op.checks s control = true then [(s.apply op).form.verdict control Property.validTests]
    else []
  answered := (s.evaluationEvents control op).filterMap EvaluationEvent.applied?
  calls := s.messageCalls control op

/-- What a run adds to the log of a control. -/
def log (s : Session) (control : ControlId) : List Op → Log
  | [] => .empty
  | op :: ops => s.logOf control op ++ (s.apply op).log control ops

/-- The errors of a control are what the last entries of its log say. -/
structure Reflects (log : Log) (st : ControlState) : Prop where
  syncErrors : st.syncErrors = log.checked.getLast?.bind TestResults.errors?
  asyncErrors : st.asyncErrors = log.answered.getLast?.bind TestResults.errors?
  ascending : Keyed.Ascending st.externalErrors
  externalErrors : ∀ key, st.externalErrors.lookup key = MessageCall.replay log.calls key

namespace Reflects

variable {log : Log}

theorem initial : Reflects .empty .initial where
  syncErrors := rfl
  asyncErrors := rfl
  ascending := List.Pairwise.nil
  externalErrors _ := rfl

/-- Errors that are shown have a failure among them. -/
theorem exists_failed (h : Reflects log st) {results : TestResults}
    (hresults : st.syncErrors = some results ∨ st.asyncErrors = some results) :
    ∃ t ∈ results.results, t.passed = false := by
  rw [h.syncErrors, h.asyncErrors] at hresults
  rcases hresults with hresults | hresults
  · obtain ⟨r, -, hr⟩ := Option.bind_eq_some_iff.1 hresults
    exact TestResults.exists_failed_of_errors? hr
  · obtain ⟨r, -, hr⟩ := Option.bind_eq_some_iff.1 hresults
    exact TestResults.exists_failed_of_errors? hr

/-- A control is valid if the last pass over its tests and the last evaluation that was applied have
passed, and no message of a caller is left. -/
theorem isValid_iff (h : Reflects log st) : st.isValid = true ↔
    (∀ r, log.checked.getLast? = some r → r.passed = true) ∧
      (∀ r, log.answered.getLast? = some r → r.passed = true) ∧
      ∀ key, MessageCall.replay log.calls key = none := by
  have hpassed : ∀ {last : Option TestResults}, (last.bind TestResults.errors?).isNone = true ↔
      ∀ r, last = some r → r.passed = true := by
    intro last
    cases last with
    | none => simp
    | some r =>
        refine ⟨fun hnone r' hr' => ?_, fun hall => ?_⟩
        · cases hr'
          exact TestResults.passed_of_errors? (Option.isNone_iff_eq_none.1 hnone)
        · simp [TestResults.errors?, hall r rfl]
  rw [ControlState.isValid, Bool.and_eq_true, Bool.and_eq_true, h.syncErrors, h.asyncErrors,
    hpassed, hpassed, Keyed.isEmpty_iff_lookup, and_assoc]
  simp only [h.externalErrors]

end Reflects

/-! ## What entries remember -/

/-- The entries of the scheduler that is attached remember the errors that are shown, and there are
none about controls that are still to come. -/
structure Remembers (s : Session) : Prop where
  live : ∀ {e}, s.engine? = some e → ∀ control, e.Remembers control
  unborn : ∀ {e}, s.engine? = some e → ∀ control, s.form.changes? control = none →
    (e.entry control).record = .initial

theorem Remembers.of_none (hnone : s.engine? = none) : s.Remembers where
  live he := by
    rw [hnone] at he
    cases he
  unborn he := by
    rw [hnone] at he
    cases he

theorem not_contains_of_unborn {f : Form} (hnone : f.changes? control = none) :
    f.contains control = false := by
  refine Bool.eq_false_iff.2 fun hid => ?_
  obtain ⟨stream, hstream⟩ := Scheduler.exists_changes?_of_contains hid
  rw [hnone] at hstream
  cases hstream

theorem contains_of_isSome_property? {f : Form} (h : (f.property? control).isSome = true) :
    f.contains control = true := by
  rw [Form.property?] at h
  cases hc : f.control? control with
  | none =>
      rw [hc] at h
      cases h
  | some c => rw [Form.contains, hc, Option.isSome_some]

/-- A new scheduler remembers nothing. -/
theorem remembers_attach (s : Session) : s.attach.Remembers := by
  have hentry : ∀ {e}, s.attach.engine? = some e → ∀ control, e.entry control = .initial := by
    intro e he control
    cases he
    exact Scheduler.entry_attach s.form control
  refine ⟨fun he control st _ hprocessed => ?_, fun he control _ => ?_⟩
  · rw [hentry he] at hprocessed
    cases hprocessed
  · rw [hentry he]
    rfl

section Operation

variable (hsound : s.Sound) (hop : op.keepsScheduler = true) (hmoment : ∀ ms, op ≠ .advance ms)
  (h : s.Remembers) (he : s.engine? = some e) (he' : (s.apply op).engine? = some e')

include hsound hop hmoment h he he'

/-- What an entry remembers does not change unless the inquiry pipeline makes a step, and what is
shown does not change either. -/
private theorem remembers_of_avoidsInquiry (hparents : s.form.ParentsBefore)
    (hwrites : op.writesState = false) (hother : op.AvoidsInquiry control) :
    e'.Remembers control := by
  intro st' hst' hprocessed
  rw [form_of_engine? he'] at hst'
  have hid : (s.apply op).form.contains control = true := by
    rw [← Form.isSome_state?, hst']
    rfl
  obtain ⟨_, he₁, hspares⟩ := spares_of_apply hop hmoment hother hsound he hid
  cases he₁.symm.trans he'
  have hlast := congrArg ScheduleEntry.lastProcessed hspares.record
  have herrors := congrArg ScheduleEntry.lastErrors hspares.record
  have hbefore : (e.entry control).lastProcessed.isSome = true := hlast ▸ hprocessed
  have hkept := ((writes_of_apply hsound hparents hmoment hwrites hst').inquired hother).2
  cases hst : s.form.state? control with
  | some st =>
      rw [hst, Option.getD_some] at hkept
      have hshown := h.live he control st (form_of_engine? he ▸ hst) hbefore
      exact (hkept.trans hshown).trans herrors.symm
  | none =>
      -- nothing has been recorded about a control that is new
      have hnew := ((follows_apply hsound op).contains hid).resolve_left
        (by rw [← Form.isSome_state?, hst]; exact Bool.false_ne_true)
      have hinitial : (e.entry control).lastProcessed = none :=
        congrArg ScheduleEntry.lastProcessed (h.unborn he control hnew)
      rw [hinitial] at hbefore
      cases hbefore

/-- Nothing is recorded about a control that is still to come. -/
private theorem record_of_unborn (hs : s.Subscribed)
    (hunborn : (s.apply op).form.changes? control = none) :
    (e'.entry control).record = .initial := by
  have hbefore := (follows_apply hsound op).unborn hunborn
  rcases op.turn_or_avoidsInquiry control with ⟨race, rfl⟩ | hother
  · rcases evaluationEvents_turn he he' with ⟨hstep, -⟩ | ⟨rfl, -⟩
    · have hid := contains_of_stepInquiry? (hs e he) hstep
      rw [form_of_engine? he, not_contains_of_unborn hbefore] at hid
      cases hid
    · exact h.unborn he control hbefore
  · obtain ⟨e₁, he₁, heffect⟩ := effect_of_apply hop hmoment he
    cases he₁.symm.trans he'
    exact heffect.record_initial (hsound.serves he).sound hother (h.unborn he control hbefore)

end Operation

/-- Whatever happens, the entries of the scheduler remember the errors that are shown. -/
theorem remembers_apply (hsound : s.Sound) (hs : s.Subscribed) (hparents : s.form.ParentsBefore)
    (hmoment : ∀ ms, op ≠ .advance ms) (hwrites : op.writesState = false) (h : s.Remembers) :
    (s.apply op).Remembers := by
  by_cases hop : op.keepsScheduler = true
  · cases he : s.engine? with
    | none => exact .of_none (engine?_apply_of_none he hop)
    | some e =>
        refine ⟨fun {e'} he' control => ?_, fun {e'} he' control hunborn => ?_⟩
        · rcases op.turn_or_avoidsInquiry control with ⟨race, rfl⟩ | hother
          · rcases evaluationEvents_turn he he' with ⟨hstep, -⟩ | ⟨rfl, -⟩
            · have hlive := h.live he control
              exact hlive.of_records (hlive.records (hsound.serves he).sound hstep)
            · exact h.live he control
          · exact remembers_of_avoidsInquiry hsound hop hmoment h he he' hparents hwrites hother
        · exact record_of_unborn hsound hop hmoment h he he' hs hunborn
  · cases op with
    | attach => exact remembers_attach s
    | detach => exact .of_none rfl
    | _ => exact absurd rfl hop

/-! ## What operations add to the logs -/

/-- An operation adds the results of an inquiry pipeline that are applied, or the errors of
inquiries stay as they are. -/
theorem asyncErrors_of_apply (hsound : s.Sound) (hparents : s.form.ParentsBefore)
    (hmoment : ∀ ms, op ≠ .advance ms) (hwrites : op.writesState = false) (h : s.Remembers)
    (hst' : (s.apply op).form.state? control = some st') :
    ((s.logOf control op).answered = [] ∧
        st'.asyncErrors = ((s.form.state? control).getD .initial).asyncErrors) ∨
      ∃ r, (s.logOf control op).answered.getLast? = some r ∧ st'.asyncErrors = r.errors? := by
  have hkept := (writes_of_apply hsound hparents hmoment hwrites hst').inquired
  rcases op.turn_or_avoidsInquiry control with ⟨race, rfl⟩ | hother
  · cases he : s.engine? with
    | none =>
        have hsame : s.apply (.turn (.inquiry control) race) = s := by simp [apply, he]
        rw [hsame] at hst'
        exact .inl ⟨by simp [logOf, evaluationEvents, he], by rw [hst', Option.getD_some]⟩
    | some e =>
        obtain ⟨e', he', -⟩ := effect_of_apply rfl hmoment he
        rw [← form_of_engine? he'] at hst'
        rcases evaluationEvents_turn he he' with ⟨hstep, hevents⟩ | ⟨rfl, hevents⟩
        · have hrecords := (h.live he control).records (hsound.serves he).sound hstep
          rw [← hevents] at hrecords
          cases hlast : (s.logOf control (.turn (.inquiry control) race)).answered.getLast? with
          | none =>
              have hnone := List.getLast?_eq_none_iff.1 hlast
              obtain ⟨-, -, hshows⟩ := hrecords.kept fun v hv => by
                have hmem : v.results ∈
                    (s.logOf control (.turn (.inquiry control) race)).answered :=
                  List.mem_filterMap.2 ⟨_, hv, rfl⟩
                rw [hnone] at hmem
                cases hmem
              obtain ⟨st, hst, hsame⟩ := hshows st' hst'
              rw [form_of_engine? he] at hst
              exact .inl ⟨hnone, by rw [hst, Option.getD_some]; exact hsame⟩
          | some r =>
              obtain ⟨event, hmem, happlied⟩ :=
                List.mem_filterMap.1 (List.mem_of_getLast? hlast)
              obtain ⟨v, rfl, rfl⟩ := EvaluationEvent.applied?_eq_some.1 happlied
              exact .inr ⟨_, rfl, (hrecords.completed v hmem).2.2.2 st' hst'⟩
        · rw [form_of_engine? he] at hst'
          exact .inl ⟨by rw [logOf, hevents]; rfl, by rw [hst', Option.getD_some]⟩
  · exact .inl ⟨by rw [logOf, evaluationEvents_of_ne s hother]; rfl, (hkept hother).2⟩

/-- A control that is new has its tests run. -/
theorem checks_of_new (hsound : s.Sound) (hnone : s.form.contains control = false)
    (hid : (s.apply op).form.contains control = true) :
    op.checks s control = ((s.apply op).form.property? control).isSome := by
  cases hedits : op.editsStructure with
  | false =>
      rw [(sameTree_apply hsound hedits).contains, hnone] at hid
      cases hid
  | true =>
      obtain ⟨x, hx⟩ := exists_target?_of_editsStructure hedits
      rcases perform_of_editsStructure (s := s) hedits hx with ⟨-, heq⟩ | ⟨hok, -⟩
      · rw [heq, hnone] at hid
        cases hid
      · rw [checks_of_target? hx, Op.succeeds_of_editsStructure hedits, hok, hnone, Bool.not_false,
          Bool.true_or, Bool.and_true, Bool.and_true]

/-- Nothing is said about a control that is not there, before or after. -/
theorem logOf_of_not_contains (hs : s.Subscribed) (hid : s.form.contains control = false)
    (hid' : (s.apply op).form.contains control = false) : s.logOf control op = .empty := by
  have hproperty : (s.apply op).form.property? control = none := by
    rw [Form.property?, Form.contains_eq_false_iff.1 hid']
    rfl
  have hevents : s.evaluationEvents control op = [] := by
    rcases op.turn_or_avoidsInquiry control with ⟨race, rfl⟩ | hother
    · cases he : s.engine? with
      | none => simp [evaluationEvents, he]
      | some e =>
          cases hstep : e.stepInquiry? control race with
          | none => simp [evaluationEvents, he, hstep]
          | some e' =>
              have hlive := contains_of_stepInquiry? (hs e he) hstep
              rw [form_of_engine? he, hid] at hlive
              cases hlive
    · exact evaluationEvents_of_ne s hother
  have hcalls : s.messageCalls control op = [] := by
    cases op with
    | setExternal id key message =>
        refine if_neg fun h => ?_
        obtain ⟨rfl, hok⟩ := h
        simp [Form.setExternal, hid, Except.isOk, Except.toBool] at hok
    | clearExternal id key =>
        refine if_neg fun h => ?_
        obtain ⟨rfl, hok⟩ := h
        have hstate : s.form.state? id = none := by
          rw [← Option.isNone_iff_eq_none, ← Option.isSome_eq_false_iff, Form.isSome_state?, hid]
        simp [Form.clearExternal, hstate, Except.isOk, Except.toBool] at hok
    | _ => rfl
  refine Log.ext ?_ ?_ hcalls
  · rw [logOf, checks_of_property?_eq_none hproperty, if_neg Bool.false_ne_true]
    rfl
  · rw [logOf, hevents]
    rfl

/-- A control that is there before and behind an operation has the same property. -/
theorem keepsProperties_apply (hsound : s.Sound) (op : Op) :
    Form.KeepsProperties s.form (s.apply op).form := by
  cases hedits : op.editsStructure with
  | false => exact (sameTree_apply hsound hedits).keepsProperties
  | true =>
      obtain ⟨x, hx⟩ := exists_target?_of_editsStructure hedits
      rcases perform_of_editsStructure (s := s) hedits hx with ⟨-, heq⟩ | ⟨-, edit, hedit, heq⟩
      · rw [heq]
        exact (Form.SameTree.refl s.form).keepsProperties
      · rw [heq]
        have htree := Form.sameTree_edit_publish edit
        refine ⟨htree.defaults.trans hedit.keepsProperties.defaults, fun id hid hid' => ?_⟩
        exact (htree.property? id).trans
          (hedit.keepsProperties.property? id hid ((htree.contains id).symm.trans hid'))

/-! ## The invariant -/

/-- The logs tell what the controls show, the tests of each control have been run, and nothing has
been said about controls that are still to come. -/
structure Told (s : Session) (log : ControlId → Log) : Prop where
  reflects : ∀ {control st}, s.form.state? control = some st → Reflects (log control) st
  checked : ∀ {control}, (s.form.property? control).isSome = true → (log control).checked ≠ []
  unborn : ∀ {control}, s.form.changes? control = none → log control = .empty

theorem Reflects.apply {log : Log} (hsound : s.Sound) (hparents : s.form.ParentsBefore)
    (hmoment : ∀ ms, op ≠ .advance ms) (hwrites : op.writesState = false) (hrem : s.Remembers)
    (h : Reflects log ((s.form.state? control).getD .initial))
    (hst' : (s.apply op).form.state? control = some st') :
    Reflects (log ++ s.logOf control op) st' := by
  have hw := writes_of_apply hsound hparents hmoment hwrites hst'
  refine ⟨?_, ?_, ?_, fun key => ?_⟩
  · change _ = (log.checked ++ (s.logOf control op).checked).getLast?.bind _
    rw [hw.syncErrors, logOf]
    split
    · rw [List.getLast?_concat]
      rfl
    · rw [List.append_nil]
      exact h.syncErrors
  · change _ = (log.answered ++ (s.logOf control op).answered).getLast?.bind _
    rcases asyncErrors_of_apply hsound hparents hmoment hwrites hrem hst' with
      ⟨hnone, hsame⟩ | ⟨r, hlast, hshows⟩
    · rw [hnone, List.append_nil, hsame]
      exact h.asyncErrors
    · rw [List.getLast?_append, hlast, hshows]
      rfl
  · rw [hw.externalErrors]
    exact ascending_foldl_write _ h.ascending
  · change _ = MessageCall.replay (log.calls ++ (s.logOf control op).calls) key
    rw [hw.externalErrors, lookup_foldl_write, h.externalErrors, MessageCall.replay,
      MessageCall.replay, List.foldl_append]
    rfl

/-- An operation keeps the logs in agreement with what the controls show. -/
theorem told_apply {log : ControlId → Log} (hsound : s.Sound) (hs : s.Subscribed)
    (hparents : s.form.ParentsBefore) (hmoment : ∀ ms, op ≠ .advance ms)
    (hwrites : op.writesState = false) (hrem : s.Remembers) (h : s.Told log) :
    (s.apply op).Told fun control => log control ++ s.logOf control op := by
  have hfollows := follows_apply hsound op
  have hunborn : ∀ {control}, s.form.contains control = false →
      (s.apply op).form.contains control = true → log control = .empty :=
    fun {control} hnone hid => h.unborn ((hfollows.contains hid).resolve_left (by simp [hnone]))
  refine ⟨fun {control st'} hst' => ?_, fun {control} hproperty => ?_, fun {control} hnone => ?_⟩
  · refine .apply hsound hparents hmoment hwrites hrem ?_ hst'
    cases hst : s.form.state? control with
    | some st => exact h.reflects hst
    | none =>
        rw [hunborn (by rw [← Form.isSome_state?, hst]; rfl)
          (by rw [← Form.isSome_state?, hst']; rfl)]
        exact .initial
  · change (log control).checked ++ (s.logOf control op).checked ≠ []
    have hid : (s.apply op).form.contains control = true :=
      contains_of_isSome_property? hproperty
    cases hlive : s.form.contains control with
    | true =>
        rw [(keepsProperties_apply hsound op).property? control hlive hid] at hproperty
        exact List.append_ne_nil_of_left_ne_nil (h.checked hproperty) _
    | false =>
        rw [logOf, checks_of_new hsound hlive hid, if_pos hproperty]
        exact List.append_ne_nil_of_right_ne_nil _ (List.cons_ne_nil _ _)
  · have hbefore := hfollows.unborn hnone
    change log control ++ s.logOf control op = .empty
    rw [h.unborn hbefore, logOf_of_not_contains hs (not_contains_of_unborn hbefore)
      (not_contains_of_unborn hnone)]
    rfl

theorem told_run {log : ControlId → Log} (hsound : s.Sound) (hs : s.Subscribed)
    (hparents : s.form.ParentsBefore) (hmoments : ∀ op ∈ ops, ∀ ms, op ≠ .advance ms)
    (hwrites : ∀ op ∈ ops, op.writesState = false) (hrem : s.Remembers) (h : s.Told log) :
    (s.run ops).Told fun control => log control ++ s.log control ops := by
  induction ops generalizing s log with
  | nil =>
      simp only [Session.log, Log.append_empty]
      exact h
  | cons op ops ih =>
      have hmoment := hmoments op List.mem_cons_self
      have hwrite := hwrites op List.mem_cons_self
      have hrest := ih (sound_apply hsound op) (subscribed_apply hsound hs op)
        (parentsBefore_apply hsound hparents op)
        (fun o ho => hmoments o (List.mem_cons_of_mem _ ho))
        (fun o ho => hwrites o (List.mem_cons_of_mem _ ho))
        (remembers_apply hsound hs hparents hmoment hwrite hrem)
        (told_apply hsound hs hparents hmoment hwrite hrem h)
      simp only [Session.log, ← Log.append_assoc]
      exact hrest

theorem reflects_logAtStart (f : Form) (control : ControlId) :
    Reflects (logAtStart f control) (f.edited control (f.validated control .initial)) := by
  unfold logAtStart Form.edited Form.validated
  cases f.property? control with
  | none => exact .initial
  | some p => exact ⟨rfl, rfl, List.Pairwise.nil, fun _ => rfl⟩

/-- A form whose tests have all been run once is told by the log at the start. -/
theorem told_start {f : Form} (hstates : ∀ {control st}, f.state? control = some st →
    st = f.edited control (f.validated control .initial)) : (start f).Told (logAtStart f) where
  reflects hst := by
    rw [hstates hst]
    exact reflects_logAtStart _ _
  checked {control} hproperty := by
    have hsome : (f.property? control).isSome = true := hproperty
    rw [logAtStart, if_pos hsome]
    exact List.cons_ne_nil _ _
  unborn {control} hnone := by
    have hnew : f.changes? control = none := hnone
    have hproperty : ¬ (f.property? control).isSome = true := fun h => by
      have hid := contains_of_isSome_property? h
      rw [not_contains_of_unborn hnew] at hid
      cases hid
    rw [logAtStart, if_neg hproperty]
    rfl

/-- The errors of a control have three sources, and each of them has its own part of the state. Take
a form, operations among which no caller writes a state by hand, and their turns. Whatever has been
done, whether a scheduler is attached or not,

* the errors of a control are what its log says: the last pass over its validity tests, the last
  evaluation by inquiries that was applied, and the calls of callers replayed one after the other.
  There was such a pass for every control but the root;
* errors of tests that are shown have a failure among them;
* the control is valid if that pass and that evaluation, if there was one, have passed, and if the
  replay leaves no message;
* an operation writes to each part of the state only what belongs there: passes over tests leave
  what inquiries and callers have said, and inquiries, also where they answer by old errors, leave
  what tests by checks and callers have said. -/
theorem errors_of_run {m : Model} {data : Json} {c : Config}
    (hwrites : ∀ op ∈ ops, op.writesState = false) (hs : (start (.build m data c)).run ops = s) :
    let first := start (.build m data c)
    let all := first.turns ops
    first.run all = s ∧
      (∀ before after, all = before ++ after → ∀ control st,
        (first.run before).form.state? control = some st →
          let log := logAtStart first.form control ++ first.log control before
          Reflects log st ∧
            (((first.run before).form.property? control).isSome = true → log.checked ≠ []) ∧
            (∀ results, st.syncErrors = some results ∨ st.asyncErrors = some results →
              ∃ t ∈ results.results, t.passed = false) ∧
            (st.isValid = true ↔
              (∀ r, log.checked.getLast? = some r → r.passed = true) ∧
                (∀ r, log.answered.getLast? = some r → r.passed = true) ∧
                ∀ key, MessageCall.replay log.calls key = none)) ∧
      ∀ before op after, all = before ++ op :: after → ∀ control st st',
        (first.run before).form.state? control = some st →
        ((first.run before).apply op).form.state? control = some st' →
          Writes (first.run before) control op st st' := by
  have hstart := sound_start m data c
  have hsubscribed : (start (.build m data c)).Subscribed := .of_none rfl
  have hparents : (start (.build m data c)).form.ParentsBefore := Form.parentsBefore_build m data c
  have htold : (start (.build m data c)).Told (logAtStart (.build m data c)) :=
    told_start fun hst => Form.state?_build hst
  have hmoments : ∀ op ∈ (start (.build m data c)).turns ops, ∀ ms, op ≠ .advance ms := by
    rintro op hop ms rfl
    exact advance_not_mem_turns _ _ ms hop
  have hall : ∀ op ∈ (start (.build m data c)).turns ops, op.writesState = false := fun op hop => by
    rcases mem_turns hop with ⟨hop, -⟩ | ⟨r, rfl⟩ | ⟨ms, rfl⟩
    · exact hwrites op hop
    · rfl
    · rfl
  refine ⟨(run_turns hstart hsubscribed ops).trans hs, fun before after heq control st hst => ?_,
    fun before op after heq control st st' hst hst' => ?_⟩
  · have hbefore : ∀ op ∈ before, op ∈ (start (.build m data c)).turns ops := fun op hop =>
      heq ▸ List.mem_append_left _ hop
    have htold' := told_run hstart hsubscribed hparents (fun op hop => hmoments op (hbefore op hop))
      (fun op hop => hall op (hbefore op hop)) (.of_none rfl) htold
    have hreflects := htold'.reflects hst
    exact ⟨hreflects, htold'.checked, fun _ => hreflects.exists_failed, hreflects.isValid_iff⟩
  · have hop : op ∈ (start (.build m data c)).turns ops :=
      heq ▸ List.mem_append_right _ List.mem_cons_self
    have hwritten := writes_of_apply (sound_run hstart before)
      (parentsBefore_run hstart hparents before) (hmoments op hop) (hall op hop) hst'
    rwa [hst, Option.getD_some] at hwritten

/-- An evaluation has failed, a message is set and another one is set and dropped, while the
scheduler goes and a new one comes, which has not asked anything yet. -/
def messagedPair : List Op :=
  [.attach, .setValue 2 (.natural 2), .advance 1000, .setExternal 1 "own" "taken", .detach,
    .setValue 2 (.natural 1), .setExternal 1 "other" "late", .clearExternal 1 "other", .attach,
    .advance 5]

/-- The field still shows the errors of the evaluation that was applied last, under the former
scheduler, and the message that was not dropped. -/
theorem errors_messagedPair :
    let first := start (.build inquiredPair pairData .standard)
    let log := logAtStart first.form 1 ++ first.log 1 (first.turns messagedPair)
    ∃ st, (first.run (first.turns messagedPair)).form.state? 1 = some st ∧ Reflects log st ∧
      st.isValid = false ∧ log.checked ≠ [] ∧
      (∃ r, log.answered.getLast? = some r ∧ r.passed = false) ∧
      MessageCall.replay log.calls "own" = some "taken" ∧
      MessageCall.replay log.calls "other" = none := by
  obtain ⟨hrun, hstates, -⟩ := @errors_of_run _ messagedPair inquiredPair pairData .standard
    (by decide) rfl
  have hstate : (((start (.build inquiredPair pairData .standard)).run messagedPair).form.state?
      1).map (fun st => (st.isValid, st.asyncErrors.map TestResults.passed,
        st.externalErrors)) = some (false, some false, [("own", "taken")]) := by decide +kernel
  have hproperty : (((start (.build inquiredPair pairData .standard)).run
      messagedPair).form.property? 1).isSome = true := by decide +kernel
  rw [← hrun] at hstate hproperty
  obtain ⟨st, hst, heq⟩ := Option.map_eq_some_iff.1 hstate
  obtain ⟨hvalid, hasync, hexternal⟩ : st.isValid = false ∧
      st.asyncErrors.map TestResults.passed = some false ∧
        st.externalErrors = [("own", "taken")] := by simpa using heq
  obtain ⟨hreflects, hchecked, -, -⟩ := hstates _ [] (List.append_nil _).symm 1 st hst
  refine ⟨st, hst, hreflects, hvalid, hchecked hproperty, ?_, ?_, ?_⟩
  · obtain ⟨errors, herrors, hfailed⟩ := Option.map_eq_some_iff.1 hasync
    rw [hreflects.asyncErrors] at herrors
    obtain ⟨r, hr, hsame⟩ := Option.bind_eq_some_iff.1 herrors
    refine ⟨r, hr, Bool.eq_false_iff.2 fun hpassed => ?_⟩
    simp [TestResults.errors?, hpassed] at hsame
  · rw [← hreflects.externalErrors, hexternal]
    rfl
  · rw [← hreflects.externalErrors, hexternal]
    rfl

end Session

end ReactiveForm
