import ReactiveForm.Proofs.Recompute.Due

/-!
# What can be foreseen

Letting time pass is a long series of steps, and which steps there are depends on how many values
the pipelines have before them. What the steps lead to can be foreseen without them. A control owes
a reaction up to a moment if one of its pipelines is going to yield by then (`Engine.owes`), and if
it does, the tests in question are run on the document, which stays (`Engine.foreseen`).

What is foreseen up to a moment is the same before and behind each step, and while the clock moves
up to there (`Engine.Foretold`). So it is what has come when the moment is there: the reactions that
were owed have been made, and the pipelines that were going to yield later are still going to do so
(`Engine.arrived_advance`).
-/

namespace ReactiveForm

/-! ## Reactions on one document -/

namespace Form

variable {f g : Form} {id : ControlId}

theorem judged_judged (f : Form) (id : ControlId) (reaction : Reaction) (s : ControlState) :
    f.judged id reaction (f.judged id reaction s) = f.judged id reaction s := by
  cases reaction <;> simp only [judged, validated, edited] <;> cases f.property? id <;> rfl

theorem judged_comm (f : Form) (id : ControlId) (reaction other : Reaction) (s : ControlState) :
    f.judged id reaction (f.judged id other s) = f.judged id other (f.judged id reaction s) := by
  cases reaction <;> cases other <;> simp only [judged, validated, edited] <;>
    cases f.property? id <;> rfl

theorem checked_judged (f : Form) (id : ControlId) (reaction : Reaction) (s : ControlState) :
    (f.judged id reaction s).checked = f.judged id reaction s.checked := by
  cases reaction <;> simp only [judged, validated, edited] <;> cases f.property? id <;> rfl

theorem SameTree.judged (t : SameTree f g) (hvalue : ∀ id, f.value id = g.value id)
    (id : ControlId) (reaction : Reaction) : f.judged id reaction = g.judged id reaction := by
  cases reaction with
  | validity => exact t.validated hvalue id
  | editability => exact t.edited hvalue id

end Form

namespace Engine

variable {e e' e'' : Engine} {target ms : Nat} {id control : ControlId} {reaction : Reaction}
  {race : Race}
  {r : PipelineRef}

/-! ## What is owed -/

/-- Whether a pipeline is going to run a reaction of a control, up to a moment. -/
def owesBy (e : Engine) (target : Nat) (control : ControlId) (reaction : Reaction)
    (r : PipelineRef) : Bool :=
  (e.scheduler.change? r).any (Scheduler.runs control reaction)
    && (e.due? r).any (· ≤ target)

/-- Whether a reaction of a control is still to come, up to a moment. -/
def owes (e : Engine) (target : Nat) (control : ControlId) (reaction : Reaction) : Bool :=
  e.pipelines.any (e.owesBy target control reaction)

theorem owes_iff : e.owes target control reaction = true ↔
    ∃ r, e.owesBy target control reaction r = true := by
  refine List.any_eq_true.trans ⟨fun ⟨r, _, hr⟩ => ⟨r, hr⟩, fun ⟨r, hr⟩ => ⟨r, ?_, hr⟩⟩
  obtain ⟨q, hq, -⟩ := (Option.any_eq_true _ _).1 (Bool.and_eq_true_iff.1 hr).1
  exact mem_pipelines_of_change? hq

private theorem any_runs_eq (o : Option ChangePipeline) :
    o.any (Scheduler.runs control reaction) =
      (o.map ChangePipeline.outline).any (Scheduler.runs control reaction) := by
  cases o <;> rfl

/-- What is owed depends on the outline of the scheduler and the moments only. -/
theorem owesBy_congr
    (houtline : (e'.scheduler.change? r).map ChangePipeline.outline =
      (e.scheduler.change? r).map ChangePipeline.outline) (hdue : e'.due? r = e.due? r) :
    e'.owesBy target control reaction r = e.owesBy target control reaction r := by
  rw [owesBy, owesBy, any_runs_eq, houtline, ← any_runs_eq, hdue]

/-- A pipeline runs one reaction of one control. -/
theorem owesBy_eq_false {q : ChangePipeline}
    (hq : (e.scheduler.change? r).map ChangePipeline.outline = some q.outline)
    (hne : control ≠ q.control ∨ reaction ≠ q.reaction) :
    e.owesBy target control reaction r = false := by
  have hruns : Scheduler.runs control reaction q.outline = false := by
    rw [Scheduler.runs, decide_eq_false_iff_not]
    rintro ⟨rfl, rfl⟩
    exact hne.elim (· rfl) (· rfl)
  rw [owesBy, any_runs_eq, hq, Option.any_some, hruns, Bool.false_and]

theorem owes_congr (h : ∀ r, e'.owesBy target control reaction r =
    e.owesBy target control reaction r) :
    e'.owes target control reaction = e.owes target control reaction := by
  rw [Bool.eq_iff_iff, owes_iff, owes_iff]
  simp only [h]

/-- The state of a control behind the reactions that it owes up to a moment. -/
def foreseen (e : Engine) (target : Nat) (id : ControlId) (s : ControlState) : ControlState :=
  let validated := if e.owes target id .validity then e.form.judged id .validity s else s
  if e.owes target id .editability then e.form.judged id .editability validated else validated

theorem foreseen_congr (howes : ∀ reaction, e'.owes target id reaction = e.owes target id reaction)
    (hjudged : ∀ reaction, e'.form.judged id reaction = e.form.judged id reaction) :
    e'.foreseen target id = e.foreseen target id := by
  funext s
  rw [foreseen, foreseen, howes, howes, hjudged, hjudged]

/-- Where nothing is owed the state stays. -/
theorem foreseen_of_not_owes (h : ∀ reaction, e.owes target id reaction = false)
    (s : ControlState) : e.foreseen target id s = s := by
  rw [foreseen, h, h]
  rfl

/-- A reaction that is owed can be made at once. It does not matter whether it is owed again. -/
theorem foreseen_judged (howes : e.owes target id reaction = true)
    (hother : ∀ other, other ≠ reaction → e'.owes target id other = e.owes target id other)
    (hjudged : ∀ reaction, e'.form.judged id reaction = e.form.judged id reaction)
    (s : ControlState) :
    e'.foreseen target id (e.form.judged id reaction s) = e.foreseen target id s := by
  cases reaction with
  | validity =>
      rw [foreseen, foreseen, howes, hother .editability (by simp), hjudged, hjudged,
        Form.judged_judged, ite_self, if_pos rfl]
  | editability =>
      rw [foreseen, foreseen, howes, hother .validity (by simp), hjudged, hjudged, if_pos rfl]
      cases e.owes target id .validity with
      | false => simp [Form.judged_judged]
      | true => simp [Form.judged_judged, Form.judged_comm _ _ .validity .editability]

/-! ## Steps and time -/

/-- What is foreseen up to a moment has stayed the same. -/
structure Foretold (target : Nat) (e e' : Engine) : Prop where
  document : Form.SameDocument e'.form e.form
  outline : Scheduler.SameOutline e'.scheduler e.scheduler
  clock : e'.clock ≤ target
  later : ∀ r, (e'.due? r).filter (target < ·) = (e.due? r).filter (target < ·)
  state : ∀ id, (e'.form.state? id).map (fun s => e'.foreseen target id s.checked) =
    (e.form.state? id).map fun s => e.foreseen target id s.checked

namespace Foretold

theorem refl (h : e.clock ≤ target) : Foretold target e e :=
  ⟨.refl _, .refl _, h, fun _ => rfl, fun _ => rfl⟩

theorem trans (h : Foretold target e e') (h' : Foretold target e' e'') : Foretold target e e'' where
  document := h'.document.trans h.document
  outline := h'.outline.trans h.outline
  clock := h'.clock
  later r := (h'.later r).trans (h.later r)
  state id := (h'.state id).trans (h.state id)

private theorem filter_eq_none {m : Option Nat} {now : Nat} (hle : now ≤ target)
    (hm : ∀ moment, m = some moment → moment ≤ now) : m.filter (target < ·) = none :=
  Option.filter_eq_none_iff.2 fun moment hmem =>
    mt of_decide_eq_true (Nat.not_lt.2 (Nat.le_trans (hm moment hmem) hle))

/-- A step does not change what is foreseen. -/
theorem step (hle : e.clock ≤ target) (h : e.Sound) (hall : e.scheduler.HearsAll)
    (hstep : e.step? r race = some e') : Foretold target e e' := by
  have hdoc := sameDocument_step h hstep
  have houtline := sameOutline_step h hstep
  have hjudged : ∀ id reaction, e'.form.judged id reaction = e.form.judged id reaction :=
    hdoc.sameTree.judged hdoc.value
  have hclock : e'.clock ≤ target := clock_step h hstep ▸ hle
  cases dueStep_of_step? h hall hstep with
  | waits hdue hchecked =>
      refine ⟨hdoc, houtline, hclock, fun r => by rw [hdue], fun id => ?_⟩
      rw [foreseen_congr (fun _ => owes_congr fun r => owesBy_congr (houtline.change? r) (hdue r))
        (hjudged id)]
      have hmapped := congrArg (Option.map (e.foreseen target id)) (hchecked id)
      rw [Option.map_map, Option.map_map] at hmapped
      exact hmapped
  | @yields r q moment hq hdue hmoment hafter hother hstate =>
      have hq' : (e.scheduler.change? r).map ChangePipeline.outline = some q.outline := by
        rw [hq, Option.map_some]
      have hnow : e.owes target q.control q.reaction = true := by
        refine owes_iff.2 ⟨r, ?_⟩
        rw [owesBy, hq, hdue, Option.any_some, Option.any_some, Scheduler.runs]
        simpa using Nat.le_trans hmoment hle
      -- the pipeline that has yielded runs no other reaction
      have howes : ∀ {id reaction}, (id ≠ q.control ∨ reaction ≠ q.reaction) →
          e'.owes target id reaction = e.owes target id reaction := by
        intro id reaction hne
        refine owes_congr fun other => ?_
        by_cases heq : other = r
        · rw [heq, owesBy_eq_false hq' hne,
            owesBy_eq_false ((houtline.change? r).trans hq') hne]
        · exact owesBy_congr (houtline.change? other) (hother other heq)
      refine ⟨hdoc, houtline, hclock, fun other => ?_, fun id => ?_⟩
      · by_cases heq : other = r
        · rw [heq, filter_eq_none hle hafter, filter_eq_none hle fun other hother => ?_]
          exact Option.some.inj (hdue.symm.trans hother) ▸ hmoment
        · rw [hother other heq]
      · rw [hstate]
        split
        · rename_i heq
          subst heq
          rw [Option.map_map]
          refine congrArg (fun change => Option.map change _) (funext fun s => ?_)
          rw [Function.comp_apply, Form.checked_judged]
          exact foreseen_judged hnow (fun _ hne => howes (.inr hne)) (hjudged q.control) s.checked
        · rename_i hne
          rw [foreseen_congr (fun _ => howes (.inl hne)) (hjudged id)]

/-- The clock does not change what is foreseen, as long as no pipeline can make a step. -/
theorem tick (h : e.Sound) (hquiet : e.next? none = none) {now : Nat} (hle : now ≤ target) :
    Foretold target e (e.tick now) where
  document := .refl e.form
  outline := sameOutline_tick e now
  clock := hle
  later r := by rw [due?_tick h hquiet]
  state id := by
    have hsame : (e.tick now).foreseen target id = e.foreseen target id :=
      foreseen_congr (fun _ => owes_congr fun r =>
        owesBy_congr ((sameOutline_tick e now).change? r) (due?_tick h hquiet now r)) fun _ => rfl
    rw [hsame]
    rfl

end Foretold

/-! ## Letting time pass -/

/-- The way of a form with a scheduler to a moment. -/
structure Underway (target : Nat) (e e' : Engine) : Prop where
  sound : e'.Sound
  nodup : (e'.scheduler.own.map OwnPipelines.control).Nodup
  hearsAll : e'.scheduler.HearsAll
  foretold : Foretold target e e'

namespace Underway

theorem step (h : Underway target e e') (hstep : e'.step? r race = some e'') :
    Underway target e e'' where
  sound := h.sound.step hstep
  nodup := (sameOutline_step h.sound hstep).controls ▸ h.nodup
  hearsAll := h.hearsAll.congr (sameOutline_step h.sound hstep)
  foretold := h.foretold.trans (.step h.foretold.clock h.sound h.hearsAll hstep)

theorem tick (h : Underway target e e') (hquiet : e'.next? none = none) {now : Nat}
    (hle : now ≤ target) : Underway target e (e'.tick now) where
  sound := h.sound.tick now
  nodup := (sameOutline_tick e' now).controls ▸ h.nodup
  hearsAll := h.hearsAll.congr (sameOutline_tick e' now)
  foretold := h.foretold.trans (.tick h.sound hquiet hle)

end Underway

/-- What was foreseen has come: what was owed until then has been done, and what is later is still
to come. -/
structure Arrived (target : Nat) (e e' : Engine) : Prop where
  document : Form.SameDocument e'.form e.form
  clock : e'.clock = target
  due : ∀ r, e'.due? r = (e.due? r).filter (target < ·)
  state : ∀ id, (e'.form.state? id).map ControlState.checked =
    (e.form.state? id).map fun s => e.foreseen target id s.checked

theorem arrived_advance (h : e.Sound) (hnodup : (e.scheduler.own.map OwnPipelines.control).Nodup)
    (hall : e.scheduler.HearsAll) (ms : Nat) : Arrived (e.clock + ms) e (e.advance ms) := by
  obtain ⟨e', hway, hquiet, hlater, heq⟩ := advance_spec (I := Underway (e.clock + ms) e)
    Underway.sound Underway.nodup Underway.step (fun _ h hquiet hle => h.tick hquiet hle)
    ⟨h, hnodup, hall, .refl (Nat.le_add_right _ _)⟩
  -- what is still to come is later than the moment
  have hdue : ∀ r moment, e'.due? r = some moment → e.clock + ms < moment := fun r moment hdue =>
    hlater moment (mem_deadlines_of_due? hway.sound hquiet hdue)
  have hnot : ∀ id reaction, e'.owes (e.clock + ms) id reaction = false := by
    intro id reaction
    rw [← Bool.not_eq_true, owes_iff]
    rintro ⟨r, howes⟩
    obtain ⟨moment, hmoment, hle⟩ := (Option.any_eq_true _ _).1 (Bool.and_eq_true_iff.1 howes).2
    exact Nat.not_lt.2 (of_decide_eq_true hle) (hdue r moment hmoment)
  rw [heq]
  refine ⟨hway.foretold.document, rfl, fun r => ?_, fun id => ?_⟩
  · rw [due?_tick hway.sound hquiet, ← hway.foretold.later]
    cases hmoment : e'.due? r with
    | none => rfl
    | some moment => rw [Option.filter_some, if_pos (decide_eq_true (hdue r moment hmoment))]
  · rw [← hway.foretold.state]
    refine congrArg (fun look => Option.map look (e'.form.state? id)) (funext fun s => ?_)
    exact (foreseen_of_not_owes (hnot id) s.checked).symm

end Engine

end ReactiveForm
