import ReactiveForm.Proofs.Session.LastReadings

/-!
# Filtering the values of dependencies

A pipeline for a dependency of validity may ask for distinct values only. Two runs of the same
operations, one with this filter and one without, give all controls the same values, since neither
the filter nor anything else in a policy touches them (`twin_run`). A control has recorded the same
errors in both runs, whenever they are settled, if two things hold (`errors?_of_withDistinct`):

* since its validity tests were run last, the filter has dropped no value but the one that they have
  read (`DropsOnlyRead`);
* its rules look at nothing but the control and its dependencies, and there they do not tell apart
  documents that the program takes for equal.

The filter compares with the value that it let through last, and not with the one that was read
last. So it is not noticed that a value that was read is gone when that value has been swallowed by
a burst, or lost by the stream, and the value that comes after it is the former one, which the
filter drops. And two zeros of different signs are equal for the filter (`stale_errors`).
-/

namespace ReactiveForm

/-- The policy with a filter on the values of dependencies of validity, or without one. -/
def ChangePolicy.withDistinct (p : ChangePolicy) (distinct : Bool) : ChangePolicy :=
  { p with dependencyValid := { p.dependencyValid with distinct } }

/-- The model with all filters on the values of dependencies of validity, or with none of them. -/
def Model.withDistinct (m : Model) (c : Config) (distinct : Bool) : Model :=
  m.mapPolicy c fun p => p.withDistinct distinct

namespace Session

variable {s t : Session} {e e' : Engine} {op : Op} {ops : List Op}

/-! ## Two runs of the same operations -/

private theorem Moment.sameDocument (h : Moment e op e') (sound : e.Sound)
    (hset : ∀ id v, op ≠ .setValue id v) : Form.SameDocument e'.form e.form := by
  cases h with
  | none => exact .refl e.form
  | @set id v => exact absurd rfl (hset id v)
  | external _ id change =>
      exact Form.sameDocument_modifyState e.form id fun s =>
        { s with externalErrors := change s.externalErrors }
  | force id => exact Engine.sameDocument_force e id
  | step hstep => exact Engine.sameDocument_step sound hstep
  | tick => exact .refl e.form

/-- A quiet operation that gives no field a new value leaves the document. -/
theorem sameDocument_apply (hquiet : op.isQuiet = true) (hset : ∀ id v, op ≠ .setValue id v)
    (he : s.engine? = some e) (sound : e.Sound) : Form.SameDocument (s.apply op).form s.form := by
  rw [← form_of_engine? he]
  by_cases hadvance : ∃ ms, op = .advance ms
  · obtain ⟨ms, rfl⟩ := hadvance
    rw [← form_of_engine? (engine?_apply_advance he ms)]
    exact Engine.sameDocument_advance sound ms
  · obtain ⟨e', he', hmoment⟩ := moment_of_apply hquiet (fun ms heq => hadvance ⟨ms, heq⟩) he
    rw [← form_of_engine? he']
    exact hmoment.sameDocument sound hset

theorem form_apply_setValue (s : Session) (id : ControlId) (v : Json) :
    (s.apply (.setValue id v)).form = (s.form.setValue id v).toOption.getD s.form := by
  simp only [apply_setValue, setValue_eq]
  cases s.form.setValue id v <;> rfl

/-- A quiet operation keeps twins. -/
theorem twin_apply (h : Form.Twin s.form t.form) (hquiet : op.isQuiet = true)
    (he : s.engine? = some e) (sound : e.Sound) (he' : t.engine? = some e') (sound' : e'.Sound) :
    Form.Twin (s.apply op).form (t.apply op).form := by
  by_cases hset : ∃ id v, op = .setValue id v
  · obtain ⟨id, v, rfl⟩ := hset
    rw [form_apply_setValue, form_apply_setValue]
    exact h.setValue id v
  · have hset : ∀ id v, op ≠ .setValue id v := fun id v heq => hset ⟨id, v, heq⟩
    exact (Form.Twin.of_sameDocument (sameDocument_apply hquiet hset he sound)).trans
      (h.trans (Form.Twin.of_sameDocument (sameDocument_apply hquiet hset he' sound')).symm)

/-- Two runs of the same quiet operations keep twins. -/
theorem twin_run (h : Form.Twin s.form t.form) (hquiet : ∀ op ∈ ops, op.isQuiet = true)
    (he : s.engine? = some e) (sound : e.Sound) (he' : t.engine? = some e') (sound' : e'.Sound) :
    Form.Twin (s.run ops).form (t.run ops).form := by
  induction ops generalizing s t e e' with
  | nil => exact h
  | cons op ops ih =>
      have hop := hquiet op List.mem_cons_self
      obtain ⟨d, hd, hevents⟩ := events_of_apply hop he
      obtain ⟨d', hd', hevents'⟩ := events_of_apply hop he'
      exact ih (twin_apply h hop he sound he' sound')
        (fun op hop => hquiet op (List.mem_cons_of_mem _ hop)) hd (hevents.sound sound) hd'
        (hevents'.sound sound')

/-! ## Two fields

One field has a test and a policy, and its test looks at the other field only.
-/

/-- A model with a field that has a test and a policy, and another field. -/
def testedPair (t : Test) (policy : ChangePolicy) : Model :=
  pairModel { Property.template with validTests := [t], policy := some policy }

/-- The controls of the two fields, below the root. -/
def pairControls (t : Test) (policy : ChangePolicy) (data : Json) : List Control :=
  [.create none none (.named [("a", 1), ("b", 2)]) .null,
    .create (some 0) (some { Property.template with
      name := some "a", validTests := [t], policy := some policy }) .none (data.field "a"),
    .create (some 0) (some { Property.template with name := some "b" }) .none (data.field "b")]

section TestedPair

variable {t : Test} {policy : ChangePolicy} {data : Json} {c : Config}

private theorem block_testedPair :
    Shape.block none none Form.root (.object (testedPair t policy).properties) data =
      pairControls t policy data := by
  have hnamed : Keyed.ofList [("a", 1), ("b", 2)] = [("a", 1), ("b", 2)] := by decide +kernel
  have hshape : Property.template.shape = .value := rfl
  simp [testedPair, pairModel, pairControls, Shape.block, Property.block, Property.blockOfParts,
    hshape, Children.ofNamed, hnamed, Form.root]

private theorem control?_testedPair (id : Nat) :
    (Form.sprout (testedPair t policy) data c).control? id = (pairControls t policy data)[id]? := by
  rw [Form.control?_sprout, block_testedPair]

private theorem dependsOn_testedPair (hpaths : Test.dependencyPaths [t] = ["b"]) :
    Scheduler.DependsOn (Form.sprout (testedPair t policy) data c) 1 2 .validity := by
  have hsteps : Step.ofPath "b" = [.child "b"] := by decide +kernel
  refine ⟨{ Property.template with
      name := some "a", validTests := [t], policy := some policy }, "b", ?_, ?_, ?_⟩
  · rw [Form.property?, control?_testedPair]
    rfl
  · exact List.mem_of_mem_head? (congrArg List.head? hpaths)
  · have hanchor : Scheduler.anchor (Form.sprout (testedPair t policy) data c) 1 = (0 : Nat) := by
      rw [Scheduler.anchor, Form.parent?, control?_testedPair]
      rfl
    have hchild : (Form.sprout (testedPair t policy) data c).child? 0 "b" = some 2 := by
      rw [Form.child?, control?_testedPair]
      rfl
    rw [hanchor, Form.resolve, Navigator.resolve, hsteps]
    simp [Navigator.follow, Navigator.step, Form.navigator, hchild]

private theorem place?_testedPair :
    (Form.sprout (testedPair t policy) data c).place? 2 = some [.key "b"] := by
  have hsize : (Form.sprout (testedPair t policy) data c).slots.size = 3 := by
    simp [Form.sprout, Form.append, block_testedPair, pairControls]
  rw [Form.place?, hsize]
  simp [Form.placeWithin, control?_testedPair, pairControls, Control.create, Children.place?]

/-- The rules of the two fields are confined if those of the test look at the other field only. -/
theorem confined_testedPair {same : Json → Json → Prop} (hpaths : Test.dependencyPaths [t] = ["b"])
    (hrules : ∀ v w root root', same (root.place [.key "b"]) (root'.place [.key "b"]) →
      ∀ r ∈ t.ruleList, r.Agrees v root w root') (id : Nat) :
    (Form.build (testedPair t policy) data c).Confined same id := by
  have htree := (Form.sameDocument_build (testedPair t policy) data c).sameTree
  intro v w root root' _ hplaces test htest
  rw [htree.testsOf, Form.testsOf, Form.property?, control?_testedPair] at htest
  rcases id with _ | _ | _ | id
  · cases htest
  · obtain rfl : test = t := List.mem_singleton.1 htest
    have hdep : Scheduler.DependsOn (Form.build (testedPair test policy) data c) 1 2 .validity :=
      (dependsOn_testedPair hpaths).congr htree.symm
    exact hrules v w root root'
      (hplaces 2 (.inr hdep) [.key "b"] ((htree.place? 2).trans place?_testedPair))
  · cases htest
  · cases htest

end TestedPair

/-- The other field is one: asked at once, and by an inquiry. -/
def otherTest : Test := pairTest (some otherIsOne) (some otherIsOne)

/-- The rule of the test looks at the other field only. -/
theorem agrees_otherTest {v w root root' : Json}
    (h : (root.place [.key "b"] == root'.place [.key "b"]) = true) :
    ∀ r ∈ otherTest.ruleList, r.Agrees v root w root' := by
  intro r hr
  obtain rfl := List.mem_singleton.1 hr
  have hholds : otherIsOne.holds v root = otherIsOne.holds w root' := by
    refine Bool.eq_iff_iff.2 ⟨fun hone => ?_, fun hone => ?_⟩
    · exact Json.beq_trans (Json.beq_symm h) hone
    · exact Json.beq_trans h hone
  refine ⟨fun check hcheck => ?_, fun inquiry hinquiry => ?_⟩
  · cases hcheck
    exact hholds
  · cases hinquiry
    exact hholds

/-- The policy of a field that waits for the end of a burst of its dependencies. -/
def burstPolicy : ChangePolicy := { ChangePolicy.immediate with dependencyValid := ⟨100, true⟩ }

/-! ## Filters that only save work -/

/-- Whenever a run with filters and the same run without filters are settled, they agree on the
recorded errors of every control with confined rules, by checks and by inquiries, if the filters
have dropped only values that equal those that the validity tests of the control have read last. -/
theorem errors?_of_withDistinct {m : Model} {data : Json} {c : Config}
    (hquiet : ∀ op ∈ ops, op.isQuiet = true)
    (hon : (launch (m.withDistinct c true) data c).run ops = s) (hsettled : s.isSettled = true)
    (hoff : (launch (m.withDistinct c false) data c).run ops = t) (hsettled' : t.isSettled = true)
    {control : Nat} (hconfined : (Form.build m data c).Confined (· == ·) control)
    (hdrops : DropsOnlyRead control (launch (m.withDistinct c true) data c)
      ((launch (m.withDistinct c true) data c).turns ops)) :
    s.form.errors? control = t.form.errors? control := by
  have fit := fit_launched (m.withDistinct c true) data c
  have hbuild := Form.twin_build m data c fun p => p.withDistinct true
  have hbuild' := Form.twin_build m data c fun p => p.withDistinct false
  -- the twins at the start are the twins at the end
  have htwin : Form.Twin s.form t.form := by
    have hrun := @twin_run _ _ _ _ _ (hbuild.trans hbuild'.symm) hquiet
      (rfl : (launch (m.withDistinct c true) data c).engine? = some (launched _ data c)) fit.sound
      (rfl : (launch (m.withDistinct c false) data c).engine? = some (launched _ data c))
      (fit_launched (m.withDistinct c false) data c).sound
    rw [hon, hoff] at hrun
    exact hrun
  have htree : Form.SameTree s.form (.build (m.withDistinct c true) data c) :=
    hon ▸ sameTree_of_launch hquiet
  have htree' : Form.SameTree t.form (.build (m.withDistinct c false) data c) :=
    hoff ▸ sameTree_of_launch hquiet
  have hall : (t.form.policy control).dependencyValid.distinct = false := by
    rw [htree'.policy, Model.withDistinct, Form.policy_build_mapPolicy]
    rfl
  have hconfined : s.form.Confined (· == ·) control :=
    hconfined.congr (hbuild.tests.symm.trans (.of_sameTree htree.symm))
  exact htwin.errors?_eq (htree.symm.soundTree fit.tree) hconfined
    (current_of_dropsOnlyRead hquiet hon hsettled hdrops)
    (current_of_distinct_eq_false hquiet hoff hsettled' hall)

/-- A field that depends on the other one and waits for the end of its bursts. -/
def filteredPair : Model := testedPair otherTest burstPolicy

/-- The other field gets its value once more before the dependent field is edited. Then it turns to
two and on to three within a burst, in the middle of which the dependent field is edited again, so
its tests have seen the two. -/
def filteredOps : List Op :=
  [.setValue 2 (.natural 1), .advance 1000, .setValue 2 (.natural 1), .setValue 1 (.natural 5),
    .advance 1000, .setValue 2 (.natural 2), .setValue 1 (.natural 6), .advance 50,
    .setValue 2 (.natural 3), .advance 1000]

/-- The filter saves a pass, and the errors are the same. -/
theorem errors?_filteredPair :
    let on := (launch (filteredPair.withDistinct .standard true) pairData .standard).run filteredOps
    let off :=
      (launch (filteredPair.withDistinct .standard false) pairData .standard).run filteredOps
    on.isSettled = true ∧ off.isSettled = true ∧ on.passes 1 .validity < off.passes 1 .validity ∧
      on.form.errors? 1 = off.form.errors? 1 ∧
      (on.form.errors? 1).any (fun errors => errors.1.isSome && errors.2.isSome) = true :=
  ⟨by decide +kernel, by decide +kernel, by decide +kernel,
    errors?_of_withDistinct (by decide) rfl (by decide +kernel) rfl (by decide +kernel)
      (confined_testedPair (by decide +kernel) (fun _ _ _ _ h => agrees_otherTest h) 1)
      (by decide +kernel),
    by decide +kernel⟩

/-! ## Filters that make a difference -/

/-- Two runs of the same operations, with filters and without them, are settled and have recorded
different errors about a control, though rules look only where they may. -/
structure Differs (m : Model) (data : Json) (c : Config) (ops : List Op) (control : Nat) :
    Prop where
  confined : ∀ id, (Form.build m data c).Confined (· = ·) id
  settled : ((launch (m.withDistinct c true) data c).run ops).isSettled = true
  settled' : ((launch (m.withDistinct c false) data c).run ops).isSettled = true
  errors : ((launch (m.withDistinct c true) data c).run ops).form.errors? control ≠
    ((launch (m.withDistinct c false) data c).run ops).form.errors? control

/-- The other field turns to two and back to one within a burst. In between the dependent field is
edited, so its tests have seen the two. -/
def burstOps : List Op :=
  [.setValue 2 (.natural 1), .advance 1000, .setValue 2 (.natural 2), .setValue 1 (.natural 5),
    .advance 50, .setValue 2 (.natural 1), .advance 1000]

/-- The same at once, with a stream that keeps one value only. -/
def lagOps : List Op :=
  [.setValue 2 (.natural 1), .advance 1000, .setValue 2 (.natural 2), .setValue 1 (.natural 5),
    .setValue 2 (.natural 1), .advance 1000]

/-- A zero is followed by the zero of the other sign. -/
def zerosOps : List Op :=
  [.setValue 2 (.real (.zero false)), .advance 0, .setValue 2 (.real (.zero true)), .advance 0]

/-- A rule that the other field is the zero without a sign, and not the one with a sign. -/
def isPlainZero : Rule :=
  (Rule.ofCheck fun _ root =>
    match root.place [.key "b"] with
    | .real x => decide (x = .zero false)
    | _ => false).dependsOn ["b"]

/-- With filters a control may keep errors that are gone without them: a value that its tests have
read is swallowed by a burst, or it is lost by the stream, or it is equal to another one that a rule
tells apart from it. -/
theorem stale_errors :
    Differs filteredPair pairData .standard burstOps 1 ∧
      Differs (testedPair otherTest .immediate) pairData
        { Config.standard with channelCapacity := 1 } lagOps 1 ∧
      Differs (testedPair (.ofRules (.rule isPlainZero)) .immediate)
        (.object [("a", .natural 1), ("b", .real (.zero false))]) .standard zerosOps 1 := by
  refine ⟨⟨fun id => ?_, by decide +kernel, by decide +kernel, by decide +kernel⟩,
    ⟨fun id => ?_, by decide +kernel, by decide +kernel, by decide +kernel⟩,
    ⟨fun id => ?_, by decide +kernel, by decide +kernel, by decide +kernel⟩⟩
  · refine confined_testedPair (by decide +kernel) (fun v w root root' h => ?_) id
    exact agrees_otherTest (Json.beq_of_eq h)
  · refine confined_testedPair (by decide +kernel) (fun v w root root' h => ?_) id
    exact agrees_otherTest (Json.beq_of_eq h)
  · refine confined_testedPair (by decide +kernel) (fun v w root root' h r hr => ?_) id
    obtain rfl := List.mem_singleton.1 hr
    refine ⟨fun check hcheck => ?_, fun inquiry hinquiry => by cases hinquiry⟩
    cases hcheck
    have hplace : root.place [.key "b"] = root'.place [.key "b"] := h
    simp only [hplace]

end Session

end ReactiveForm
