import ReactiveForm.Proofs.Form.Properties
import ReactiveForm.Proofs.Model.Registry
import ReactiveForm.Proofs.Session.ControlTree

/-!
# Policies of registered models

A model that was found in a registry has a policy, which therefore counts in all its forms, whatever
the configuration that they are made under (`Form.Governed`). That lasts over a session: the items
that are put into an array are described by properties of the model, like all other controls.

The registry gives its own policy to the models that have none, and it does so once, when they are
registered. So the policies in the forms of a name are those of the model that was first registered
under it and, where that is silent, of the registry (`Registry.registrations_last`).
-/

namespace ReactiveForm

variable {m : Model} {policy : ChangePolicy} {c : Config}

/-! ## Policies of controls -/

/-- The controls are described by properties of a model, and their policies are those of the
properties or, where these have none, the default. -/
structure Form.Governed (m : Model) (default : ChangePolicy) (f : Form) : Prop where
  /-- A control that is described by a property has the policy of that property. -/
  described : ∀ id p, f.property? id = some p →
    p ∈ m.nodes ∧ f.policy id = p.policy.getD default
  /-- Any other control, which is the root, has the default. -/
  undescribed : ∀ id, f.property? id = none → f.policy id = default

/-- The policy that was filled in counts, under every configuration. -/
theorem Form.MadeFrom.governed {f : Form} (h : f.MadeFrom (m.fill policy) c) :
    f.Governed m (m.defaultPolicy.getD policy) where
  described id p hp := by
    refine ⟨h.nodes hp p.mem_nodes_self, ?_⟩
    rw [Form.policy, hp, h.defaults]
    rfl
  undescribed id hid := by
    rw [Form.policy, hid, h.defaults]
    rfl

/-- The controls of a form are described by properties of its model throughout a session. -/
theorem Session.madeFrom_run (m : Model) (data : Json) (c : Config) (ops : List Op) :
    ((start (.build m data c)).run ops).form.MadeFrom m c :=
  lasting_run (Form.lasting_madeFrom m c) (sound_start m data c) (.build m data c) ops

/-! ## Registered models -/

namespace Registry

/-- Whatever is done with a registry and the copies taken from it, it answers what its ledger says.
The ledger has no name twice, so a model stays as it was registered, and trying to register another
one of its name has no effect. In the forms of a registered name the policies of the first model of
that name count and, where it has none, that of the registry. -/
theorem registrations_last (c : Config) (ops : List Op) :
    let u := (Use.start c).run ops
    let kept := (Use.start c).ledger ops
    u.registry.Remembers (.ofConfig c) kept ∧ (kept.map Model.name).Nodup ∧
      (∀ m : Model, m.Built → Text.isAllBlank m.name = false) ∧
      (∀ op m, u.offered? op = some m → Text.isAllBlank m.name = false →
        m.name ∈ kept.map Model.name →
          u.answer op = .registered (.error (.duplicateSettings m.name)) ∧
            ∀ more, (u.apply op).answers more = u.answers more) ∧
      ∀ name first, kept.find? (fun m => m.name == name) = some first →
        (∀ m, u.registry.get? name = some m → ∀ data e edits,
          ((Session.start (.build m data e)).run edits).form.Governed first
            (first.defaultPolicy.getD (.ofConfig c))) ∧
        ∀ data, ∃ f, Form.buildNamed u.registry name data = .ok f ∧ ∀ edits,
          ((Session.start f).run edits).form.Governed first
            (first.defaultPolicy.getD (.ofConfig c)) := by
  intro u kept
  have hholds : u.registry.Holds (.ofConfig c) kept :=
    Use.holds_run (u := .start c) (holds_ofConfig c) ops
  have hremembers := hholds.remembers
  refine ⟨hremembers, hholds.nodup_names, fun m hm => hm.isAllBlank_name,
    fun op m hoffered hname hm => ?_, fun name first hfirst => ?_⟩
  · have hrefused := hremembers.refuse m hname hm
    constructor
    · rw [Use.answer_of_offered? hoffered, Use.outcome, hrefused]
      rfl
    · intro more
      rw [Use.apply_of_offered? hoffered, Use.submit_of_refused hrefused]
  · have hget : u.registry.get? name = some (first.fill (.ofConfig c)) := by
      rw [hremembers.get?, hfirst, Option.map_some]
    refine ⟨fun m hm data e edits => ?_, fun data => ?_⟩
    · cases hget.symm.trans hm
      exact (Session.madeFrom_run _ data e edits).governed
    · have hrequire := (hremembers.require name _).2 hget
      refine ⟨.build (first.fill (.ofConfig c)) data .standard, ?_, fun edits => ?_⟩
      · rw [Form.buildNamed, hrequire]
        rfl
      · exact (Session.madeFrom_run _ data .standard edits).governed

/-! ### Notes

The registry has a policy of its own, and of its two models one has none. A copy of that model is
changed, and it is refused when it is to be registered again.
-/

/-- A configuration that waits long before it tests editability. -/
def slowConfig : Config :=
  { Config.standard with policy := { PolicyDefaults.standard with selfEditDebounce := 900 } }

/-- A text with a policy of its own. -/
def noteText : Property := { Session.plain "text" .value with policy := some .immediate }

/-- Notes have a text and tags. -/
def noteModel : Model :=
  ((⟨"note", [], none⟩ : Model).add noteText).add (Session.plain "tags" (.array .template))

/-- Drafts have nothing but a policy. -/
def draftModel : Model := (⟨"draft", [], none⟩ : Model).withDefaultPolicy .immediate

/-- What becomes of the copy of the model for notes. -/
def editedNote : Model :=
  ((noteModel.fill (.ofConfig slowConfig)).withDefaultPolicy .immediate).add noteText

/-- A note with a tag. -/
def noteData : Json := .object [("tags", .array [.string "a"]), ("text", .string "t")]

/-- A copy is taken and changed before another model is registered, and after that one is taken that
stays as it is. -/
def noteOps : List Op :=
  [.register noteModel, .get "note", .setDefaultPolicy 0 .immediate, .addProperty 0 noteText,
    .registerCopy 0, .register draftModel, .require "draft", .register draftModel]

/-- The form of the note under the standard configuration. -/
def noteForm : Form := .build (noteModel.fill (.ofConfig slowConfig)) noteData .standard

/-- The form with a second tag. -/
def taggedForm : Form := ((Session.start noteForm).run [.push 2 (.string "b")]).form

/-- The text has its own policy, and the tag that was added has the one of the registry. -/
theorem registrations_last_notes :
    let u := (Use.start slowConfig).run noteOps
    (Use.start slowConfig).ledger noteOps = [noteModel, draftModel] ∧
      u.registry.names = ["draft", "note"] ∧
      (u.registry.get? "draft").bind Model.defaultPolicy = some .immediate ∧
      u.answer (.registerCopy 0) = .registered (.error (.duplicateSettings "note")) ∧
      Form.buildNamed u.registry "note" noteData = .ok noteForm ∧
      taggedForm.controls = [0, 1, 2, 3, 4] ∧ taggedForm.policy 1 = .immediate ∧
      taggedForm.policy 4 = .ofConfig slowConfig := by
  intro u
  obtain ⟨-, -, -, hrefuse, hforms⟩ := registrations_last slowConfig noteOps
  have hcopy : u.offered? (.registerCopy 0) = some editedNote := rfl
  have hbuild : Form.buildNamed u.registry "note" noteData = .ok noteForm := rfl
  obtain ⟨f, hf, hgoverned⟩ := (hforms "note" noteModel rfl).2 noteData
  cases hbuild.symm.trans hf
  have hgoverned : taggedForm.Governed noteModel (.ofConfig slowConfig) := hgoverned _
  have htext : (taggedForm.property? 1).bind Property.policy = some .immediate := by
    decide +kernel
  have htag : (taggedForm.property? 4).map Property.policy = some none := by decide +kernel
  refine ⟨rfl, by decide +kernel, by decide +kernel, ?_, hbuild, by decide +kernel, ?_, ?_⟩
  · exact (hrefuse _ _ hcopy (by decide +kernel) (by decide +kernel)).1
  · obtain ⟨p, hp, hpolicy⟩ := Option.bind_eq_some_iff.1 htext
    rw [(hgoverned.described 1 p hp).2, hpolicy]
    rfl
  · obtain ⟨p, hp, hpolicy⟩ := Option.map_eq_some_iff.1 htag
    rw [(hgoverned.described 4 p hp).2, hpolicy]
    rfl

end Registry

end ReactiveForm
