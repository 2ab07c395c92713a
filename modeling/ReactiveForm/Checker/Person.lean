import ReactiveForm.Model.Basic

/-!
# The model of a person

The model that the command line checks documents against: a person with a name, an age, a car and
nicknames. The name and every nickname must not be blank, the person has to be an adult, a driver
has to be older still, and the model of a car can only be edited when its make is known.
-/

namespace ReactiveForm.Checker

/-- A test of a rule that answers at once. -/
def testOf (check : Json → Json → Bool) (dependencies : List String) : Test :=
  .ofRules (.rule ((Rule.ofCheck check).dependsOn dependencies))

/-- The value is a text that is not blank. -/
def required : Test :=
  { testOf (fun value _ => value.string?.any fun s => !Text.isAllBlank s) [] with
    name := some "required"
    message := some "Required" }

/-- The value is an age of at least eighteen. -/
def adult : Test :=
  { testOf (fun value _ => value.natural?.any (18 ≤ ·)) [] with
    name := some "adult"
    message := some "Must be 18 or older" }

/-- The make of the car is known. -/
def makeKnown : Test :=
  testOf
    (fun _ root => ((root.field "car").field "make").string?.any fun s => !s.isEmpty) ["make"]

/-- Whoever drives a car is at least twenty-one. -/
def driver : Test :=
  { testOf (fun _ root => (root.field "age").natural?.any (21 ≤ ·)) ["../age"] with
    condition := some (.rule (Rule.ofCheck fun value _ => !value.isNull))
    message := some "Drivers must be 21 or older" }

/-- The model of a person. -/
def person : Except FormError Model := do
  let name ← Property.named "name"
  let age ← Property.named "age"
  let car ← Property.named "car"
  let make ← Property.named "make"
  let model ← Property.named "model"
  let nicknames ← Property.named "nicknames"
  Model.ofProperties "person"
    [ name.valid required,
      age.valid adult,
      car.withChildren [make, (model.edit makeKnown).valid driver],
      nicknames.withItem (Property.template.valid required) ]

end ReactiveForm.Checker
