import Mathlib.Data.List.Forall2
import ReactiveForm.Proofs.Keyed
import ReactiveForm.Test.Document

/-!
# Reading results from documents

What a document says about a result is told part by part, for parts that may be missing: `SaysText`
for the name and the message, `SaysMark` for the skip mark. A document describes a result if its
parts do (`TestResult.Describes`), and reading finds the result that is described, where there is
one (`TestResult.ofJson?_eq_some_iff`).

A result is written with the fields of `TestResult.Writes`: a missing text and a skip mark that is
not set have none. What is left out is what a missing part says, so a written result describes
itself (`TestResult.describes_toJson`). For that nothing needs to be known about the order in which
the fields stand.

Lists of results are described item by item, and so they survive being written and read again
(`TestResults.results_survive_documents`).
-/

namespace ReactiveForm

/-- The field of an object that was made from fields with different keys. -/
theorem Json.field?_ofFields {fields : List (String × Json)} (h : (fields.map Prod.fst).Nodup)
    {key : String} {value : Json} :
    (ofFields fields).field? key = some value ↔ (key, value) ∈ fields := by
  have hperm := Keyed.perm_ofList h
  constructor
  · exact fun hfield => hperm.mem_iff.1 (Keyed.mem_of_lookup hfield)
  · exact fun hmem => Keyed.lookup_of_mem (Keyed.nodup_keys_ofList fields) (hperm.mem_iff.2 hmem)

/-! ## Parts -/

/-- What a part says about a text that may be missing. -/
inductive SaysText : Option Json → Option String → Prop where
  | missing : SaysText none none
  | null : SaysText (some .null) none
  | text (s : String) : SaysText (some (.string s)) (some s)

/-- What a part says about a mark that may be missing. -/
inductive SaysMark : Option Json → Bool → Prop where
  | missing : SaysMark none false
  | mark (b : Bool) : SaysMark (some (.bool b)) b

theorem readText?_eq_some_iff {part : Option Json} {text : Option String} :
    readText? part = some text ↔ SaysText part text := by
  constructor
  · intro h
    unfold readText? at h
    split at h <;> cases h
    · exact .missing
    · exact .null
    · exact .text _
  · rintro (_ | _ | _) <;> rfl

theorem bool?_eq_some_iff {j : Json} {b : Bool} : j.bool? = some b ↔ j = .bool b := by
  cases j <;> simp [Json.bool?]

theorem readMark?_eq_some_iff {part : Option Json} {mark : Bool} :
    readMark? part = some mark ↔ SaysMark part mark := by
  constructor
  · intro h
    cases part with
    | none =>
        cases h
        exact .missing
    | some j =>
        rw [bool?_eq_some_iff.1 h]
        exact .mark mark
  · rintro (_ | _) <;> rfl

/-! ## Single results -/

namespace TestResult

variable {r : TestResult} {j : Json}

/-- Four parts say what the result is. -/
structure Said (name message passed skipped : Option Json) (r : TestResult) : Prop where
  name : SaysText name r.name
  message : SaysText message r.message
  passed : passed = some (.bool r.passed)
  skipped : SaysMark skipped r.skipped

theorem ofParts?_eq_some_iff {name message passed skipped : Option Json} :
    ofParts? name message passed skipped = some r ↔ Said name message passed skipped r := by
  have hpassed (b : Bool) : passed.bind Json.bool? = some b ↔ passed = some (.bool b) := by
    rw [Option.bind_eq_some_iff]
    simp [bool?_eq_some_iff]
  simp only [ofParts?, Option.bind_eq_bind, Option.bind_eq_some_iff, Option.pure_def,
    Option.some.injEq, readText?_eq_some_iff, readMark?_eq_some_iff, hpassed]
  constructor
  · rintro ⟨_, hname, _, hmessage, _, hpassed, _, hskipped, rfl⟩
    exact ⟨hname, hmessage, hpassed, hskipped⟩
  · exact fun h => ⟨_, h.name, _, h.message, _, h.passed, _, h.skipped, rfl⟩

/-- The document describes the result: an object by the fields of its parts, a row by its parts in
order. -/
inductive Describes : Json → TestResult → Prop where
  | object {fields : List (String × Json)} {r : TestResult}
      (h : Said (Json.field? "name" (.object fields)) (Json.field? "message" (.object fields))
        (Json.field? "passed" (.object fields)) (Json.field? "skipped" (.object fields)) r) :
      Describes (.object fields) r
  | row {parts : List Json} {r : TestResult} (hlength : parts.length ≤ 4)
      (h : Said parts[0]? parts[1]? parts[2]? parts[3]? r) : Describes (.array parts) r

/-- Reading finds the result that a document describes. -/
theorem ofJson?_eq_some_iff : ofJson? j = some r ↔ Describes j r := by
  constructor
  · intro h
    unfold ofJson? at h
    split at h
    · exact .object (ofParts?_eq_some_iff.1 h)
    · split at h
      · rename_i hlength
        exact .row hlength (ofParts?_eq_some_iff.1 h)
      · cases h
    · cases h
  · intro h
    cases h with
    | object h => exact ofParts?_eq_some_iff.2 h
    | row hlength h => exact (if_pos hlength).trans (ofParts?_eq_some_iff.2 h)

/-- The object has the fields of the result and no others: a missing text has none, and a skip mark
has one only if it is set. -/
structure Writes (r : TestResult) (j : Json) : Prop where
  object : ∃ fields, j = .object fields ∧ Keyed.Ascending fields
  name : j.field? "name" = r.name.map .string
  message : j.field? "message" = r.message.map .string
  passed : j.field? "passed" = some (.bool r.passed)
  skipped : j.field? "skipped" = if r.skipped = true then some (.bool true) else none
  others : ∀ key, key ∉ ["name", "message", "passed", "skipped"] → j.field? key = none

/-- The fields that a result is written with. -/
def fields (r : TestResult) : List (String × Json) :=
  textField "name" r.name ++ textField "message" r.message ++ [("passed", .bool r.passed)]
    ++ if r.skipped then [("skipped", .bool true)] else []

theorem nodup_keys_fields (r : TestResult) : (r.fields.map Prod.fst).Nodup := by
  obtain ⟨name, message, passed, skipped⟩ := r
  cases name <;> cases message <;> cases skipped <;> simp [fields, textField]

theorem mem_textField {key : String} {text : Option String} {e : String × Json} :
    e ∈ textField key text ↔ e.1 = key ∧ text.map .string = some e.2 := by
  obtain ⟨k, value⟩ := e
  cases text with
  | none => simp [textField]
  | some s => simp [textField, eq_comm]

theorem field?_toJson {key : String} {value : Json} : r.toJson.field? key = some value ↔
    key = "name" ∧ r.name.map .string = some value ∨
    key = "message" ∧ r.message.map .string = some value ∨
    key = "passed" ∧ value = .bool r.passed ∨
    key = "skipped" ∧ r.skipped = true ∧ value = .bool true := by
  show (Json.ofFields r.fields).field? key = some value ↔ _
  rw [Json.field?_ofFields r.nodup_keys_fields, fields, List.mem_append, List.mem_append,
    List.mem_append, mem_textField, mem_textField, List.mem_singleton, Prod.mk.injEq, or_assoc,
    or_assoc]
  cases r.skipped <;> simp

theorem writes_toJson (r : TestResult) : r.Writes r.toJson where
  object := ⟨_, rfl, Keyed.ascending_ofList r.fields⟩
  name := Option.ext fun value => by simp [field?_toJson]
  message := Option.ext fun value => by simp [field?_toJson]
  passed := field?_toJson.2 (.inr (.inr (.inl ⟨rfl, rfl⟩)))
  skipped := Option.ext fun value => by
    rw [field?_toJson]
    cases r.skipped <;> simp [eq_comm]
  others key hkey := by
    simp only [List.mem_cons, List.not_mem_nil, or_false, not_or] at hkey
    refine Option.eq_none_iff_forall_ne_some.2 fun value hvalue => ?_
    rcases field?_toJson.1 hvalue with ⟨rfl, -⟩ | ⟨rfl, -⟩ | ⟨rfl, -⟩ | ⟨rfl, -⟩
    · exact hkey.1 rfl
    · exact hkey.2.1 rfl
    · exact hkey.2.2.1 rfl
    · exact hkey.2.2.2 rfl

theorem Writes.describes (h : r.Writes j) : Describes j r := by
  obtain ⟨fields, rfl, -⟩ := h.object
  refine .object ⟨?_, ?_, h.passed, ?_⟩
  · rw [h.name]
    cases r.name with
    | none => exact .missing
    | some s => exact .text s
  · rw [h.message]
    cases r.message with
    | none => exact .missing
    | some s => exact .text s
  · rw [h.skipped]
    cases r.skipped with
    | false => exact .missing
    | true => exact .mark true

theorem describes_toJson (r : TestResult) : Describes r.toJson r := (writes_toJson r).describes

/-- The parts of an object are of the classes that a result needs: a truth value for the mark of
success, texts or null for the name and the message, and a truth value for the skip mark, where all
but the first may be missing. -/
structure Readable (j : Json) : Prop where
  passed : ∃ b, j.field? "passed" = some (.bool b)
  name : ∀ part, j.field? "name" = some part → part = .null ∨ ∃ s, part = .string s
  message : ∀ part, j.field? "message" = some part → part = .null ∨ ∃ s, part = .string s
  skipped : ∀ part, j.field? "skipped" = some part → ∃ b, part = .bool b

theorem exists_saysText_iff {part : Option Json} : (∃ text, SaysText part text) ↔
    ∀ j, part = some j → j = .null ∨ ∃ s, j = .string s := by
  constructor
  · rintro ⟨_, _ | _ | s⟩ j hj
    · cases hj
    · exact .inl (Option.some.inj hj).symm
    · exact .inr ⟨s, (Option.some.inj hj).symm⟩
  · intro h
    cases part with
    | none => exact ⟨none, .missing⟩
    | some j =>
        rcases h j rfl with rfl | ⟨s, rfl⟩
        · exact ⟨none, .null⟩
        · exact ⟨some s, .text s⟩

theorem exists_saysMark_iff {part : Option Json} : (∃ mark, SaysMark part mark) ↔
    ∀ j, part = some j → ∃ b, j = .bool b := by
  constructor
  · rintro ⟨b, h⟩ j rfl
    cases h
    exact ⟨b, rfl⟩
  · intro h
    cases part with
    | none => exact ⟨false, .missing⟩
    | some j =>
        obtain ⟨b, rfl⟩ := h j rfl
        exact ⟨b, .mark b⟩

/-- An object describes a result exactly if its parts are of the classes that a result needs. -/
theorem exists_describes_iff {fields : List (String × Json)} :
    (∃ r, Describes (.object fields) r) ↔ Readable (.object fields) := by
  constructor
  · rintro ⟨r, _ | _⟩
    rename_i h
    exact ⟨⟨_, h.passed⟩, exists_saysText_iff.1 ⟨_, h.name⟩, exists_saysText_iff.1 ⟨_, h.message⟩,
      exists_saysMark_iff.1 ⟨_, h.skipped⟩⟩
  · intro h
    obtain ⟨name, hname⟩ := exists_saysText_iff.2 h.name
    obtain ⟨message, hmessage⟩ := exists_saysText_iff.2 h.message
    obtain ⟨passed, hpassed⟩ := h.passed
    obtain ⟨skipped, hskipped⟩ := exists_saysMark_iff.2 h.skipped
    exact ⟨⟨name, message, passed, skipped⟩, .object ⟨hname, hmessage, hpassed, hskipped⟩⟩

end TestResult

/-! ## Lists of results -/

namespace TestResults

variable {r : TestResults} {j : Json}

theorem mapM_eq_some_iff {α β : Type} {f : α → Option β} {l : List α} {k : List β} :
    l.mapM f = some k ↔ List.Forall₂ (fun a b => f a = some b) l k := by
  induction l generalizing k with
  | nil => simp [eq_comm]
  | cons a l ih =>
      simp only [List.mapM_cons, Option.bind_eq_bind, Option.bind_eq_some_iff, Option.pure_def,
        Option.some.injEq]
      constructor
      · rintro ⟨b, hb, rest, hrest, rfl⟩
        exact .cons hb (ih.1 hrest)
      · rintro (_ | ⟨hb, hrest⟩)
        exact ⟨_, hb, _, ih.2 hrest, rfl⟩

theorem exists_forall₂_iff {α β : Type} {R : α → β → Prop} {l : List α} :
    (∃ k, List.Forall₂ R l k) ↔ ∀ a ∈ l, ∃ b, R a b := by
  induction l with
  | nil => exact iff_of_true ⟨[], .nil⟩ (List.forall_mem_nil _)
  | cons a l ih =>
      rw [List.forall_mem_cons, ← ih]
      constructor
      · rintro ⟨_, _ | ⟨hb, hk⟩⟩
        exact ⟨⟨_, hb⟩, ⟨_, hk⟩⟩
      · rintro ⟨⟨b, hb⟩, ⟨k, hk⟩⟩
        exact ⟨b :: k, .cons hb hk⟩

/-- The document is an array whose items describe the results, one by one. -/
def Describes (j : Json) (r : TestResults) : Prop :=
  ∃ items, j = .array items ∧ List.Forall₂ TestResult.Describes items r.results

theorem ofJson?_eq_some_iff : ofJson? j = some r ↔ Describes j r := by
  have hitems (items : List Json) :
      items.mapM TestResult.ofJson? = some r.results ↔
        List.Forall₂ TestResult.Describes items r.results := by
    rw [mapM_eq_some_iff]
    simp only [TestResult.ofJson?_eq_some_iff]
  constructor
  · intro h
    unfold ofJson? at h
    split at h
    · obtain ⟨results, hresults, rfl⟩ := Option.map_eq_some_iff.1 h
      exact ⟨_, rfl, (hitems _).1 hresults⟩
    · cases h
  · rintro ⟨items, rfl, h⟩
    exact Option.map_eq_some_iff.2 ⟨_, (hitems items).2 h, rfl⟩

theorem ofJson?_toJson (r : TestResults) : ofJson? r.toJson = some r := by
  refine ofJson?_eq_some_iff.2 ⟨_, rfl, ?_⟩
  rw [List.forall₂_map_left_iff, List.forall₂_same]
  exact fun t _ => t.describes_toJson

/-- An array of objects is read exactly if each object is. -/
theorem isSome_ofJson?_iff {items : List Json}
    (hobjects : ∀ item ∈ items, ∃ fields, item = .object fields) :
    (ofJson? (.array items)).isSome = true ↔ ∀ item ∈ items, TestResult.Readable item := by
  have hsome : (ofJson? (.array items)).isSome = true ↔
      ∃ results, List.Forall₂ TestResult.Describes items results := by
    rw [Option.isSome_iff_exists]
    constructor
    · rintro ⟨r, hr⟩
      obtain ⟨_, hitems, h⟩ := ofJson?_eq_some_iff.1 hr
      cases hitems
      exact ⟨_, h⟩
    · rintro ⟨results, h⟩
      exact ⟨⟨results⟩, ofJson?_eq_some_iff.2 ⟨_, rfl, h⟩⟩
  rw [hsome, exists_forall₂_iff]
  refine forall₂_congr fun item hitem => ?_
  obtain ⟨fields, rfl⟩ := hobjects item hitem
  exact TestResult.exists_describes_iff

/-- Results survive being written. What is written is read again as it was, with a field for every
text that is there and for every skip mark that is set, and for nothing else. Whatever document
results are read from, writing them and reading them again gives the same results. An array of
objects is read exactly if each of them has a truth value for its mark of success, texts or null for
its name and its message, and a truth value for its skip mark, where all but the first may be
missing. -/
theorem results_survive_documents :
    (∀ r : TestResults, ofJson? r.toJson = some r ∧
      ∃ items, r.toJson = .array items ∧ List.Forall₂ TestResult.Writes r.results items) ∧
    (∀ j, (ofJson? j).bind (fun r => ofJson? r.toJson) = ofJson? j) ∧
    (∀ j r, ofJson? j = some r ↔ Describes j r) ∧
    (∀ items : List Json, (∀ item ∈ items, ∃ fields, item = .object fields) →
      ((ofJson? (.array items)).isSome = true ↔ ∀ item ∈ items, TestResult.Readable item)) := by
  refine ⟨fun r => ⟨ofJson?_toJson r, _, rfl, ?_⟩, fun j => ?_, fun _ _ => ofJson?_eq_some_iff,
    fun _ => isSome_ofJson?_iff⟩
  · rw [List.forall₂_map_right_iff, List.forall₂_same]
    exact fun t _ => t.writes_toJson
  · cases ofJson? j with
    | none => rfl
    | some r => exact ofJson?_toJson r

/-- A failure that is marked as skipped, with a name that is null and a field that no result has. -/
def oddReport : List Json :=
  [.ofFields [("skipped", .bool true), ("passed", .bool false), ("name", .null),
      ("message", .string "bad"), ("since", .natural 3)],
    .ofFields [("passed", .bool true)]]

/-- A result whose skip mark is null. -/
def nullMarked : List Json := [.ofFields [("passed", .bool true), ("skipped", .null)]]

/-- A name that is null is read as none, and a skip mark that is null is not read. -/
theorem results_survive_documents_oddReport :
    (∀ item ∈ oddReport, TestResult.Readable item) ∧
      ofJson? (.array oddReport) =
        some ⟨[⟨none, some "bad", false, true⟩, ⟨none, none, true, false⟩]⟩ ∧
      ¬ (∀ item ∈ nullMarked, TestResult.Readable item) := by
  obtain ⟨-, -, -, hreadable⟩ := results_survive_documents
  have hodd : ofJson? (.array oddReport) =
      some ⟨[⟨none, some "bad", false, true⟩, ⟨none, none, true, false⟩]⟩ := rfl
  have hnull : ofJson? (.array nullMarked) = none := rfl
  have hobjects : ∀ item ∈ oddReport ++ nullMarked, ∃ fields, item = Json.object fields := by
    simp only [oddReport, nullMarked, List.cons_append, List.nil_append, List.forall_mem_cons]
    exact ⟨⟨_, rfl⟩, ⟨_, rfl⟩, ⟨_, rfl⟩, List.forall_mem_nil _⟩
  obtain ⟨hobjects, hobjects'⟩ := List.forall_mem_append.1 hobjects
  refine ⟨(hreadable _ hobjects).1 (by rw [hodd]; rfl), hodd, fun hall => ?_⟩
  have hsome := (hreadable _ hobjects').2 hall
  rw [hnull] at hsome
  cases hsome

-- a row of parts is read as well, and may end behind the mark of success
example : ofJson? (.array [.array [.null, .string "bad", .bool false]]) =
    some ⟨[⟨none, some "bad", false, false⟩]⟩ := rfl

end TestResults

end ReactiveForm
