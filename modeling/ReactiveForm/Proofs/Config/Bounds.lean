import ReactiveForm.Checker.Run
import ReactiveForm.Proofs.Form.Items

/-!
# Numbers of a configuration

A number of a configuration can be any 64-bit number. The loader raises a channel capacity of zero
to one, but bounds no number from above, while two uses of the numbers do have an upper bound: a
stream has no more than `maxStreamCapacity` places, and the settle time is a sum that has to be a
64-bit number. A configuration with numbers that keep to these bounds is `InBounds`.

`inBounds_iff` tells from the variables whether they give such a configuration. What becomes of the
others is told by `settleTime_eq_ite`, where the sum wraps around and the settle time ends before
the longest debounce does, and by `exitCode_check_iff`, where the command line breaks off.
-/

namespace ReactiveForm

open Checker

/-! ## Numbers that are read -/

theorem Text.readDigits?_le {cs : List Char} {n : Nat} (h : readDigits? cs = some n) :
    n ≤ maxWord := by
  unfold readDigits? at h
  split at h
  · exact nomatch h
  · split at h
    · next hle =>
        cases h
        exact hle
    · exact nomatch h

theorem Text.readWord?_le {s : String} {n : Nat} (h : readWord? s = some n) : n ≤ maxWord := by
  unfold readWord? at h
  split at h <;> exact readDigits?_le h

namespace Config

variable {vars : Variables} {profile key name : String} {c : Config} {d n : Nat}

/-- The number that is set under a key: the key has a text, and the text denotes the number. -/
def set? (vars : Variables) (profile key : String) : Option Nat :=
  (profiled? vars profile key).bind readNumber?

theorem set?_le (h : set? vars profile key = some n) : n ≤ Text.maxWord := by
  obtain ⟨text, -, hread⟩ := Option.bind_eq_some_iff.1 h
  exact Text.readWord?_le hread

/-- A number keeps to a bound exactly if the one that is set does, provided the default does. -/
theorem number_le_iff (hd : d ≤ n) :
    number vars profile key d ≤ n ↔ ∀ k, set? vars profile key = some k → k ≤ n := by
  unfold number
  change (set? vars profile key).getD d ≤ n ↔ _
  cases set? vars profile key with
  | none => simpa using hd
  | some k => simp

/-! ## Bounds -/

/-- The largest number of places that a stream has. -/
def maxStreamCapacity : Nat := 9223372036854775807

/-- The waits of the four kinds of recomputation. -/
def debounces (c : Config) : List Nat :=
  [c.policy.dependencyValidDebounce, c.policy.dependencyEditDebounce, c.policy.selfEditDebounce,
    c.policy.selfAsyncValidDebounce]

theorem longestDebounce_le_iff : c.longestDebounce ≤ n ↔ ∀ wait ∈ c.debounces, wait ≤ n := by
  simp only [longestDebounce, debounces, List.forall_mem_cons, List.not_mem_nil, false_implies,
    implies_true, and_true]
  omega

theorem le_longestDebounce : ∀ wait ∈ c.debounces, wait ≤ c.longestDebounce :=
  longestDebounce_le_iff.1 (Nat.le_refl _)

/-- The numbers of a configuration keep to the bounds of their uses. -/
structure InBounds (c : Config) : Prop where
  /-- A stream keeps at least one value. -/
  places_pos : 1 ≤ c.channelCapacity
  /-- A stream can be made with so many places. -/
  places_le : c.channelCapacity ≤ maxStreamCapacity
  /-- The settle time is a 64-bit number before it is reduced to one. -/
  settles : c.longestDebounce + 50 ≤ Text.maxWord

/-- The key of the channel capacity. -/
def capacityKey : String := "FIELDRULES_CHANNEL_CAPACITY"

/-- The keys of the four waits. -/
def debounceKeys : List String :=
  ["FIELDRULES_DEPENDENCY_VALID_DEBOUNCE_MS", "FIELDRULES_DEPENDENCY_EDIT_DEBOUNCE_MS",
    "FIELDRULES_SELF_EDIT_DEBOUNCE_MS", "FIELDRULES_SELF_ASYNC_VALID_DEBOUNCE_MS"]

theorem channelCapacity_pos : 1 ≤ (forProfile vars name).channelCapacity :=
  Nat.le_max_left 1 _

theorem channelCapacity_le_iff (hn : 64 ≤ n) :
    (forProfile vars name).channelCapacity ≤ n ↔
      ∀ k, set? vars (Text.upper name) capacityKey = some k → k ≤ n := by
  have hone : 1 ≤ n := Nat.le_trans (by decide) hn
  rw [← number_le_iff hn]
  exact Nat.max_le.trans (and_iff_right hone)

theorem longestDebounce_forProfile_le_iff :
    (forProfile vars name).longestDebounce ≤ n ↔
      ∀ key ∈ debounceKeys, ∀ k, set? vars (Text.upper name) key = some k → k ≤ n := by
  rw [longestDebounce_le_iff]
  simp only [debounces, debounceKeys, List.forall_mem_cons, forProfile, PolicyDefaults.standard,
    number_le_iff (Nat.zero_le n)]
  simp

/-- No number of a configuration is larger than a 64-bit number. -/
theorem forProfile_le_maxWord (vars : Variables) (name : String) :
    (forProfile vars name).channelCapacity ≤ Text.maxWord ∧
      (forProfile vars name).longestDebounce ≤ Text.maxWord :=
  ⟨(channelCapacity_le_iff (by decide)).2 fun _ => set?_le,
    longestDebounce_forProfile_le_iff.2 fun _ _ _ => set?_le⟩

/-- The variables give a configuration within the bounds exactly if the numbers that they set
leave room: the capacity for the places of a stream, the waits for what the settle time adds. -/
theorem inBounds_iff (vars : Variables) (name : String) :
    (forProfile vars name).InBounds ↔
      (∀ k, set? vars (Text.upper name) capacityKey = some k → k ≤ maxStreamCapacity) ∧
        ∀ key ∈ debounceKeys, ∀ k, set? vars (Text.upper name) key = some k →
          k + 50 ≤ Text.maxWord := by
  have hplaces : (forProfile vars name).channelCapacity ≤ maxStreamCapacity ↔ _ :=
    channelCapacity_le_iff (by decide)
  have hwaits : (forProfile vars name).longestDebounce ≤ Text.maxWord - 50 ↔ _ :=
    longestDebounce_forProfile_le_iff
  have hroom (k : Nat) : k ≤ Text.maxWord - 50 ↔ k + 50 ≤ Text.maxWord :=
    Nat.le_sub_iff_add_le (by decide)
  simp only [hroom] at hwaits
  rw [← hplaces, ← hwaits]
  exact ⟨fun h => ⟨h.places_le, h.settles⟩, fun h => ⟨channelCapacity_pos, h.1, h.2⟩⟩

end Config

/-! ## Streams of a form -/

/-- Every stream of a built form, that of the structure included, is asked to keep as many values as
the configuration says, and at least one. -/
theorem Form.streams_build (m : Model) (data : Json) (c : Config) :
    (build m data c).structureChanges = .ofCapacity (max 1 c.channelCapacity) ∧
      ∀ id s, (build m data c).changes? id = some s → s = .ofCapacity (max 1 c.channelCapacity) := by
  constructor
  · rw [build_eq, structureChanges_refreshNew]
    rfl
  · intro id s hs
    rw [(sameDocument_build m data c).changes id] at hs
    simp only [changes?, sprout, slots_append] at hs
    obtain ⟨slot, hslot, rfl⟩ := Option.map_eq_some_iff.1 hs
    simp only [List.size_toArray, List.length_nil, Nat.not_lt_zero, if_false] at hslot
    obtain ⟨k, -, rfl⟩ := Option.map_eq_some_iff.1 hslot
    rfl

theorem Stream.le_roundUp (n : Nat) : n ≤ roundUp n := by
  unfold roundUp
  split
  · assumption
  · have hlt : n - 1 < Nat.pow 2 (Nat.log2 (n - 1) + 1) := Nat.lt_log2_self
    omega

/-! ## The settle time -/

namespace Checker

open Config

variable {c : Config} {s : Surroundings} {o : Options} {data : Json} {edits : List String}
  {f : Failure}

/-- The settle time is what the longest debounce and the addition make if that is a 64-bit number,
and otherwise what is left of it beyond the 64-bit numbers. -/
theorem settleTime_eq_ite (hc : c.longestDebounce ≤ Text.maxWord) :
    settleTime c =
      if c.longestDebounce + 50 ≤ Text.maxWord then c.longestDebounce + 50
      else c.longestDebounce + 50 - (Text.maxWord + 1) := by
  unfold settleTime
  unfold Text.maxWord at *
  split <;> omega

/-- The settle time outlasts every debounce exactly if the sum is a 64-bit number. -/
theorem debounces_lt_settleTime_iff (hc : c.longestDebounce ≤ Text.maxWord) :
    (∀ wait ∈ c.debounces, wait < settleTime c) ↔ c.longestDebounce + 50 ≤ Text.maxWord := by
  have htime := settleTime_eq_ite hc
  constructor
  · intro hlt
    refine Decidable.byContradiction fun hover => ?_
    rw [if_neg hover] at htime
    -- what is left of the sum is below the longest debounce
    have hle := longestDebounce_le_iff.2 fun wait hwait => Nat.le_of_lt (hlt wait hwait)
    unfold Text.maxWord at *
    omega
  · intro hsum wait hwait
    rw [if_pos hsum] at htime
    have hle := le_longestDebounce wait hwait
    omega

/-! ## Breaking off -/

theorem breaksOff_applyEdit {session : Session} {edit : String}
    (h : applyEdit session edit = .error f) : f.breaksOff = false := by
  unfold applyEdit at h
  split at h
  · cases h
    rfl
  · split at h
    · cases h
      rfl
    · split at h <;> cases h
      rfl

theorem breaksOff_foldlM_applyEdit {session : Session}
    (h : edits.foldlM applyEdit session = .error f) : f.breaksOff = false := by
  induction edits generalizing session with
  | nil => cases h
  | cons edit edits ih =>
      rw [List.foldlM_cons] at h
      cases hedit : applyEdit session edit with
      | ok next =>
          rw [hedit] at h
          exact ih h
      | error e =>
          rw [hedit] at h
          cases h
          exact breaksOff_applyEdit hedit

/-- Making a form, editing it and waiting can be refused, but does not break off. -/
theorem breaksOff_settled (h : settled c data edits = .error f) : f.breaksOff = false := by
  unfold settled at h
  cases hperson : person with
  | error e =>
      rw [hperson] at h
      cases h
      rfl
  | ok m =>
      rw [hperson] at h
      cases hedits : edits.foldlM applyEdit (Session.start (.build m data c)).attach with
      | ok session =>
          simp [hedits, bind, Except.bind, pure, Except.pure] at h
      | error e =>
          simp [hedits, bind, Except.bind] at h
          exact h ▸ breaksOff_foldlM_applyEdit hedits

theorem exitCode_result (log : String) (f : Failure) :
    (f.result log).exitCode = if f.breaksOff = true then 101 else 1 := by
  unfold Failure.result
  split <;> rfl

theorem checked_eq (hdata : document s o.data = .ok data) :
    checked s o c =
      if s.maxPlaces < Stream.roundUp c.channelCapacity then .error .unfitCapacity
      else settled c data o.edits := by
  rw [checked, hdata]
  rfl

/-- With a configuration and a document, the command line breaks off exactly if there is no memory
for the places of a stream. -/
theorem exitCode_check_iff (hc : configuration s o.envFile = .ok c)
    (hdata : document s o.data = .ok data) :
    (check s o).exitCode = 101 ↔ s.maxPlaces < Stream.roundUp c.channelCapacity := by
  simp only [check, hc, checked_eq hdata]
  by_cases hmany : s.maxPlaces < Stream.roundUp c.channelCapacity
  · rw [if_pos hmany]
    exact iff_of_true rfl hmany
  · rw [if_neg hmany]
    refine iff_of_false ?_ hmany
    cases hsettled : settled c data o.edits with
    | ok form => exact Nat.zero_ne_add_one 100
    | error f =>
        rw [exitCode_result, breaksOff_settled hsettled]
        decide

/-- A capacity that no stream has does not fit into the memory either, since a place takes a byte at
least. -/
theorem maxPlaces_lt_of_maxStreamCapacity_lt (h : maxStreamCapacity < c.channelCapacity) :
    s.maxPlaces < Stream.roundUp c.channelCapacity := by
  have hle := Stream.le_roundUp c.channelCapacity
  have hplaces : s.maxPlaces ≤ maxStreamCapacity := Nat.div_le_self maxBytes s.slotSize
  omega

/-! ## Numbers out of bounds -/

/-- What the variables decide about a run. Its streams are asked for at least one place and for no
more than a 64-bit number of them, and its configuration is within the bounds exactly if the numbers
that the variables set are. The settle time outlasts every debounce exactly if the sum it stands for
is a 64-bit number, and wraps around otherwise. The run breaks off exactly if there is no memory for
the places of a stream, and there is none for more places than a stream has. -/
theorem extremes_of_variables (vars : Variables) (name : String) :
    (1 ≤ (forProfile vars name).channelCapacity ∧
      (forProfile vars name).channelCapacity ≤ Text.maxWord ∧
      ∀ m data, (Form.build m data (forProfile vars name)).structureChanges =
          .ofCapacity (forProfile vars name).channelCapacity ∧
        ∀ id stream, (Form.build m data (forProfile vars name)).changes? id = some stream →
          stream = .ofCapacity (forProfile vars name).channelCapacity) ∧
    ((forProfile vars name).InBounds ↔
      (∀ k, set? vars (Text.upper name) capacityKey = some k → k ≤ maxStreamCapacity) ∧
        ∀ key ∈ debounceKeys, ∀ k, set? vars (Text.upper name) key = some k →
          k + 50 ≤ Text.maxWord) ∧
    ((∀ wait ∈ (forProfile vars name).debounces, wait < settleTime (forProfile vars name)) ↔
      (forProfile vars name).longestDebounce + 50 ≤ Text.maxWord) ∧
    settleTime (forProfile vars name) =
      (if (forProfile vars name).longestDebounce + 50 ≤ Text.maxWord then
        (forProfile vars name).longestDebounce + 50
      else (forProfile vars name).longestDebounce + 50 - (Text.maxWord + 1)) ∧
    ∀ s o data, configuration s o.envFile = .ok (forProfile vars name) →
      document s o.data = .ok data →
      ((check s o).exitCode = 101 ↔
        s.maxPlaces < Stream.roundUp (forProfile vars name).channelCapacity) ∧
      (maxStreamCapacity < (forProfile vars name).channelCapacity →
        (check s o).exitCode = 101) := by
  have hpos : 1 ≤ (forProfile vars name).channelCapacity := channelCapacity_pos
  obtain ⟨hplaces, hwaits⟩ := forProfile_le_maxWord vars name
  refine ⟨⟨hpos, hplaces, fun m data => ?_⟩, inBounds_iff vars name,
    debounces_lt_settleTime_iff hwaits, settleTime_eq_ite hwaits, fun s o data hc hdata => ?_⟩
  · have hstreams := Form.streams_build m data (forProfile vars name)
    rwa [Nat.max_eq_right hpos] at hstreams
  · have hiff := exitCode_check_iff hc hdata
    exact ⟨hiff, fun hmany => hiff.2 (maxPlaces_lt_of_maxStreamCapacity_lt hmany)⟩

/-- An empty document, under one variable and with the log switched off. -/
def withVariable (key value : String) : Surroundings where
  environment := .ofList [(key, value)]
  fileText _ := none
  input := some "{}"
  log _ := ""
  slotSize := 56

/-- One place more than a stream has. -/
def overcrowded : Surroundings := withVariable capacityKey "9223372036854775808"

/-- A debounce that the settle time cannot exceed. -/
def overdue : Surroundings :=
  withVariable "FIELDRULES_DEPENDENCY_VALID_DEBOUNCE_MS" "18446744073709551615"

theorem breaksOff_overcrowded :
    configuration overcrowded none = .ok (forProfile overcrowded.environment.get? "") ∧
      document overcrowded none = .ok (.ofFields []) ∧
      maxStreamCapacity < (forProfile overcrowded.environment.get? "").channelCapacity ∧
      (check overcrowded .none).exitCode = 101 := by
  have hc : configuration overcrowded none =
      .ok (forProfile overcrowded.environment.get? "") := by rfl
  have hdata : document overcrowded none = .ok (.ofFields []) := by rfl
  have hmany : maxStreamCapacity <
      (forProfile overcrowded.environment.get? "").channelCapacity := by decide +kernel
  exact ⟨hc, hdata, hmany, ((extremes_of_variables overcrowded.environment.get? "").2.2.2.2
    overcrowded .none (.ofFields []) hc hdata).2 hmany⟩

/-- The loader accepts numbers that are out of bounds. With one place more than a stream has, the
command line breaks off, and with the largest debounce it waits for 49 ms. -/
theorem not_inBounds_extremes :
    ¬ (ofVariables overcrowded.environment.get?).InBounds ∧
      run overcrowded [] = Failure.unfitCapacity.result "" ∧
      ¬ (ofVariables overdue.environment.get?).InBounds ∧
      settleTime (ofVariables overdue.environment.get?) = 49 := by
  refine ⟨fun h => absurd h.places_le ?_, ?_, fun h => absurd h.settles ?_, ?_⟩ <;> decide +kernel

end Checker

end ReactiveForm
