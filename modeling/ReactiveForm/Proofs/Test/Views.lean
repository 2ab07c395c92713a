import ReactiveForm.Form.Control
import ReactiveForm.Proofs.Keyed
import ReactiveForm.Proofs.Rule.Groups
import ReactiveForm.Proofs.Test.Distinct

/-!
# Views of results

The views of a list of results are read off the list itself, whatever is in it: a result that is
read from a document may be failed and skipped, or passed and still have a message. The results that
passed and those that failed are the list taken apart, each in its order (`Interleaves`), and the
messages of the failed ones are listed by their first occurrences (`Firsts`).

A control shows the messages of its checks and of its inquiries as one such list, although each of
the two is listed without repetitions first (`ControlState.messages_eq`). The messages of callers
come behind it, in the order of their keys and with repetitions, since each stands under a key of
its own.

Results that come from running a test are never failed and skipped, and have a message only if they
are failures (`TestResult.regular_ofOutcome`).
-/

namespace ReactiveForm

/-- A list is made up of two lists, each of them in its order. -/
inductive Interleaves {α : Type} : List α → List α → List α → Prop where
  | nil : Interleaves [] [] []
  | left {xs ys all : List α} (x : α) (h : Interleaves xs ys all) :
      Interleaves (x :: xs) ys (x :: all)
  | right {xs ys all : List α} (y : α) (h : Interleaves xs ys all) :
      Interleaves xs (y :: ys) (y :: all)

theorem interleaves_filter {α : Type} (p : α → Bool) (all : List α) :
    Interleaves (all.filter p) (all.filter fun a => !p a) all := by
  induction all with
  | nil => exact .nil
  | cons a all ih =>
      cases hp : p a with
      | true =>
          rw [List.filter_cons_of_pos hp, List.filter_cons_of_neg (by simp [hp])]
          exact .left a ih
      | false =>
          rw [List.filter_cons_of_neg (by simp [hp]), List.filter_cons_of_pos (by simp [hp])]
          exact .right a ih

namespace TestResults

variable {r : TestResults}

theorem passed_iff_failedResults : r.passed = true ↔ r.failedResults = [] := by
  rw [passed, failedResults, List.all_eq_true, List.filter_eq_nil_iff]
  simp

/-- The messages of the failed results, in their order and with repetitions. -/
def failureMessages (r : TestResults) : List String := r.failedResults.filterMap TestResult.message

theorem head?_messages (r : TestResults) : r.messages.head? = r.message? := by
  rw [messages, head?_distinct, List.head?_filterMap, message?]

/-- The views of a list of results belong together. -/
structure Coherent (r : TestResults) : Prop where
  /-- The list is made up of the results that passed and of those that failed, in order. -/
  parted : Interleaves r.passedResults r.failedResults r.results
  /-- Those that passed have passed. -/
  passes : ∀ t ∈ r.passedResults, t.passed = true
  /-- Those that failed have not. -/
  failures : ∀ t ∈ r.failedResults, t.passed = false
  /-- The whole has passed if nothing failed. -/
  passed : r.passed = true ↔ r.failedResults = []
  /-- The messages of the failures are listed once each, in order of first occurrence. -/
  messages : ∀ listed, Firsts r.failureMessages listed ↔ listed = r.messages
  /-- The message is the first of them. -/
  message : r.message? = r.messages.head?

theorem coherent (r : TestResults) : r.Coherent where
  parted := interleaves_filter TestResult.passed r.results
  passes _ ht := (List.mem_filter.1 ht).2
  failures _ ht := by simpa using (List.mem_filter.1 ht).2
  passed := passed_iff_failedResults
  messages _ := firsts_iff_eq_distinct
  message := (head?_messages r).symm

end TestResults

namespace ControlState

variable {s : ControlState}

/-! ## Messages of a control -/

/-- The messages of callers are in ascending order of their keys. -/
def Ordered (s : ControlState) : Prop := Keyed.Ascending s.externalErrors

theorem ordered_initial : initial.Ordered := List.Pairwise.nil

theorem Ordered.setExternal (h : s.Ordered) (key message : String) :
    (s.setExternal key message).Ordered := Keyed.Ascending.insert h

theorem Ordered.clearExternal (h : s.Ordered) (key : String) : (s.clearExternal key).Ordered :=
  List.Pairwise.filter _ h

/-- The messages of all failures, of the checks before the inquiries, with repetitions. -/
def failureMessages (s : ControlState) : List String :=
  (s.syncErrors.toList ++ s.asyncErrors.toList).flatMap TestResults.failureMessages

/-- Repetitions are left out of the messages of checks and inquiries as a whole. -/
theorem messages_eq (s : ControlState) :
    s.messages = distinct s.failureMessages ++ s.externalErrors.map Prod.snd := by
  rw [failureMessages, ← distinct_flatMap_distinct]
  rfl

/-- The texts are the messages of the callers, one for each key, in ascending order of the keys. -/
def ListsExternal (s : ControlState) (texts : List String) : Prop :=
  ∃ keys : List String, keys.Pairwise (· < ·) ∧ (∀ key, key ∈ keys ↔ s.hasExternal key = true) ∧
    List.Forall₂ (fun key text => s.externalErrors.lookup key = some text) keys texts

theorem listsExternal_of_ordered (h : s.Ordered) :
    s.ListsExternal (s.externalErrors.map Prod.snd) := by
  refine ⟨s.externalErrors.map Prod.fst, List.pairwise_map.2 h, fun key => ?_, ?_⟩
  · rw [hasExternal, List.any_eq_true, List.mem_map]
    exact exists_congr fun e => and_congr_right fun _ => beq_iff_eq.symm
  · rw [List.forall₂_map_left_iff, List.forall₂_map_right_iff, List.forall₂_same]
    exact fun e he => Keyed.lookup_of_mem h.nodup_keys he

end ControlState

namespace TestResult

/-! ## Results of runs -/

/-- The result is skipped only if it has passed, and has a message only if it has not. -/
structure Regular (r : TestResult) : Prop where
  passed_of_skipped : r.skipped = true → r.passed = true
  failed_of_message : ∀ message, r.message = some message → r.passed = false

theorem regular_ofOutcome (t : Test) (outcome : Outcome) : (ofOutcome t outcome).Regular := by
  cases outcome with
  | passed => exact ⟨fun _ => rfl, nofun⟩
  | failed => exact ⟨nofun, fun _ _ => rfl⟩
  | skipped => exact ⟨fun _ => rfl, nofun⟩

theorem regular_resultBy (t : Test) (outcome : RuleSet → Outcome) :
    (t.resultBy outcome).Regular := by
  unfold Test.resultBy
  split <;> exact regular_ofOutcome t _

end TestResult

/-- The views of results and the messages of controls belong together, also where the results come
from elsewhere. The messages of callers are kept in order, and the results that runs of tests have
are regular. -/
theorem views_cohere :
    (∀ r : TestResults, r.Coherent) ∧
    (∀ s : ControlState, s.Ordered → ∃ engine external, s.messages = engine ++ external ∧
      Firsts s.failureMessages engine ∧ s.ListsExternal external) ∧
    (ControlState.initial.Ordered ∧ ∀ s : ControlState, s.Ordered →
      (∀ key message, (s.setExternal key message).Ordered) ∧
        ∀ key, (s.clearExternal key).Ordered) ∧
    (∀ value root t, (Test.runChecks value root t).result.Regular ∧
      (Test.runInquiries value root t).result.Regular) := by
  refine ⟨TestResults.coherent, fun s h => ?_,
    ⟨ControlState.ordered_initial, fun s h => ⟨h.setExternal, h.clearExternal⟩⟩,
    fun value root t => ⟨?_, ?_⟩⟩
  · exact ⟨_, _, s.messages_eq, firsts_iff_eq_distinct.2 rfl,
      ControlState.listsExternal_of_ordered h⟩
  · rw [Test.result_runChecks]
    exact TestResult.regular_resultBy t _
  · rw [Test.result_runInquiries]
    exact TestResult.regular_resultBy t _

/-- A control with results that no run has, one of them failed and skipped and one passed with a
message, and with messages of callers that occur elsewhere. -/
def crowdedState : ControlState :=
  let checks : TestResults := ⟨[⟨none, some "b", false, true⟩, ⟨none, some "a", true, false⟩,
    ⟨some "n", some "c", false, false⟩, ⟨none, some "b", false, false⟩, ⟨none, none, false, false⟩]⟩
  let inquiries : TestResults := ⟨[⟨none, some "c", false, false⟩, ⟨none, some "d", false, false⟩]⟩
  (({ ControlState.initial with syncErrors := some checks, asyncErrors := some inquiries }.setExternal
    "z" "c").setExternal "y" "z").setExternal "x" "c"

/-- What callers say is not left out when the engine or another caller says it, too. -/
theorem views_cohere_crowdedState :
    crowdedState.messages = ["b", "c", "d", "c", "z", "c"] ∧
      Firsts crowdedState.failureMessages ["b", "c", "d"] ∧
      crowdedState.ListsExternal ["c", "z", "c"] := by
  have hmessages : crowdedState.messages = ["b", "c", "d"] ++ ["c", "z", "c"] := by decide +kernel
  have hordered : crowdedState.Ordered :=
    ((ControlState.ordered_initial.setExternal _ _).setExternal _ _).setExternal _ _
  obtain ⟨-, hviews, -⟩ := views_cohere
  obtain ⟨engine, external, heq, hfirsts, hlists⟩ := hviews crowdedState hordered
  obtain rfl : engine = ["b", "c", "d"] :=
    (firsts_iff_eq_distinct.1 hfirsts).trans (by decide +kernel)
  obtain rfl : external = ["c", "z", "c"] := List.append_cancel_left (heq.symm.trans hmessages)
  exact ⟨hmessages, hfirsts, hlists⟩

end ReactiveForm
