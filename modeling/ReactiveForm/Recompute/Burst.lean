import ReactiveForm.Property.Policy
import ReactiveForm.Json.Basic
import ReactiveForm.Stream

/-!
# Bursts of changes

A watcher of a change stream does not react to every value. With a debounce it waits until no
further value has come for that long, and then reacts to the last value of the burst. If it asks for
distinct values, it also ignores a value that equals the one to which it reacted last.

## Shape of a step

A watcher makes one step at a time. It takes the next value if there is one, however many it missed
before. Otherwise, if the time of a burst is up, it yields the last value of the burst. A value that
is there at the moment at which the time is up belongs to the burst still.
-/

namespace ReactiveForm

/-- What a watcher is waiting for. -/
inductive BurstPhase where
  /-- For the first value of a burst. -/
  | idle
  /-- For the end of a burst, at which the latest value is yielded. -/
  | gathering (latest : Json) (deadline : Nat)
  /-- For nothing: the stream has ended. -/
  | ended
deriving Inhabited

/-- A watcher of a change stream. -/
structure Watcher where
  /-- The receiver of the stream. -/
  receiver : Nat
  /-- The debounce and whether to ask for distinct values. -/
  settings : ChangeSettings
  /-- The value that was yielded last. -/
  last : Option Json
  /-- What the watcher is waiting for. -/
  phase : BurstPhase
deriving Inhabited

namespace Watcher

/-- A watcher that starts now. -/
def create (stream : Stream Json) (settings : ChangeSettings) : Watcher :=
  ⟨stream.subscribe, settings, none, .idle⟩

/-- Whether a value equals the one that was yielded last and is ignored for that. -/
def ignores (w : Watcher) (v : Json) : Bool := w.settings.distinct && w.last.any (· == v)

/-- Yield a value, unless it is ignored. -/
def yield (w : Watcher) (v : Json) : Option Json × Watcher :=
  if w.ignores v then (none, { w with phase := .idle })
  else (some v, { w with phase := .idle, last := some v })

/-- Take a value of the stream. -/
def take (w : Watcher) (now : Nat) (v : Json) (receiver : Nat) : Option Json × Watcher :=
  let w := { w with receiver }
  if w.settings.debounce = 0 then w.yield v
  else (none, { w with phase := .gathering v (now + w.settings.debounce) })

/-- Make one step. The result is the value that is yielded, if any, and the watcher behind the step;
there is none if the watcher has to wait. -/
def step? (w : Watcher) (now : Nat) (stream : Stream Json) : Option (Option Json × Watcher) :=
  match w.phase with
  | .ended => none
  | .idle =>
    match stream.next? w.receiver with
    | some (v, receiver) => some (w.take now v receiver)
    | none => if stream.closed then some (none, { w with phase := .ended }) else none
  | .gathering latest deadline =>
    match stream.next? w.receiver with
    | some (v, receiver) => some (w.take now v receiver)
    | none =>
      if stream.closed then some (none, { w with phase := .ended })
      else if deadline ≤ now then some (w.yield latest)
      else none

/-- When the watcher can make a step without a further value. -/
def deadline? (w : Watcher) : Option Nat :=
  match w.phase with
  | .gathering _ deadline => some deadline
  | _ => none

/-- A bound on the steps that the watcher can make, each of them counted `perValue` times if it
takes a value and `perYield` times if it ends a burst. -/
def work (w : Watcher) (stream : Stream Json) (perValue perYield : Nat) : Nat :=
  match w.phase with
  | .ended => 0
  | .idle => perValue * stream.unread w.receiver + 1
  | .gathering _ _ => perValue * stream.unread w.receiver + perYield + 1

end Watcher

end ReactiveForm
