/-!
# Change streams

A stream carries values from one sender to any number of receivers. It keeps only the latest values,
as many as its capacity says, so that a receiver that falls behind misses the older ones. Such a
receiver is told how many it missed and goes on with the oldest value that is still kept: the newest
value is never lost.

## Shape of a stream

The values are numbered from zero in the order in which they were sent. A receiver is the number of
the value that it will receive next, and subscribing means to start behind the newest value. A
closed stream still hands out what it keeps.
-/

namespace ReactiveForm

/-- A stream of values. -/
structure Stream (α : Type) where
  /-- How many values the stream keeps. -/
  capacity : Nat
  /-- How many values were sent. -/
  sent : Nat
  /-- The latest values, the oldest one first. -/
  kept : List α
  /-- Whether no further value will be sent. -/
  closed : Bool
deriving Inhabited

/-- What a receiver gets from a stream. -/
inductive Received (α : Type) where
  /-- The next value. -/
  | value (v : α)
  /-- The number of values that were missed. -/
  | lagged (n : Nat)
  /-- Nothing: no further value will come. -/
  | closed
deriving DecidableEq, Inhabited

namespace Stream

variable {α : Type}

/-- The least power of two that is not below a number. -/
def roundUp (n : Nat) : Nat := if n ≤ 1 then 1 else Nat.pow 2 (Nat.log2 (n - 1) + 1)

/-- A stream without values that keeps at least the given number of them. -/
def ofCapacity (n : Nat) : Stream α := ⟨roundUp n, 0, [], false⟩

/-- Send a value. -/
def send (s : Stream α) (v : α) : Stream α :=
  { s with
    sent := s.sent + 1
    kept := (s.kept ++ [v]).drop (s.kept.length + 1 - s.capacity) }

/-- Send no further value. -/
def close (s : Stream α) : Stream α := { s with closed := true }

/-- The receiver that starts now. -/
def subscribe (s : Stream α) : Nat := s.sent

/-- The number of the oldest value that is kept. -/
def oldest (s : Stream α) : Nat := s.sent - s.kept.length

/-- The next value that a receiver gets, however many it missed before it, and the receiver behind
that value. -/
def next? (s : Stream α) (receiver : Nat) : Option (α × Nat) :=
  let start := max receiver s.oldest
  s.kept[start - s.oldest]?.map fun v => (v, start + 1)

/-- How many values a receiver can still get. -/
def unread (s : Stream α) (receiver : Nat) : Nat := s.sent - max receiver s.oldest

/-- Everything that a receiver gets, and the receiver behind it. -/
def drain (s : Stream α) (receiver : Nat) : List (Received α) × Nat :=
  let lag := if receiver < s.oldest then [.lagged (s.oldest - receiver)] else []
  let values := (s.kept.drop (receiver - s.oldest)).map .value
  let ending := if s.closed then [.closed] else []
  (lag ++ values ++ ending, max receiver s.sent)

end Stream

end ReactiveForm
