import ReactiveForm.Proofs.Recompute.Gaps
import ReactiveForm.Proofs.Recompute.Work
import ReactiveForm.Proofs.Stream.Contents

/-!
# What a watcher makes of a stream

A watcher works beside a sender and a clock (`Vigil`). Values are sent at any time, and the watcher
makes its steps in between, in whatever order. Only the clock has to wait: it does not go on while
the watcher can make a step, nor beyond the end of a burst that the watcher is waiting for.

With a debounce the watcher then yields one value for each burst of values that were sent, namely
the last one, and it does so when the debounce is over after that value. How many of the values of a
burst it has missed makes no difference. Without a debounce it yields every value that it has not
missed. If it asks for distinct values, those that equal the one that was yielded before are left
out (`yields_eq_of_run`).

## Shape of the proof

What the watcher has received so far is a part of what was sent, and the rest was sent at the
present moment (`Tracks`). Of the bursts in the part that was received, all but the last one are
over for certain; the last one is if the watcher is idle, and otherwise it is the one that the
watcher is gathering (`Gathers`). Each act keeps this, so a watcher that has to wait has yielded
what the bursts that are over ask for.
-/

namespace ReactiveForm

/-! ## What is asked for -/

namespace ChangeSettings

variable (settings : ChangeSettings)

/-- What is passed on of values that come one after the other: all of them, except that a value that
equals the one that was passed on before is left out if distinct values are asked for. -/
def pass : Option Json → List (Nat × Json) → List (Nat × Json)
  | _, [] => []
  | last, (moment, v) :: rest =>
    if settings.distinct && last.any (· == v) then pass last rest
    else (moment, v) :: pass (some v) rest

/-- The last values of the bursts in which values were sent, each with the moment at which the
debounce is over after it. -/
def outcomes (sends : List (Nat × Json)) : List (Nat × Json) :=
  (burstEnds settings.debounce Prod.fst sends).map fun send =>
    (send.1 + settings.debounce, send.2)

/-- No two values were sent one after the other with just the debounce between them. -/
def Apart (sends : List (Nat × Json)) : Prop :=
  sends.IsChain fun a b => b.1 ≠ a.1 + settings.debounce

variable {settings}

/-- A further value is compared with the one that was passed on last. -/
theorem pass_append (last : Option Json) (values : List (Nat × Json)) (moment : Nat) (v : Json) :
    settings.pass last (values ++ [(moment, v)]) = settings.pass last values ++
      if settings.distinct &&
          (((settings.pass last values).getLast?.map Prod.snd).or last).any (· == v) then []
      else [(moment, v)] := by
  induction values generalizing last with
  | nil =>
      simp only [pass, List.nil_append, List.getLast?_nil, Option.map_none, Option.none_or]
      rfl
  | cons first values ih =>
      obtain ⟨t, u⟩ := first
      rw [List.cons_append, pass, pass]
      split
      · exact ih last
      · rw [ih (some u), List.cons_append, List.getLast?_cons]
        cases (settings.pass (some u) values).getLast? <;> rfl

end ChangeSettings

/-! ## A watcher at work -/

/-- A watcher of a stream over time, with all that was sent since it began and all that it has
yielded, each with the moment. -/
structure Vigil where
  /-- The stream. -/
  stream : Stream Json
  /-- Its watcher. -/
  watcher : Watcher
  /-- The present moment. -/
  clock : Nat
  /-- What was sent. -/
  sends : List (Nat × Json)
  /-- What the watcher has yielded. -/
  yields : List (Nat × Json)
  /-- How many values the watcher has missed. -/
  missed : Nat

namespace Vigil

/-- What can happen. -/
inductive Act where
  /-- A value is sent. -/
  | send (v : Json)
  /-- The watcher makes a step. -/
  | poll
  /-- Time passes. -/
  | wait (later : Nat)

/-- A watcher that starts now. -/
def begin (stream : Stream Json) (settings : ChangeSettings) (clock : Nat) : Vigil :=
  ⟨stream, .create stream settings, clock, [], [], 0⟩

/-- The watcher has to wait. -/
def isQuiet (w : Vigil) : Bool := (w.watcher.step? w.clock w.stream).isNone

/-- What an act leads to. Time passes only while the watcher has to wait, and not beyond the moment
at which it can go on. -/
def act? (w : Vigil) : Act → Option Vigil
  | .send v => some { w with stream := w.stream.send v, sends := w.sends ++ [(w.clock, v)] }
  | .poll => (w.watcher.step? w.clock w.stream).map fun (y, watcher) =>
    { w with
      watcher
      yields := w.yields ++ (y.map fun v => (w.clock, v)).toList
      missed := w.missed + (w.stream.oldest - w.watcher.receiver) }
  | .wait later =>
    if w.isQuiet && decide (w.clock < later) && w.watcher.deadline?.all (later ≤ ·) then
      some { w with clock := later }
    else none

/-- What several acts lead to, one after the other. -/
def run (w : Vigil) (acts : List Act) : Option Vigil := acts.foldlM act? w

variable {w w' : Vigil} {settings : ChangeSettings} {earlier fresh : List Json}
  {handled settled : List (Nat × Json)}

/-! ## Steps of the watcher -/

/-- A step of a watcher of an open stream: it takes a value and waits for the end of the burst, or
it is done with a value, which it yields unless it ignores it. -/
theorem poll_cases (hopen : w.stream.closed = false) (hact : w.act? .poll = some w') :
    ∃ v receiver,
      (w.stream.next? w.watcher.receiver = some (v, receiver) ∧ w.watcher.settings.debounce ≠ 0 ∧
        w' = { w with
          watcher := { w.watcher with
            receiver, phase := .gathering v (w.clock + w.watcher.settings.debounce) }
          missed := w.missed + (w.stream.oldest - w.watcher.receiver) }) ∨
      (w.watcher.Offers w.clock w.stream v receiver ∧
        w' = { w with
          watcher := { w.watcher with
            receiver, phase := .idle
            last := if w.watcher.ignores v then w.watcher.last else some v }
          yields := w.yields ++ if w.watcher.ignores v then [] else [(w.clock, v)]
          missed := w.missed + (w.stream.oldest - w.watcher.receiver) }) := by
  obtain ⟨⟨y, watcher⟩, hstep, rfl⟩ := Option.map_eq_some_iff.1 hact
  cases Watcher.move_of_step? hstep with
  | gather hnext hpos => exact ⟨_, _, .inl ⟨hnext, hpos, by simp⟩⟩
  | yield hoffer hnew => exact ⟨_, _, .inr ⟨hoffer, by simp [hnew]⟩⟩
  | ignore hoffer hold => exact ⟨_, _, .inr ⟨hoffer, by simp [hold]⟩⟩
  | finish hclosed =>
      rw [hopen] at hclosed
      cases hclosed

/-! ## What was received -/

/-- The watcher has received a part of what was sent, and all the rest was sent just now. -/
structure Tracks (earlier : List Json) (settings : ChangeSettings) (w : Vigil)
    (handled : List (Nat × Json)) (fresh : List Json) : Prop where
  sound : w.stream.Sound
  isOpen : w.stream.closed = false
  settings : w.watcher.settings = settings
  not_ended : w.watcher.phase ≠ .ended
  sends : w.sends = handled ++ fresh.map fun v => (w.clock, v)
  carries : w.stream.Carries (earlier ++ w.sends.map Prod.snd)
  receiver : w.watcher.receiver = earlier.length + handled.length
  last : w.watcher.last = w.yields.getLast?.map Prod.snd

namespace Tracks

variable (h : w.Tracks earlier settings handled fresh)

include h

theorem values : earlier ++ w.sends.map Prod.snd = earlier ++ handled.map Prod.snd ++ fresh := by
  rw [h.sends, List.map_append, List.map_map, List.append_assoc]
  exact congrArg _ (congrArg _ (List.map_id fresh))

theorem sent : w.stream.sent = w.watcher.receiver + fresh.length := by
  rw [← h.carries.length, h.values, h.receiver]
  simp [Nat.add_assoc]

/-- The watcher can take a value if there is one that was sent just now. -/
theorem fresh_eq_nil (hnext : w.stream.next? w.watcher.receiver = none) : fresh = [] := by
  have hsent := (Stream.next?_eq_none_iff h.sound).1 hnext
  rw [h.sent] at hsent
  exact List.length_eq_zero_iff.1 (by omega)

/-- The watcher takes one of the values that were sent just now. It skips those in front of it, as
many as it has missed. -/
theorem exists_taken {v : Json} {receiver : Nat}
    (hnext : w.stream.next? w.watcher.receiver = some (v, receiver)) :
    ∃ skipped rest, fresh = skipped ++ v :: rest ∧
      skipped.length = w.stream.oldest - w.watcher.receiver ∧
      receiver = w.watcher.receiver + (skipped.length + 1) := by
  obtain ⟨rfl, hget⟩ := h.carries.of_next? hnext
  have hplace : max w.watcher.receiver w.stream.oldest =
      (earlier ++ handled.map Prod.snd).length + (w.stream.oldest - w.watcher.receiver) := by
    rw [List.length_append, List.length_map, ← h.receiver]
    omega
  rw [h.values, hplace, List.getElem?_append_right (Nat.le_add_right _ _),
    Nat.add_sub_cancel_left] at hget
  obtain ⟨hlt, hv⟩ := List.getElem?_eq_some_iff.1 hget
  refine ⟨fresh.take (w.stream.oldest - w.watcher.receiver),
    fresh.drop (w.stream.oldest - w.watcher.receiver + 1), ?_, List.length_take_of_le hlt.le, ?_⟩
  · rw [← hv, ← List.drop_eq_getElem_cons hlt, List.take_append_drop]
  · rw [List.length_take_of_le hlt.le]
    omega

theorem send (v : Json) :
    Tracks earlier settings
      { w with stream := w.stream.send v, sends := w.sends ++ [(w.clock, v)] } handled
      (fresh ++ [v]) where
  sound := h.sound.send v
  isOpen := h.isOpen
  settings := h.settings
  not_ended := h.not_ended
  sends := by simp [h.sends]
  carries := by
    rw [List.map_append, ← List.append_assoc]
    exact h.carries.send h.sound v
  receiver := h.receiver
  last := h.last

theorem wait (hfresh : fresh = []) (later : Nat) :
    Tracks earlier settings { w with clock := later } handled [] where
  sound := h.sound
  isOpen := h.isOpen
  settings := h.settings
  not_ended := h.not_ended
  sends := h.sends.trans (by rw [hfresh]; rfl)
  carries := h.carries
  receiver := h.receiver
  last := h.last

end Tracks

theorem tracks_begin {stream : Stream Json} (hs : stream.Sound) (hopen : stream.closed = false)
    (hcarries : stream.Carries earlier) (settings : ChangeSettings) (clock : Nat) :
    (begin stream settings clock).Tracks earlier settings [] [] where
  sound := hs
  isOpen := hopen
  settings := rfl
  not_ended := nofun
  sends := rfl
  carries := (List.append_nil earlier).symm ▸ hcarries
  receiver := hcarries.length.symm
  last := rfl

/-- What was yielded when a value is passed on as well, unless it is ignored. -/
def passOn (w : Vigil) (v : Json) : List (Nat × Json) :=
  w.yields ++ if w.watcher.ignores v then [] else [(w.clock, v)]

/-- A step of the watcher: the values that it takes or skips have been received after it. -/
inductive Polled (earlier : List Json) (settings : ChangeSettings) (w : Vigil)
    (handled : List (Nat × Json)) (fresh : List Json) (w' : Vigil) : Prop where
  /-- A value is taken, and the watcher waits for the end of the burst. -/
  | gather {skipped rest : List Json} {v : Json} (hfresh : fresh = skipped ++ v :: rest)
      (hpos : settings.debounce ≠ 0)
      (htracks : w'.Tracks earlier settings
        (handled ++ (skipped ++ [v]).map fun v => (w.clock, v)) rest)
      (hphase : w'.watcher.phase = .gathering v (w.clock + settings.debounce))
      (hyields : w'.yields = w.yields)
  /-- A value is taken and passed on. -/
  | atOnce {skipped rest : List Json} {v : Json} (hfresh : fresh = skipped ++ v :: rest)
      (hzero : settings.debounce = 0)
      (htracks : w'.Tracks earlier settings
        (handled ++ (skipped ++ [v]).map fun v => (w.clock, v)) rest)
      (hphase : w'.watcher.phase = .idle) (hyields : w'.yields = w.passOn v)
      (hmissed : w'.missed = w.missed + skipped.length)
  /-- A burst is over, and its last value is passed on. -/
  | burst {v : Json} {deadline : Nat} (hfresh : fresh = [])
      (hgathering : w.watcher.phase = .gathering v deadline) (hdue : deadline ≤ w.clock)
      (htracks : w'.Tracks earlier settings handled []) (hphase : w'.watcher.phase = .idle)
      (hyields : w'.yields = w.passOn v)

private theorem last_passOn (hlast : w.watcher.last = w.yields.getLast?.map Prod.snd) (v : Json) :
    (if w.watcher.ignores v then w.watcher.last else some v) =
      (w.passOn v).getLast?.map Prod.snd := by
  unfold passOn
  split
  · rw [List.append_nil, hlast]
  · rw [List.getLast?_concat]
    rfl

namespace Tracks

variable (h : w.Tracks earlier settings handled fresh)

include h

/-- The watcher receives some of what was sent just now. -/
private theorem received {skipped rest : List Json} {v : Json}
    (hfresh : fresh = skipped ++ v :: rest)
    (hstream : w'.stream = w.stream) (hclock : w'.clock = w.clock) (hsends : w'.sends = w.sends)
    (hsettings : w'.watcher.settings = w.watcher.settings) (hphase : w'.watcher.phase ≠ .ended)
    (hreceiver : w'.watcher.receiver = w.watcher.receiver + (skipped.length + 1))
    (hlast : w'.watcher.last = w'.yields.getLast?.map Prod.snd) :
    w'.Tracks earlier settings (handled ++ (skipped ++ [v]).map fun v => (w.clock, v)) rest where
  sound := hstream ▸ h.sound
  isOpen := hstream ▸ h.isOpen
  settings := hsettings.trans h.settings
  not_ended := hphase
  sends := by simp [hsends, hclock, h.sends, hfresh]
  carries := hstream ▸ hsends ▸ h.carries
  receiver := by
    rw [hreceiver, h.receiver, List.length_append, List.length_map, List.length_append,
      List.length_singleton, Nat.add_assoc]
  last := hlast

theorem polled (hact : w.act? .poll = some w') : Polled earlier settings w handled fresh w' := by
  obtain ⟨v, receiver, ⟨hnext, hpos, rfl⟩ | ⟨hoffer, rfl⟩⟩ := poll_cases h.isOpen hact
  · obtain ⟨skipped, rest, hfresh, -, rfl⟩ := h.exists_taken hnext
    exact .gather hfresh (h.settings ▸ hpos)
      (h.received hfresh rfl rfl rfl rfl (by simp) rfl h.last) (by rw [h.settings]) rfl
  · cases hoffer with
    | value hnext hzero =>
        obtain ⟨skipped, rest, hfresh, hskipped, rfl⟩ := h.exists_taken hnext
        exact .atOnce hfresh (h.settings ▸ hzero)
          (h.received hfresh rfl rfl rfl rfl (by simp) rfl (last_passOn h.last v)) rfl rfl
          (congrArg (w.missed + ·) hskipped.symm)
    | burst hphase hdue hnone =>
        have hnil := h.fresh_eq_nil hnone
        refine .burst hnil hphase hdue ?_ rfl rfl
        exact ⟨h.sound, h.isOpen, h.settings, nofun, by rw [h.sends, hnil], h.carries, h.receiver,
          last_passOn h.last v⟩

/-- A watcher that has to wait has received all that was sent, and the burst that it is gathering is
not over. -/
theorem of_isQuiet (hquiet : w.isQuiet = true) :
    fresh = [] ∧ ∀ deadline ∈ w.watcher.deadline?, w.clock < deadline := by
  have hstep := Option.isNone_iff_eq_none.1 hquiet
  unfold Watcher.step? at hstep
  unfold Watcher.deadline?
  cases hphase : w.watcher.phase with
  | ended => exact absurd hphase h.not_ended
  | idle =>
      cases hnext : w.stream.next? w.watcher.receiver with
      | none => exact ⟨h.fresh_eq_nil hnext, nofun⟩
      | some next => simp [hphase, hnext] at hstep
  | gathering latest deadline =>
      cases hnext : w.stream.next? w.watcher.receiver with
      | none =>
          refine ⟨h.fresh_eq_nil hnext, fun t ht => ?_⟩
          cases ht
          simpa [hphase, hnext, h.isOpen] using hstep
      | some next => simp [hphase, hnext] at hstep

end Tracks

/-! ## Bursts -/

/-- What a watcher that is gathering a burst will pass on, with the moment. -/
def expected (w : Vigil) : List (Nat × Json) :=
  match w.watcher.phase with
  | .gathering latest deadline => [(deadline, latest)]
  | _ => []

/-- Of the bursts that the watcher has received, some are over for certain, and it has passed on
what they ask for. The last one is another one while the watcher is gathering. -/
structure Gathers (settings : ChangeSettings) (w : Vigil) (handled settled : List (Nat × Json)) :
    Prop where
  outcomes : settings.outcomes handled = settled ++ w.expected
  settled_le : ∀ a ∈ settled, a.1 ≤ w.clock
  le_expected : ∀ a ∈ w.expected, w.clock ≤ a.1
  yields : w.yields = settings.pass none settled

private theorem getLast_now (now : Nat) (skipped : List Json) (v : Json)
    (hne : ((skipped ++ [v]).map fun v => (now, v)) ≠ []) :
    ((skipped ++ [v]).map fun v => (now, v)).getLast hne = (now, v) := by simp

/-- What is received too late for the last burst asks for a value of its own. -/
private theorem outcomes_append_of_le (hpos : settings.debounce ≠ 0) {now : Nat}
    (hlate : ∀ a ∈ handled.getLast?, a.1 + settings.debounce ≤ now) (skipped : List Json)
    (v : Json) :
    settings.outcomes (handled ++ (skipped ++ [v]).map fun v => (now, v)) =
      settings.outcomes handled ++ [(now + settings.debounce, v)] := by
  have hne : ((skipped ++ [v]).map fun v => (now, v)) ≠ [] := by simp
  have hnow : ∀ b ∈ (skipped ++ [v]).map fun v => (now, v), b.1 = now :=
    List.forall_mem_map.2 fun _ _ => rfl
  rw [ChangeSettings.outcomes, burstEnds_append_of_le_now hpos hnow hne hlate, List.map_append,
    getLast_now]
  rfl

/-- What is received in time takes the place of the end of the last burst. -/
private theorem outcomes_append_of_lt (hpos : settings.debounce ≠ 0) {now : Nat}
    (hearly : ∀ a ∈ handled.getLast?, now < a.1 + settings.debounce) (skipped : List Json)
    (v : Json) :
    settings.outcomes (handled ++ (skipped ++ [v]).map fun v => (now, v)) =
      (settings.outcomes handled).dropLast ++ [(now + settings.debounce, v)] := by
  have hne : ((skipped ++ [v]).map fun v => (now, v)) ≠ [] := by simp
  have hnow : ∀ b ∈ (skipped ++ [v]).map fun v => (now, v), b.1 = now :=
    List.forall_mem_map.2 fun _ _ => rfl
  rw [ChangeSettings.outcomes, burstEnds_append_of_now_lt hpos hnow hne hearly,
    List.map_append, getLast_now, List.map_dropLast]
  rfl

private theorem getLast?_outcomes (settings : ChangeSettings) (sends : List (Nat × Json)) :
    (settings.outcomes sends).getLast? =
      sends.getLast?.map fun send => (send.1 + settings.debounce, send.2) := by
  rw [ChangeSettings.outcomes, List.getLast?_map, getLast?_burstEnds]

theorem gathers_begin (stream : Stream Json) (settings : ChangeSettings) (clock : Nat) :
    Gathers settings (begin stream settings clock) [] [] := ⟨rfl, nofun, nofun, rfl⟩

namespace Gathers

variable (g : Gathers settings w handled settled)

include g

/-- Nothing but the phase of the watcher, the clock and what was yielded counts. -/
theorem congr (hphase : w'.watcher.phase = w.watcher.phase) (hclock : w'.clock = w.clock)
    (hyields : w'.yields = w.yields) : Gathers settings w' handled settled := by
  have hexpected : w'.expected = w.expected := by rw [expected, hphase]; rfl
  exact ⟨hexpected ▸ g.outcomes, hclock ▸ g.settled_le, hexpected ▸ hclock ▸ g.le_expected,
    hyields.trans g.yields⟩

theorem wait {later : Nat} (hle : w.clock ≤ later)
    (hdue : ∀ deadline ∈ w.watcher.deadline?, later ≤ deadline) :
    Gathers settings { w with clock := later } handled settled where
  outcomes := g.outcomes
  settled_le a ha := Nat.le_trans (g.settled_le a ha) hle
  le_expected a ha := by
    unfold expected at ha
    unfold Watcher.deadline? at hdue
    dsimp only at ha
    split at ha
    · next hphase =>
        rw [List.mem_singleton.1 ha]
        exact hdue _ (by rw [hphase]; rfl)
    · cases ha
  yields := g.yields

/-- The last value that was received belongs to a burst that is over, or to the one that is
gathered. -/
theorem cases_getLast? {a : Nat × Json} (ha : a ∈ handled.getLast?) :
    (w.expected = [] ∧ a.1 + settings.debounce ≤ w.clock) ∨
      ((∃ b, w.expected = [b]) ∧ w.clock ≤ a.1 + settings.debounce) := by
  have hlast := getLast?_outcomes settings handled
  rw [ha, g.outcomes] at hlast
  have hle := g.le_expected
  unfold expected at hlast hle ⊢
  split
  · next latest deadline hphase =>
      rw [hphase] at hlast hle
      refine .inr ⟨⟨_, rfl⟩, ?_⟩
      rw [List.getLast?_concat] at hlast
      cases hlast
      exact hle _ (List.mem_singleton_self _)
  · next hphase =>
      refine .inl ⟨rfl, ?_⟩
      split at hlast
      · next latest deadline hgathering => exact absurd hgathering (hphase latest deadline)
      · rw [List.append_nil] at hlast
        exact g.settled_le _ (List.mem_of_getLast? hlast)

/-- A value that is received begins a burst or goes on with the last one. -/
theorem gather (hpos : settings.debounce ≠ 0) {skipped rest : List Json} {v : Json}
    (hapart : settings.Apart (handled ++ (skipped ++ v :: rest).map fun v => (w.clock, v)))
    (hphase : w'.watcher.phase = .gathering v (w.clock + settings.debounce))
    (hclock : w'.clock = w.clock) (hyields : w'.yields = w.yields) :
    Gathers settings w' (handled ++ (skipped ++ [v]).map fun v => (w.clock, v)) settled := by
  have hexpected : w'.expected = [(w.clock + settings.debounce, v)] := by rw [expected, hphase]
  refine ⟨?_, hclock ▸ g.settled_le, ?_, hyields.trans g.yields⟩
  · rw [hexpected]
    by_cases hidle : w.expected = []
    · have houtcomes := g.outcomes
      rw [hidle, List.append_nil] at houtcomes
      rw [← houtcomes]
      refine outcomes_append_of_le hpos (fun a ha => ?_) skipped v
      rcases g.cases_getLast? ha with ⟨-, hle⟩ | ⟨⟨b, hb⟩, -⟩
      · exact hle
      · rw [hidle] at hb
        cases hb
    · have hearly : ∀ a ∈ handled.getLast?, w.clock < a.1 + settings.debounce := fun a ha => by
        rcases g.cases_getLast? ha with ⟨hnil, -⟩ | ⟨-, hle⟩
        · exact absurd hnil hidle
        · -- the values do not come just as the debounce is over
          obtain ⟨b, hb⟩ : ∃ b, ((skipped ++ v :: rest).map fun v => (w.clock, v)).head? = some b :=
            Option.isSome_iff_exists.1 (by simp)
          have hne := (List.isChain_append.1 hapart).2.2 a ha b hb
          obtain ⟨u, -, rfl⟩ := List.mem_map.1 (List.mem_of_mem_head? hb)
          exact Nat.lt_of_le_of_ne hle hne
      rw [outcomes_append_of_lt hpos hearly, g.outcomes]
      unfold expected at hidle ⊢
      split
      · rw [List.dropLast_concat]
      · next hphase => 
          split at hidle
          · next latest deadline hgathering => exact absurd hgathering (hphase latest deadline)
          · exact absurd rfl hidle
  · rw [hexpected, hclock]
    exact List.forall_mem_singleton.2 (Nat.le_add_right _ _)

/-- A burst that is over joins the others, and its last value is passed on. -/
theorem burst {v : Json} {deadline : Nat} (hgathering : w.watcher.phase = .gathering v deadline)
    (hdue : deadline ≤ w.clock) (hsettings : w.watcher.settings = settings)
    (hlast : w.watcher.last = w.yields.getLast?.map Prod.snd) (hphase : w'.watcher.phase = .idle)
    (hclock : w'.clock = w.clock) (hyields : w'.yields = w.passOn v) :
    Gathers settings w' handled (settled ++ [(w.clock, v)]) := by
  have hbefore : w.expected = [(deadline, v)] := by rw [expected, hgathering]
  have hafter : w'.expected = [] := by rw [expected, hphase]
  have hnow : deadline = w.clock :=
    Nat.le_antisymm hdue (g.le_expected _ (hbefore ▸ List.mem_singleton_self _))
  refine ⟨?_, ?_, by rw [hafter]; exact nofun, ?_⟩
  · rw [hafter, g.outcomes, hbefore, hnow, List.append_nil]
  · rw [hclock]
    exact List.forall_mem_append.2 ⟨g.settled_le, List.forall_mem_singleton.2 (Nat.le_refl _)⟩
  · rw [hyields, passOn, ChangeSettings.pass_append, ← g.yields, Watcher.ignores, hsettings, hlast,
      Option.or_none]

end Gathers

/-! ## Acts -/

/-- What the acts so far have led to. -/
structure Kept (earlier : List Json) (settings : ChangeSettings) (w : Vigil)
    (handled : List (Nat × Json)) (fresh : List Json) : Prop where
  tracks : w.Tracks earlier settings handled fresh
  /-- With a debounce the bursts are gathered. -/
  gathers : settings.debounce ≠ 0 → settings.Apart w.sends →
    ∃ settled, Gathers settings w handled settled
  /-- Without one every value is passed on at once. -/
  atOnce : settings.debounce = 0 → w.watcher.phase = .idle ∧
    (w.missed = 0 → w.yields = settings.pass none handled)

theorem Kept.poll (h : Kept earlier settings w handled fresh) (hact : w.act? .poll = some w') :
    ∃ handled fresh, Kept earlier settings w' handled fresh := by
  obtain ⟨hclock, hsends⟩ : w'.clock = w.clock ∧ w'.sends = w.sends := by
    obtain ⟨-, -, rfl⟩ := Option.map_eq_some_iff.1 hact
    exact ⟨rfl, rfl⟩
  cases h.tracks.polled hact with
  | @gather skipped rest v hfresh hpos htracks hphase hyields =>
      refine ⟨_, _, htracks, fun _ hapart => ?_, fun hzero => absurd hzero hpos⟩
      rw [hsends] at hapart
      obtain ⟨settled, g⟩ := h.gathers hpos hapart
      rw [h.tracks.sends, hfresh] at hapart
      exact ⟨settled, g.gather hpos hapart hphase hclock hyields⟩
  | @atOnce skipped rest v hfresh hzero htracks hphase hyields hmissed =>
      refine ⟨_, _, htracks, fun hpos => absurd hzero hpos, fun _ => ⟨hphase, fun hnone => ?_⟩⟩
      obtain ⟨hbefore, hskipped⟩ := Nat.add_eq_zero_iff.1 (hmissed.symm.trans hnone)
      have hpassed := (h.atOnce hzero).2 hbefore
      rw [List.length_eq_zero_iff.1 hskipped, List.nil_append, List.map_singleton,
        ChangeSettings.pass_append, ← hpassed, hyields, passOn, Watcher.ignores, h.tracks.settings,
        h.tracks.last, Option.or_none]
  | @burst v deadline hfresh hgathering hdue htracks hphase hyields =>
      refine ⟨_, _, htracks, fun hpos hapart => ?_, fun hzero => ?_⟩
      · obtain ⟨settled, g⟩ := h.gathers hpos (hsends ▸ hapart)
        exact ⟨_, g.burst hgathering hdue h.tracks.settings h.tracks.last hphase hclock hyields⟩
      · have hidle := (h.atOnce hzero).1
        rw [hgathering] at hidle
        cases hidle

theorem Kept.act (h : Kept earlier settings w handled fresh) {act : Act}
    (hact : w.act? act = some w') : ∃ handled fresh, Kept earlier settings w' handled fresh := by
  cases act with
  | send v =>
      cases hact
      refine ⟨handled, fresh ++ [v], h.tracks.send v, fun hpos hapart => ?_, h.atOnce⟩
      obtain ⟨settled, g⟩ := h.gathers hpos (List.IsChain.left_of_append hapart)
      exact ⟨settled, g.congr rfl rfl rfl⟩
  | poll => exact h.poll hact
  | wait later =>
      simp only [act?, Option.ite_none_right_eq_some, Bool.and_eq_true, decide_eq_true_eq,
        Option.all_eq_true, Option.some.injEq] at hact
      obtain ⟨⟨⟨hquiet, hlt⟩, hdue⟩, rfl⟩ := hact
      have hfresh := (h.tracks.of_isQuiet hquiet).1
      refine ⟨handled, [], h.tracks.wait hfresh later, fun hpos hapart => ?_, h.atOnce⟩
      obtain ⟨settled, g⟩ := h.gathers hpos hapart
      exact ⟨settled, g.wait (Nat.le_of_lt hlt) hdue⟩

theorem Kept.run (h : Kept earlier settings w handled fresh) {acts : List Act}
    (hrun : w.run acts = some w') : ∃ handled fresh, Kept earlier settings w' handled fresh := by
  induction acts generalizing w handled fresh with
  | nil =>
      cases hrun
      exact ⟨handled, fresh, h⟩
  | cons act acts ih =>
      obtain ⟨next, hact, hrest⟩ := Option.bind_eq_some_iff.1 hrun
      obtain ⟨handled, fresh, hnext⟩ := h.act hact
      exact ih hnext hrest

/-- A watcher that has to wait has passed on what the bursts that are over ask for. -/
theorem Gathers.yields_of_isQuiet (g : Gathers settings w handled settled)
    (h : w.Tracks earlier settings handled fresh) (hquiet : w.isQuiet = true) :
    w.yields = settings.pass none ((settings.outcomes w.sends).filter (·.1 ≤ w.clock)) := by
  obtain ⟨rfl, hwaits⟩ := h.of_isQuiet hquiet
  have hover : settled.filter (·.1 ≤ w.clock) = settled :=
    List.filter_eq_self.2 fun a ha => decide_eq_true (g.settled_le a ha)
  have hopen : w.expected.filter (·.1 ≤ w.clock) = [] := by
    refine List.filter_eq_nil_iff.2 fun a ha => ?_
    unfold expected at ha
    unfold Watcher.deadline? at hwaits
    split at ha
    · next latest deadline hphase =>
        rw [List.mem_singleton.1 ha, decide_eq_true_eq]
        exact Nat.not_le.2 (hwaits deadline (by rw [hphase]; rfl))
    · cases ha
  rw [h.sends, List.map_nil, List.append_nil, g.outcomes, List.filter_append, hover, hopen,
    List.append_nil, g.yields]

/-! ## Time goes on -/

theorem run_cons (w : Vigil) (act : Act) (acts : List Act) :
    w.run (act :: acts) = (w.act? act).bind fun next => next.run acts := rfl

namespace Tracks

variable (h : w.Tracks earlier settings handled fresh)

include h

/-- A watcher that need not wait makes a step, which uses up work. -/
theorem exists_poll (hbusy : w.isQuiet = false) :
    ∃ w' handled fresh, w.act? .poll = some w' ∧ w'.Tracks earlier settings handled fresh ∧
      w'.watcher.work w'.stream 5 4 < w.watcher.work w.stream 5 4 ∧ w'.clock = w.clock ∧
      w'.sends = w.sends := by
  obtain ⟨⟨y, watcher⟩, hstep⟩ := Option.isSome_iff_exists.1 (Option.isNone_eq_false_iff.1 hbusy)
  have hless := (Watcher.move_of_step? hstep).work_lt h.sound h.not_ended
  obtain ⟨w', hact, hwatcher, hstream, hclock, hsends⟩ : ∃ w', w.act? .poll = some w' ∧
      w'.watcher = watcher ∧ w'.stream = w.stream ∧ w'.clock = w.clock ∧ w'.sends = w.sends :=
    ⟨_, Option.map_eq_some_iff.2 ⟨_, hstep, rfl⟩, rfl, rfl, rfl, rfl⟩
  have hwork : w'.watcher.work w'.stream 5 4 < w.watcher.work w.stream 5 4 := by
    rw [hwatcher, hstream]
    exact Nat.lt_of_le_of_lt (Nat.le_add_right _ _) hless
  cases h.polled hact with
  | gather _ _ htracks => exact ⟨w', _, _, hact, htracks, hwork, hclock, hsends⟩
  | atOnce _ _ htracks => exact ⟨w', _, _, hact, htracks, hwork, hclock, hsends⟩
  | burst _ _ _ htracks => exact ⟨w', _, _, hact, htracks, hwork, hclock, hsends⟩

/-- While the watcher has to wait, time passes up to a moment, or up to the end of a burst before
it, where the watcher need not wait any longer. -/
theorem exists_wait (hquiet : w.isQuiet = true) {moment : Nat} (hlt : w.clock < moment) :
    ∃ later, w.act? (.wait later) = some { w with clock := later } ∧ later ≤ moment ∧
      Tracks earlier settings { w with clock := later } handled [] ∧
      ({ w with clock := later }.isQuiet = true → later = moment) := by
  obtain ⟨hfresh, hwaits⟩ := h.of_isQuiet hquiet
  have hact : ∀ later, w.clock < later → (∀ deadline ∈ w.watcher.deadline?, later ≤ deadline) →
      w.act? (.wait later) = some { w with clock := later } := fun later hlater hdue => by
    refine if_pos ?_
    simp only [Bool.and_eq_true, decide_eq_true_eq, Option.all_eq_true]
    exact ⟨⟨hquiet, hlater⟩, hdue⟩
  by_cases hdue : ∀ deadline ∈ w.watcher.deadline?, moment ≤ deadline
  · exact ⟨moment, hact moment hlt hdue, Nat.le_refl _, h.wait hfresh _, fun _ => rfl⟩
  · simp only [not_forall, Nat.not_le] at hdue
    obtain ⟨deadline, hdeadline, hbefore⟩ := hdue
    refine ⟨deadline, hact deadline (hwaits deadline hdeadline) fun t ht => ?_,
      Nat.le_of_lt hbefore, h.wait hfresh _, fun hstill => ?_⟩
    · rw [Option.mem_def.1 hdeadline] at ht
      cases ht
      exact Nat.le_refl _
    · exact absurd (((h.wait hfresh deadline).of_isQuiet hstill).2 deadline hdeadline)
        (Nat.lt_irrefl _)

/-- Some acts of the watcher alone lead to any later moment, and the watcher has to wait then. -/
theorem exists_run_isQuiet {moment : Nat} (hle : w.clock ≤ moment) :
    ∃ acts w', w.run acts = some w' ∧ w'.isQuiet = true ∧ w'.clock = moment ∧
      w'.sends = w.sends := by
  induction hwork : w.watcher.work w.stream 5 4 using Nat.strongRecOn generalizing w handled fresh
  with
  | ind n ih =>
    have hbusy : ∀ {v : Vigil} {handled : List (Nat × Json)} {fresh : List Json},
        v.Tracks earlier settings handled fresh → v.watcher.work v.stream 5 4 = n →
        v.clock ≤ moment → v.isQuiet = false → ∃ acts w', v.run acts = some w' ∧
          w'.isQuiet = true ∧ w'.clock = moment ∧ w'.sends = v.sends := by
      intro v handled fresh hv hwork hle hbusy
      obtain ⟨next, handled, fresh, hact, hnext, hless, hclock, hsends⟩ := hv.exists_poll hbusy
      obtain ⟨acts, w', hrun, hquiet, hlater, hsent⟩ :=
        ih _ (hwork ▸ hless) hnext (hclock ▸ hle) rfl
      exact ⟨.poll :: acts, w', by rw [run_cons, hact]; exact hrun, hquiet, hlater,
        hsent.trans hsends⟩
    cases hquiet : w.isQuiet with
    | false => exact hbusy h hwork hle hquiet
    | true =>
        rcases Nat.eq_or_lt_of_le hle with heq | hlt
        · exact ⟨[], w, rfl, hquiet, heq, rfl⟩
        · obtain ⟨later, hact, hle, hlater, hthere⟩ := h.exists_wait hquiet hlt
          cases hstill : { w with clock := later }.isQuiet with
          | true =>
              exact ⟨[.wait later], _, by rw [run_cons, hact]; rfl, hstill, hthere hstill, rfl⟩
          | false =>
              obtain ⟨acts, w', hrun, hrest⟩ := hbusy hlater hwork hle hstill
              exact ⟨.wait later :: acts, w', by rw [run_cons, hact]; exact hrun, hrest⟩

end Tracks

/-! ## What a watcher yields -/

/-- A watcher of a stream of any capacity, to which values are sent at any time, and whatever was
sent before. Whenever it has to wait it has yielded just this: with a debounce, the last value of
each burst whose debounce is over, at that moment; without one, and if it has missed nothing, every
value that was sent. Values that equal the one that was yielded before are left out if it asks for
distinct ones. And it comes to any later moment by steps of its own. -/
theorem yields_eq_of_run (capacity : Nat) (earlier : List Json) (settings : ChangeSettings)
    (clock : Nat) {acts : List Act} {w : Vigil}
    (hrun : (begin (earlier.foldl Stream.send (.ofCapacity capacity)) settings clock).run acts =
      some w) :
    (w.isQuiet = true →
      (0 < settings.debounce → settings.Apart w.sends →
        w.yields = settings.pass none ((settings.outcomes w.sends).filter (·.1 ≤ w.clock))) ∧
      (settings.debounce = 0 → w.missed = 0 → w.yields = settings.pass none w.sends)) ∧
    ∀ moment, w.clock ≤ moment → ∃ acts w', w.run acts = some w' ∧ w'.isQuiet = true ∧
      w'.clock = moment ∧ w'.sends = w.sends := by
  obtain ⟨hsound, hcarries⟩ := Stream.carries_foldl_send earlier (Stream.Sound.ofCapacity capacity)
    (Stream.Carries.ofCapacity capacity)
  have hopen : (earlier.foldl Stream.send (.ofCapacity capacity : Stream Json)).closed = false := by
    have hfold : ∀ (values : List Json) (s : Stream Json),
        (values.foldl Stream.send s).closed = s.closed := by
      intro values
      induction values with
      | nil => exact fun _ => rfl
      | cons v values ih => exact fun s => ih (s.send v)
    exact hfold earlier _
  have hbegin : Kept earlier settings
      (begin (earlier.foldl Stream.send (.ofCapacity capacity)) settings clock) [] [] :=
    ⟨tracks_begin hsound hopen hcarries settings clock,
      fun _ _ => ⟨[], gathers_begin _ settings clock⟩, fun _ => ⟨rfl, fun _ => rfl⟩⟩
  obtain ⟨handled, fresh, h⟩ := hbegin.run hrun
  refine ⟨fun hquiet => ⟨fun hpos hapart => ?_, fun hzero hnone => ?_⟩, fun moment hle =>
    h.tracks.exists_run_isQuiet hle⟩
  · obtain ⟨settled, g⟩ := h.gathers (Nat.ne_of_gt hpos) hapart
    exact g.yields_of_isQuiet h.tracks hquiet
  · obtain ⟨rfl, -⟩ := h.tracks.of_isQuiet hquiet
    rw [h.tracks.sends, List.map_nil, List.append_nil]
    exact (h.atOnce hzero).2 hnone

/-- A stream that keeps one value. A value is sent and yielded, then another one and the first one
again, and later three values at once. -/
def crowded : List Act :=
  [.send (.natural 1), .poll, .wait 10, .poll,
    .wait 12, .send (.natural 2), .poll, .wait 13, .send (.natural 1), .poll, .wait 23, .poll,
    .wait 30, .send (.natural 2), .send (.natural 3), .send (.natural 2), .poll, .wait 40, .poll]

/-- The second burst ends with the value that was yielded before and is left out. Two values of the
third one are missed. -/
theorem yields_eq_of_run_crowded :
    ∃ w, (begin (.ofCapacity 1) ⟨10, true⟩ 0).run crowded = some w ∧ w.isQuiet = true ∧
      ChangeSettings.Apart ⟨10, true⟩ w.sends ∧ w.missed = 2 ∧
      w.yields = ChangeSettings.pass ⟨10, true⟩ none
        ((ChangeSettings.outcomes ⟨10, true⟩ w.sends).filter (·.1 ≤ w.clock)) ∧
      w.yields.map Prod.fst = [10, 40] := by
  have hrun : ((begin (.ofCapacity 1) ⟨10, true⟩ 0).run crowded).any (fun w =>
      w.isQuiet && decide (w.sends.map Prod.fst = [0, 12, 13, 30, 30, 30]) &&
        decide (w.missed = 2) && decide (w.yields.map Prod.fst = [10, 40])) = true := by
    decide +kernel
  obtain ⟨w, hw, hall⟩ := (Option.any_eq_true _ _).1 hrun
  simp only [Bool.and_eq_true, decide_eq_true_eq] at hall
  obtain ⟨⟨⟨hquiet, hsends⟩, hmissed⟩, hyields⟩ := hall
  have hapart : ChangeSettings.Apart ⟨10, true⟩ w.sends := by
    refine (List.isChain_map (R := fun a b => b ≠ a + 10) Prod.fst).1 ?_
    rw [hsends]
    decide
  exact ⟨w, hw, hquiet, hapart, hmissed,
    ((@yields_eq_of_run 1 [] ⟨10, true⟩ 0 _ _ hw).1 hquiet).1 (by decide) hapart, hyields⟩

end Vigil

end ReactiveForm
