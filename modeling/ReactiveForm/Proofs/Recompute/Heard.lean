import ReactiveForm.Proofs.Form.Edit
import ReactiveForm.Proofs.Recompute.Sound

/-!
# What pipelines have heard of an earlier form

A control keeps verdicts on an earlier form. A pipeline that runs its tests has heard of that form
if it is behind, or if what it watches still has the value of then, as far as the pipeline tells
values apart (`Heard`). With distinct values it also matters which value was yielded last: when the
pipeline comes to a value that equals it, it ignores that value, and this must be no other one than
the value of the earlier form.
-/

namespace ReactiveForm

namespace ChangePipeline

variable {f g past : Form} {p q : ChangePipeline} {mid : Prop}

/-- What a pipeline that heeds its control knows about an earlier form: it is behind, or the control
has the value that it had then, as far as the pipeline tells values apart. With distinct values, the
one that was yielded last is the one of the earlier form. In the middle of a series of steps this
may be missing for a pipeline without a debounce, as long as the earlier form has the present value.
-/
structure Heard (f : Form) (q : ChangePipeline) (past : Form) (mid : Prop) : Prop where
  behind_or : q.Behind f ∨
    q.watcher.settings.Equates (past.value q.watched) (f.value q.watched)
  last : q.watcher.settings.distinct = true → ∀ v, q.watcher.last = some v →
    q.watcher.settings.Equates v (past.value q.watched) ∨
      mid ∧ q.watcher.settings.debounce = 0 ∧ past.value q.watched = f.value q.watched

namespace Heard

theorem document (h : q.Heard f past mid) (d : Form.SameDocument g f) : q.Heard g past mid where
  behind_or := by
    rw [d.value]
    exact h.behind_or.imp_left fun h => h.congr (d.changes _)
  last := by
    rw [d.value]
    exact h.last

/-- A new value of the control leaves the pipeline behind. -/
theorem set (h : q.Heard f past False) (sound : f.SoundTree) (hq : q.Sound f) {id : ControlId}
    {v : Json} (hset : f.setValue id v = .ok g) : q.Heard g past False where
  behind_or := by
    by_cases hmem : q.watched ∈ f.lineage id
    · exact .inl (hq.behind_of_sendTimes (List.count_pos_iff.2 hmem)
        (Form.changes?_of_setValue hset q.watched))
    · rw [Form.value_of_setValue hset sound hmem]
      exact h.behind_or.imp_left fun h => h.congr (Form.changes?_of_notMem_lineage hset hmem)
  last hdistinct v hv := .inl ((h.last hdistinct v hv).resolve_right fun h => h.1)

/-- The newest value of a watcher that is not behind is the present one. -/
theorem equates_of_not_behind (hq : q.Sound f) (published : f.Published) (hnot : ¬ q.Behind f)
    {v : Json} (hv : q.watcher.last = some v) :
    q.watcher.settings.Equates v (f.value q.watched) := by
  obtain ⟨s, hs, -, -, hw⟩ := hq
  obtain ⟨u, hu, hequates⟩ := hw.heard (fun hbehind => hnot ⟨s, hs, hbehind⟩) v hv
  rw [published.newest hs hu] at hequates
  exact hequates

/-- Where no step is left for a pipeline without a debounce, nothing is missing. -/
theorem settle (h : q.Heard f past mid) (hq : q.Sound f) (published : f.Published)
    (hnot : q.watcher.settings.debounce = 0 → ¬ q.Behind f) : q.Heard f past False where
  behind_or := h.behind_or
  last hdistinct v hv := by
    obtain hequates | ⟨-, hzero, hvalue⟩ := h.last hdistinct v hv
    · exact .inl hequates
    · rw [hvalue]
      exact .inl (equates_of_not_behind hq published (hnot hzero) hv)

/-- A pipeline that has ignored a value is behind still, or the burst has returned to the value that
was yielded last. -/
theorem move {w : Watcher} {now : Nat} {stream : Stream Json} (h : q.Heard f past mid)
    (hq : q.Sound f) (published : f.Published) (hstream : f.changes? q.watched = some stream)
    (hmove : q.watcher.Move now stream none w) : { q with watcher := w }.Heard f past mid := by
  obtain ⟨stream', hstream', hs, hopen, hw⟩ := hq
  rw [hstream] at hstream'
  cases hstream'
  have hmoved : { q with watcher := w }.Sound f :=
    ⟨stream, hstream, hs, hopen, hmove.sound hs hopen hw⟩
  refine ⟨?_, ?_⟩
  · by_cases hbehind : { q with watcher := w }.Behind f
    · exact .inl hbehind
    -- nothing is left, so the newest value was ignored: it equals the one that was yielded last
    · obtain ⟨hdistinct, v, hv⟩ :=
        hmove.ignored hopen fun hw => hbehind ⟨stream, hstream, hw⟩
      have hpresent := equates_of_not_behind hmoved published hbehind
        (hmove.last_of_none.trans hv)
      dsimp only at hpresent ⊢
      rw [hmove.settings] at hpresent ⊢
      obtain hequates | ⟨-, -, hvalue⟩ := h.last hdistinct v hv
      · exact .inr (hequates.symm.trans hpresent)
      · exact .inr (hvalue ▸ .refl _ _)
  · dsimp only
    rw [hmove.settings, hmove.last_of_none]
    exact h.last

/-- A run of the tests at the present moment leaves the values that other pipelines yielded last
behind. -/
theorem renew (q : ChangePipeline) (f : Form)
    (hlast : q.watcher.settings.distinct = true → q.watcher.settings.debounce = 0 ∧ mid) :
    q.Heard f f mid where
  behind_or := .inr (.refl _ _)
  last hdistinct _ _ := .inr ⟨(hlast hdistinct).2, (hlast hdistinct).1, rfl⟩

/-- The pipeline that has reacted at the end of a burst has yielded the present value. -/
theorem renew_self {w : Watcher} {now : Nat} {stream : Stream Json} {v : Json} (hq : q.Sound f)
    (published : f.Published) (hstream : f.changes? q.watched = some stream)
    (hmove : q.watcher.Move now stream (some v) w) (hmid : mid) :
    { q with watcher := w }.Heard f f mid where
  behind_or := .inr (.refl _ _)
  last _ u hu := by
    obtain ⟨stream', hstream', hs, -, hw⟩ := hq
    rw [hstream] at hstream'
    cases hstream'
    rw [hmove.last_of_some] at hu
    cases hu
    cases hmove with
    | yield hoffer =>
        cases hoffer with
        | value _ hzero => exact .inr ⟨hmid, hzero, rfl⟩
        | burst hphase hdue hnone =>
            -- a burst ends only when the whole stream has been received
            have hend : q.watcher.receiver = stream.sent := by
              have hle := (Stream.next?_eq_none_iff hs).1 hnone
              have hge := hw.receiver_le
              omega
            have hnewest := hw.burst _ _ hphase hend
            rw [published.newest hstream hnewest]
            exact .inl (.refl _ _)

end Heard

end ChangePipeline

end ReactiveForm
