import ReactiveForm.Proofs.Form.Faults
import ReactiveForm.Proofs.Session.ControlTree

/-!
# Failed edits and announced changes

An operation that fails leaves the session as it was, and the reasons for which it can fail are
those that its error names. A structure edit that succeeds is told to the scheduler and to each
observer that is held, once, when the form has the new structure but nothing has been sent
(`Announces`). Neither needs the names of a model to be distinct: the only thing to be known about a
form is that its arrays have templates (`templated_run`).
-/

namespace ReactiveForm.Session

variable {s s' : Session} {seen : Form} {m : Model} {id array : ControlId} {index : Nat}
  {value : Json} {op : Op} {err : FormError}

/-! ## Arrays have templates -/

theorem templated_insert (h : s.form.Templated)
    (hinsert : s.insert array index value = .ok (id, s')) : s'.form.Templated := by
  obtain ⟨items, item, hitems, hitem, -, -, rfl⟩ := insert_eq_ok hinsert
  exact (sameTree_perform_growth s array items index item value).templated
    (h.grown hitems hitem index value)

theorem templated_remove (h : s.form.Templated)
    (hremove : s.remove array index = .ok (value, s')) : s'.form.Templated := by
  obtain ⟨items, gone, hitems, -, -, rfl⟩ := remove_eq_ok hremove
  exact (sameTree_perform_shrinkage s array items index gone).templated (h.shrunk hitems index)

theorem templated_apply (hsound : s.Sound) (h : s.form.Templated) (op : Op) :
    (s.apply op).form.Templated := by
  cases hedits : op.editsStructure with
  | false => exact (sameTree_apply hsound hedits).symm.templated h
  | true =>
      cases op with
      | insert array index value =>
          rw [apply]
          rcases (Editing.yields_insert array index value).cases s with ⟨-, heq⟩ | ⟨id, hok⟩
          · rwa [heq]
          · exact templated_insert h hok
      | push array value =>
          rw [apply]
          rcases (Editing.yields_push array value).cases s with ⟨-, heq⟩ | ⟨id, hok⟩
          · rwa [heq]
          · obtain ⟨items, -, hok⟩ := push_eq_ok hok
            exact templated_insert h hok
      | remove array index =>
          rw [apply]
          rcases (Editing.yields_remove array index).cases s with ⟨-, heq⟩ | ⟨value, hok⟩
          · rwa [heq]
          · exact templated_remove h hok
      | _ => cases hedits

theorem templated_run (hsound : s.Sound) (h : s.form.Templated) (ops : List Op) :
    (s.run ops).form.Templated := by
  induction ops generalizing s with
  | nil => exact h
  | cons op ops ih => exact ih (sound_apply hsound op) (templated_apply hsound h op)

/-! ## Errors -/

/-- An edit fails where what it prepares fails. -/
theorem Editing.Yields.error?_eq_some {α β : Type} {edit : Editing α}
    {prepare : Session → Except FormError β} {carry : Session → β → α × Session}
    (h : edit.Yields fun s => (prepare s).map (carry s)) :
    edit.error? s = some err ↔ prepare s = .error err := by
  rw [Editing.error?_eq_some, h.outcome]
  cases prepare s <;> simp [Except.map]

/-- The error with which an operation fails. -/
def Op.error? (s : Session) : Op → Option FormError
  | .setValue id value => (Editing.setValue id value).error? s
  | .insert array index value => (Editing.insert array index value).error? s
  | .push array value => (Editing.push array value).error? s
  | .remove array index => (Editing.remove array index).error? s
  | .setExternal id key message => (Editing.setExternal id key message).error? s
  | .clearExternal id key => (Editing.clearExternal id key).error? s
  | _ => none

/-- An operation that fails changes nothing. -/
theorem apply_of_error? (herr : op.error? s = some err) : s.apply op = s := by
  cases op with
  | setValue id value => exact (Editing.yields_setValue id value).after_eq_self herr
  | insert array index value => exact (Editing.yields_insert array index value).after_eq_self herr
  | push array value => exact (Editing.yields_push array value).after_eq_self herr
  | remove array index => exact (Editing.yields_remove array index).after_eq_self herr
  | setExternal id key message =>
      exact (Editing.yields_setExternal id key message).after_eq_self herr
  | clearExternal id key => exact (Editing.yields_clearExternal id key).after_eq_self herr
  | _ => cases herr

/-! ## Announcements -/

/-- A change to the structure is told to each observer that is held, once, and the scheduler is
fitted to it. What they see is the form `seen`, with the new structure and the streams from before.
Then the values of the array and its ancestors are sent, each once, and the change to the
structure. -/
structure Announces (s s' : Session) (seen : Form) (array : ControlId)
    (change : StructureChange) : Prop where
  told : s'.observers = (s.observers.filter Observer.held).map fun o => o.tell change seen
  fitted : s'.scheduler = s.scheduler.map fun sched => sched.rebuild seen
  unsent : Form.Reshapes s.form seen
  unchanged : seen.structureChanges = s.form.structureChanges
  rootValue : s'.form.rootValue = seen.rootValue
  changes? : ∀ id, s'.form.changes? id = (seen.changes? id).map fun stream =>
    if id ∈ seen.lineage array then stream.send (seen.value id) else stream
  structureChanges : s'.form.structureChanges = seen.structureChanges.send change

/-- A prepared edit is told before it is published. -/
theorem announces_perform (hf : s.form.ParentsBefore) {edit : Form.Edit}
    (hedit : s.form.Prepared array edit) :
    Announces s (s.perform edit) edit.form array edit.change where
  told := rfl
  fitted := rfl
  unsent := hedit.reshapes
  unchanged := hedit.structureChanges
  rootValue := Form.value_edit_publish edit Form.root
  changes? id := by
    have hlive : ∀ x ∈ edit.form.lineage array, edit.form.contains x = true :=
      fun _ => Form.contains_of_mem_lineage
    have hnodup := Form.nodup_lineage (hedit.parentsBefore hf) array
    have hsent := Form.changes?_edit_publish edit id
    rw [hedit.lineage_eq, List.filter_eq_self.2 hlive, hnodup.count] at hsent
    refine hsent.trans ?_
    congr 1
    funext stream
    by_cases hmem : id ∈ edit.form.lineage array
    · rw [if_pos hmem]
      exact (if_pos hmem).symm
    · rw [if_neg hmem]
      exact (if_neg hmem).symm
  structureChanges := rfl

theorem announces_insert (hf : s.form.ParentsBefore)
    (hinsert : s.insert array index value = .ok (id, s')) :
    ∃ seen, Announces s s' seen array (.inserted array index) := by
  obtain ⟨items, item, hitems, -, -, -, rfl⟩ := insert_eq_ok hinsert
  exact ⟨_, announces_perform hf (.inserted items index item value (Form.contains_of_items? hitems))⟩

theorem announces_push (hf : s.form.ParentsBefore)
    (hpush : s.push array value = .ok (id, s')) :
    ∃ seen items, s.form.items? array = some items ∧
      Announces s s' seen array (.inserted array items.length) := by
  obtain ⟨items, hitems, hinsert⟩ := push_eq_ok hpush
  obtain ⟨seen, hseen⟩ := announces_insert hf hinsert
  exact ⟨seen, items, hitems, hseen⟩

theorem announces_remove (hf : s.form.ParentsBefore)
    (hremove : s.remove array index = .ok (value, s')) :
    ∃ seen, Announces s s' seen array (.removed array index) := by
  obtain ⟨items, gone, hitems, -, -, rfl⟩ := remove_eq_ok hremove
  exact ⟨_, announces_perform hf (.removed items index gone (Form.contains_of_items? hitems))⟩

/-! ## The invariant -/

/-- In every state of a session an operation fails exactly for the reasons that its error names: if
there is no such control, if it is no field or no array, or if an index is out of bounds. Then
nothing changes. A structure edit that succeeds is told to each observer that is held, once, before
it is published. -/
theorem faults_of_run {data : Json} {c : Config} {ops : List Op}
    (hs : (start (.build m data c)).run ops = s) :
    (∀ id value err, (Op.setValue id value).error? s = some err ↔
        s.form.contains id = false ∧ err = .unknownControl id ∨
          (∃ kind, s.form.kind? id = some kind ∧ kind ≠ .field) ∧
            err = .notAField (s.form.pathOrEmpty id)) ∧
      (∀ array index value err, (Op.insert array index value).error? s = some err ↔
        s.form.contains array = false ∧ err = .unknownControl array ∨
          (∃ kind, s.form.kind? array = some kind ∧ kind ≠ .array) ∧
            err = .notAnArray (s.form.pathOrEmpty array) ∨
          ∃ items, s.form.items? array = some items ∧ items.length < index ∧
            err = .indexOutOfBounds (s.form.pathOrEmpty array) index items.length) ∧
      (∀ array value err, (Op.push array value).error? s = some err ↔
        s.form.contains array = false ∧ err = .unknownControl array ∨
          (∃ kind, s.form.kind? array = some kind ∧ kind ≠ .array) ∧
            err = .notAnArray (s.form.pathOrEmpty array)) ∧
      (∀ array index err, (Op.remove array index).error? s = some err ↔
        s.form.contains array = false ∧ err = .unknownControl array ∨
          (∃ kind, s.form.kind? array = some kind ∧ kind ≠ .array) ∧
            err = .notAnArray (s.form.pathOrEmpty array) ∨
          ∃ items, s.form.items? array = some items ∧ items.length ≤ index ∧
            err = .indexOutOfBounds (s.form.pathOrEmpty array) index items.length) ∧
      (∀ id key message err, (Op.setExternal id key message).error? s = some err ↔
        s.form.contains id = false ∧ err = .unknownControl id) ∧
      (∀ id key err, (Op.clearExternal id key).error? s = some err ↔
        s.form.contains id = false ∧ err = .unknownControl id) ∧
      (∀ op err, op.error? s = some err → s.apply op = s) ∧
      (∀ array index value id s', s.insert array index value = .ok (id, s') →
        ∃ seen, Announces s s' seen array (.inserted array index)) ∧
      (∀ array value id s', s.push array value = .ok (id, s') →
        ∃ seen items, s.form.items? array = some items ∧
          Announces s s' seen array (.inserted array items.length)) ∧
      ∀ array index value s', s.remove array index = .ok (value, s') →
        ∃ seen, Announces s s' seen array (.removed array index) := by
  have hstart := sound_start m data c
  have htemplated : s.form.Templated :=
    hs ▸ templated_run hstart (Form.templated_build m data c) ops
  have hf : s.form.ParentsBefore :=
    hs ▸ parentsBefore_run hstart (Form.parentsBefore_build m data c) ops
  refine ⟨fun id value err => ?_, fun array index value err => ?_, fun array value err => ?_,
    fun array index err => ?_, fun id key message err => ?_, fun id key err => ?_,
    fun op err => apply_of_error?, fun _ _ _ _ _ => announces_insert hf,
    fun _ _ _ _ => announces_push hf, fun _ _ _ _ => announces_remove hf⟩
  · rw [Op.error?, (Editing.yields_setValue id value).error?_eq_some, Form.setValue_eq_error]
  · rw [Op.error?, (Editing.yields_insert array index value).error?_eq_some,
      Form.prepareInsert_eq_error htemplated]
  · rw [Op.error?, (Editing.yields_push array value).error?_eq_some,
      Form.preparePush_eq_error htemplated]
  · rw [Op.error?, (Editing.yields_remove array index).error?_eq_some, Form.prepareRemove_eq_error]
  · rw [Op.error?, (Editing.yields_setExternal id key message).error?_eq_some,
      Form.setExternal_eq_error]
  · rw [Op.error?, (Editing.yields_clearExternal id key).error?_eq_some,
      Form.clearExternal_eq_error]

/-- Two observers were told of the two edits of `rowsOps` that have succeeded, and then nobody holds
the first one any more. -/
def watchedRows : Session :=
  (start (.build rowsModel rowsData .standard)).run
    (.attach :: .observe :: .observe :: rowsOps ++ [.unobserve 0])

/-- The site is no array, control `6` is gone, and the two rows have no third one. A row that is
pushed is told to the observer that is held. -/
theorem faults_rows :
    (Op.setValue 6 .null).error? watchedRows = some (.unknownControl 6) ∧
      (Op.push 1 .null).error? watchedRows = some (.notAnArray "site") ∧
      (Op.remove 4 2).error? watchedRows = some (.indexOutOfBounds "rows" 2 2) ∧
      watchedRows.apply (.remove 4 2) = watchedRows ∧
      ∃ id s' seen, watchedRows.push 4 .null = .ok (id, s') ∧
        Announces watchedRows s' seen 4 (.inserted 4 2) ∧
        s'.observers.map (fun o => (o.number, o.seen.length)) = [(1, 3)] := by
  obtain ⟨hset, -, hpush, hremove, -, -, hfailed, -, htold, -⟩ := @faults_of_run watchedRows
    rowsModel rowsData .standard (.attach :: .observe :: .observe :: rowsOps ++ [.unobserve 0])
    (by rw [watchedRows])
  have hbehind := (hremove 4 2 (.indexOutOfBounds "rows" 2 2)).2
    (.inr (.inr ⟨[8, 11], by decide +kernel, by decide, by decide +kernel⟩))
  refine ⟨(hset 6 .null _).2 (.inl ⟨by decide +kernel, rfl⟩),
    (hpush 1 .null _).2 (.inr ⟨⟨.group, by decide +kernel, by decide⟩, by decide +kernel⟩),
    hbehind, hfailed _ _ hbehind, ?_⟩
  have hitems : watchedRows.form.items? 4 = some [8, 11] := by decide +kernel
  have hok : (watchedRows.push 4 .null).isOk = true := by decide +kernel
  have hheld : (watchedRows.observers.filter Observer.held).map
      (fun o => (o.number, o.seen.length)) = [(1, 2)] := by decide +kernel
  cases h : watchedRows.push 4 .null with
  | error err =>
      rw [h] at hok
      cases hok
  | ok next =>
      obtain ⟨seen, items, hlist, hannounces⟩ := htold 4 .null next.1 next.2 h
      cases hlist.symm.trans hitems
      refine ⟨next.1, next.2, seen, rfl, hannounces, ?_⟩
      calc next.2.observers.map (fun o => (o.number, o.seen.length))
          = ((watchedRows.observers.filter Observer.held).map
              (fun o => (o.number, o.seen.length))).map fun v => (v.1, v.2 + 1) := by
            simp [hannounces.told, Observer.tell]
        _ = [(1, 3)] := by rw [hheld]; rfl

end ReactiveForm.Session
