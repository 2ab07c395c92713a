import Mathlib.Data.List.InsertIdx
import Mathlib.Data.List.Nodup
import ReactiveForm.Proofs.Form.Places
import ReactiveForm.Proofs.Form.Projection

/-!
# Replacing a part of a document

An edit of a form replaces the part of its document that stands at the place of the edited control,
and nothing else: a field gets another value, and a list gains or loses an item. That is shown in
two steps. What is not above the edited control keeps its value, because everything below it stays
(`value_congr_of_agree`). And what is above is assembled from the same parts as before but for one,
so that its value is the former one with this part replaced (`Rewrites.rootValue`).
-/

namespace ReactiveForm

namespace Json

/-- The document with another part one step further in. It stays as it is where the step does not
fit. -/
def put (j : Json) (step : Segment) (part : Json) : Json :=
  match j, step with
  | object fields, .key name =>
    object (fields.map fun e => if e.1 = name then (e.1, part) else e)
  | array items, .index n => array (items.set n part)
  | j, _ => j

/-- The document with another part at a place. -/
def replace : Json → List Segment → Json → Json
  | _, [], part => part
  | j, step :: place, part => j.put step ((j.enter step).replace place part)

/-- The last step of a place is made in the part that the steps before it lead to. -/
theorem replace_append (j : Json) (place : List Segment) (step : Segment) (part : Json) :
    j.replace (place ++ [step]) part = j.replace place ((j.place place).put step part) := by
  induction place generalizing j with
  | nil => rfl
  | cons first place ih => exact congrArg (j.put first) (ih (j.enter first))

end Json

/-- If only one of the parts below a control is another one, then so is the value of the control. -/
theorem Control.put_assemble {c : Control} {id : Nat} {step : Segment} {look look' : Nat → Json}
    (hnames : ∀ parts, c.children = .named parts → (parts.map Prod.fst).Nodup)
    (honce : c.children.ids.Nodup) (hplace : c.children.place? id = some step)
    (hother : ∀ x ∈ c.children.ids, x ≠ id → look' x = look x) :
    (c.assemble look).put step (look' id) = c.assemble look' := by
  unfold assemble
  cases hchildren : c.children with
  | none => simp [hchildren, Children.place?] at hplace
  | named parts =>
      rw [hchildren] at honce hplace hother
      rw [Children.place?] at hplace
      obtain ⟨found, hfind, rfl⟩ := Option.map_eq_some_iff.1 hplace
      have hid : found.2 = id := by simpa using List.find?_some hfind
      have hfound := List.mem_of_find?_eq_some hfind
      simp only [Json.put, List.map_map]
      refine congrArg Json.object (List.map_congr_left fun part hpart => ?_)
      simp only [Function.comp_apply]
      split
      · rename_i hname
        have heq : part = found :=
          List.inj_on_of_nodup_map (hnames parts hchildren) hpart hfound hname
        rw [heq, hid]
      · rename_i hname
        have hne : part.2 ≠ id := fun heq => hname (congrArg Prod.fst
          (List.inj_on_of_nodup_map honce hpart hfound (heq.trans hid.symm)))
        rw [hother part.2 (List.mem_map.2 ⟨part, hpart, rfl⟩) hne]
  | indexed items =>
      rw [hchildren] at honce hplace hother
      rw [Children.place?] at hplace
      obtain ⟨i, hfind, rfl⟩ := Option.map_eq_some_iff.1 hplace
      obtain ⟨hlt, hget, -⟩ := List.findIdx?_eq_some_iff_getElem.1 hfind
      have hid : items[i] = id := by simpa using hget
      simp only [Json.put]
      refine congrArg Json.array (List.ext_getElem (by simp) fun j hj _ => ?_)
      rw [List.length_set, List.length_map] at hj
      simp only [List.getElem_set, List.getElem_map]
      split
      · rename_i heq
        subst heq
        rw [hid]
      · rename_i hne
        have hother' : items[j] ≠ id := fun heq =>
          hne ((honce.getElem_inj_iff).1 (hid.trans heq.symm))
        exact (hother _ (List.getElem_mem hj) hother').symm

namespace Form

variable {f g : Form} {m : Model} {id array : Nat} {items : List Nat} {index gone : Nat}
  {item : Property} {value : Json} {place : List Segment} {c : Control}

/-! ## What keeps its value -/

/-- A control has the same value in two forms that agree on it and on everything below it. -/
theorem value_congr_of_agree (hf : f.SoundTree) (hg : g.SoundTree) (Below : Nat → Prop)
    (hdown : ∀ id c, Below id → f.control? id = some c → ∀ child ∈ c.children.ids, Below child)
    (hsame : ∀ id, Below id → ∃ c d, f.control? id = some c ∧ g.control? id = some d ∧
      d.children = c.children ∧ d.value = c.value)
    (hid : Below id) : g.value id = f.value id := by
  -- values come from below, where the numbers are larger
  induction hn : f.slots.size - id using Nat.strongRecOn generalizing id with
  | ind n ih =>
    obtain ⟨c, d, hc, hd, hchildren, hvalue⟩ := hsame id hid
    have hrec : ∀ child ∈ c.children.ids, g.value child = f.value child := fun child hchild => by
      have hparent := hf.parent_of_child hc child hchild
      have hlt := hf.parent_lt hparent
      have hsize := lt_size_of_contains (contains_of_parent? hparent)
      exact ih (f.slots.size - child) (by omega) (hdown id c hid hc child hchild) rfl
    rw [hf.value_eq hc, hg.value_eq hd, ← Control.assemble_congr hrec]
    simp only [Control.assemble, hchildren, hvalue]

/-- A control lists nothing twice. -/
theorem ControlTree.nodup_ids (h : f.ControlTree m) (hc : f.control? id = some c) :
    c.children.ids.Nodup := by
  refine List.nodup_iff_count.2 fun x => ?_
  by_cases hx : x ∈ c.children.ids
  · have hparent := h.child hc x hx
    have hne : x ≠ Form.root := by
      rintro rfl
      cases h.parent?_root.symm.trans hparent
    obtain ⟨_, p, hup, -, hp, hcount⟩ := h.listed (contains_of_parent? hparent) hne
    cases hparent.symm.trans hup
    cases hc.symm.trans hp
    exact Nat.le_of_eq hcount
  · rw [List.count_eq_zero_of_not_mem hx]
    exact Nat.zero_le _

theorem SoundTree.le_of_mem_lineage (sound : f.SoundTree) {member : Nat}
    (hmem : member ∈ f.lineage id) : member ≤ id :=
  le_of_mem_lineageWithin (fun _ _ => sound.parent_lt) hmem

/-- A lineage does not branch. -/
theorem SoundTree.eq_of_mem_lineage (sound : f.SoundTree) {x y parent : Nat}
    (hx : x ∈ f.lineage id) (hy : y ∈ f.lineage id) (hxparent : f.parent? x = some parent)
    (hyparent : f.parent? y = some parent) : x = y := by
  induction id using Nat.strongRecOn with
  | ind id ih =>
    cases hparent : f.parent? id with
    | none =>
        -- the lineage of the root has only one member, which has no parent
        have hself : ∀ {z : Nat}, z ∈ f.lineage id → f.parent? z = none := by
          intro z hz
          unfold lineage at hz
          cases hsize : f.slots.size with
          | zero => simp [hsize, lineageWithin] at hz
          | succ k =>
              rw [hsize, lineageWithin_succ, hparent] at hz
              split at hz
              · rw [List.mem_singleton.1 hz]
                exact hparent
              · cases hz
        cases (hself hx).symm.trans hxparent
    | some up =>
        rw [sound.lineage_of_parent? hparent] at hx hy
        have hlt := sound.parent_lt hparent
        have habove : ∀ {z : Nat}, z ∈ f.lineage up → f.parent? z = some parent → up ≠ parent := by
          intro z hz hzparent heq
          have hle := sound.le_of_mem_lineage hz
          have hless := sound.parent_lt hzparent
          exact absurd (heq ▸ hless) (Nat.not_lt_of_le hle)
        rcases List.mem_cons.1 hx with rfl | hx' <;> rcases List.mem_cons.1 hy with rfl | hy'
        · rfl
        · exact absurd (Option.some.inj (hparent.symm.trans hxparent)) (habove hy' hyparent)
        · exact absurd (Option.some.inj (hparent.symm.trans hyparent)) (habove hx' hxparent)
        · exact ih up hlt hx' hy'

/-! ## What is above an edited control -/

/-- A form differs from another one at most in what is below a control, and in the values above
it. -/
structure Rewrites (f g : Form) (top : Nat) : Prop where
  children : ∀ x ∈ f.lineage top, x ≠ top → ∃ c d, f.control? x = some c ∧
    g.control? x = some d ∧ d.children = c.children
  value : ∀ x, f.contains x = true → x ∉ f.lineage top → ∀ parent,
    f.parent? x = some parent → parent ≠ top → parent ∈ f.lineage top → g.value x = f.value x

/-- The document of the form is the former one with the value of the control replaced. -/
theorem Rewrites.rootValue {top : Nat} (h : Rewrites f g top) (hf : f.ControlTree m)
    (hg : g.SoundTree) (hplace : f.place? top = some place) :
    g.rootValue = f.rootValue.replace place (g.value top) := by
  have sound := hf.soundTree
  have htop : f.contains top = true := by
    refine Bool.not_eq_false _ ▸ fun hgone => ?_
    rw [Form.place?, placeWithin_of_not_contains hgone] at hplace
    cases hplace
  -- the induction goes up along the lineage of the edited control
  have hclimb : ∀ id ∈ f.lineage top, ∀ place, f.place? id = some place →
      g.rootValue = f.rootValue.replace place (g.value id) := by
    intro id
    induction id using Nat.strongRecOn with
    | ind id ih =>
      intro hmem place hplace
      have hid := contains_of_mem_lineage hmem
      by_cases hroot : id = Form.root
      · rw [hroot, sound.place?_root hf.parent?_root] at hplace
        cases hplace
        rw [hroot]
        rfl
      · obtain ⟨parent, c, hparent, hlt, hc, hcount⟩ := hf.listed hid hroot
        have hup := sound.mem_lineage_of_parent? hmem hparent
        have hne : parent ≠ top :=
          Nat.ne_of_lt (Nat.lt_of_lt_of_le hlt (sound.le_of_mem_lineage hmem))
        have hchild : id ∈ c.children.ids := List.count_pos_iff.1 (by omega)
        obtain ⟨step, hstep⟩ := Children.exists_place? hchild
        rw [sound.place?_of_child hc hchild hstep] at hplace
        obtain ⟨above, habove, rfl⟩ := Option.map_eq_some_iff.1 hplace
        obtain ⟨_, d, hc', hd, hkids⟩ := h.children parent hup hne
        cases hc.symm.trans hc'
        have hother : ∀ x ∈ c.children.ids, x ≠ id → g.value x = f.value x := by
          intro x hx hxne
          have hxparent := hf.child hc x hx
          refine h.value x (contains_of_parent? hxparent) (fun hxmem => hxne ?_) parent hxparent
            hne hup
          exact sound.eq_of_mem_lineage hxmem hmem hxparent hparent
        have hassemble : d.assemble g.value = c.assemble g.value := by
          unfold Control.assemble
          rw [hkids]
          cases hnone : c.children with
          | none => simp [hnone, Children.ids] at hchild
          | _ => rfl
        rw [ih parent hlt hup above habove, Json.replace_append, sound.rootValue_place habove,
          sound.value_eq hc, Control.put_assemble (sound.names_nodup hc) (hf.nodup_ids hc) hstep
            hother, hg.value_eq hd, hassemble]
  exact hclimb top (mem_lineage_self htop) place hplace

/-! ## Setting a value -/

/-- The value of a field is the one that it was given. -/
theorem value_of_field {c : Control} (hc : f.control? id = some c) (hkind : c.kind = .field) :
    f.value id = c.value := by
  have hnone : c.children = .none := by
    unfold Control.kind at hkind
    cases hchildren : c.children with
    | none => rfl
    | _ => simp [hchildren, Children.kind] at hkind
  have hlt : id < f.slots.size := lt_size_of_contains (by rw [contains, hc]; rfl)
  obtain ⟨n, hn⟩ := Nat.exists_eq_add_one_of_ne_zero (Nat.ne_zero_of_lt hlt)
  rw [value, hn, valueWithin_succ, hc, Option.map_some, Option.getD_some, Control.assemble, hnone]

theorem value_of_setValue_self (hset : f.setValue id value = .ok g) : g.value id = value := by
  obtain ⟨⟨c, hc, hkind⟩, rfl⟩ := setValue_eq_ok hset
  have hdoc := sameDocument_refreshLineage (f.stored id value) (f.lineage id)
  have hcontrol : (f.stored id value).control? id = some { c with value } := by
    rw [stored, control?_modify, if_pos rfl, hc]
    rfl
  rw [value_publish, hdoc.value, value_of_field hcontrol hkind]

/-- Setting a field replaces the value at its place. -/
theorem ControlTree.rootValue_setValue (h : f.ControlTree m) (hset : f.setValue id value = .ok g)
    (hplace : f.place? id = some place) :
    g.rootValue = f.rootValue.replace place value := by
  have htree := sameTree_setValue hset
  have hrewrites : Rewrites f g id := by
    refine ⟨fun x hx _ => ?_, fun x _ hx _ _ _ _ => value_of_setValue hset h.soundTree hx⟩
    obtain ⟨c, hc⟩ := Option.isSome_iff_exists.1 (contains_of_mem_lineage hx)
    obtain ⟨d, hd, hlinks⟩ := htree.symm.exists_control hc
    exact ⟨c, d, hc, hd, hlinks.children⟩
  rw [hrewrites.rootValue h (htree.symm.soundTree h.soundTree) hplace,
    value_of_setValue_self hset]

/-! ## Items -/

/-- The document has the list of the items' values at the place of an array. -/
theorem SoundTree.place_array (sound : f.SoundTree) (hitems : f.items? array = some items)
    (hplace : f.place? array = some place) :
    f.rootValue.place place = .array (items.map f.value) := by
  obtain ⟨c, hc, hchildren⟩ := items?_eq_some.1 hitems
  rw [sound.rootValue_place hplace, sound.value_eq hc]
  simp only [Control.assemble, hchildren]

/-- Putting an item into an array puts its projection into the list at the array's place. -/
theorem ControlTree.rootValue_grown (h : f.ControlTree m) (hm : m.DistinctNames)
    (hitems : f.items? array = some items) (hitem : f.template? array = some item)
    (hindex : index ≤ items.length) (hplace : f.place? array = some place) :
    (f.grown array items index item value).rootValue =
      f.rootValue.replace place
        (.array ((items.map f.value).insertIdx index (item.shape.project value))) := by
  obtain ⟨c, hc, hchildren⟩ := items?_eq_some.1 hitems
  have sound := h.soundTree
  have hgrown := (h.grown hm hitems hitem index value).soundTree
  have hlive : f.contains array = true := by rw [contains, hc]; rfl
  have harray := lt_size_of_contains hlive
  have hsame : ∀ x, f.contains x = true → x ≠ array → ∃ k, f.control? x = some k ∧
      (f.grown array items index item value).control? x = some k := by
    intro x hx hne
    obtain ⟨k, hk⟩ := Option.isSome_iff_exists.1 hx
    exact ⟨k, hk, (control?_grown_of_ne (lt_size_of_contains hx) hne).trans hk⟩
  -- only the array and what is above it has another value
  have hkept : ∀ x, f.contains x = true → x ∉ f.lineage array →
      (f.grown array items index item value).value x = f.value x := by
    intro x hx hnot
    refine value_congr_of_agree sound hgrown
      (fun x => f.contains x = true ∧ x ∉ f.lineage array) ?_ ?_ ⟨hx, hnot⟩
    · rintro id k ⟨-, habove⟩ hk child hchild
      have hparent := sound.parent_of_child hk child hchild
      exact ⟨contains_of_parent? hparent,
        fun hmem => habove (sound.mem_lineage_of_parent? hmem hparent)⟩
    · rintro id ⟨hid, habove⟩
      have hne : id ≠ array := fun heq => habove (heq ▸ mem_lineage_self (heq ▸ hid))
      obtain ⟨k, hk, hgk⟩ := hsame id hid hne
      exact ⟨k, k, hk, hgk, rfl, rfl⟩
  have hrewrites : Rewrites f (f.grown array items index item value) array := by
    refine ⟨fun x hx hne => ?_, fun x hx hnot _ _ _ _ => hkept x hx hnot⟩
    obtain ⟨k, hk, hgk⟩ := hsame x (contains_of_mem_lineage hx) hne
    exact ⟨k, k, hk, hgk, rfl⟩
  have hlisted : (f.grown array items index item value).items? array =
      some (items.insertIdx index f.slots.size) := items?_grown hitems hindex
  obtain ⟨d, hd, hlist⟩ := items?_eq_some.1 hlisted
  have hold : items.map (f.grown array items index item value).value = items.map f.value := by
    refine List.map_congr_left fun x hx => ?_
    have hparent := h.child hc x (hchildren ▸ hx)
    refine hkept x (contains_of_parent? hparent) fun hmem => ?_
    exact absurd (sound.parent_lt hparent) (Nat.not_lt_of_le (sound.le_of_mem_lineage hmem))
  rw [hrewrites.rootValue h hgrown hplace, hgrown.value_eq hd]
  simp only [Control.assemble, hlist]
  rw [List.map_insertIdx, hold, value_grown harray hgrown]

/-- Taking an item out of an array takes its value out of the list at the array's place. -/
theorem ControlTree.rootValue_shrunk (h : f.ControlTree m) (hitems : f.items? array = some items)
    (hget : items[index]? = some gone) (hplace : f.place? array = some place) :
    (f.shrunk array items index gone).rootValue =
      f.rootValue.replace place (.array ((items.map f.value).eraseIdx index)) := by
  obtain ⟨c, hc, hchildren⟩ := items?_eq_some.1 hitems
  have sound := h.soundTree
  have hshrunk := (h.shrunk hitems hget).soundTree
  have hgone : f.parent? gone = some array := h.child hc gone
    (hchildren ▸ List.mem_of_getElem? hget)
  have harray : f.contains array = true := by rw [contains, hc]; rfl
  have hsame : ∀ x, f.contains x = true → ¬ f.Descends gone x → x ≠ array →
      ∃ k, f.control? x = some k ∧ (f.shrunk array items index gone).control? x = some k := by
    intro x hx hkept hne
    obtain ⟨k, hk⟩ := Option.isSome_iff_exists.1 hx
    exact ⟨k, hk, (control?_shrunk_of_ne sound hkept hne).trans hk⟩
  -- only the array and what is above it has another value
  have hkept : ∀ x, f.contains x = true → ¬ f.Descends gone x → x ∉ f.lineage array →
      (f.shrunk array items index gone).value x = f.value x := by
    intro x hx hstays hnot
    refine value_congr_of_agree sound hshrunk
      (fun x => f.contains x = true ∧ ¬ f.Descends gone x ∧ x ∉ f.lineage array) ?_ ?_
      ⟨hx, hstays, hnot⟩
    · rintro id k ⟨-, hid, habove⟩ hk child hchild
      have hparent := sound.parent_of_child hk child hchild
      refine ⟨contains_of_parent? hparent, not_descends_of_mem h hk hchild hid ?_,
        fun hmem => habove (sound.mem_lineage_of_parent? hmem hparent)⟩
      rintro rfl
      rw [Option.some.inj (hparent.symm.trans hgone)] at habove
      exact habove (mem_lineage_self harray)
    · rintro id ⟨hid, hstays, habove⟩
      have hne : id ≠ array := fun heq => habove (heq ▸ mem_lineage_self (heq ▸ hid))
      obtain ⟨k, hk, hgk⟩ := hsame id hid hstays hne
      exact ⟨k, k, hk, hgk, rfl, rfl⟩
  have hrewrites : Rewrites f (f.shrunk array items index gone) array := by
    refine ⟨fun x hx hne => ?_, fun x hx hnot parent hparent hne hup => ?_⟩
    · obtain ⟨k, hk, hgk⟩ := hsame x (contains_of_mem_lineage hx)
        (not_descends_of_le h hc hchildren hget (sound.le_of_mem_lineage hx)) hne
      exact ⟨k, k, hk, hgk, rfl⟩
    · -- what stands beside a control above the array is not in the array
      obtain ⟨_, p, hxparent, -, hp, hcount⟩ := h.listed hx fun hroot => by
        rw [hroot, h.parent?_root] at hparent
        cases hparent
      cases hxparent.symm.trans hparent
      refine hkept x hx (not_descends_of_mem h hp (List.count_pos_iff.1 (by omega))
        (not_descends_of_le h hc hchildren hget (sound.le_of_mem_lineage hup)) ?_) hnot
      rintro rfl
      exact hne (Option.some.inj (hparent.symm.trans hgone))
  obtain ⟨d, hd, hlist⟩ := items?_eq_some.1 (items?_shrunk h hc hchildren hget)
  have hrest : (items.eraseIdx index).map (f.shrunk array items index gone).value =
      (items.eraseIdx index).map f.value := by
    refine List.map_congr_left fun x hx => ?_
    have hmem : x ∈ d.children.ids := by
      rw [hlist]
      exact hx
    obtain ⟨hstays, hparent⟩ := mem_of_mem_shrunk h hc hchildren hget hd hmem
    refine hkept x (contains_of_parent? hparent) hstays fun hmem => ?_
    exact absurd (sound.parent_lt hparent) (Nat.not_lt_of_le (sound.le_of_mem_lineage hmem))
  rw [hrewrites.rootValue h hshrunk hplace, hshrunk.value_eq hd]
  simp only [Control.assemble, hlist]
  rw [hrest, List.eraseIdx_map]

end Form

end ReactiveForm
