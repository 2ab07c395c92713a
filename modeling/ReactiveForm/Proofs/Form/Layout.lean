import ReactiveForm.Proofs.Form.Items

/-!
# How a document is laid out in controls

The controls for a property and a document stand behind each other without a gap: first the one for
the property, then those for what is directly below it, each followed by everything below itself.
`Form.Laid` says that a form has such a row of controls. It has one rule for the empty row and one
for a row with a first entry, whatever the shape of that entry is. So what holds of the controls of
a block is shown by an induction with two cases, and the recursion over shapes, parts and items is
gone through once (`Property.laid_block`).

## Shapes

A shape tells which entries a document has below it (`Shape.entries`), how the controls of these
entries are found from above (`Shape.arrange`), and what the control itself keeps of the document
(`Shape.own`).
-/

namespace ReactiveForm

namespace Shape

/-- The parts of an object. -/
def parts : Shape → List Property
  | object children => children
  | _ => []

/-- The names of the parts of an object. -/
def names (shape : Shape) : List String := shape.parts.filterMap Property.name

/-- What a document has directly below a shape: its fields by the parts of an object, or its items
by the template of an array. -/
def entries : Shape → Json → List (Property × Json)
  | value, _ => []
  | object children, data =>
    children.filterMap fun p => p.name.map fun name => (p, data.field name)
  | array item, data => data.items.map fun element => (item, element)

/-- The controls of the entries as the children of the control above. -/
def arrange : Shape → List ControlId → Children
  | value, _ => .none
  | object children, ids => .ofNamed ((children.filterMap Property.name).zip ids)
  | array _, ids => .indexed ids

/-- What a control keeps of its document itself. -/
def own : Shape → Json → Json
  | value, data => data
  | _, _ => .null

end Shape

namespace Form

variable {f : Form} {parent first middle stop : Nat} {entries : List (Property × Json)} {ids : List Nat}

/-! ## Rows -/

/-- The form has the controls of some entries in a row, from the number `first` up to `stop`. The
controls of the entries themselves are `ids`, and the control above them is `parent`. -/
inductive Laid (f : Form) : (parent first : Nat) → List (Property × Json) → List ControlId →
    (stop : Nat) → Prop where
  /-- There are no entries. -/
  | nil (parent first : Nat) : Laid f parent first [] [] first
  /-- The control of the first entry, everything below it, and the rest of the row. -/
  | cons {parent first middle stop : Nat} {p : Property} {data : Json} {below ids : List ControlId}
      {entries : List (Property × Json)}
      (hcontrol : f.control? first =
        some (.create (some parent) (some p) (p.shape.arrange below) (p.shape.own data)))
      (hbelow : Laid f first (first + 1) (p.shape.entries data) below middle)
      (hrest : Laid f parent middle entries ids stop) :
      Laid f parent first ((p, data) :: entries) (first :: ids) stop

namespace Laid

theorem of_eq {stop' : Nat} (h : f.Laid parent first entries ids stop) (heq : stop = stop') :
    f.Laid parent first entries ids stop' := heq ▸ h

theorem append {middle : Nat} {entries' : List (Property × Json)} {ids' : List Nat}
    (h : f.Laid parent first entries ids middle) (h' : f.Laid parent middle entries' ids' stop) :
    f.Laid parent first (entries ++ entries') (ids ++ ids') stop := by
  induction h with
  | nil => exact h'
  | cons hcontrol hbelow _ _ ih => exact .cons hcontrol hbelow (ih h')

theorem le (h : f.Laid parent first entries ids stop) : first ≤ stop := by
  induction h with
  | nil => exact Nat.le_refl _
  | cons _ _ _ ihbelow ihrest => omega

/-- The numbers of a row: the first control, those below it, and the rest. -/
theorem range'_eq (hbelow : f.Laid parent (first + 1) entries ids middle) (hstop : middle ≤ stop) :
    List.range' first (stop - first) = first ::
      (List.range' (first + 1) (middle - (first + 1)) ++ List.range' middle (stop - middle)) := by
  have hmiddle := hbelow.le
  obtain ⟨k, rfl⟩ : ∃ k, middle = first + 1 + k := ⟨middle - (first + 1), by omega⟩
  have hlength : stop - first = k + (stop - (first + 1 + k)) + 1 := by omega
  rw [hlength, List.range'_succ, Nat.add_sub_cancel_left, ← List.range'_append, Nat.one_mul]

/-- A row without entries ends where it begins. -/
theorem eq_of_nil (h : f.Laid parent first [] ids stop) : ids = [] ∧ stop = first := by
  cases h with
  | nil => exact ⟨rfl, rfl⟩

/-- The first entry of a row, what is below it, and the rest of the row. -/
theorem exists_of_cons {p : Property} {data : Json}
    (h : f.Laid parent first ((p, data) :: entries) ids stop) :
    ∃ below middle rest, ids = first :: rest ∧
      f.control? first =
        some (.create (some parent) (some p) (p.shape.arrange below) (p.shape.own data)) ∧
      f.Laid first (first + 1) (p.shape.entries data) below middle ∧
      f.Laid parent middle entries rest stop := by
  cases h with
  | cons hcontrol hbelow hrest => exact ⟨_, _, _, rfl, hcontrol, hbelow, hrest⟩

/-- A plain value takes one control. -/
theorem exists_value {p : Property} {data : Json} (hp : p.shape = .value)
    (h : f.Laid parent first ((p, data) :: entries) ids stop) :
    f.control? first = some (.create (some parent) (some p) .none data) ∧
      ∃ rest, ids = first :: rest ∧ f.Laid parent (first + 1) entries rest stop := by
  obtain ⟨below, middle, rest, hids, hcontrol, hbelow, hrest⟩ := h.exists_of_cons
  rw [hp] at hcontrol hbelow
  obtain ⟨-, rfl⟩ := hbelow.eq_of_nil
  exact ⟨hcontrol, rest, hids, hrest⟩

/-- The controls of the entries are in the row. -/
theorem mem_range (h : f.Laid parent first entries ids stop) {id : Nat} (hid : id ∈ ids) :
    first ≤ id ∧ id < stop := by
  induction h with
  | nil => cases hid
  | cons _ hbelow hrest _ ihrest =>
      have hmiddle := hbelow.le
      have hstop := hrest.le
      rcases List.mem_cons.1 hid with rfl | hid
      · omega
      · have := ihrest hid
        omega

theorem nodup (h : f.Laid parent first entries ids stop) : ids.Nodup := by
  induction h with
  | nil => exact .nil
  | cons _ hbelow hrest _ ihrest =>
      refine List.nodup_cons.2 ⟨fun hmem => ?_, ihrest⟩
      have hmiddle := hbelow.le
      have hlater := (hrest.mem_range hmem).1
      omega

theorem parent? (h : f.Laid parent first entries ids stop) {id : Nat} (hid : id ∈ ids) :
    f.parent? id = some parent := by
  induction h with
  | nil => cases hid
  | cons hcontrol _ _ _ ihrest =>
      rcases List.mem_cons.1 hid with rfl | hid
      · rw [Form.parent?, hcontrol]
        rfl
      · exact ihrest hid

/-- The controls of the entries are described by the properties of the entries. -/
theorem map_property? (h : f.Laid parent first entries ids stop) :
    ids.map f.property? = entries.map fun e => some e.1 := by
  induction h with
  | nil => rfl
  | cons hcontrol _ _ _ ihrest =>
      rw [List.map_cons, List.map_cons, ihrest, Form.property?, hcontrol]
      rfl

theorem contains (h : f.Laid parent first entries ids stop) {id : Nat} (hfirst : first ≤ id)
    (hstop : id < stop) : f.contains id = true := by
  induction h with
  | nil => omega
  | @cons _ first middle _ _ _ _ _ _ hcontrol _ _ ihbelow ihrest =>
      rcases Nat.lt_or_ge id middle with hlt | hge
      · rcases Nat.eq_or_lt_of_le hfirst with rfl | hgt
        · rw [Form.contains, hcontrol]
          rfl
        · exact ihbelow hgt hlt
      · exact ihrest hge hstop

end Laid

/-! ## Blocks -/

/-- The form has the controls of a block, the first of them with the number `first`. -/
def Holds (f : Form) (first : Nat) (block : List Control) : Prop :=
  ∀ i c, block[i]? = some c → f.control? (first + i) = some c

theorem Holds.head {c : Control} {block : List Control} (h : f.Holds first (c :: block)) :
    f.control? first = some c := h 0 c rfl

theorem Holds.tail {c : Control} {block : List Control} (h : f.Holds first (c :: block)) :
    f.Holds (first + 1) block := by
  intro i d hd
  rw [Nat.add_assoc, Nat.add_comm 1]
  exact h (i + 1) d hd

theorem Holds.left {block block' : List Control} (h : f.Holds first (block ++ block')) :
    f.Holds first block := fun i c hc =>
  h i c (by rw [List.getElem?_append_left (List.getElem?_eq_some_iff.1 hc).1, hc])

theorem Holds.right {block block' : List Control} (h : f.Holds first (block ++ block')) :
    f.Holds (first + block.length) block' := by
  intro i c hc
  rw [Nat.add_assoc]
  exact h (block.length + i) c
    (by rw [List.getElem?_append_right (by omega), Nat.add_sub_cancel_left, hc])

end Form

open Form

mutual

/-- The block of a shape is its control and the row of what is below. -/
theorem Shape.laid_block {f : Form} (parent : Option Nat) (property : Option Property) (next : Nat) :
    ∀ (shape : Shape) (data : Json), f.Holds next (shape.block parent property next data) →
      ∃ below,
        f.control? next =
          some (.create parent property (shape.arrange below) (shape.own data)) ∧
        f.Laid next (next + 1) (shape.entries data) below
          (next + (shape.block parent property next data).length)
  | .value, data, h => by
    rw [Shape.block] at h ⊢
    exact ⟨[], h.head, .nil _ _⟩
  | .object children, data, h => by
    rw [Shape.block] at h ⊢
    obtain ⟨below, hnamed, hrow⟩ :=
      Property.laid_blockOfParts next (next + 1) children data h.tail
    refine ⟨below, h.head.trans ?_, ?_⟩
    · rw [hnamed]
      rfl
    · rw [List.length_cons]
      exact hrow.of_eq (by omega)
  | .array item, data, h => by
    rw [Shape.block] at h ⊢
    -- the blocks of the first items stand in the form if those of all items do
    have hfold : ∀ (elements : List Json) (done : List ControlId × List Control),
        let all := elements.foldl
          (fun (done : List ControlId × List Control) element =>
            let here := next + 1 + done.2.length
            (done.1 ++ [here], done.2 ++ Property.block (some next) here item element)) done
        f.Holds (next + 1) all.2 →
          f.Holds (next + 1) done.2 ∧
            ∃ below, all.1 = done.1 ++ below ∧
              f.Laid next (next + 1 + done.2.length)
                (elements.map fun element => (item, element)) below
                (next + 1 + all.2.length) := by
      intro elements
      induction elements with
      | nil => exact fun done (h : f.Holds (next + 1) done.2) => ⟨h, [], (List.append_nil _).symm, .nil _ _⟩
      | cons element elements ih =>
          intro done _ h
          obtain ⟨hholds, below, hids, hrow⟩ := ih _ h
          have hitem := Property.laid_block next _ item element hholds.right
          refine ⟨hholds.left, (next + 1 + done.2.length) :: below, ?_, ?_⟩
          · exact hids.trans (List.append_assoc _ _ _)
          · rw [List.length_append, ← Nat.add_assoc] at hrow
            exact hitem.append hrow
    obtain ⟨-, below, hids, hrow⟩ := hfold data.items ([], []) h.tail
    refine ⟨below, h.head.trans ?_, ?_⟩
    · rw [hids]
      rfl
    · rw [List.length_cons]
      exact hrow.of_eq (by omega)

/-- The block of a property is its control and the row of what is below. -/
theorem Property.laid_block {f : Form} (parent next : Nat) :
    ∀ (p : Property) (data : Json), f.Holds next (p.block (some parent) next data) →
      f.Laid parent next [(p, data)] [next] (next + (p.block (some parent) next data).length)
  | ⟨name, path, owner, valid, edit, view, shape, policy⟩, data, h => by
    rw [Property.block] at h ⊢
    obtain ⟨below, hcontrol, hrow⟩ := Shape.laid_block (some parent) _ next shape data h
    exact .cons hcontrol hrow (.nil _ _)

/-- The blocks of the parts of an object are the row of its entries. -/
theorem Property.laid_blockOfParts {f : Form} (parent next : Nat) :
    ∀ (parts : List Property) (data : Json),
      f.Holds next (Property.blockOfParts parent next parts data).2 →
      ∃ below,
        (Property.blockOfParts parent next parts data).1 =
          (parts.filterMap Property.name).zip below ∧
        f.Laid parent next ((Shape.object parts).entries data) below
          (next + (Property.blockOfParts parent next parts data).2.length)
  | [], data, h => by
    rw [Property.blockOfParts]
    exact ⟨[], rfl, .nil _ _⟩
  | p :: parts, data, h => by
    rw [Property.blockOfParts] at h ⊢
    cases hname : p.name with
    | none =>
      rw [hname] at h
      obtain ⟨below, hnamed, hrow⟩ := Property.laid_blockOfParts parent next parts data h
      refine ⟨below, ?_, ?_⟩
      · rw [List.filterMap_cons, hname]
        exact hnamed
      · rw [Shape.entries, List.filterMap_cons, hname]
        exact hrow
    | some name =>
      rw [hname] at h
      obtain ⟨below, hnamed, hrow⟩ := Property.laid_blockOfParts parent _ parts data h.right
      refine ⟨next :: below, ?_, ?_⟩
      · rw [List.filterMap_cons, hname]
        exact congrArg (List.cons _) hnamed
      · rw [Shape.entries, List.filterMap_cons, hname]
        dsimp only [Option.map_some]
        rw [List.length_append, ← Nat.add_assoc]
        exact (Property.laid_block parent next p (data.field name) h.left).append hrow

end

end ReactiveForm
