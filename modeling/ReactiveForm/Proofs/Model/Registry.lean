import Mathlib.Data.List.Nodup
import ReactiveForm.Model.Registry
import ReactiveForm.Proofs.Model.Names

/-!
# What a registry remembers

A registry is used together with the copies that it has handed out (`Registry.Use`): models are
registered, copies are taken, changed and possibly registered again, and questions are asked. The
ledger of such a run lists the models whose registration succeeded, as they were when they were
registered (`Use.ledger`).

The registry holds the models of the ledger with its own policy filled in, in ascending order of
their names (`Registry.Holds`). A registration that succeeds puts one model into the ledger, and
everything else leaves the registry as it is (`Use.holds_apply`). So all answers of the registry are
those that a look at the ledger gives (`Registry.Holds.remembers`), and a refused registration is as
if it had not been tried.
-/

namespace ReactiveForm

namespace Model

variable {m : Model} {l : List Model} {name : String}

/-- The model with a policy for it, if it has none. -/
def fill (policy : ChangePolicy) (m : Model) : Model :=
  { m with defaultPolicy := some (m.defaultPolicy.getD policy) }

theorem name_foldl_add (properties : List Property) (m : Model) :
    (properties.foldl add m).name = m.name := by
  induction properties generalizing m with
  | nil => rfl
  | cons p properties ih => exact ih (m.add p)

/-- A model that was described step by step has a name that is not blank. -/
theorem Built.isAllBlank_name (h : m.Built) : Text.isAllBlank m.name = false := by
  induction h with
  | @ofProperties name properties m _ h =>
      unfold Model.ofProperties at h
      split at h
      · cases h
      · rename_i hname
        cases h
        rw [name_foldl_add]
        exact Bool.eq_false_iff.2 hname
  | add _ _ ih => exact ih
  | withDefaultPolicy _ _ ih => exact ih

/-- Of models with different names, the one of a name is found. -/
theorem find?_name_eq_some_iff (h : (l.map Model.name).Nodup) :
    l.find? (fun m => m.name == name) = some m ↔ m ∈ l ∧ m.name = name := by
  have hname {k : Model} (hk : l.find? (fun m => m.name == name) = some k) : k.name = name := by
    simpa using List.find?_some hk
  constructor
  · exact fun hfound => ⟨List.mem_of_find?_eq_some hfound, hname hfound⟩
  · rintro ⟨hm, rfl⟩
    cases hfound : l.find? fun k => k.name == m.name with
    | none => exact absurd (beq_self_eq_true m.name) (List.find?_eq_none.1 hfound m hm)
    | some k =>
        rw [List.inj_on_of_nodup_map h (List.mem_of_find?_eq_some hfound) hm (hname hfound)]

theorem isSome_find?_name_iff :
    (l.find? fun m => m.name == name).isSome = true ↔ name ∈ l.map Model.name := by
  rw [List.find?_isSome, List.mem_map]
  simp only [beq_iff_eq]

end Model

namespace Registry

variable {r r' : Registry} {m : Model} {ms kept : List Model} {policy : ChangePolicy}

/-! ## Registering -/

theorem fillPolicy_eq (r : Registry) (m : Model) : r.fillPolicy m = m.fill r.defaultPolicy := by
  unfold fillPolicy Model.fill
  cases m.defaultPolicy <;> rfl

/-- The names ascend. -/
def Sorted (ms : List Model) : Prop := ms.Pairwise fun a b => a.name < b.name

theorem Sorted.nodup_names (h : Sorted ms) : (ms.map Model.name).Nodup := by
  refine List.Pairwise.map _ (fun a b hlt heq => ?_) h
  exact String.lt_irrefl b.name (heq ▸ hlt)

theorem perm_insertModel (m : Model) (ms : List Model) : (insertModel m ms).Perm (m :: ms) := by
  induction ms with
  | nil => exact .refl _
  | cons n ms ih =>
      unfold insertModel
      split
      · exact .refl _
      · exact (ih.cons n).trans (.swap m n ms)

theorem Sorted.insertModel (h : Sorted ms) (hnew : m.name ∉ ms.map Model.name) :
    Sorted (insertModel m ms) := by
  induction ms with
  | nil => exact List.pairwise_singleton _ _
  | cons n ms ih =>
      obtain ⟨hn, hms⟩ := List.pairwise_cons.1 h
      rw [List.map_cons, List.mem_cons, not_or] at hnew
      unfold Registry.insertModel
      split
      · rename_i hlt
        refine List.pairwise_cons.2 ⟨fun k hk => ?_, h⟩
        rcases List.mem_cons.1 hk with rfl | hk
        · exact hlt
        · exact String.lt_trans hlt (hn k hk)
      · rename_i hnlt
        have hlt : n.name < m.name := by
          rw [← String.not_le]
          exact fun hle => hnew.1 (String.le_antisymm hle (String.not_lt.1 hnlt))
        refine List.pairwise_cons.2 ⟨fun k hk => ?_, ih hms hnew.2⟩
        rcases List.mem_cons.1 ((perm_insertModel m ms).mem_iff.1 hk) with rfl | hk
        · exact hlt
        · exact hn k hk

theorem contains_iff {name : String} : r.contains name = true ↔ name ∈ r.names :=
  Model.isSome_find?_name_iff

theorem register_of_mem_names (hname : Text.isAllBlank m.name = false) (hm : m.name ∈ r.names) :
    r.register m = .error (.duplicateSettings m.name) := by
  rw [register, if_neg (by simp [hname]), if_pos (contains_iff.2 hm)]

theorem register_of_not_mem_names (hname : Text.isAllBlank m.name = false)
    (hm : m.name ∉ r.names) :
    r.register m = .ok { r with models := insertModel (r.fillPolicy m) r.models } := by
  rw [register, if_neg (by simp [hname]), if_neg fun h => hm (contains_iff.1 h)]

/-- A registration succeeds only for a name that is not registered, and puts the model in. -/
theorem register_eq_ok (h : r.register m = .ok r') : m.name ∉ r.names ∧
    r' = { r with models := insertModel (r.fillPolicy m) r.models } := by
  unfold register at h
  split at h
  · cases h
  · split at h
    · cases h
    · rename_i hnew
      cases h
      exact ⟨fun hmem => hnew (contains_iff.2 hmem), rfl⟩

/-! ## The ledger of a registry -/

/-- The registry holds the models of a ledger, filled up with a policy, sorted by their names. -/
structure Holds (policy : ChangePolicy) (kept : List Model) (r : Registry) : Prop where
  default : r.defaultPolicy = policy
  sorted : Sorted r.models
  perm : r.models.Perm (kept.map (Model.fill policy))

theorem holds_ofConfig (c : Config) : (ofConfig c).Holds (.ofConfig c) [] where
  default := rfl
  sorted := .nil
  perm := .refl _

namespace Holds

theorem perm_names (h : r.Holds policy kept) : r.names.Perm (kept.map Model.name) := by
  have hperm := h.perm.map Model.name
  rwa [List.map_map] at hperm

theorem nodup_names (h : r.Holds policy kept) : (kept.map Model.name).Nodup :=
  h.perm_names.nodup_iff.1 h.sorted.nodup_names

theorem register (h : r.Holds policy kept) (hok : r.register m = .ok r') :
    r'.Holds policy (kept ++ [m]) := by
  obtain ⟨hnew, rfl⟩ := register_eq_ok hok
  refine ⟨h.default, h.sorted.insertModel hnew, ?_⟩
  rw [List.map_append, List.map_singleton, fillPolicy_eq, h.default]
  exact (perm_insertModel _ _).trans
    ((h.perm.cons _).trans (List.perm_append_singleton _ _).symm)

end Holds

/-- What a registry answers, read off a ledger: a name is registered if a model in the ledger has
it, and that model with the policy filled in is found under it. -/
structure Remembers (policy : ChangePolicy) (kept : List Model) (r : Registry) : Prop where
  /-- A model can be registered if no model of its name was. -/
  register_iff : ∀ m : Model, Text.isAllBlank m.name = false →
    ((∃ r', r.register m = .ok r') ↔ m.name ∉ kept.map Model.name)
  /-- Otherwise it is refused. -/
  refuse : ∀ m : Model, Text.isAllBlank m.name = false → m.name ∈ kept.map Model.name →
    r.register m = .error (.duplicateSettings m.name)
  /-- The names are listed in strictly ascending order. -/
  sorted : r.names.Pairwise (· < ·)
  /-- They are those of the ledger. -/
  names : ∀ name, name ∈ r.names ↔ name ∈ kept.map Model.name
  /-- A registered name is known as such. -/
  contains : ∀ name, r.contains name = true ↔ name ∈ kept.map Model.name
  /-- Under a registered name something is found. -/
  isSome_get? : ∀ name, (r.get? name).isSome = true ↔ name ∈ kept.map Model.name
  /-- It is the model of the ledger, filled up. -/
  get? : ∀ name, r.get? name = (kept.find? fun m => m.name == name).map (Model.fill policy)
  /-- A registered name can be required. -/
  require_iff : ∀ name, (∃ m, r.require name = .ok m) ↔ name ∈ kept.map Model.name
  /-- What is required is what is found. -/
  require : ∀ name m, r.require name = .ok m ↔ r.get? name = some m

theorem require_eq_ok_iff {name : String} : r.require name = .ok m ↔ r.get? name = some m := by
  unfold require
  cases r.get? name <;> simp

theorem Holds.remembers (h : r.Holds policy kept) : r.Remembers policy kept := by
  have hnames (name : String) : name ∈ r.names ↔ name ∈ kept.map Model.name := h.perm_names.mem_iff
  have hsome (name : String) : (r.get? name).isSome = true ↔ name ∈ kept.map Model.name :=
    Model.isSome_find?_name_iff.trans (hnames name)
  refine ⟨fun m hname => ?_, fun m hname hm => register_of_mem_names hname ((hnames _).2 hm),
    List.pairwise_map.2 h.sorted, hnames, hsome, hsome, fun name => ?_, fun name => ?_,
    fun name m => require_eq_ok_iff⟩
  · rw [← hnames]
    exact ⟨fun ⟨_, hok⟩ => (register_eq_ok hok).1,
      fun hnew => ⟨_, register_of_not_mem_names hname hnew⟩⟩
  · refine Option.ext fun m => ?_
    rw [Registry.get?, Model.find?_name_eq_some_iff h.sorted.nodup_names, h.perm.mem_iff,
      List.mem_map, Option.map_eq_some_iff]
    simp only [Model.find?_name_eq_some_iff h.nodup_names]
    constructor
    · rintro ⟨⟨k, hk, rfl⟩, hname⟩
      exact ⟨k, ⟨hk, hname⟩, rfl⟩
    · rintro ⟨k, ⟨hk, hname⟩, rfl⟩
      exact ⟨⟨k, hk, rfl⟩, hname⟩
  · rw [← hsome, Option.isSome_iff_exists]
    exact exists_congr fun m => require_eq_ok_iff

/-! ## Using a registry -/

/-- A registry and the copies that were taken from it, in order. -/
structure Use where
  /-- The registry. -/
  registry : Registry
  /-- The copies, with the changes that were made to them. -/
  copies : List Model

/-- What can be done with a registry and with its copies. -/
inductive Op where
  /-- Register a model. -/
  | register (m : Model)
  /-- Register a copy as it is now. -/
  | registerCopy (i : Nat)
  /-- Take a copy, if there is one. -/
  | get (name : String)
  /-- Take a copy that has to be there. -/
  | require (name : String)
  /-- Ask for a name. -/
  | contains (name : String)
  /-- Ask for all names. -/
  | names
  /-- Put a property into a copy. -/
  | addProperty (i : Nat) (p : Property)
  /-- Give a copy another policy. -/
  | setDefaultPolicy (i : Nat) (policy : ChangePolicy)

/-- What an operation answers. -/
inductive Answer where
  /-- The outcome of a registration. -/
  | registered (outcome : Except FormError Unit)
  /-- What was found. -/
  | found (m : Option Model)
  /-- What was required. -/
  | required (outcome : Except FormError Model)
  /-- Whether a name is registered. -/
  | known (b : Bool)
  /-- The registered names. -/
  | listed (names : List String)
  /-- Nothing. -/
  | silence

namespace Use

variable {u : Use}

/-- An empty registry under a configuration. -/
def start (c : Config) : Use := ⟨.ofConfig c, []⟩

/-- The answer to the registration of a model. -/
def outcome (u : Use) (m : Model) : Answer := .registered ((u.registry.register m).map fun _ => ())

/-- Try to register a model. -/
def submit (u : Use) (m : Model) : Use :=
  { u with registry := (u.registry.register m).toOption.getD u.registry }

/-- The answer to an operation. -/
def answer (u : Use) : Op → Answer
  | .register m => u.outcome m
  | .registerCopy i => (u.copies[i]?.map u.outcome).getD .silence
  | .get name => .found (u.registry.get? name)
  | .require name => .required (u.registry.require name)
  | .contains name => .known (u.registry.contains name)
  | .names => .listed u.registry.names
  | .addProperty _ _ | .setDefaultPolicy _ _ => .silence

/-- Carry out an operation. -/
def apply (u : Use) : Op → Use
  | .register m => u.submit m
  | .registerCopy i => (u.copies[i]?.map u.submit).getD u
  | .get name => { u with copies := u.copies ++ (u.registry.get? name).toList }
  | .require name => { u with copies := u.copies ++ (u.registry.require name).toOption.toList }
  | .addProperty i p => { u with copies := u.copies.modify i fun m => m.add p }
  | .setDefaultPolicy i policy =>
    { u with copies := u.copies.modify i fun m => m.withDefaultPolicy policy }
  | .contains _ | .names => u

/-- Carry out operations, one after the other. -/
def run (u : Use) (ops : List Op) : Use := ops.foldl apply u

/-- The answers to operations, one after the other. -/
def answers (u : Use) : List Op → List Answer
  | [] => []
  | op :: ops => u.answer op :: (u.apply op).answers ops

/-- The model, if it can be registered. -/
def accepted? (u : Use) (m : Model) : Option Model :=
  if (u.registry.register m).isOk then some m else none

/-- The model that an operation tries to register. -/
def offered? (u : Use) : Op → Option Model
  | .register m => some m
  | .registerCopy i => u.copies[i]?
  | _ => none

/-- The model that an operation registers, if it succeeds. -/
def registers? (u : Use) (op : Op) : Option Model := (u.offered? op).bind u.accepted?

/-- The models that operations register, in order. -/
def ledger (u : Use) : List Op → List Model
  | [] => []
  | op :: ops => (u.registers? op).toList ++ (u.apply op).ledger ops

/-- A registration that is refused changes nothing. -/
theorem submit_of_refused {m : Model} {error : FormError}
    (h : u.registry.register m = .error error) : u.submit m = u := by
  rw [submit, h]
  rfl

theorem holds_submit (h : u.registry.Holds policy kept) (m : Model) :
    (u.submit m).registry.Holds policy (kept ++ (u.accepted? m).toList) := by
  unfold submit accepted?
  cases hok : u.registry.register m with
  | ok r => exact h.register hok
  | error err => simpa [Except.isOk, Except.toBool, Except.toOption] using h

theorem answer_of_offered? {op : Op} {m : Model} (h : u.offered? op = some m) :
    u.answer op = u.outcome m := by
  cases op with
  | register => cases h; rfl
  | registerCopy i =>
      change u.copies[i]? = some m at h
      rw [answer, h]
      rfl
  | _ => cases h

theorem apply_of_offered? {op : Op} {m : Model} (h : u.offered? op = some m) :
    u.apply op = u.submit m := by
  cases op with
  | register => cases h; rfl
  | registerCopy i =>
      change u.copies[i]? = some m at h
      rw [apply, h]
      rfl
  | _ => cases h

/-- Without a model to register nothing happens to the registry. -/
theorem registry_apply_of_offered? {op : Op} (h : u.offered? op = none) :
    (u.apply op).registry = u.registry := by
  cases op with
  | register => cases h
  | registerCopy i =>
      change u.copies[i]? = none at h
      rw [apply, h]
      rfl
  | _ => rfl

/-- The ledger grows by what an operation registers. -/
theorem holds_apply (h : u.registry.Holds policy kept) (op : Op) :
    (u.apply op).registry.Holds policy (kept ++ (u.registers? op).toList) := by
  unfold registers?
  cases hoffered : u.offered? op with
  | none =>
      rw [registry_apply_of_offered? hoffered, Option.bind_none, Option.toList_none,
        List.append_nil]
      exact h
  | some m =>
      rw [apply_of_offered? hoffered]
      exact holds_submit h m

theorem holds_run (h : u.registry.Holds policy kept) (ops : List Op) :
    (u.run ops).registry.Holds policy (kept ++ u.ledger ops) := by
  induction ops generalizing u kept with
  | nil => rwa [ledger, List.append_nil]
  | cons op ops ih =>
      rw [ledger, ← List.append_assoc]
      exact ih (holds_apply h op)

end Use

end Registry

end ReactiveForm
