import Mathlib.Data.List.Infix
import ReactiveForm.Config.Basic
import ReactiveForm.Proofs.Text.Words

/-!
# Each setting has variables of its own

A setting of a configuration is decided by its key and by the variant of the key for the active
profile (`Setting.Decides`). The text that counts is that of the variant if it has one that is not
empty, and that of the key otherwise (`Supplies`). It decides the value if it denotes one, and if it
does not, the default counts: the other text is not asked any more.

So two sources of variables that agree on the key and its variant give the setting the same value
(`Setting.get_congr`), and no two settings and no two profiles have a variable in common: no key
ends in another one behind an underscore (`variant_inj`), whatever the profile is. What is set for
one profile or setting is not seen by another one.
-/

namespace ReactiveForm.Config

variable {vars others : Variables} {profile name key text : String}

/-! ## The text of a key -/

/-- The variant of a key for a profile. -/
def variant (profile key : String) : String := profile ++ "_" ++ key

/-- The variables that a key has under a profile: its variant, unless there is no profile, and the
key itself. -/
def variablesOf (profile key : String) : List String :=
  if profile = "" then [key] else [variant profile key, key]

/-- The text that counts for a key under a profile. -/
inductive Supplies (vars : Variables) (profile key : String) : String → Prop where
  /-- The variant has a text that is not empty. -/
  | variant {text : String} (hprofile : profile ≠ "")
      (hset : vars (variant profile key) = some text) (hne : text ≠ "") :
      Supplies vars profile key text
  /-- There is no such text, and the key itself has one. -/
  | plain {text : String}
      (hunset : profile = "" ∨ ∀ other, vars (Config.variant profile key) = some other → other = "")
      (hset : vars key = some text) (hne : text ≠ "") : Supplies vars profile key text

theorem nonempty?_eq_some_iff : nonempty? vars key = some text ↔ vars key = some text ∧ text ≠ "" := by
  rw [nonempty?, Option.filter_eq_some_iff, Bool.not_eq_true', Bool.eq_false_iff, ne_eq,
    String.isEmpty_iff]

theorem nonempty?_eq_none_iff :
    nonempty? vars key = none ↔ ∀ other, vars key = some other → other = "" := by
  rw [nonempty?, Option.filter_eq_none_iff]
  simp only [Bool.not_eq_true', Bool.not_eq_false, String.isEmpty_iff]

theorem profiled?_eq_some_iff :
    profiled? vars profile key = some text ↔ Supplies vars profile key text := by
  unfold profiled?
  split
  · rename_i hempty
    rw [String.isEmpty_iff] at hempty
    rw [nonempty?_eq_some_iff]
    constructor
    · exact fun h => .plain (.inl hempty) h.1 h.2
    · intro h
      cases h with
      | variant hprofile => exact absurd hempty hprofile
      | plain _ hset hne => exact ⟨hset, hne⟩
  · rename_i hprofile
    rw [String.isEmpty_iff] at hprofile
    rw [Option.or_eq_some_iff, nonempty?_eq_some_iff, nonempty?_eq_some_iff, nonempty?_eq_none_iff]
    constructor
    · rintro (⟨hset, hne⟩ | ⟨hunset, hset, hne⟩)
      · exact .variant hprofile hset hne
      · exact .plain (.inr hunset) hset hne
    · intro h
      cases h with
      | variant _ hset hne => exact .inl ⟨hset, hne⟩
      | plain hunset hset hne => exact .inr ⟨hunset.resolve_left hprofile, hset, hne⟩

theorem profiled?_congr (h : ∀ x ∈ variablesOf profile key, others x = vars x) :
    profiled? others profile key = profiled? vars profile key := by
  unfold variablesOf at h
  unfold profiled? nonempty?
  by_cases hempty : profile = ""
  · rw [if_pos hempty, List.forall_mem_singleton] at h
    rw [if_pos (String.isEmpty_iff.2 hempty), if_pos (String.isEmpty_iff.2 hempty), h]
  · rw [if_neg hempty, List.forall_mem_cons, List.forall_mem_singleton, variant] at h
    rw [if_neg (mt String.isEmpty_iff.1 hempty), if_neg (mt String.isEmpty_iff.1 hempty), h.1, h.2]

/-! ## What a text denotes -/

/-- The text is a number with blanks around it. -/
def DenotesNumber (text : String) (n : Nat) : Prop :=
  ∃ word, Text.Padded word text.toList ∧ Text.WritesWord n word

/-- The words for a switch that is on, or off. -/
def switchWords (on : Bool) : List String :=
  if on then ["1", "true", "yes", "on"] else ["0", "false", "no", "off"]

/-- The text is a word for a switch with blanks around it, where capital letters count as small
ones. -/
def DenotesSwitch (text : String) (on : Bool) : Prop :=
  ∃ word, Text.Padded word text.toList ∧ String.ofList (word.map Char.toLower) ∈ switchWords on

theorem readNumber?_eq_some_iff {n : Nat} : readNumber? text = some n ↔ DenotesNumber text n :=
  Text.readWord?_trim_eq_some_iff

/-- No word for a switch has a blank character. -/
theorem not_isBlank_of_mem_switchWords {on : Bool} {word : List Char}
    (h : String.ofList (word.map Char.toLower) ∈ switchWords on) :
    ∀ c ∈ word, Text.isBlank c = false := by
  intro c hc
  have hwords : ((switchWords true ++ switchWords false).all fun s =>
      s.toList.all fun c => !Text.isBlank c) = true := by decide +kernel
  have hmem : String.ofList (word.map Char.toLower) ∈ switchWords true ++ switchWords false := by
    cases on with
    | true => exact List.mem_append_left _ h
    | false => exact List.mem_append_right _ h
  have hsmall := List.all_eq_true.1 (List.all_eq_true.1 hwords _ hmem) c.toLower
  rw [String.toList_ofList, Bool.not_eq_true'] at hsmall
  rw [← Text.isBlank_toLower]
  exact hsmall (List.mem_map_of_mem hc)

theorem readSwitch?_eq_some_iff {on : Bool} : readSwitch? text = some on ↔ DenotesSwitch text on := by
  have hread : readSwitch? text = some on ↔
      String.ofList ((Text.trimChars text.toList).map Char.toLower) ∈ switchWords on := by
    have hapart : ∀ word ∈ switchWords true, word ∉ switchWords false := by decide
    let word := String.ofList ((Text.trimChars text.toList).map Char.toLower)
    show (if word ∈ switchWords true then some true
      else if word ∈ switchWords false then some false else none) = some on ↔ word ∈ switchWords on
    by_cases htrue : word ∈ switchWords true
    · rw [if_pos htrue]
      cases on with
      | true => exact iff_of_true rfl htrue
      | false => exact iff_of_false nofun (hapart word htrue)
    · rw [if_neg htrue]
      cases on with
      | true => exact iff_of_false (by split <;> nofun) htrue
      | false => simp
  rw [hread]
  constructor
  · exact fun h => ⟨_, Text.padded_trimChars _, h⟩
  · rintro ⟨word, hpadded, hword⟩
    rwa [hpadded.trimChars_eq (not_isBlank_of_mem_switchWords hword)]

/-! ## Settings -/

/-- A setting of a configuration with values of a type. -/
structure Setting (α : Type) where
  /-- The key of the setting. -/
  key : String
  /-- Whether a text denotes a value. -/
  Denotes : String → α → Prop
  /-- The value where no text denotes one. -/
  default : α
  /-- What becomes of a value in the configuration. -/
  fit : α → α
  /-- The setting in a configuration. -/
  get : Config → α

namespace Setting

variable {α : Type} {s : Setting α} {value : α}

/-- A wait, in milliseconds. -/
def wait (key : String) (get : PolicyDefaults → Nat) : Setting Nat :=
  ⟨key, DenotesNumber, 0, id, fun c => get c.policy⟩

/-- A switch with a default. -/
def switch (key : String) (default : Bool) (get : PolicyDefaults → Bool) : Setting Bool :=
  ⟨key, DenotesSwitch, default, id, fun c => get c.policy⟩

/-- The capacity of a stream, which has at least one place. -/
def capacity : Setting Nat :=
  ⟨"FIELDRULES_CHANNEL_CAPACITY", DenotesNumber, 64, max 1, channelCapacity⟩

/-- The value that the variables decide on for a setting. -/
inductive Decides (s : Setting α) (vars : Variables) (profile : String) : α → Prop where
  /-- The text that counts denotes a value. -/
  | denoted {text : String} {value : α} (htext : Supplies vars profile s.key text)
      (hvalue : s.Denotes text value) : Decides s vars profile (s.fit value)
  /-- There is no text, or it denotes nothing. -/
  | default (hnone : ∀ text value, Supplies vars profile s.key text → ¬ s.Denotes text value) :
      Decides s vars profile (s.fit s.default)

/-- A setting is decided by reading its text, if the reader reads what a text denotes. -/
theorem decides_iff {read? : String → Option α}
    (hread : ∀ text value, read? text = some value ↔ s.Denotes text value) :
    s.Decides vars profile value ↔
      s.fit (((profiled? vars profile s.key).bind read?).getD s.default) = value := by
  have htext (text : String) (value : α) : profiled? vars profile s.key = some text ∧
      read? text = some value ↔ Supplies vars profile s.key text ∧ s.Denotes text value := by
    rw [profiled?_eq_some_iff, hread]
  cases hfound : (profiled? vars profile s.key).bind read? with
  | some found =>
      obtain ⟨text, hsupplied, hdenoted⟩ := Option.bind_eq_some_iff.1 hfound
      constructor
      · intro h
        cases h with
        | @denoted other _ hother hvalue =>
            have hsame := Option.bind_eq_some_iff.2 ⟨other, (htext _ _).2 ⟨hother, hvalue⟩⟩
            rw [hfound] at hsame
            cases hsame
            rfl
        | default hnone =>
            obtain ⟨hother, hvalue⟩ := (htext _ _).1 ⟨hsupplied, hdenoted⟩
            exact absurd hvalue (hnone _ _ hother)
      · rintro rfl
        obtain ⟨hother, hvalue⟩ := (htext _ _).1 ⟨hsupplied, hdenoted⟩
        exact .denoted hother hvalue
  | none =>
      have hnone : ∀ text value, Supplies vars profile s.key text → ¬ s.Denotes text value := by
        intro text value hother hvalue
        have hsome := Option.bind_eq_some_iff.2 ⟨text, (htext _ _).2 ⟨hother, hvalue⟩⟩
        rw [hfound] at hsome
        cases hsome
      constructor
      · intro h
        cases h with
        | denoted hother hvalue => exact absurd hvalue (hnone _ _ hother)
        | default _ => rfl
      · rintro rfl
        exact .default hnone

/-- The setting is decided by the variables of its own key and by no others. -/
structure Isolated (s : Setting α) (vars : Variables) (name : String) : Prop where
  /-- Its value is the one that the variables decide on. -/
  decided : ∀ value, s.Decides vars (Text.upper name) value ↔ s.get (forProfile vars name) = value
  /-- Sources of variables that agree on those of its key give it the same value. -/
  alone : ∀ others : Variables, (∀ x ∈ variablesOf (Text.upper name) s.key, others x = vars x) →
    s.get (forProfile others name) = s.get (forProfile vars name)

theorem isolated_of_get {read? : String → Option α}
    (hread : ∀ text value, read? text = some value ↔ s.Denotes text value)
    (hget : ∀ vars, s.get (forProfile vars name) =
      s.fit (((profiled? vars (Text.upper name) s.key).bind read?).getD s.default)) :
    s.Isolated vars name where
  decided value := by rw [decides_iff hread, hget]
  alone others h := by rw [hget, hget, profiled?_congr h]

theorem isolated_wait {get : PolicyDefaults → Nat}
    (hget : ∀ vars, get (forProfile vars name).policy = number vars (Text.upper name) key 0) :
    (wait key get).Isolated vars name :=
  isolated_of_get (fun _ _ => readNumber?_eq_some_iff) fun vars => by
    simp only [wait, hget vars, number, id]

theorem isolated_switch {on : Bool} {get : PolicyDefaults → Bool}
    (hget : ∀ vars, get (forProfile vars name).policy =
      Config.switch vars (Text.upper name) key on) :
    (switch key on get).Isolated vars name :=
  isolated_of_get (fun _ _ => readSwitch?_eq_some_iff) fun vars => by
    simp only [switch, hget vars, Config.switch, id]

theorem isolated_capacity : capacity.Isolated vars name :=
  isolated_of_get (fun _ _ => readNumber?_eq_some_iff) fun _ => by
    simp only [capacity, forProfile, number, standard]

/-- The settings with numbers. -/
def numbers : List (Setting Nat) :=
  [wait "FIELDRULES_DEPENDENCY_VALID_DEBOUNCE_MS" PolicyDefaults.dependencyValidDebounce,
    wait "FIELDRULES_DEPENDENCY_EDIT_DEBOUNCE_MS" PolicyDefaults.dependencyEditDebounce,
    wait "FIELDRULES_SELF_EDIT_DEBOUNCE_MS" PolicyDefaults.selfEditDebounce,
    wait "FIELDRULES_SELF_ASYNC_VALID_DEBOUNCE_MS" PolicyDefaults.selfAsyncValidDebounce,
    capacity]

/-- The settings with switches. -/
def switches : List (Setting Bool) :=
  [switch "FIELDRULES_DEPENDENCY_DISTINCT" false PolicyDefaults.dependencyDistinct,
    switch "FIELDRULES_SELF_EDIT_DISTINCT" true PolicyDefaults.selfEditDistinct,
    switch "FIELDRULES_SELF_ASYNC_VALID_DISTINCT" true PolicyDefaults.selfAsyncValidDistinct]

/-- The keys of all settings. -/
def keys : List String := numbers.map Setting.key ++ switches.map Setting.key

theorem isolated_of_mem_numbers (vars : Variables) (name : String) :
    ∀ s ∈ numbers, s.Isolated vars name := by
  simp only [numbers, List.forall_mem_cons]
  refine ⟨isolated_wait fun _ => ?_, isolated_wait fun _ => ?_, isolated_wait fun _ => ?_,
    isolated_wait fun _ => ?_, isolated_capacity, List.forall_mem_nil _⟩ <;>
    simp only [forProfile, PolicyDefaults.standard]

theorem isolated_of_mem_switches (vars : Variables) (name : String) :
    ∀ s ∈ switches, s.Isolated vars name := by
  simp only [switches, List.forall_mem_cons]
  refine ⟨isolated_switch fun _ => ?_, isolated_switch fun _ => ?_, isolated_switch fun _ => ?_,
    List.forall_mem_nil _⟩ <;>
    simp only [forProfile, PolicyDefaults.standard]

/-- A configuration is made up of its profile and its settings. -/
theorem eq_of_settings {c d : Config} (hprofile : c.profile = d.profile)
    (hnumbers : ∀ s ∈ numbers, s.get c = s.get d) (hswitches : ∀ s ∈ switches, s.get c = s.get d) :
    c = d := by
  obtain ⟨_, ⟨_, _, _, _, _, _, _⟩, _⟩ := c
  obtain ⟨_, ⟨_, _, _, _, _, _, _⟩, _⟩ := d
  simp only [numbers, switches, wait, switch, capacity, List.forall_mem_cons] at hnumbers hswitches
  simp_all

/-! ## No variable in common -/

/-- No key has another one behind an underscore in it. -/
theorem not_suffix_of_mem_keys : ∀ key ∈ keys, ∀ other ∈ keys,
    ¬ ('_' :: other.toList) <:+ key.toList := by
  decide +kernel

theorem toList_variant (profile key : String) :
    (variant profile key).toList = profile.toList ++ '_' :: key.toList := by
  rw [variant, String.toList_append, String.toList_append, List.append_assoc]
  rfl

/-- Variants of keys are the same only if the profiles and the keys are. -/
theorem variant_inj {profile profile' key key' : String} (hkey : key ∈ keys) (hkey' : key' ∈ keys)
    (h : variant profile key = variant profile' key') : profile = profile' ∧ key = key' := by
  have hchars : profile.toList ++ '_' :: key.toList = profile'.toList ++ '_' :: key'.toList := by
    rw [← toList_variant, h, toList_variant]
  have hsame : key = key' := by
    rcases List.suffix_or_suffix_of_suffix (List.suffix_append profile.toList ('_' :: key.toList))
      ⟨profile'.toList, hchars.symm⟩ with hsuffix | hsuffix
    · rcases List.suffix_cons_iff.1 hsuffix with heq | hinside
      · exact String.toList_inj.1 (List.cons.inj heq).2
      · exact absurd hinside (not_suffix_of_mem_keys key' hkey' key hkey)
    · rcases List.suffix_cons_iff.1 hsuffix with heq | hinside
      · exact (String.toList_inj.1 (List.cons.inj heq).2).symm
      · exact absurd hinside (not_suffix_of_mem_keys key hkey key' hkey')
  subst hsame
  exact ⟨String.toList_inj.1 (List.append_cancel_right hchars), rfl⟩

/-- The variant of a key is no key. -/
theorem variant_not_mem_keys {profile key : String} (hkey : key ∈ keys) :
    variant profile key ∉ keys := by
  intro hmem
  refine not_suffix_of_mem_keys _ hmem key hkey ?_
  rw [toList_variant]
  exact List.suffix_append _ _

theorem eq_of_mem_variablesOf {profile key other : String} (hkey : key ∈ keys)
    (hother : other ∈ keys) (hmem : other ∈ variablesOf profile key) : other = key := by
  unfold variablesOf at hmem
  split at hmem
  · exact List.mem_singleton.1 hmem
  · rcases List.mem_cons.1 hmem with heq | hmem
    · exact absurd (heq ▸ hother) (variant_not_mem_keys hkey)
    · exact List.mem_singleton.1 hmem

theorem variant_inj_of_mem_variablesOf {profile profile' key other : String} (hkey : key ∈ keys)
    (hother : other ∈ keys) (hmem : variant profile' other ∈ variablesOf profile key) :
    other = key ∧ profile' = profile := by
  have hplain : variant profile' other ≠ key := fun heq =>
    variant_not_mem_keys hother (heq ▸ hkey)
  unfold variablesOf at hmem
  split at hmem
  · exact absurd (List.mem_singleton.1 hmem) hplain
  · rcases List.mem_cons.1 hmem with heq | hmem
    · exact (variant_inj hother hkey heq).symm
    · exact absurd (List.mem_singleton.1 hmem) hplain

end Setting

/-! ## Whole configurations -/

open Setting in
/-- Sources of variables that agree on those of all keys give the same configuration. -/
theorem forProfile_congr
    (h : ∀ key ∈ keys, ∀ x ∈ variablesOf (Text.upper name) key, others x = vars x) :
    forProfile others name = forProfile vars name := by
  have hnumber : ∀ s ∈ numbers, s.key ∈ keys := fun s hs =>
    List.mem_append_left _ (List.mem_map_of_mem hs)
  have hswitch : ∀ s ∈ switches, s.key ∈ keys := fun s hs =>
    List.mem_append_right _ (List.mem_map_of_mem hs)
  refine eq_of_settings rfl (fun s hs => ?_) fun s hs => ?_
  · exact (isolated_of_mem_numbers vars name s hs).alone others (h s.key (hnumber s hs))
  · exact (isolated_of_mem_switches vars name s hs).alone others (h s.key (hswitch s hs))

/-- The configuration of the profile that the variables name is that of this profile, and that of no
profile if they name none. -/
theorem ofVariables_eq (vars : Variables) :
    ofVariables vars = forProfile vars ((vars "FIELDRULES_PROFILE").getD "") := by
  unfold ofVariables nonempty?
  cases vars "FIELDRULES_PROFILE" with
  | none => rfl
  | some text =>
      by_cases hempty : text = ""
      · subst hempty
        rfl
      · rw [Option.filter_some, if_pos (by simpa using hempty)]

open Setting in
/-- Each of the eight settings is decided by the variables of its own key under the active profile
and by no others: the text that counts decides it, and if that denotes nothing, the default does. No
variable belongs to two keys or to two profiles, so variables of other settings and of other
profiles are not seen, and sources that agree on the rest give the same configuration. A profile
that the variables name is the profile of that name. -/
theorem settings_isolated (vars : Variables) (name : String) :
    (forProfile vars name).profile = Text.upper name ∧
    (∀ s ∈ numbers, s.Isolated vars name) ∧
    (∀ s ∈ switches, s.Isolated vars name) ∧
    (∀ others : Variables,
      (∀ key ∈ keys, ∀ x ∈ variablesOf (Text.upper name) key, others x = vars x) →
      forProfile others name = forProfile vars name) ∧
    (keys.Nodup ∧ ∀ key ∈ keys, ∀ other ∈ keys,
      (other ∈ variablesOf (Text.upper name) key → other = key) ∧
      ∀ profile, variant profile other ∈ variablesOf (Text.upper name) key →
        other = key ∧ profile = Text.upper name) ∧
    ofVariables vars = forProfile vars ((vars "FIELDRULES_PROFILE").getD "") := by
  refine ⟨rfl, isolated_of_mem_numbers vars name, isolated_of_mem_switches vars name,
    fun others h => forProfile_congr h, ⟨by decide, fun key hkey other hother => ⟨?_, ?_⟩⟩,
    ofVariables_eq vars⟩
  · exact eq_of_mem_variablesOf hkey hother
  · exact fun profile => variant_inj_of_mem_variablesOf hkey hother

/-- The variables of a profile, with a text that is no number and one that is empty. -/
def prodVariables : List (String × String) :=
  [("FIELDRULES_PROFILE", "prod"),
    ("PROD_FIELDRULES_SELF_EDIT_DEBOUNCE_MS", " +250\t"),
    ("FIELDRULES_SELF_EDIT_DEBOUNCE_MS", "10"),
    ("PROD_FIELDRULES_CHANNEL_CAPACITY", "many"),
    ("FIELDRULES_CHANNEL_CAPACITY", "16"),
    ("PROD_FIELDRULES_SELF_EDIT_DISTINCT", ""),
    ("FIELDRULES_SELF_EDIT_DISTINCT", "Off")]

/-- Variables of another profile, which is told from the active one by its case alone. -/
def lowerVariables : List (String × String) :=
  [("prod_FIELDRULES_SELF_EDIT_DEBOUNCE_MS", "7"), ("TEST_FIELDRULES_CHANNEL_CAPACITY", "3")]

open Setting in
/-- A variant that is no number hides the number of the key, and an empty one does not hide its
switch. The other profile changes nothing. -/
theorem settings_isolated_prod :
    (∀ key ∈ keys, ∀ x ∈ variablesOf (Text.upper "prod") key,
      (lowerVariables ++ prodVariables).lookup x = prodVariables.lookup x) ∧
    forProfile (fun x => (lowerVariables ++ prodVariables).lookup x) "prod" =
      forProfile (fun x => prodVariables.lookup x) "prod" ∧
    ofVariables (fun x => prodVariables.lookup x) =
      ⟨"PROD", { PolicyDefaults.standard with selfEditDebounce := 250, selfEditDistinct := false },
        64⟩ ∧
    capacity.Decides (fun x => prodVariables.lookup x) "PROD" 64 := by
  obtain ⟨-, hnumbers, -, hcongr, -, hload⟩ :=
    settings_isolated (fun x => prodVariables.lookup x) "prod"
  have hagree : ∀ key ∈ keys, ∀ x ∈ variablesOf (Text.upper "prod") key,
      (lowerVariables ++ prodVariables).lookup x = prodVariables.lookup x := by decide +kernel
  have hconfig : forProfile (fun x => prodVariables.lookup x) "prod" =
      ⟨"PROD", { PolicyDefaults.standard with selfEditDebounce := 250, selfEditDistinct := false },
        64⟩ := by decide +kernel
  have hupper : Text.upper "prod" = "PROD" := by decide +kernel
  refine ⟨hagree, hcongr _ hagree, hload.trans hconfig, ?_⟩
  rw [← hupper]
  exact ((hnumbers capacity (by simp [numbers])).decided 64).2 (by rw [hconfig]; rfl)

end ReactiveForm.Config
