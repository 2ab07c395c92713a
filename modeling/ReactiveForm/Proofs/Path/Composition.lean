import ReactiveForm.Proofs.Path

/-!
# Paths in a row

A slash between two paths makes one path of them, and reading it is reading the one and then the
other (`Step.ofPath_append`). This is so for all texts: an empty text is the step to the root,
wherever it stands, and no group reaches across a slash. So following the whole path is following
its parts (`Navigator.resolve_append`).

Steps are written as a path with a slash between neighbours (`Step.path`). Every step is then read
by itself (`Step.ofPath_path`), and comes back if its text is read as this step and nothing else.
Only the names of children can be read in another way. They come back if they are segments, and if
one of them is not, the path has other steps than the written ones (`Step.ofPath_path_eq_iff`).
-/

namespace ReactiveForm

namespace Step

variable {step : Step} {steps : List Step} {name : String}

/-! ## Reading -/

/-- A path with a slash in it is read in front of the slash and behind it. -/
theorem ofPath_append (p q : String) : ofPath (p ++ "/" ++ q) = ofPath p ++ ofPath q := by
  have hlist : (p ++ "/" ++ q).toList = p.toList ++ '/' :: q.toList := by simp
  rw [ofPath, hlist, Text.pieces_append, List.flatMap_append]
  rfl

theorem ofGroup_ne_nil (group : List Char) : ofGroup group ≠ [] := by
  unfold ofGroup
  split
  · exact List.cons_ne_nil _ _
  · exact List.cons_ne_nil _ _
  · exact List.cons_ne_nil _ _
  · rw [ne_eq, List.map_eq_nil_iff]
    exact Text.pieces_ne_nil '.' _

/-- Every path has a step. -/
theorem ofPath_ne_nil (path : String) : ofPath path ≠ [] := by
  obtain ⟨group, hgroup⟩ := List.exists_mem_of_ne_nil _ (Text.pieces_ne_nil '/' path.toList)
  rw [ofPath, ne_eq, List.flatMap_eq_nil_iff]
  exact fun hnil => ofGroup_ne_nil group (hnil group hgroup)

/-! ## Writing -/

/-- The steps written as a path, with a slash between neighbours. -/
def path (steps : List Step) : String := "/".intercalate (steps.map group)

/-- The steps of a written path are those of the texts of its steps. -/
theorem ofPath_path (hsome : steps ≠ []) :
    ofPath (path steps) = steps.flatMap fun s => ofPath s.group := by
  induction steps with
  | nil => exact absurd rfl hsome
  | cons s rest ih =>
      cases rest with
      | nil => rw [path, List.map_singleton, String.intercalate_singleton, List.flatMap_singleton]
      | cons t rest =>
          rw [path, List.map_cons, List.map_cons, String.intercalate_cons_cons, ofPath_append,
            List.flatMap_cons, ← List.map_cons, ← path, ih (List.cons_ne_nil t rest)]

/-- A step that a path can have a text for: if it goes to a child, the name is a segment. -/
def IsWritable : Step → Prop
  | child name => IsSegment name
  | _ => True

theorem ofPath_of_isSegment (h : IsSegment name) : ofPath name = [child name] := by
  have hpath := ofPath_intercalate (List.cons_ne_nil name []) (List.forall_mem_singleton.2 h)
  rwa [String.intercalate_singleton] at hpath

theorem slash_notMem_of_ofPath (h : ofPath name = [step]) : '/' ∉ name.toList := by
  intro hslash
  obtain ⟨p, q, hname⟩ := List.append_of_mem hslash
  have hparts : name = String.ofList p ++ "/" ++ String.ofList q :=
    String.toList_inj.1 (by simp [hname])
  rw [hparts, ofPath_append, List.append_eq_singleton_iff] at h
  rcases h with ⟨h, -⟩ | ⟨-, h⟩
  · exact ofPath_ne_nil _ h
  · exact ofPath_ne_nil _ h

theorem dot_notMem_of_ofPath (h : ofPath name = [child name]) : '.' ∉ name.toList := by
  intro hdot
  obtain ⟨p, q, hname⟩ := List.append_of_mem hdot
  rw [ofPath, Text.pieces_eq_singleton _ (slash_notMem_of_ofPath h), List.flatMap_singleton] at h
  rw [ofGroup_eq, hname, Text.pieces_append, List.map_append, List.append_eq_singleton_iff,
    List.map_eq_nil_iff, List.map_eq_nil_iff] at h
  · rcases h with ⟨h, -⟩ | ⟨-, h⟩
    · exact Text.pieces_ne_nil '.' p h
    · exact Text.pieces_ne_nil '.' q h
  -- the groups that are a step of their own are no children
  all_goals
    intro hgroup
    rw [hgroup] at h
    cases h

theorem isSegment_of_ofPath (h : ofPath name = [child name]) : IsSegment name where
  nonempty hnil := by
    rw [String.toList_eq_nil_iff.1 hnil] at h
    cases h
  dot := dot_notMem_of_ofPath h
  slash := slash_notMem_of_ofPath h

/-- The text of a step is read as this step, and only if it is writable. -/
theorem ofPath_group_eq_iff : ofPath step.group = [step] ↔ step.IsWritable := by
  cases step with
  | root => exact iff_of_true rfl trivial
  | parent => exact iff_of_true rfl trivial
  | current => exact iff_of_true rfl trivial
  | child name => exact ⟨isSegment_of_ofPath, ofPath_of_isSegment⟩

/-- Steps come back one by one or not at all, because every text is read as some step. -/
private theorem flatMap_eq_self_iff {read : Step → List Step} (hread : ∀ s, read s ≠ []) :
    steps.flatMap read = steps ↔ ∀ s ∈ steps, read s = [s] := by
  have hlength : ∀ steps : List Step, steps.length ≤ (steps.flatMap read).length := by
    intro steps
    induction steps with
    | nil => exact Nat.le_refl 0
    | cons s steps ih =>
        have hpos := List.length_pos_iff.2 (hread s)
        rw [List.flatMap_cons, List.length_append, List.length_cons]
        omega
  induction steps with
  | nil => exact iff_of_true rfl (List.forall_mem_nil _)
  | cons s steps ih =>
      have hpos := List.length_pos_iff.2 (hread s)
      have hrest := hlength steps
      rw [List.flatMap_cons, List.forall_mem_cons]
      constructor
      · intro h
        have hwhole := congrArg List.length h
        rw [List.length_append, List.length_cons] at hwhole
        have hone : (read s).length = [s].length := by
          rw [List.length_singleton]
          omega
        obtain ⟨hs, hsteps⟩ := List.append_inj (h.trans List.singleton_append.symm) hone
        exact ⟨hs, ih.1 hsteps⟩
      · rintro ⟨hs, hsteps⟩
        rw [hs, ih.2 hsteps, List.singleton_append]

/-- A written path is read as the steps that were written, if there is one and the names of all
children are segments, and not otherwise. -/
theorem ofPath_path_eq_iff :
    ofPath (path steps) = steps ↔ steps ≠ [] ∧ ∀ s ∈ steps, s.IsWritable := by
  by_cases hsome : steps = []
  · subst hsome
    exact iff_of_false (ofPath_ne_nil _) fun h => h.1 rfl
  · rw [ofPath_path hsome, flatMap_eq_self_iff fun s => ofPath_ne_nil s.group, and_iff_right hsome]
    exact forall₂_congr fun s _ => ofPath_group_eq_iff

-- a name with a separator in it is read as several children
example : ofPath (path [child "car.make", child ""]) = [child "car", child "make", root] := by
  decide +kernel

end Step

/-! ## Following -/

namespace Navigator

variable {α : Type}

/-- A path with a slash in it is followed to where its first part leads, and from there on. -/
theorem resolve_append (nav : Navigator α) (anchor : α) (p q : String) :
    nav.resolve anchor (p ++ "/" ++ q) =
      (nav.resolve anchor p).bind fun mid => nav.resolve mid q := by
  rw [resolve, Step.ofPath_append, follow_append]
  rfl

/-- Paths compose. Reading a path with a slash in it is reading its parts, and in every tree of
controls it leads where the second part leads from the end of the first one. Steps that are written
as a path are read again as these steps, if there is one and no name of a child is empty or has a
separator in it, and only then. -/
theorem paths_compose :
    (∀ p q, Step.ofPath (p ++ "/" ++ q) = Step.ofPath p ++ Step.ofPath q) ∧
      (∀ {α : Type} (nav : Navigator α) (anchor : α) (p q : String) (found : α),
        nav.resolve anchor (p ++ "/" ++ q) = some found ↔
          ∃ mid, nav.resolve anchor p = some mid ∧ nav.resolve mid q = some found) ∧
      ∀ steps, Step.ofPath (Step.path steps) = steps ↔ steps ≠ [] ∧ ∀ s ∈ steps, s.IsWritable := by
  refine ⟨Step.ofPath_append, fun nav anchor p q found => ?_, fun _ => Step.ofPath_path_eq_iff⟩
  rw [resolve_append, Option.bind_eq_some_iff]

/-- Steps with the root in first place and again behind two steps to the parent. -/
def throughTheRoot : List Step :=
  [.root, .child "nicknames", .parent, .parent, .root, .current, .child "0"]

/-- Two slashes in a row lead to the root, and the whole path is read as the written steps. -/
theorem paths_compose_throughTheRoot :
    (throughTheRoot ≠ [] ∧ ∀ s ∈ throughTheRoot, s.IsWritable) ∧
      Step.path throughTheRoot = "/nicknames/../..//./0" ∧
      Step.ofPath "/nicknames/../..//./0" = throughTheRoot := by
  have hwritable : throughTheRoot ≠ [] ∧ ∀ s ∈ throughTheRoot, s.IsWritable := by
    refine ⟨List.cons_ne_nil _ _, ?_⟩
    simp only [throughTheRoot, List.forall_mem_cons, Step.IsWritable, true_and]
    exact ⟨⟨by decide, by decide, by decide⟩, Step.isSegment_toString 0, List.forall_mem_nil _⟩
  have hpath : Step.path throughTheRoot = "/nicknames/../..//./0" := by decide +kernel
  exact ⟨hwritable, hpath, hpath ▸ (paths_compose.2.2 throughTheRoot).2 hwritable⟩

end Navigator

end ReactiveForm
