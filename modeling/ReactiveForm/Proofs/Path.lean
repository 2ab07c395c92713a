import ReactiveForm.Path
import ReactiveForm.Property.Basic

/-!
# Paths as texts

A segment is a text that a path keeps in one piece: it is not empty, and it has neither of the two
separators (`IsSegment`). The names of parts are segments, and so are indices in decimal. Segments
with dots between them are read as just these segments, one child after the other
(`ofPath_intercalate`), and a number in decimal is read as that number (`readWord?_toString`).

A group with two dots next to each other asks for a child without a name (`child_empty_mem_ofPath`).
-/

namespace ReactiveForm

/-! ## Numbers -/

namespace Text

/-- A number that fits into a word is read back. -/
theorem readWord?_toString {n : Nat} (h : n ≤ maxWord) : readWord? (toString n) = some n := by
  have hdigits : ∀ c ∈ Nat.toDigits 10 n, c.isDigit = true := fun c hc =>
    Nat.isDigit_of_mem_toDigits (by decide) (by decide) hc
  have hvalue : digitsValue (Nat.toDigits 10 n) = n := Nat.ofDigitChars_ten_toDigits
  have hread : readDigits? (Nat.toDigits 10 n) = some n := by
    have hnonempty : (Nat.toDigits 10 n).isEmpty = false :=
      List.isEmpty_eq_false_iff.2 Nat.toDigits_ne_nil
    rw [readDigits?, hvalue, List.all_eq_true.2 hdigits, hnonempty, if_pos h]
    rfl
  rw [readWord?, Nat.toString_eq_ofList_toDigits, String.toList_ofList]
  split
  · -- a plus sign is no digit
    rename_i cs heq
    have hplus := hdigits '+' (by rw [heq]; exact List.mem_cons_self)
    cases hplus
  · exact hread

/-! ## Places cut into segments -/

/-- A text with a separator in it is cut into the pieces in front of it and those behind it. -/
theorem pieces_append {sep : Char} (cs ds : List Char) :
    pieces sep (cs ++ sep :: ds) = pieces sep cs ++ pieces sep ds := by
  induction cs with
  | nil => simp [pieces]
  | cons c cs ih =>
      rw [List.cons_append, pieces, pieces]
      split
      · rw [ih, List.cons_append]
      · rw [ih]
        cases hpieces : pieces sep cs with
        | nil => exact absurd hpieces (pieces_ne_nil sep cs)
        | cons piece rest => rfl

theorem cut_eq_singleton {sep : Char} {segment : String} (h : sep ∉ segment.toList) :
    cut sep segment = [segment] := by
  rw [cut, pieces_eq_singleton _ h, List.map_singleton, String.ofList_toList]

/-- A place below another one has one segment more. -/
theorem cut_joinPath {parent segment : String} (hparent : parent ≠ "")
    (hdot : '.' ∉ segment.toList) :
    cut '.' (joinPath parent segment) = cut '.' parent ++ [segment] := by
  have hlist : (parent ++ "." ++ segment).toList = parent.toList ++ '.' :: segment.toList := by
    simp
  rw [joinPath, if_neg (by simpa using hparent), cut, hlist, pieces_append, List.map_append,
    ← cut, ← cut, cut_eq_singleton hdot]

end Text

namespace Step

variable {path : String} {segments : List String}

/-! ## Segments -/

/-- A text that a path keeps in one piece. -/
structure IsSegment (s : String) : Prop where
  nonempty : s.toList ≠ []
  dot : '.' ∉ s.toList
  slash : '/' ∉ s.toList

theorem isSegment_of_nameFault? {name : String} (h : Property.nameFault? name = none) :
    IsSegment name := by
  unfold Property.nameFault? at h
  split at h
  · cases h
  · rename_i hnonempty
    split at h
    · cases h
    · split at h
      · cases h
      · rename_i hseparators
        rw [not_or] at hseparators
        refine ⟨fun hnil => hnonempty ?_, hseparators.1, hseparators.2⟩
        rw [String.toList_eq_nil_iff.1 hnil]
        rfl

theorem isSegment_toString (n : Nat) : IsSegment (toString n) := by
  have hdigits : ∀ c ∈ (toString n).toList, c.isDigit = true := fun c hc => by
    rw [Nat.toString_eq_ofList_toDigits, String.toList_ofList] at hc
    exact Nat.isDigit_of_mem_toDigits (by decide) (by decide) hc
  refine ⟨?_, fun hmem => ?_, fun hmem => ?_⟩
  · rw [Nat.toString_eq_ofList_toDigits, String.toList_ofList]
    exact Nat.toDigits_ne_nil
  · cases hdigits '.' hmem
  · cases hdigits '/' hmem

/-! ## Reading paths -/

/-- A path with a slash in front starts at the root. -/
theorem ofPath_slash (path : String) : ofPath ("/" ++ path) = root :: ofPath path := by
  have hlist : ("/" ++ path).toList = '/' :: path.toList := by rw [String.toList_append]; rfl
  rw [ofPath, hlist, Text.pieces, if_pos rfl, List.flatMap_cons]
  rfl

/-- A group that is no step of its own is read as its pieces. -/
theorem ofGroup_eq {group : List Char} (hroot : group ≠ []) (hcurrent : group ≠ ['.'])
    (hparent : group ≠ ['.', '.']) :
    ofGroup group = (Text.pieces '.' group).map fun name => child (String.ofList name) := by
  unfold ofGroup
  split
  · exact absurd rfl hroot
  · exact absurd rfl hcurrent
  · exact absurd rfl hparent
  · rfl

/-- Lists of characters with a separator between them. -/
private theorem intercalate_eq_joinPieces (sep : Char) (parts : List (List Char)) :
    [sep].intercalate parts = Text.joinPieces sep parts := by
  fun_induction Text.joinPieces sep parts with
  | case1 => rfl
  | case2 => exact List.intercalate_singleton
  | case3 p q ps ih => rw [List.intercalate_cons_cons, ih]; simp

private theorem notMem_joinPieces {sep c : Char} (hne : c ≠ sep) (parts : List (List Char))
    (h : ∀ p ∈ parts, c ∉ p) : c ∉ Text.joinPieces sep parts := by
  fun_induction Text.joinPieces sep parts with
  | case1 => exact List.not_mem_nil
  | case2 p => exact h p (List.mem_singleton_self p)
  | case3 p q ps ih =>
      rw [List.mem_append, List.mem_cons, not_or, not_or]
      exact ⟨h p List.mem_cons_self, hne, ih fun r hr => h r (List.mem_cons_of_mem _ hr)⟩

private theorem toList_intercalate (segments : List String) :
    (".".intercalate segments).toList = Text.joinPieces '.' (segments.map String.toList) := by
  rw [String.toList_intercalate]
  exact intercalate_eq_joinPieces '.' _

/-- Segments with dots between them are cut into these segments again. -/
theorem cut_intercalate (hne : segments ≠ []) (h : ∀ s ∈ segments, IsSegment s) :
    Text.cut '.' (".".intercalate segments) = segments := by
  rw [Text.cut, toList_intercalate, Text.pieces_joinPieces _ (by simpa using hne), List.map_map]
  · exact (List.map_congr_left fun s _ => String.ofList_toList).trans (List.map_id _)
  · intro p hp
    obtain ⟨s, hs, rfl⟩ := List.mem_map.1 hp
    exact (h s hs).dot

/-- Segments with dots between them lead from child to child. -/
theorem ofPath_intercalate (hne : segments ≠ []) (h : ∀ s ∈ segments, IsSegment s) :
    ofPath (".".intercalate segments) = segments.map child := by
  have hlist := toList_intercalate segments
  have hparts : ∀ p ∈ segments.map String.toList, p ≠ [] ∧ '.' ∉ p ∧ '/' ∉ p := fun p hp => by
    obtain ⟨s, hs, rfl⟩ := List.mem_map.1 hp
    exact ⟨(h s hs).nonempty, (h s hs).dot, (h s hs).slash⟩
  have hpieces : Text.pieces '.' (Text.joinPieces '.' (segments.map String.toList)) =
      segments.map String.toList :=
    Text.pieces_joinPieces _ (by simpa using hne) fun p hp => (hparts p hp).2.1
  -- none of the groups with a meaning of their own has only pieces that are not empty
  have hgroup : ∀ group : List Char, [] ∈ Text.pieces '.' group →
      Text.joinPieces '.' (segments.map String.toList) ≠ group := fun group hmem heq =>
    (hparts [] (hpieces ▸ heq ▸ hmem)).1 rfl
  rw [ofPath, hlist, Text.pieces_eq_singleton _
    (notMem_joinPieces (by decide) _ fun p hp => (hparts p hp).2.2), List.flatMap_singleton,
    ofGroup_eq (hgroup _ (by decide)) (hgroup _ (by decide)) (hgroup _ (by decide)), hpieces,
    List.map_map]
  exact List.map_congr_left fun s _ => congrArg child String.ofList_toList

/-- A group with an empty piece asks for a child without a name, unless it is a step of its own. -/
theorem child_empty_mem_ofPath {group : String} (hgroup : group ∈ Text.cut '/' path)
    (hother : group ∉ ["", ".", ".."]) (hempty : "" ∈ Text.cut '.' group) :
    child "" ∈ ofPath path := by
  obtain ⟨piece, hpiece, rfl⟩ := List.mem_map.1 hgroup
  obtain ⟨name, hname, hnil⟩ := List.mem_map.1 hempty
  rw [String.toList_ofList] at hname
  refine List.mem_flatMap.2 ⟨piece, hpiece, ?_⟩
  rw [ofGroup_eq]
  · exact List.mem_map.2 ⟨name, hname, congrArg child hnil⟩
  all_goals
    rintro rfl
    exact hother (by decide)

end Step

namespace Navigator

variable {α : Type} {nav : Navigator α} {step : Step} {steps : List Step}

/-- A step that leads nowhere from anywhere stops every path that has it. -/
theorem follow_eq_none (hmem : step ∈ steps) (hnone : ∀ here, nav.step here step = none)
    (start : α) : nav.follow start steps = none := by
  obtain ⟨before, after, rfl⟩ := List.append_of_mem hmem
  rw [follow_append]
  cases nav.follow start before with
  | none => rfl
  | some here => simp only [Option.bind_some, follow, hnone, Option.bind_none]

end Navigator

end ReactiveForm
