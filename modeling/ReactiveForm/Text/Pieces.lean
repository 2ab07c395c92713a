/-!
# Texts cut at a separator

Cutting a text at every occurrence of a separator and joining the pieces again. A text always has at
least one piece, and neighbouring separators have an empty piece between them, so that cutting loses
nothing: `joinPieces_pieces` restores the text, and `pieces_joinPieces` the pieces if none of them
holds the separator.
-/

namespace ReactiveForm.Text

/-- The pieces between the separators, the first one in front of the first separator. -/
def pieces (sep : Char) : List Char → List (List Char)
  | [] => [[]]
  | c :: cs =>
    if c = sep then [] :: pieces sep cs
    else
      match pieces sep cs with
      | [] => [[c]]
      | p :: ps => (c :: p) :: ps

/-- The pieces one after the other, with the separator between neighbours. -/
def joinPieces (sep : Char) : List (List Char) → List Char
  | [] => []
  | [p] => p
  | p :: q :: ps => p ++ sep :: joinPieces sep (q :: ps)

theorem pieces_ne_nil (sep : Char) (cs : List Char) : pieces sep cs ≠ [] := by
  cases cs with
  | nil => simp [pieces]
  | cons c cs =>
    simp only [pieces]
    split
    · simp
    · split <;> simp

/-- Joining the pieces of a text restores it. -/
theorem joinPieces_pieces (sep : Char) (cs : List Char) :
    joinPieces sep (pieces sep cs) = cs := by
  induction cs with
  | nil => rfl
  | cons c cs ih =>
    simp only [pieces]
    split
    · rename_i h
      cases hp : pieces sep cs with
      | nil => exact absurd hp (pieces_ne_nil sep cs)
      | cons p ps => simp [joinPieces, ← hp, ih, h]
    · cases hp : pieces sep cs with
      | nil => exact absurd hp (pieces_ne_nil sep cs)
      | cons p ps =>
        rw [hp] at ih
        cases ps <;> simp_all [joinPieces]

/-- A text in front of a separator is the first piece, if it holds no separator itself. -/
theorem pieces_append_cons {sep : Char} (p cs : List Char) (h : sep ∉ p) :
    pieces sep (p ++ sep :: cs) = p :: pieces sep cs := by
  induction p with
  | nil => simp [pieces]
  | cons c p ih =>
    simp only [List.mem_cons, not_or] at h
    simp [pieces, ih h.2, Ne.symm h.1]

/-- A text without the separator is its own only piece. -/
theorem pieces_eq_singleton {sep : Char} (p : List Char) (h : sep ∉ p) :
    pieces sep p = [p] := by
  induction p with
  | nil => rfl
  | cons c p ih =>
    simp only [List.mem_cons, not_or] at h
    simp [pieces, ih h.2, Ne.symm h.1]

/-- Cutting restores pieces that were joined, if none of them holds the separator. -/
theorem pieces_joinPieces {sep : Char} (ps : List (List Char)) (hne : ps ≠ [])
    (h : ∀ p ∈ ps, sep ∉ p) : pieces sep (joinPieces sep ps) = ps := by
  fun_induction joinPieces sep ps with
  | case1 => exact absurd rfl hne
  | case2 p => exact pieces_eq_singleton p (h p (by simp))
  | case3 p q ps ih =>
    rw [pieces_append_cons _ _ (h p (by simp)), ih (by simp) (fun r hr => h r (by simp [hr]))]

/-- The pieces of a text as texts. -/
def cut (sep : Char) (s : String) : List String :=
  (pieces sep s.toList).map String.ofList

/-- Texts joined by a separator. -/
def join (sep : Char) (ps : List String) : String :=
  String.ofList (joinPieces sep (ps.map String.toList))

/-- The part in front of the first separator and the part behind it. -/
def cutOnce? (sep : Char) (s : String) : Option (String × String) :=
  match pieces sep s.toList with
  | p :: q :: ps => some (String.ofList p, String.ofList (joinPieces sep (q :: ps)))
  | _ => none

end ReactiveForm.Text
