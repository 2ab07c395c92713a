import Mathlib.Data.List.Nodup
import ReactiveForm.Test.Basic

/-!
# Lists without repetitions

`distinct` goes through a list once and puts every element that it has not seen behind those that it
has. What becomes of a list when some elements were seen before is said by `foldl_keepNew`; with
nothing seen before it is the list with later repetitions left out (`distinct_eq_eraseDups`). Two
lists in a row give the elements of the first one, and then those of the second one that are new
(`distinct_append`). It is the one list that has the elements in the order of their first occurrence
(`firsts_iff_eq_distinct`), as every step of the walk keeps that order (`Firsts.keepNew`).
-/

namespace ReactiveForm

variable {xs ys seen : List String} {x : String}

/-- The elements seen so far, with a further one at the end if it is new. -/
def keepNew (seen : List String) (x : String) : List String :=
  if seen.contains x then seen else seen ++ [x]

theorem distinct_eq_foldl (xs : List String) : distinct xs = xs.foldl keepNew [] := rfl

theorem keepNew_of_mem (h : x ∈ seen) : keepNew seen x = seen :=
  if_pos (List.contains_iff_mem.2 h)

theorem keepNew_of_notMem (h : x ∉ seen) : keepNew seen x = seen ++ [x] :=
  if_neg fun hmem => h (List.contains_iff_mem.1 hmem)

/-- Going through a list leaves what was seen in front and adds what is new, once. -/
theorem foldl_keepNew (seen xs : List String) :
    xs.foldl keepNew seen = seen ++ (xs.filter (· ∉ seen)).eraseDups := by
  induction xs generalizing seen with
  | nil => simp
  | cons x xs ih =>
      rw [List.foldl_cons]
      by_cases hmem : x ∈ seen
      · rw [keepNew_of_mem hmem, ih, List.filter_cons_of_neg (by simpa using hmem)]
      · have hfilter : xs.filter (· ∉ seen ++ [x]) =
            (xs.filter (· ∉ seen)).filter fun y => !(y == x) := by
          rw [List.filter_filter]
          refine List.filter_congr fun y _ => ?_
          rw [Bool.eq_iff_iff]
          simp [not_or, and_comm]
        rw [keepNew_of_notMem hmem, ih, List.filter_cons_of_pos (by simpa using hmem),
          List.eraseDups_cons, hfilter, List.append_assoc, List.singleton_append]

/-- Of every element the first occurrence is kept. -/
theorem distinct_eq_eraseDups (xs : List String) : distinct xs = xs.eraseDups := by
  have hall : xs.filter (· ∉ ([] : List String)) = xs :=
    List.filter_eq_self.2 fun x _ => decide_eq_true List.not_mem_nil
  rw [distinct_eq_foldl, foldl_keepNew, List.nil_append, hall]

theorem mem_distinct : x ∈ distinct xs ↔ x ∈ xs := by
  rw [distinct_eq_eraseDups, List.mem_eraseDups]

theorem nodup_foldl_keepNew (hseen : seen.Nodup) (xs : List String) :
    (xs.foldl keepNew seen).Nodup := by
  induction xs generalizing seen with
  | nil => exact hseen
  | cons x xs ih =>
      rw [List.foldl_cons]
      by_cases hmem : x ∈ seen
      · rw [keepNew_of_mem hmem]
        exact ih hseen
      · rw [keepNew_of_notMem hmem]
        exact ih (List.concat_eq_append ▸ List.Nodup.concat hmem hseen)

theorem nodup_distinct (xs : List String) : (distinct xs).Nodup := nodup_foldl_keepNew .nil xs

/-- Elements can be left out before or after the repetitions are. -/
theorem filter_foldl_keepNew (p : String → Bool) (seen xs : List String) :
    (xs.foldl keepNew seen).filter p = (xs.filter p).foldl keepNew (seen.filter p) := by
  induction xs generalizing seen with
  | nil => rfl
  | cons x xs ih =>
      rw [List.foldl_cons, ih]
      by_cases hp : p x = true
      · rw [List.filter_cons_of_pos hp, List.foldl_cons]
        congr 1
        by_cases hmem : x ∈ seen
        · rw [keepNew_of_mem hmem, keepNew_of_mem (List.mem_filter.2 ⟨hmem, hp⟩)]
        · rw [keepNew_of_notMem hmem, keepNew_of_notMem fun h => hmem (List.mem_filter.1 h).1,
            List.filter_append, List.filter_cons_of_pos hp, List.filter_nil]
      · rw [List.filter_cons_of_neg hp]
        congr 1
        by_cases hmem : x ∈ seen
        · rw [keepNew_of_mem hmem]
        · rw [keepNew_of_notMem hmem, List.filter_append, List.filter_cons_of_neg hp,
            List.filter_nil, List.append_nil]

theorem filter_distinct (p : String → Bool) (xs : List String) :
    (distinct xs).filter p = distinct (xs.filter p) := filter_foldl_keepNew p [] xs

/-- Behind the elements of the first list those of the second one follow that are not among them. -/
theorem distinct_append (xs ys : List String) :
    distinct (xs ++ ys) = distinct xs ++ (distinct ys).filter (· ∉ distinct xs) := by
  rw [distinct_eq_foldl (xs ++ ys), List.foldl_append, ← distinct_eq_foldl, foldl_keepNew,
    filter_distinct, distinct_eq_eraseDups (ys.filter _)]

theorem foldl_keepNew_of_nodup (h : (seen ++ xs).Nodup) : xs.foldl keepNew seen = seen ++ xs := by
  induction xs generalizing seen with
  | nil => exact (List.append_nil seen).symm
  | cons x xs ih =>
      have hmem : x ∉ seen := fun hmem =>
        (List.nodup_append.1 h).2.2 x hmem x List.mem_cons_self rfl
      rw [← List.singleton_append, ← List.append_assoc] at h ⊢
      rw [List.singleton_append, List.foldl_cons, keepNew_of_notMem hmem, ih h]

/-- A list without repetitions stays as it is. -/
theorem distinct_of_nodup (h : xs.Nodup) : distinct xs = xs := foldl_keepNew_of_nodup h

theorem distinct_distinct_append (xs ys : List String) :
    distinct (distinct xs ++ distinct ys) = distinct (xs ++ ys) := by
  rw [distinct_append, distinct_append xs, distinct_of_nodup (nodup_distinct xs),
    distinct_of_nodup (nodup_distinct ys)]

/-! ## First occurrences -/

/-- The elements of a list in the order in which they first occur in it. -/
structure Firsts (xs firsts : List String) : Prop where
  /-- No element is there twice. -/
  once : firsts.Nodup
  /-- They are the elements of the list. -/
  same : ∀ x, x ∈ firsts ↔ x ∈ xs
  /-- An element comes before another one if it first occurs before it. -/
  inOrder : firsts.Pairwise fun x y => xs.idxOf x < xs.idxOf y

namespace Firsts

theorem nil : Firsts [] [] := ⟨.nil, fun _ => .rfl, .nil⟩

/-- A list that is longer by an element has the same first occurrences, or one more. -/
theorem keepNew (h : Firsts xs seen) (x : String) : Firsts (xs ++ [x]) (keepNew seen x) := by
  have hkept : seen.Pairwise fun y z => (xs ++ [x]).idxOf y < (xs ++ [x]).idxOf z := by
    refine h.inOrder.imp_of_mem fun {y z} hy hz hlt => ?_
    rwa [List.idxOf_append_of_mem ((h.same y).1 hy), List.idxOf_append_of_mem ((h.same z).1 hz)]
  by_cases hmem : x ∈ seen
  · rw [keepNew_of_mem hmem]
    refine ⟨h.once, fun y => ?_, hkept⟩
    rw [List.mem_append, List.mem_singleton, h.same]
    exact ⟨.inl, fun hy => hy.elim id fun heq => heq ▸ (h.same x).1 hmem⟩
  · rw [keepNew_of_notMem hmem]
    have hnew : x ∉ xs := fun hx => hmem ((h.same x).2 hx)
    refine ⟨List.concat_eq_append ▸ List.Nodup.concat hmem h.once, fun y => ?_,
      List.pairwise_append.2 ⟨hkept, List.pairwise_singleton _ _, fun y hy z hz => ?_⟩⟩
    · rw [List.mem_append, List.mem_append, h.same]
    · have hin : y ∈ xs := (h.same y).1 hy
      rw [List.mem_singleton.1 hz, List.idxOf_append_of_mem hin, List.idxOf_append_of_notMem hnew]
      exact Nat.lt_add_right _ (List.idxOf_lt_length_of_mem hin)

theorem foldl_keepNew (h : Firsts xs seen) (ys : List String) :
    Firsts (xs ++ ys) (ys.foldl ReactiveForm.keepNew seen) := by
  induction ys generalizing xs seen with
  | nil => rwa [List.append_nil]
  | cons y ys ih =>
      have hstep := ih (h.keepNew y)
      rwa [List.append_assoc, List.singleton_append] at hstep

/-- A list has one list of first occurrences only. -/
theorem unique (h : Firsts xs ys) (hseen : Firsts xs seen) : ys = seen := by
  refine List.Perm.eq_of_pairwise (fun x y _ _ hlt hgt => ?_) h.inOrder hseen.inOrder ?_
  · exact absurd hlt (Nat.lt_asymm hgt)
  · exact (List.perm_ext_iff_of_nodup h.once hseen.once).2 fun x =>
      (h.same x).trans (hseen.same x).symm

end Firsts

/-- Leaving out repetitions leaves the first occurrences. -/
theorem firsts_iff_eq_distinct : Firsts xs ys ↔ ys = distinct xs := by
  have hdistinct : Firsts xs (distinct xs) := Firsts.nil.foldl_keepNew xs
  constructor
  · exact fun h => h.unique hdistinct
  · rintro rfl
    exact hdistinct

theorem head?_distinct (xs : List String) : (distinct xs).head? = xs.head? := by
  rw [distinct_eq_eraseDups]
  cases xs with
  | nil => rfl
  | cons x xs => rw [List.eraseDups_cons, List.head?_cons, List.head?_cons]

/-- Repetitions can be left out of parts of a list first. -/
theorem distinct_flatMap_distinct {α : Type} (f : α → List String) (l : List α) :
    distinct (l.flatMap fun a => distinct (f a)) = distinct (l.flatMap f) := by
  induction l with
  | nil => rfl
  | cons a l ih =>
      rw [List.flatMap_cons, List.flatMap_cons, distinct_append, ih,
        distinct_of_nodup (nodup_distinct (f a)), ← distinct_append]

end ReactiveForm
