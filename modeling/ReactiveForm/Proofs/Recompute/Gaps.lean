import Mathlib.Data.List.SplitBy

/-!
# Bursts

Things that happen one after the other fall into bursts: within a burst each of them happens less
than a certain time, the gap, after the one before it, and between bursts it does not
(`bursts`). What matters about a burst is how it ends (`burstEnds`).

The bursts of a longer list are found step by step. What comes too late for the last burst begins
bursts of its own (`burstEnds_append_of_late`), and what comes in time moves its end
(`burstEnds_append_of_early`).
-/

namespace ReactiveForm

variable {α : Type} (gap : Nat) (moment : α → Nat)

/-- The longest runs of entries each of which comes less than the gap after the one before it. -/
def bursts (entries : List α) : List (List α) :=
  entries.splitBy fun a b => decide (moment b < moment a + gap)

/-- The last entries of the bursts. -/
def burstEnds (entries : List α) : List α := (bursts gap moment entries).filterMap List.getLast?

variable {gap moment} {entries later : List α}

@[simp]
theorem burstEnds_nil : burstEnds gap moment [] = [] := rfl

/-- There are as many ends as there are bursts. -/
theorem length_burstEnds (entries : List α) :
    (burstEnds gap moment entries).length = (bursts gap moment entries).length := by
  rw [burstEnds, List.length_filterMap_eq_countP, List.countP_eq_length]
  intro burst hburst
  rw [List.getLast?_eq_getLast_of_ne_nil (List.ne_nil_of_mem_splitBy hburst)]
  rfl

/-- Where there are entries there is a last burst. -/
theorem exists_bursts_eq (gap : Nat) (moment : α → Nat) (hne : entries ≠ []) :
    ∃ before burst, bursts gap moment entries = before ++ [burst] ∧ burst ≠ [] := by
  have hbursts : bursts gap moment entries ≠ [] := List.splitBy_ne_nil.2 hne
  exact ⟨_, _, (List.dropLast_concat_getLast hbursts).symm,
    List.ne_nil_of_mem_splitBy (List.getLast_mem hbursts)⟩

/-- What comes too late for the last burst begins bursts of its own. -/
theorem burstEnds_append_of_late
    (h : ∀ a ∈ entries.getLast?, ∀ b ∈ later.head?, moment a + gap ≤ moment b) :
    burstEnds gap moment (entries ++ later) =
      burstEnds gap moment entries ++ burstEnds gap moment later := by
  have hsplit : bursts gap moment (entries ++ later) =
      bursts gap moment entries ++ bursts gap moment later :=
    List.splitBy_append fun a ha b hb => by simpa using h a ha b hb
  rw [burstEnds, hsplit, List.filterMap_append]
  rfl

/-- What comes in time for the last burst belongs to it. -/
theorem bursts_append_of_early {burst : List α} {before : List (List α)}
    (hbursts : bursts gap moment entries = before ++ [burst])
    (h : ∀ a ∈ entries.getLast?, ∀ b ∈ later.head?, moment b < moment a + gap)
    (hlater : later.IsChain fun a b => moment b < moment a + gap) :
    bursts gap moment (entries ++ later) = before ++ [burst ++ later] := by
  obtain ⟨hflatten, hnil, hchains, hgaps⟩ := List.splitBy_eq_iff.1 hbursts
  have hburst : burst ≠ [] := fun heq => hnil (by simp [heq])
  have hlast : entries.getLast? = some (burst.getLast hburst) := by
    rw [hflatten, List.flatten_append, List.flatten_singleton,
      List.getLast?_append_of_ne_nil _ hburst, List.getLast?_eq_getLast_of_ne_nil hburst]
  obtain ⟨hgapsBefore, -, hgap⟩ := List.isChain_append.1 hgaps
  refine List.splitBy_eq_iff.2 ⟨by simp [hflatten], ?_, ?_, ?_⟩
  · intro hmem
    rcases List.mem_append.1 hmem with hmem | hmem
    · exact hnil (List.mem_append_left _ hmem)
    · exact hburst (List.append_eq_nil_iff.1 (List.mem_singleton.1 hmem).symm).1
  · refine List.forall_mem_append.2 ⟨fun run hrun => hchains run (List.mem_append_left _ hrun),
      List.forall_mem_singleton.2 (List.isChain_append.2 ⟨hchains burst (by simp), ?_, ?_⟩)⟩
    · exact hlater.imp fun a b hlt => decide_eq_true hlt
    · intro a ha b hb
      rw [List.getLast?_eq_getLast_of_ne_nil hburst, Option.mem_some_iff] at ha
      exact decide_eq_true (h a (hlast.trans (congrArg some ha)) b hb)
  · refine List.isChain_append.2 ⟨hgapsBefore, List.isChain_singleton _,
      fun run hrun next hnext => ?_⟩
    obtain ⟨hrunne, hburstne, hlate⟩ := hgap run hrun burst rfl
    cases hnext
    exact ⟨hrunne, List.append_ne_nil_of_left_ne_nil hburst _,
      (List.head_append_of_ne_nil hburst).symm ▸ hlate⟩

/-- What comes in time for the last burst moves its end. -/
theorem burstEnds_append_of_early (hne : later ≠ [])
    (h : ∀ a ∈ entries.getLast?, ∀ b ∈ later.head?, moment b < moment a + gap)
    (hlater : later.IsChain fun a b => moment b < moment a + gap) :
    burstEnds gap moment (entries ++ later) =
      (burstEnds gap moment entries).dropLast ++ [later.getLast hne] := by
  rcases eq_or_ne entries [] with rfl | hentries
  · rw [List.nil_append, burstEnds_nil, List.dropLast_nil, List.nil_append, burstEnds, bursts,
      List.splitBy_of_isChain hne (hlater.imp fun a b hlt => decide_eq_true hlt)]
    simp [List.getLast?_eq_getLast_of_ne_nil hne]
  · obtain ⟨before, burst, hbursts, hburst⟩ := exists_bursts_eq gap moment hentries
    rw [burstEnds, burstEnds, bursts_append_of_early hbursts h hlater, hbursts]
    simp [hne, List.getLast?_eq_getLast_of_ne_nil, hburst]

/-! ## Several things at once -/

section now

variable {now : Nat} (hpos : gap ≠ 0) (hnow : ∀ b ∈ later, moment b = now) (hne : later ≠ [])

include hpos hnow

private theorem isChain_now : later.IsChain fun a b => moment b < moment a + gap := by
  refine List.Pairwise.isChain (List.pairwise_of_forall_mem_list fun a ha b hb => ?_)
  rw [hnow a ha, hnow b hb]
  omega

/-- What comes at once and too late for the last burst is a burst of its own. -/
theorem burstEnds_append_of_le_now (hlate : ∀ a ∈ entries.getLast?, moment a + gap ≤ now) :
    burstEnds gap moment (entries ++ later) =
      burstEnds gap moment entries ++ [later.getLast hne] := by
  have hburst := burstEnds_append_of_early hne (fun _ ha => nomatch (ha : _ ∈ [].getLast?))
    (isChain_now hpos hnow)
  rw [List.nil_append, burstEnds_nil, List.dropLast_nil, List.nil_append] at hburst
  rw [burstEnds_append_of_late fun a ha b hb => ?_, hburst]
  exact (hnow b (List.mem_of_mem_head? hb)).symm ▸ hlate a ha

/-- What comes at once and in time moves the end of the last burst. -/
theorem burstEnds_append_of_now_lt (hearly : ∀ a ∈ entries.getLast?, now < moment a + gap) :
    burstEnds gap moment (entries ++ later) =
      (burstEnds gap moment entries).dropLast ++ [later.getLast hne] := by
  refine burstEnds_append_of_early hne (fun a ha b hb => ?_) (isChain_now hpos hnow)
  exact (hnow b (List.mem_of_mem_head? hb)).symm ▸ hearly a ha

end now

/-- The last burst ends with the last entry. -/
theorem getLast?_burstEnds (entries : List α) :
    (burstEnds gap moment entries).getLast? = entries.getLast? := by
  rcases eq_or_ne entries [] with rfl | hentries
  · rfl
  · obtain ⟨before, burst, hbursts, hburst⟩ := exists_bursts_eq gap moment hentries
    have hlast : entries.getLast? = burst.getLast? := by
      rw [(List.splitBy_eq_iff.1 hbursts).1, List.flatten_append, List.flatten_singleton,
        List.getLast?_append_of_ne_nil _ hburst]
    rw [hlast, burstEnds, hbursts, List.filterMap_append]
    simp [List.getLast?_eq_getLast_of_ne_nil hburst]

end ReactiveForm
