import ReactiveForm.Json.Basic

/-!
# Keys in ascending order

A list that was made from entries has its keys in ascending order, hence each of them once, and
every value in it is one of the given ones. If no key was given twice, it is a permutation of the
entries, and the only one whose keys ascend (`ofList_eq_of_perm`).
-/

namespace ReactiveForm.Keyed

variable {α : Type} {key : String} {value : α} {entries : List (String × α)}

/-- The keys ascend. -/
def Ascending (entries : List (String × α)) : Prop := entries.Pairwise fun a b => a.1 < b.1

theorem mem_insert {entry : String × α} (hmem : entry ∈ insert key value entries) :
    entry = (key, value) ∨ entry ∈ entries := by
  induction entries with
  | nil => exact .inl (List.mem_singleton.1 hmem)
  | cons head rest ih =>
      simp only [insert] at hmem
      split at hmem
      · exact List.mem_cons.1 hmem
      · split at hmem
        · exact (List.mem_cons.1 hmem).imp_right (List.mem_cons_of_mem _)
        · rcases List.mem_cons.1 hmem with rfl | hmem
          · exact .inr List.mem_cons_self
          · exact (ih hmem).imp_right (List.mem_cons_of_mem _)

theorem Ascending.insert (h : Ascending entries) : Ascending (insert key value entries) := by
  induction entries with
  | nil => exact List.pairwise_singleton _ _
  | cons head rest ih =>
      obtain ⟨hhead, hrest⟩ := List.pairwise_cons.1 h
      simp only [Keyed.insert]
      split
      · rename_i hlt
        refine List.pairwise_cons.2 ⟨fun entry hentry => ?_, h⟩
        rcases List.mem_cons.1 hentry with rfl | hentry
        · exact hlt
        · exact String.lt_trans hlt (hhead entry hentry)
      · split
        · rename_i heq
          exact List.pairwise_cons.2 ⟨fun entry hentry => heq ▸ hhead entry hentry, hrest⟩
        · rename_i hnlt hne
          have hlt : head.1 < key := by
            rw [← String.not_le]
            exact fun hle => hne (String.le_antisymm hle (String.not_lt.1 hnlt))
          refine List.pairwise_cons.2 ⟨fun entry hentry => ?_, ih hrest⟩
          rcases mem_insert hentry with rfl | hentry
          · exact hlt
          · exact hhead entry hentry

theorem ascending_ofList (entries : List (String × α)) : Ascending (ofList entries) := by
  have hfold : ∀ sorted : List (String × α), Ascending sorted →
      Ascending (entries.foldl (fun sorted e => insert e.1 e.2 sorted) sorted) := by
    induction entries with
    | nil => exact fun _ h => h
    | cons entry entries ih => exact fun sorted h => ih _ h.insert
  exact hfold [] List.Pairwise.nil

theorem Ascending.nodup_keys (h : Ascending entries) : (entries.map Prod.fst).Nodup := by
  refine List.Pairwise.map _ (fun a b hlt heq => ?_) h
  exact String.lt_irrefl b.1 (heq ▸ hlt)

/-- No key stands twice. -/
theorem nodup_keys_ofList (entries : List (String × α)) :
    ((ofList entries).map Prod.fst).Nodup := (ascending_ofList entries).nodup_keys

theorem mem_of_mem_ofList {entry : String × α} (hmem : entry ∈ ofList entries) :
    entry ∈ entries := by
  have hfold : ∀ (all sorted : List (String × α)),
      entry ∈ all.foldl (fun sorted e => insert e.1 e.2 sorted) sorted →
        entry ∈ all ∨ entry ∈ sorted := by
    intro all
    induction all with
    | nil => exact fun _ => .inr
    | cons first all ih =>
        intro sorted hmem
        rcases ih _ hmem with hmem | hmem
        · exact .inl (List.mem_cons_of_mem _ hmem)
        · rcases mem_insert hmem with rfl | hmem
          · exact .inl List.mem_cons_self
          · exact .inr hmem
  exact (hfold entries [] hmem).resolve_right List.not_mem_nil

/-! ## Keys and values apart -/

/-- The keys that stand in a list are those that were given. -/
theorem mem_keys_ofList {entries : List (String × α)} :
    key ∈ (ofList entries).map Prod.fst ↔ key ∈ entries.map Prod.fst := by
  have hinsert : ∀ (e : String × α) (sorted : List (String × α)),
      key ∈ (insert e.1 e.2 sorted).map Prod.fst ↔ key = e.1 ∨ key ∈ sorted.map Prod.fst := by
    intro e sorted
    induction sorted with
    | nil => simp [insert]
    | cons head rest ih =>
        simp only [insert]
        split
        · simp
        · split
          · rename_i heq
            simp [heq]
          · rw [List.map_cons, List.mem_cons, ih, List.map_cons, List.mem_cons]
            exact or_left_comm
  have hfold : ∀ sorted : List (String × α),
      key ∈ (entries.foldl (fun sorted e => insert e.1 e.2 sorted) sorted).map Prod.fst ↔
        key ∈ entries.map Prod.fst ∨ key ∈ sorted.map Prod.fst := by
    induction entries with
    | nil => simp
    | cons first entries ih =>
        intro sorted
        rw [List.foldl_cons, ih, hinsert, List.map_cons, List.mem_cons]
        exact or_left_comm.trans or_assoc.symm
  refine (hfold []).trans (or_iff_left ?_)
  exact List.not_mem_nil

/-- Values can be replaced before or after the list is made. -/
theorem map_ofList {β : Type} (g : α → β) (entries : List (String × α)) :
    (ofList entries).map (fun e => (e.1, g e.2)) = ofList (entries.map fun e => (e.1, g e.2)) := by
  have hinsert : ∀ (e : String × α) (sorted : List (String × α)),
      (insert e.1 e.2 sorted).map (fun e => (e.1, g e.2)) =
        insert e.1 (g e.2) (sorted.map fun e => (e.1, g e.2)) := by
    intro e sorted
    induction sorted with
    | nil => rfl
    | cons head rest ih =>
        simp only [insert, List.map_cons]
        split
        · rfl
        · split
          · rfl
          · rw [List.map_cons, ih]
  have hfold : ∀ sorted : List (String × α),
      (entries.foldl (fun sorted e => insert e.1 e.2 sorted) sorted).map (fun e => (e.1, g e.2)) =
        (entries.map fun e => (e.1, g e.2)).foldl (fun sorted e => insert e.1 e.2 sorted)
          (sorted.map fun e => (e.1, g e.2)) := by
    induction entries with
    | nil => exact fun _ => rfl
    | cons first entries ih =>
        intro sorted
        rw [List.foldl_cons, ih, hinsert]
        rfl
  exact hfold []

/-! ## Entries whose keys differ -/

theorem perm_insert (hnew : key ∉ entries.map Prod.fst) :
    (insert key value entries).Perm ((key, value) :: entries) := by
  induction entries with
  | nil => exact .refl _
  | cons head rest ih =>
      rw [List.map_cons, List.mem_cons, not_or] at hnew
      simp only [insert, if_neg hnew.1]
      split
      · exact .refl _
      · exact ((ih hnew.2).cons head).trans (.swap (key, value) head rest)

/-- If no key stands twice, no entry is lost. -/
theorem perm_ofList (hnodup : (entries.map Prod.fst).Nodup) : (ofList entries).Perm entries := by
  have hfold : ∀ sorted : List (String × α), ((entries ++ sorted).map Prod.fst).Nodup →
      (entries.foldl (fun sorted e => insert e.1 e.2 sorted) sorted).Perm (entries ++ sorted) := by
    clear hnodup
    induction entries with
    | nil => exact fun _ _ => .refl _
    | cons first entries ih =>
        intro sorted hnodup
        rw [List.cons_append, List.map_cons, List.nodup_cons] at hnodup
        obtain ⟨hnew, hrest⟩ := hnodup
        have hother : first.1 ∉ sorted.map Prod.fst := fun hmem =>
          hnew (by rw [List.map_append]; exact List.mem_append_right _ hmem)
        -- the entry has been taken from the front and put into the sorted part
        have hmoved : (entries ++ insert first.1 first.2 sorted).Perm
            (first :: (entries ++ sorted)) :=
          ((perm_insert hother).append_left entries).trans List.perm_middle
        exact (ih _ ((hmoved.map Prod.fst).nodup_iff.2 (List.nodup_cons.2 ⟨hnew, hrest⟩))).trans
          hmoved
  have hall := hfold [] (by rwa [List.append_nil])
  rwa [List.append_nil] at hall

/-- There is only one way to put entries into ascending order. -/
theorem ofList_eq_of_perm {sorted : List (String × α)} (h : Ascending sorted)
    (hperm : sorted.Perm entries) : ofList entries = sorted := by
  have hnodup : (entries.map Prod.fst).Nodup := (hperm.map Prod.fst).nodup_iff.1 h.nodup_keys
  refine ((perm_ofList hnodup).trans hperm.symm).eq_of_pairwise ?_ (ascending_ofList entries) h
  intro a b _ _ hlt hgt
  exact absurd (String.lt_trans hlt hgt) (String.lt_irrefl a.1)

theorem lookup_of_mem (hnodup : (entries.map Prod.fst).Nodup) (hmem : (key, value) ∈ entries) :
    entries.lookup key = some value := by
  induction entries with
  | nil => cases hmem
  | cons head rest ih =>
      rw [List.map_cons, List.nodup_cons] at hnodup
      rcases List.mem_cons.1 hmem with rfl | hmem
      · exact List.lookup_cons_self
      · have hne : (key == head.1) = false :=
          beq_eq_false_iff_ne.2 fun heq => hnodup.1 (List.mem_map.2 ⟨_, hmem, heq⟩)
        rw [List.lookup_cons, hne]
        exact ih hnodup.2 hmem

theorem mem_of_lookup (hlookup : entries.lookup key = some value) : (key, value) ∈ entries := by
  obtain ⟨before, after, rfl, -⟩ := List.lookup_eq_some_iff.1 hlookup
  simp

/-! ## Looking up -/

theorem lookup_cons_eq_ite (head : String × α) (rest : List (String × α)) (other : String) :
    (head :: rest).lookup other = if other = head.1 then some head.2 else rest.lookup other := by
  rw [List.lookup_cons]
  by_cases heq : other = head.1
  · rw [if_pos heq, beq_iff_eq.2 heq]
  · rw [if_neg heq, beq_eq_false_iff_ne.2 heq]

theorem lookup_insert (key : String) (value : α) (entries : List (String × α)) (other : String) :
    (insert key value entries).lookup other =
      if other = key then some value else entries.lookup other := by
  induction entries with
  | nil => exact lookup_cons_eq_ite _ _ _
  | cons head rest ih =>
      simp only [insert]
      split
      · exact lookup_cons_eq_ite _ _ _
      · split
        · rename_i hkey
          rw [lookup_cons_eq_ite, lookup_cons_eq_ite, hkey]
          split <;> rfl
        · rename_i hkey
          rw [lookup_cons_eq_ite, lookup_cons_eq_ite, ih]
          by_cases heq : other = head.1
          · rw [if_pos heq, if_pos heq, if_neg fun h => hkey (h.symm.trans heq)]
          · rw [if_neg heq, if_neg heq]

theorem lookup_filter_ne (key : String) (entries : List (String × α)) (other : String) :
    (entries.filter (·.1 != key)).lookup other =
      if other = key then none else entries.lookup other := by
  induction entries with
  | nil => simp
  | cons head rest ih =>
      by_cases hkey : head.1 = key
      · rw [List.filter_cons_of_neg (by simp [hkey]), ih, lookup_cons_eq_ite, hkey]
        split <;> rfl
      · rw [List.filter_cons_of_pos (by simpa using hkey), lookup_cons_eq_ite, lookup_cons_eq_ite,
          ih]
        by_cases heq : other = head.1
        · rw [if_pos heq, if_pos heq, if_neg fun h => hkey (heq.symm.trans h)]
        · rw [if_neg heq, if_neg heq]

/-- There are no entries if there is none for any key. -/
theorem isEmpty_iff_lookup (entries : List (String × α)) :
    entries.isEmpty = true ↔ ∀ key, entries.lookup key = none := by
  cases entries with
  | nil => simp
  | cons head rest =>
      refine iff_of_false (by simp) fun h => ?_
      have hhead := h head.1
      rw [lookup_cons_eq_ite, if_pos rfl] at hhead
      cases hhead

end ReactiveForm.Keyed
