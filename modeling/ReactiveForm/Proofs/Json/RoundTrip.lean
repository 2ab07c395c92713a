import Mathlib.Data.List.DropRight
import ReactiveForm.Json.Parser
import ReactiveForm.Json.Printer
import ReactiveForm.Proofs.Keyed

/-!
# Documents that are read back

A document without numbers that was written with one member a line is read again as it was
(`Json.parse_pretty`), provided that its objects have their keys in ascending order, as all objects
have that were made from fields, and that it is not nested deeper than the reader allows
(`Json.Legible`).

Every part of a text is followed by the rest of the text it stands in. So each lemma says what is
read in front of an arbitrary rest: a string up to its closing quote (`readString_stringText`), and
a document up to its last character (`Json.ReadsBack`). The steps that the reader may take are
counted by the length of the text, of which every member of a container takes some.
-/

namespace ReactiveForm.Json

variable {j : Json} {depth level steps : Nat} {rest : List Char}

/-! ## Strings -/

theorem hexUnit?_control : ∀ n < 0x20,
    hexUnit? '0' '0' (hexDigit (n / 16)) (hexDigit (n % 16)) = some n := by
  decide

/-- A control is read from its code. -/
theorem readString_control (done : String) {c : Char} (hc : c.toNat < 0x20) (cs : List Char) :
    readString done none ('\\' :: 'u' :: '0' :: '0' :: hexDigit (c.toNat / 16) ::
      hexDigit (c.toNat % 16) :: cs) = readString (done.push c) none cs := by
  have hhigh : isHighHalf c.toNat = false := by
    rw [isHighHalf, decide_eq_false (by omega), Bool.false_and]
  have hlow : isLowHalf c.toNat = false := by
    rw [isLowHalf, decide_eq_false (by omega), Bool.false_and]
  simp [readString, hexUnit?_control c.toNat hc, hhigh, hlow, Char.ofNat_toNat]

/-- A character that needs no escape is read as itself. -/
theorem readString_plain (done : String) {c : Char} (hquote : c ≠ '"') (hbackslash : c ≠ '\\')
    (hc : ¬ c.toNat < 0x20) (cs : List Char) :
    readString done none (c :: cs) = readString (done.push c) none cs := by
  rw [readString.eq_def]
  split <;> simp_all only [List.cons.injEq, reduceCtorEq, if_false, false_and]

theorem readString_stringChar (done : String) (c : Char) (cs : List Char) :
    readString done none (stringChar c ++ cs) = readString (done.push c) none cs := by
  unfold stringChar
  split
  case h_8 hquote hbackslash _ _ _ _ _ =>
    split
    · rename_i hc
      exact readString_control done hc cs
    · rename_i hc
      exact readString_plain done hquote hbackslash hc cs
  all_goals rfl

theorem readString_flatMap (done : String) (cs rest : List Char) :
    readString done none (cs.flatMap stringChar ++ '"' :: rest) =
      some (done ++ String.ofList cs, rest) := by
  induction cs generalizing done with
  | nil => simp [readString]
  | cons c cs ih =>
      have hdone : done.push c ++ String.ofList cs = done ++ String.ofList (c :: cs) :=
        String.toList_injective (by simp)
      rw [List.flatMap_cons, List.append_assoc, readString_stringChar, ih, hdone]

/-- What is written between quotes is read again. -/
theorem readString_stringText (s : String) (rest : List Char) :
    ∃ cs, (stringText s).toList ++ rest = '"' :: cs ∧
      readString "" none cs = some (s, rest) := by
  refine ⟨s.toList.flatMap stringChar ++ '"' :: rest, ?_, ?_⟩
  · simp [stringText]
  · rw [readString_flatMap, String.ofList_toList]
    simp

/-! ## Blanks -/

theorem skipSpace_cons {c : Char} (hc : isSpace c = false) (cs : List Char) :
    skipSpace (c :: cs) = c :: cs := List.dropWhile_cons_of_neg (by simp [hc])

theorem skipSpace_lineBreak (level : Nat) (cs : List Char) :
    skipSpace ((lineBreak level).toList ++ cs) = skipSpace cs := by
  have hblank : ∀ c ∈ (lineBreak level).toList, isSpace c = true := by
    intro c hc
    simp only [lineBreak, String.toList_ofList, List.mem_cons, List.mem_replicate] at hc
    rcases hc with rfl | ⟨-, rfl⟩ <;> rfl
  exact List.dropWhile_append_of_pos hblank

theorem skipSpace_skipSpace (cs : List Char) : skipSpace (skipSpace cs) = skipSpace cs :=
  List.dropWhile_idempotent _ cs

/-- The blanks in front of a document do not matter. -/
theorem readValue_skipSpace (steps depth : Nat) (cs : List Char) :
    readValue steps depth (skipSpace cs) = readValue steps depth cs := by
  cases steps with
  | zero => simp [readValue]
  | succ steps => simp only [readValue, skipSpace_skipSpace]

theorem readValue_blank (steps depth : Nat) (cs : List Char) :
    readValue steps depth (' ' :: cs) = readValue steps depth cs := by
  rw [← readValue_skipSpace, ← readValue_skipSpace steps depth cs]
  rfl

/-! ## Documents -/

/-- A document without numbers, whose objects have their keys in ascending order, and whose
containers are nested at most `depth` deep. -/
inductive Legible : Nat → Json → Prop where
  | null {depth : Nat} : Legible depth null
  | bool {depth : Nat} (b : Bool) : Legible depth (bool b)
  | string {depth : Nat} (s : String) : Legible depth (string s)
  | array {depth : Nat} {items : List Json} (hitems : ∀ j ∈ items, Legible depth j) :
      Legible (depth + 1) (array items)
  | object {depth : Nat} {fields : List (String × Json)} (hkeys : Keyed.Ascending fields)
      (hfields : ∀ e ∈ fields, Legible depth e.2) : Legible (depth + 1) (object fields)

/-- A document is read back from its text, whatever follows it. -/
def ReadsBack (depth level : Nat) (j : Json) : Prop :=
  ∀ steps rest, 2 * (pretty level j).length < steps →
    readValue steps depth ((pretty level j).toList ++ rest) = some (j, rest)

/-- The text of a document starts with neither a blank nor a closing bracket. -/
theorem Legible.exists_head (h : Legible depth j) (level : Nat) :
    ∃ c cs, (pretty level j).toList = c :: cs ∧ isSpace c = false ∧ c ≠ ']' := by
  cases h with
  | null => exact ⟨'n', ['u', 'l', 'l'], by simp [pretty, scalarText], rfl, by decide⟩
  | bool b => cases b <;> simp [pretty, scalarText, isSpace]
  | string s => simp [pretty, scalarText, stringText, isSpace]
  | @array _ items => cases items <;> simp [pretty, scalarText, isSpace]
  | @object _ fields => cases fields <;> simp [pretty, scalarText, isSpace]

theorem Legible.skipSpace_pretty (h : Legible depth j) (level : Nat) (rest : List Char) :
    skipSpace ((pretty level j).toList ++ rest) = (pretty level j).toList ++ rest := by
  obtain ⟨c, cs, hcs, hc, -⟩ := h.exists_head level
  rw [hcs, List.cons_append, skipSpace_cons hc]

theorem readsBack_null : ReadsBack depth level null := by
  intro steps rest hsteps
  obtain ⟨n, rfl⟩ := Nat.exists_eq_add_one_of_ne_zero (Nat.ne_zero_of_lt hsteps)
  simp [pretty, scalarText, readValue, skipSpace_cons, isSpace, readKeyword]

theorem readsBack_bool (b : Bool) : ReadsBack depth level (bool b) := by
  intro steps rest hsteps
  obtain ⟨n, rfl⟩ := Nat.exists_eq_add_one_of_ne_zero (Nat.ne_zero_of_lt hsteps)
  cases b <;> simp [pretty, scalarText, readValue, skipSpace_cons, isSpace, readKeyword]

theorem readsBack_string (s : String) : ReadsBack depth level (string s) := by
  intro steps rest hsteps
  obtain ⟨n, rfl⟩ := Nat.exists_eq_add_one_of_ne_zero (Nat.ne_zero_of_lt hsteps)
  obtain ⟨cs, hcs, hread⟩ := readString_stringText s rest
  rw [pretty, scalarText, hcs]
  · rw [readValue, skipSpace_cons rfl]
    simp [hread]
  · nofun
  · nofun

section Members

variable {level : Nat} {close : List Char}

/-- Items that are read back each for itself are read back as an array. -/
theorem readItems_pretty {items : List Json} {first : Json} (done : List Json) {cs : List Char}
    (hitems : ∀ j ∈ first :: items, Legible depth j ∧ ReadsBack depth level j)
    (hclose : skipSpace close = ']' :: rest)
    (hcs : skipSpace cs =
      (pretty level first).toList ++ ((prettyItems "," level items).toList ++ close))
    (hsteps : 2 * ((pretty level first).length + (prettyItems "," level items).length) + 1 <
      steps) :
    readItems steps depth done cs = some (array (done.reverse ++ first :: items), rest) := by
  -- the first item is read and put away, and then the next one is the first
  induction items generalizing done steps cs first with
  | nil =>
      obtain ⟨n, rfl⟩ := Nat.exists_eq_add_one_of_ne_zero (Nat.ne_zero_of_lt hsteps)
      have hread := (hitems first List.mem_cons_self).2 n close (by omega)
      rw [readItems, ← readValue_skipSpace, hcs]
      simp [prettyItems, hread, hclose]
  | cons second items ih =>
      obtain ⟨n, rfl⟩ := Nat.exists_eq_add_one_of_ne_zero (Nat.ne_zero_of_lt hsteps)
      obtain ⟨⟨-, hfirst⟩, hitems⟩ := List.forall_mem_cons.1 hitems
      have hlength : (prettyItems "," level (second :: items)).length =
          1 + (lineBreak level).length + (pretty level second).length +
            (prettyItems "," level items).length := by
        have hone : ",".length = 1 := rfl
        simp only [prettyItems, String.length_append, hone]
      have hread := hfirst n ((prettyItems "," level (second :: items)).toList ++ close) (by omega)
      have hnext : skipSpace ((lineBreak level).toList ++ ((pretty level second).toList ++
          ((prettyItems "," level items).toList ++ close))) =
            (pretty level second).toList ++ ((prettyItems "," level items).toList ++ close) := by
        rw [skipSpace_lineBreak, (hitems second List.mem_cons_self).1.skipSpace_pretty]
      have hrest := @ih n second (first :: done) _ hitems hnext (by omega)
      rw [readItems, ← readValue_skipSpace, hcs, hread]
      simp [prettyItems, skipSpace_cons, isSpace, hrest]

/-- Fields whose documents are read back each for itself are read back as an object. -/
theorem readFields_pretty {fields : List (String × Json)} {first : String × Json}
    (done : List (String × Json)) {cs : List Char}
    (hfields : ∀ e ∈ first :: fields, ReadsBack depth level e.2)
    (hclose : skipSpace close = '}' :: rest)
    (hcs : skipSpace cs = (stringText first.1).toList ++ ':' :: ' ' ::
      ((pretty level first.2).toList ++ ((prettyFields "," level fields).toList ++ close)))
    (hsteps : 2 * ((pretty level first.2).length + (prettyFields "," level fields).length) + 1 <
      steps) :
    readFields steps depth done cs = some (ofFields (done.reverse ++ first :: fields), rest) := by
  -- as with the items, but each field has its key in front
  induction fields generalizing done steps cs first with
  | nil =>
      obtain ⟨n, rfl⟩ := Nat.exists_eq_add_one_of_ne_zero (Nat.ne_zero_of_lt hsteps)
      obtain ⟨text, htext, hkey⟩ := readString_stringText first.1 (':' :: ' ' ::
        ((pretty level first.2).toList ++ ((prettyFields "," level []).toList ++ close)))
      have hread := hfields first List.mem_cons_self n close (by omega)
      rw [← readValue_blank] at hread
      rw [readFields, hcs, htext]
      simp [hkey, prettyFields, skipSpace_cons, isSpace, hread, hclose]
  | cons second fields ih =>
      obtain ⟨n, rfl⟩ := Nat.exists_eq_add_one_of_ne_zero (Nat.ne_zero_of_lt hsteps)
      obtain ⟨hfirst, hfields⟩ := List.forall_mem_cons.1 hfields
      obtain ⟨text, htext, hkey⟩ := readString_stringText first.1 (':' :: ' ' ::
        ((pretty level first.2).toList ++
          ((prettyFields "," level (second :: fields)).toList ++ close)))
      have hlength : (prettyFields "," level (second :: fields)).length =
          1 + (lineBreak level).length + (stringText second.1).length + 2 +
            (pretty level second.2).length + (prettyFields "," level fields).length := by
        have hone : ",".length = 1 ∧ ": ".length = 2 := ⟨rfl, rfl⟩
        simp only [prettyFields, String.length_append, hone]
      have hread := hfirst n ((prettyFields "," level (second :: fields)).toList ++ close)
        (by omega)
      rw [← readValue_blank] at hread
      have hnext : skipSpace ((lineBreak level).toList ++ ((stringText second.1).toList ++ ':' ::
          ' ' :: ((pretty level second.2).toList ++
            ((prettyFields "," level fields).toList ++ close)))) =
          (stringText second.1).toList ++ ':' :: ' ' :: ((pretty level second.2).toList ++
            ((prettyFields "," level fields).toList ++ close)) := by
        rw [skipSpace_lineBreak, stringText]
        simp [skipSpace_cons, isSpace]
      have hrest := @ih n second (first :: done) _ hfields hnext (by omega)
      rw [readFields, hcs, htext]
      simp only [hkey, skipSpace_cons (show isSpace ':' = false from rfl), hread]
      simp [prettyFields, skipSpace_cons, isSpace, hrest]

end Members

/-- Behind an opening bracket items are read, unless the array is empty. -/
theorem readValue_bracket {cs more : List Char} {c : Char} (hcs : skipSpace cs = c :: more)
    (hopen : c ≠ ']') :
    readValue (steps + 1) (depth + 1) ('[' :: cs) = readItems steps depth [] (c :: more) := by
  rw [readValue, skipSpace_cons rfl]
  simp only [hcs]
  split
  · rename_i heq
    exact absurd (List.cons.inj heq).1 hopen
  · rfl

/-- Behind an opening brace fields are read, unless the object is empty. -/
theorem readValue_brace {cs more : List Char} (hcs : skipSpace cs = '"' :: more) :
    readValue (steps + 1) (depth + 1) ('{' :: cs) = readFields steps depth [] ('"' :: more) := by
  rw [readValue, skipSpace_cons rfl]
  simp only [hcs]
  rfl

theorem readsBack_array {level : Nat} {items : List Json}
    (hitems : ∀ j ∈ items, Legible depth j ∧ ReadsBack depth (level + 1) j) :
    ReadsBack (depth + 1) level (array items) := by
  intro steps rest hsteps
  obtain ⟨n, rfl⟩ := Nat.exists_eq_add_one_of_ne_zero (Nat.ne_zero_of_lt hsteps)
  cases items with
  | nil => simp [pretty, scalarText, readValue, skipSpace_cons, isSpace]
  | cons first items =>
      have hlegible := (hitems first List.mem_cons_self).1
      have hclose : skipSpace ((lineBreak level).toList ++ ']' :: rest) = ']' :: rest := by
        rw [skipSpace_lineBreak, skipSpace_cons rfl]
      obtain ⟨cs, hcs⟩ : ∃ cs, cs = (pretty (level + 1) first).toList ++
          ((prettyItems "," (level + 1) items).toList ++
            ((lineBreak level).toList ++ ']' :: rest)) := ⟨_, rfl⟩
      have hstart : skipSpace cs = cs := hcs ▸ hlegible.skipSpace_pretty (level + 1) _
      have hlength : (pretty level (array (first :: items))).length =
          2 + (lineBreak (level + 1)).length + (pretty (level + 1) first).length +
            (prettyItems "," (level + 1) items).length + (lineBreak level).length := by
        have hone : "[".length = 1 ∧ "]".length = 1 ∧ "".length = 0 := ⟨rfl, rfl, rfl⟩
        simp only [pretty, prettyItems, String.length_append]
        omega
      have htext : (pretty level (array (first :: items))).toList ++ rest =
          '[' :: ((lineBreak (level + 1)).toList ++ cs) := by
        simp [hcs, pretty, prettyItems]
      have hread := readItems_pretty [] hitems hclose (hstart.trans hcs)
        (show 2 * _ + 1 < n by omega)
      obtain ⟨c, more, hhead, -, hopen⟩ := hlegible.exists_head (level + 1)
      rw [hhead, List.cons_append] at hcs
      rw [htext, readValue_bracket ((skipSpace_lineBreak _ cs).trans (hstart.trans hcs)) hopen,
        ← hcs, hread]
      rfl

theorem readsBack_object {level : Nat} {fields : List (String × Json)}
    (hkeys : Keyed.Ascending fields) (hfields : ∀ e ∈ fields, ReadsBack depth (level + 1) e.2) :
    ReadsBack (depth + 1) level (object fields) := by
  intro steps rest hsteps
  obtain ⟨n, rfl⟩ := Nat.exists_eq_add_one_of_ne_zero (Nat.ne_zero_of_lt hsteps)
  cases fields with
  | nil => simp [pretty, scalarText, readValue, skipSpace_cons, isSpace]
  | cons first fields =>
      have hclose : skipSpace ((lineBreak level).toList ++ '}' :: rest) = '}' :: rest := by
        rw [skipSpace_lineBreak, skipSpace_cons rfl]
      obtain ⟨cs, hcs⟩ : ∃ cs, cs = (stringText first.1).toList ++ ':' :: ' ' ::
          ((pretty (level + 1) first.2).toList ++ ((prettyFields "," (level + 1) fields).toList ++
            ((lineBreak level).toList ++ '}' :: rest))) := ⟨_, rfl⟩
      obtain ⟨more, hmore⟩ : ∃ more, cs = '"' :: more := by simp [hcs, stringText]
      have hstart : skipSpace cs = cs := by rw [hmore, skipSpace_cons rfl]
      have hlength : (pretty level (object (first :: fields))).length =
          4 + (lineBreak (level + 1)).length + (stringText first.1).length +
            (pretty (level + 1) first.2).length + (prettyFields "," (level + 1) fields).length +
              (lineBreak level).length := by
        have hone : "\x7b".length = 1 ∧ "\x7d".length = 1 ∧ ": ".length = 2 ∧ "".length = 0 :=
          ⟨rfl, rfl, rfl, rfl⟩
        simp only [pretty, prettyFields, String.length_append]
        omega
      have htext : (pretty level (object (first :: fields))).toList ++ rest =
          '{' :: ((lineBreak (level + 1)).toList ++ cs) := by
        simp [hcs, pretty, prettyFields]
      have hread := readFields_pretty [] hfields hclose (hstart.trans hcs)
        (show 2 * _ + 1 < n by omega)
      rw [htext, readValue_brace ((skipSpace_lineBreak _ cs).trans (hstart.trans hmore)), ← hmore,
        hread, ofFields, List.reverse_nil, List.nil_append,
        Keyed.ofList_eq_of_perm hkeys (.refl _)]

/-- A document without numbers is read back from its text. -/
theorem Legible.readsBack (h : Legible depth j) (level : Nat) : ReadsBack depth level j := by
  induction h generalizing level with
  | null => exact readsBack_null
  | bool b => exact readsBack_bool b
  | string s => exact readsBack_string s
  | array hitems ih => exact readsBack_array fun j hj => ⟨hitems j hj, ih j hj (level + 1)⟩
  | object hkeys hfields ih => exact readsBack_object hkeys fun e he => ih e he (level + 1)

/-- A document without numbers that is nested no deeper than a reader allows is read back from its
text. -/
theorem parse_pretty (h : Legible maxDepth j) : parse (pretty 0 j) = some j := by
  have hread := h.readsBack 0 (2 * (pretty 0 j).toList.length + 2) [] (by
    rw [String.length_toList]
    omega)
  rw [List.append_nil] at hread
  rw [parse, parseWithin, hread]
  rfl

end ReactiveForm.Json
