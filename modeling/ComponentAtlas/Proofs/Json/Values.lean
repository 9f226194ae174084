import ComponentAtlas.Proofs.Json.Numbers
import ComponentAtlas.Proofs.Json.Texts

/-!
# Values read back

A value is read back from its text in any layout. The length of a text is fuel
enough to read it, for every part of it takes up at least one character. A number
is read up to its end because what follows a value never goes on with a number.
-/

namespace ComponentAtlas.Json

/-! ### Blanks -/

theorem isGap_of_mem_gap {layout : Layout} {depth : Nat} {c : Char} (h : c ∈ gap layout depth) :
    isGap c = true := by
  cases layout with
  | none => cases h
  | some blanks =>
    rcases List.mem_cons.mp h with rfl | h
    · rfl
    · rw [List.eq_of_mem_replicate h]
      rfl

theorem skipGap_gap (layout : Layout) (depth : Nat) (cs : List Char) :
    skipGap (gap layout depth ++ cs) = skipGap cs :=
  List.dropWhile_append_of_pos fun _ => isGap_of_mem_gap

theorem skipGap_cons {c : Char} (cs : List Char) (h : isGap c = false) :
    skipGap (c :: cs) = c :: cs :=
  List.dropWhile_cons_of_neg (by simp [h])

/-! ### What follows a number -/

theorem endsNumber_nil : EndsNumber [] := nofun

theorem endsNumber_cons {c : Char} (rest : List Char)
    (h : c.isDigit = false ∧ c ≠ '.' ∧ c ≠ 'e' ∧ c ≠ 'E') : EndsNumber (c :: rest) := by
  intro d hd
  obtain rfl := Option.some.inj hd
  exact h

/-! ### Tails of arrays and objects -/

/-- The further items of an array, its end on the level `outer`, and what follows it. -/
def itemsTail (layout : Layout) (depth outer : Nat) (items : List Value) (rest : List Char) :
    List Char :=
  writeItems layout depth items ++ (gap layout outer ++ ']' :: rest)

/-- The further fields of an object, its end on the level `outer`, and what follows it. -/
def fieldsTail (layout : Layout) (depth outer : Nat) (fields : List (String × Value))
    (rest : List Char) : List Char :=
  writeFields layout depth fields ++ (gap layout outer ++ '}' :: rest)

section

variable (layout : Layout) (depth outer : Nat) (rest : List Char)

theorem writeValue_array (v : Value) (items : List Value) :
    writeValue layout depth (.array (v :: items)) ++ rest =
      '[' :: (gap layout (depth + 1) ++ (writeValue layout (depth + 1) v ++
        itemsTail layout (depth + 1) depth items rest)) := by
  simp [writeValue, itemsTail]

theorem writeValue_object (name : String) (v : Value) (fields : List (String × Value)) :
    writeValue layout depth (.object ((name, v) :: fields)) ++ rest =
      '{' :: (gap layout (depth + 1) ++ (writeText name ++ (colon layout ++
        (writeValue layout (depth + 1) v ++ fieldsTail layout (depth + 1) depth fields rest)))) := by
  simp [writeValue, fieldsTail]

theorem itemsTail_cons (v : Value) (items : List Value) :
    itemsTail layout depth outer (v :: items) rest =
      ',' :: (gap layout depth ++ (writeValue layout depth v ++
        itemsTail layout depth outer items rest)) := by
  simp [itemsTail, writeItems]

theorem fieldsTail_cons (name : String) (v : Value) (fields : List (String × Value)) :
    fieldsTail layout depth outer ((name, v) :: fields) rest =
      ',' :: (gap layout depth ++ (writeText name ++ (colon layout ++
        (writeValue layout depth v ++ fieldsTail layout depth outer fields rest)))) := by
  simp [fieldsTail, writeFields]

theorem skipGap_itemsTail_nil : skipGap (itemsTail layout depth outer [] rest) = ']' :: rest := by
  rw [itemsTail, writeItems, List.nil_append, skipGap_gap, skipGap_cons _ (by decide)]

theorem skipGap_fieldsTail_nil : skipGap (fieldsTail layout depth outer [] rest) = '}' :: rest := by
  rw [fieldsTail, writeFields, List.nil_append, skipGap_gap, skipGap_cons _ (by decide)]

theorem endsNumber_gap {rest : List Char} (h : EndsNumber rest) :
    EndsNumber (gap layout depth ++ rest) := by
  cases layout with
  | none => exact h
  | some blanks => exact endsNumber_cons _ (by decide)

theorem endsNumber_itemsTail (items : List Value) :
    EndsNumber (itemsTail layout depth outer items rest) := by
  cases items with
  | nil => exact endsNumber_gap layout outer (endsNumber_cons rest (c := ']') (by decide))
  | cons v items => exact endsNumber_cons _ (by decide)

theorem endsNumber_fieldsTail (fields : List (String × Value)) :
    EndsNumber (fieldsTail layout depth outer fields rest) := by
  cases fields with
  | nil => exact endsNumber_gap layout outer (endsNumber_cons rest (c := '}') (by decide))
  | cons field fields => exact endsNumber_cons _ (by decide)

end

/-! ### What a value begins with -/

/-- The text begins neither with a blank nor with the end of a list. -/
def BeginsValue (cs : List Char) : Prop :=
  ∃ c rest, cs = c :: rest ∧ isGap c = false ∧ c ≠ ']'

theorem BeginsNumber.beginsValue {cs : List Char} (h : BeginsNumber cs) : BeginsValue cs := by
  obtain ⟨c, rest, rfl, hc⟩ := h
  refine ⟨c, rest, rfl, ?gap, ?close⟩
  case gap =>
    rw [Bool.eq_false_iff]
    intro hgap
    simp only [isGap, Bool.or_eq_true, decide_eq_true_eq] at hgap
    rcases hgap with ((rfl | rfl) | rfl) | rfl
    all_goals revert hc; decide
  case close =>
    rintro rfl
    revert hc
    decide

theorem beginsValue_writeValue (layout : Layout) (depth : Nat) (v : Value) :
    BeginsValue (writeValue layout depth v) := by
  match v with
  | .null => exact ⟨'n', _, rfl, rfl, by decide⟩
  | .bool true => exact ⟨'t', _, rfl, rfl, by decide⟩
  | .bool false => exact ⟨'f', _, rfl, rfl, by decide⟩
  | .int n =>
    have hbegins := (readNumber_writeInt n endsNumber_nil).2
    rw [List.append_nil] at hbegins
    exact hbegins.beginsValue
  | .real d =>
    have hbegins := (readNumber_write numeralStyle d endsNumber_nil).2
    rw [List.append_nil] at hbegins
    exact hbegins.beginsValue
  | .text s => exact ⟨'"', _, rfl, rfl, by decide⟩
  | .array [] => exact ⟨'[', _, rfl, rfl, by decide⟩
  | .array (v :: items) => exact ⟨'[', _, rfl, rfl, by decide⟩
  | .object [] => exact ⟨'{', _, rfl, rfl, by decide⟩
  | .object (field :: fields) => exact ⟨'{', _, rfl, rfl, by decide⟩

theorem skipGap_writeText (s : String) (cs : List Char) :
    skipGap (writeText s ++ cs) = writeText s ++ cs :=
  skipGap_cons _ (by decide)

theorem skipGap_writeValue (layout : Layout) (depth : Nat) (v : Value) (cs : List Char) :
    skipGap (writeValue layout depth v ++ cs) = writeValue layout depth v ++ cs := by
  obtain ⟨c, rest, htext, hgap, -⟩ := beginsValue_writeValue layout depth v
  rw [htext, List.cons_append, skipGap_cons _ hgap]

theorem length_writeValue_pos (layout : Layout) (depth : Nat) (v : Value) :
    0 < (writeValue layout depth v).length := by
  obtain ⟨c, rest, htext, -⟩ := beginsValue_writeValue layout depth v
  rw [htext]
  exact Nat.succ_pos _

/-! ### One value, item or field -/

theorem readName_writeText (layout : Layout) (name : String) (cs : List Char) :
    readName (writeText name ++ (colon layout ++ cs)) = some (name, skipGap cs) := by
  have htext : writeText name ++ (colon layout ++ cs) =
      '"' :: (name.toList.flatMap escapeChar ++ '"' :: (colon layout ++ cs)) := by
    simp [writeText]
  have hread : readName (writeText name ++ (colon layout ++ cs)) =
      some (String.ofList name.toList, skipGap cs) := by
    rw [htext, readName, readText_writeText]
    cases layout with
    | none => rfl
    | some blanks => rfl
  rw [hread, String.ofList_toList]

theorem readValue_number {cs : List Char} (fuel : Nat) (h : BeginsNumber cs) :
    readValue (fuel + 1) cs = readNumber cs := by
  obtain ⟨c, rest, rfl, hc⟩ := h
  rw [readValue.eq_def]
  dsimp only
  -- Every other form begins with a character that is neither a digit nor a minus.
  split
  all_goals first
    | rfl
    | rename_i heq
      obtain ⟨rfl, -⟩ := List.cons.inj heq
      exact absurd hc (by decide)

theorem readValue_text (fuel : Nat) (s : String) (rest : List Char) :
    readValue (fuel + 1) (writeText s ++ rest) = some (.text s, rest) := by
  have htext : writeText s ++ rest = '"' :: (s.toList.flatMap escapeChar ++ '"' :: rest) := by
    simp [writeText]
  rw [htext, readValue, readText_writeText, Option.map_some, String.ofList_toList]

/-- With so much fuel, the value is read from its text whatever may follow a value. -/
def ReadsBack (layout : Layout) (fuel depth : Nat) (v : Value) : Prop :=
  ∀ rest, EndsNumber rest → readValue fuel (writeValue layout depth v ++ rest) = some (v, rest)

section

variable {layout : Layout} {depth outer fuel : Nat} {name : String} {v : Value}
variable {items : List Value} {fields : List (String × Value)} {rest : List Char}

theorem readsBack_array (hv : ReadsBack layout fuel (depth + 1) v)
    (hitems : ∀ rest, readItems fuel (skipGap (itemsTail layout (depth + 1) depth items rest)) =
      some (items, rest)) :
    ReadsBack layout (fuel + 1) depth (.array (v :: items)) := by
  intro rest _
  have hread := hv _ (endsNumber_itemsTail layout (depth + 1) depth rest items)
  obtain ⟨c, cs, hbegins, hgap, hclose⟩ := beginsValue_writeValue layout (depth + 1) v
  rw [hbegins, List.cons_append] at hread
  rw [writeValue_array, hbegins, List.cons_append, readValue, skipGap_gap, skipGap_cons _ hgap]
  split
  · rename_i heq
    exact absurd (List.cons.inj heq).1 hclose
  · simp only [hread, Option.bind_some, hitems, Option.map_some]

theorem readsBack_object (hv : ReadsBack layout fuel (depth + 1) v)
    (hfields : ∀ rest, readFields fuel (skipGap (fieldsTail layout (depth + 1) depth fields rest)) =
      some (fields, rest)) :
    ReadsBack layout (fuel + 1) depth (.object ((name, v) :: fields)) := by
  intro rest _
  have hread := hv _ (endsNumber_fieldsTail layout (depth + 1) depth rest fields)
  have hname := readName_writeText layout name (writeValue layout (depth + 1) v ++
    fieldsTail layout (depth + 1) depth fields rest)
  rw [writeText, List.cons_append] at hname
  rw [writeValue_object, writeText, List.cons_append, readValue, skipGap_gap,
    skipGap_cons _ (by decide)]
  split
  · rename_i heq
    exact absurd (List.cons.inj heq).1 (by decide)
  · simp only [hname, skipGap_writeValue, hread, Option.bind_some, hfields, Option.map_some]

theorem readItems_nil :
    readItems (fuel + 1) (skipGap (itemsTail layout depth outer [] rest)) = some ([], rest) := by
  rw [skipGap_itemsTail_nil, readItems]

theorem readItems_cons (hv : ReadsBack layout fuel depth v)
    (hitems : readItems fuel (skipGap (itemsTail layout depth outer items rest)) =
      some (items, rest)) :
    readItems (fuel + 1) (skipGap (itemsTail layout depth outer (v :: items) rest)) =
      some (v :: items, rest) := by
  have hread := hv _ (endsNumber_itemsTail layout depth outer rest items)
  rw [itemsTail_cons, skipGap_cons _ (by decide), readItems, skipGap_gap, skipGap_writeValue]
  simp only [hread, Option.bind_some, hitems, Option.map_some]

theorem readFields_nil :
    readFields (fuel + 1) (skipGap (fieldsTail layout depth outer [] rest)) = some ([], rest) := by
  rw [skipGap_fieldsTail_nil, readFields]

theorem readFields_cons (hv : ReadsBack layout fuel depth v)
    (hfields : readFields fuel (skipGap (fieldsTail layout depth outer fields rest)) =
      some (fields, rest)) :
    readFields (fuel + 1) (skipGap (fieldsTail layout depth outer ((name, v) :: fields) rest)) =
      some ((name, v) :: fields, rest) := by
  have hread := hv _ (endsNumber_fieldsTail layout depth outer rest fields)
  rw [fieldsTail_cons, skipGap_cons _ (by decide), readFields, skipGap_gap, skipGap_writeText]
  simp only [readName_writeText, skipGap_writeValue, hread, Option.bind_some, hfields,
    Option.map_some]

end

/-! ### Every value -/

mutual

/-- A value is read back with its text as fuel. -/
theorem readsBack (layout : Layout) : ∀ (v : Value) {depth fuel : Nat},
    (writeValue layout depth v).length ≤ fuel → ReadsBack layout fuel depth v
  | v, depth, 0, h => absurd h (Nat.not_le.mpr (length_writeValue_pos layout depth v))
  | .null, _, fuel + 1, _ => fun _ _ => rfl
  | .bool true, _, fuel + 1, _ => fun _ _ => rfl
  | .bool false, _, fuel + 1, _ => fun _ _ => rfl
  | .int n, _, fuel + 1, _ => fun rest hrest => by
    obtain ⟨hread, hbegins⟩ := readNumber_writeInt n hrest
    exact (readValue_number fuel hbegins).trans hread
  | .real d, _, fuel + 1, _ => fun rest hrest => by
    obtain ⟨hread, hbegins⟩ := readNumber_write numeralStyle d hrest
    exact (readValue_number fuel hbegins).trans hread
  | .text s, _, fuel + 1, _ => fun rest _ => readValue_text fuel s rest
  | .array [], _, fuel + 1, _ => fun _ _ => rfl
  | .array (v :: items), depth, fuel + 1, h => by
    simp only [writeValue, List.length_cons, List.length_append, List.length_nil] at h
    exact readsBack_array (readsBack layout v (by omega))
      fun rest => readItems_itemsTail layout items (by omega)
  | .object [], _, fuel + 1, _ => fun _ _ => rfl
  | .object ((name, v) :: fields), depth, fuel + 1, h => by
    simp only [writeValue, List.length_cons, List.length_append, List.length_nil] at h
    exact readsBack_object (readsBack layout v (by omega))
      fun rest => readFields_fieldsTail layout fields (by omega)

theorem readItems_itemsTail (layout : Layout) :
    ∀ (items : List Value) {depth outer fuel : Nat} {rest : List Char},
      (writeItems layout depth items).length < fuel →
        readItems fuel (skipGap (itemsTail layout depth outer items rest)) = some (items, rest)
  | _, _, _, 0, _, h => absurd h (Nat.not_lt_zero _)
  | [], _, _, fuel + 1, _, _ => readItems_nil
  | v :: items, depth, _, fuel + 1, rest, h => by
    simp only [writeItems, List.length_cons, List.length_append] at h
    exact readItems_cons (readsBack layout v (by omega))
      (readItems_itemsTail layout items (by omega))

theorem readFields_fieldsTail (layout : Layout) :
    ∀ (fields : List (String × Value)) {depth outer fuel : Nat} {rest : List Char},
      (writeFields layout depth fields).length < fuel →
        readFields fuel (skipGap (fieldsTail layout depth outer fields rest)) = some (fields, rest)
  | _, _, _, 0, _, h => absurd h (Nat.not_lt_zero _)
  | [], _, _, fuel + 1, _, _ => readFields_nil
  | (name, v) :: fields, depth, _, fuel + 1, rest, h => by
    simp only [writeFields, List.length_cons, List.length_append] at h
    exact readFields_cons (readsBack layout v (by omega))
      (readFields_fieldsTail layout fields (by omega))

end

theorem read?_print (layout : Layout) (v : Value) : read? (print layout v) = some v := by
  let text := writeValue layout 0 v
  have hread : readValue (text.length + 1) text = some (v, []) := by
    have hback := readsBack layout v (Nat.le_add_right text.length 1) [] endsNumber_nil
    rw [List.append_nil] at hback
    exact hback
  have hskip : skipGap text = text := by
    have hvalue := skipGap_writeValue layout 0 v []
    rw [List.append_nil] at hvalue
    exact hvalue
  have htext : (print layout v).toList = text := String.toList_ofList
  simp only [read?, htext, hskip, hread]
  rfl

end ComponentAtlas.Json
