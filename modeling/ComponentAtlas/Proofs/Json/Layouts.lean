import ComponentAtlas.Json.Squeeze
import ComponentAtlas.Proofs.Json.Values

/-!
# Layouts differ in blanks only

Without the blanks outside its strings, the text of a value in any layout is its
text without a layout. The pieces of a text are squeezed one by one, as each of
them ends outside strings.
-/

namespace ComponentAtlas.Json

/-! ### Pieces of a text -/

/-- The text ends outside strings, and `core` is left of it. -/
def SqueezesTo (text core : List Char) : Prop :=
  ∀ rest, squeezeFrom .outside (text ++ rest) = core ++ squeezeFrom .outside rest

/-- The character is no blank and does not begin a string. -/
def Stays (c : Char) : Prop := isGap c = false ∧ c ≠ '"'

theorem squeezesTo_nil : SqueezesTo [] [] := fun _ => rfl

theorem SqueezesTo.append {text core next coreNext : List Char} (h : SqueezesTo text core)
    (hnext : SqueezesTo next coreNext) : SqueezesTo (text ++ next) (core ++ coreNext) := by
  intro rest
  rw [List.append_assoc, h, hnext, List.append_assoc]

theorem SqueezesTo.cons {c : Char} {text core : List Char} (hc : Stays c)
    (h : SqueezesTo text core) : SqueezesTo (c :: text) (c :: core) := by
  intro rest
  simp only [List.cons_append, squeezeFrom, Place.after, hc.1, hc.2, h rest, Bool.and_false,
    Bool.false_eq_true, if_false]

theorem squeezesTo_of_stays {text : List Char} (h : ∀ c ∈ text, Stays c) :
    SqueezesTo text text := by
  induction text with
  | nil => exact squeezesTo_nil
  | cons c text ih =>
    obtain ⟨hc, htext⟩ := List.forall_mem_cons.mp h
    exact (ih htext).cons hc

theorem squeezesTo_of_isGap {text : List Char} (h : ∀ c ∈ text, isGap c = true) :
    SqueezesTo text [] := by
  induction text with
  | nil => exact squeezesTo_nil
  | cons c text ih =>
    obtain ⟨hc, htext⟩ := List.forall_mem_cons.mp h
    have hquote : c ≠ '"' := by
      rintro rfl
      cases hc
    intro rest
    simp only [List.cons_append, squeezeFrom, Place.after, hc, hquote, if_false, Bool.and_true,
      decide_true, if_true]
    exact ih htext rest

/-! ### Strings -/

theorem squeezeFrom_plain {text : List Char} (h : ∀ c ∈ text, c ≠ '"' ∧ c ≠ '\\')
    (rest : List Char) :
    squeezeFrom .inText (text ++ rest) = text ++ squeezeFrom .inText rest := by
  induction text with
  | nil => rfl
  | cons c text ih =>
    obtain ⟨⟨hquote, hescape⟩, htext⟩ := List.forall_mem_cons.mp h
    simp [squeezeFrom, Place.after, hquote, hescape, ih htext]

theorem squeezeFrom_escape (c : Char) (rest : List Char) :
    squeezeFrom .inText ('\\' :: c :: rest) = '\\' :: c :: squeezeFrom .inText rest := by
  simp [squeezeFrom, Place.after]

theorem hexDigits_plain {n : Nat} (h : n < 32) :
    ∀ c ∈ Text.hexDigits 4 n, c ≠ '"' ∧ c ≠ '\\' := by
  have hall : ∀ n < 32, (Text.hexDigits 4 n).all (fun c => c != '"' && c != '\\') = true := by
    decide
  intro c hc
  have hplain := List.all_eq_true.mp (hall n h) c hc
  simp only [Bool.and_eq_true, bne_iff_ne] at hplain
  exact hplain

theorem squeezeFrom_escapeChar (c : Char) (rest : List Char) :
    squeezeFrom .inText (escapeChar c ++ rest) = escapeChar c ++ squeezeFrom .inText rest := by
  rcases escapeChar_cases c with ⟨e, htext, -, -⟩ | ⟨htext, hcontrol⟩ |
    ⟨htext, hquote, hescape, -⟩
  · rw [htext]
    exact squeezeFrom_escape e rest
  · rw [htext]
    calc squeezeFrom .inText ('\\' :: 'u' :: (Text.hexDigits 4 c.toNat ++ rest))
        = '\\' :: 'u' :: squeezeFrom .inText (Text.hexDigits 4 c.toNat ++ rest) :=
          squeezeFrom_escape 'u' _
      _ = '\\' :: 'u' :: (Text.hexDigits 4 c.toNat ++ squeezeFrom .inText rest) := by
          rw [squeezeFrom_plain (hexDigits_plain hcontrol)]
  · rw [htext]
    exact squeezeFrom_plain (List.forall_mem_singleton.mpr ⟨hquote, hescape⟩) rest

theorem squeezeFrom_flatMap (cs rest : List Char) :
    squeezeFrom .inText (cs.flatMap escapeChar ++ rest) =
      cs.flatMap escapeChar ++ squeezeFrom .inText rest := by
  induction cs with
  | nil => rfl
  | cons c cs ih =>
    rw [List.flatMap_cons, List.append_assoc, squeezeFrom_escapeChar, ih, List.append_assoc]

theorem squeezesTo_writeText (s : String) : SqueezesTo (writeText s) (writeText s) := by
  intro rest
  have hopen (cs : List Char) :
      squeezeFrom .outside ('"' :: cs) = '"' :: squeezeFrom .inText cs := rfl
  have hclose : squeezeFrom .inText ('"' :: rest) = '"' :: squeezeFrom .outside rest := rfl
  simp only [writeText, List.cons_append, List.append_assoc, List.nil_append, hopen,
    squeezeFrom_flatMap, hclose]

/-! ### Numbers -/

theorem stays_of_isDigit {c : Char} (h : c.isDigit = true) : Stays c := by
  constructor
  · rw [Bool.eq_false_iff]
    intro hgap
    simp only [isGap, Bool.or_eq_true, decide_eq_true_eq] at hgap
    rcases hgap with ((rfl | rfl) | rfl) | rfl
    all_goals cases h
  · rintro rfl
    cases h

theorem stays_digitsOf (n : Nat) : ∀ c ∈ digitsOf n, Stays c :=
  fun c hc => stays_of_isDigit (isDigit_digitsOf n c hc)

theorem stays_zeros (n : Nat) : ∀ c ∈ Numeral.zeros n, Stays c :=
  fun c hc => stays_of_isDigit (isDigit_zeros n c hc)

theorem stays_exponentText (width : Nat) (exponent : Int) :
    ∀ c ∈ Numeral.exponentText width exponent, Stays c := by
  refine List.forall_mem_cons.mpr ⟨?_, List.forall_mem_append.mpr ⟨stays_zeros _, stays_digitsOf _⟩⟩
  split
  · exact ⟨rfl, by decide⟩
  · exact ⟨rfl, by decide⟩

theorem stays_positional {digits : List Char} (h : ∀ c ∈ digits, Stays c) (exponent : Int) :
    ∀ c ∈ Numeral.positional digits exponent, Stays c := by
  have hpoint : Stays '.' := ⟨rfl, by decide⟩
  have hzero : Stays '0' := ⟨rfl, by decide⟩
  unfold Numeral.positional
  dsimp only
  split
  · simp only [List.forall_mem_append, List.forall_mem_cons]
    exact ⟨⟨h, stays_zeros _⟩, hpoint, hzero, nofun⟩
  · split
    · simp only [List.forall_mem_append, List.forall_mem_cons]
      exact ⟨fun c hc => h c (List.mem_of_mem_take hc), hpoint,
        fun c hc => h c (List.mem_of_mem_drop hc)⟩
    · simp only [List.forall_mem_append, List.forall_mem_cons]
      exact ⟨hzero, hpoint, stays_zeros _, h⟩

theorem stays_scientific {digits : List Char} (h : ∀ c ∈ digits, Stays c) (width : Nat)
    (exponent : Int) : ∀ c ∈ Numeral.scientific width digits exponent, Stays c := by
  have hpoint : Stays '.' := ⟨rfl, by decide⟩
  have hmark : Stays 'e' := ⟨rfl, by decide⟩
  match digits with
  | [] => exact h
  | [first] =>
    simp only [Numeral.scientific, List.forall_mem_cons]
    exact ⟨h first (List.mem_singleton_self _), hmark, stays_exponentText width exponent⟩
  | first :: second :: rest =>
    obtain ⟨hfirst, hrest⟩ := List.forall_mem_cons.mp h
    simp only [Numeral.scientific, List.forall_mem_append, List.forall_mem_cons]
    exact ⟨hfirst, hpoint, List.forall_mem_cons.mp hrest, hmark, stays_exponentText width exponent⟩

theorem stays_write (style : Numeral.Style) (n : Numeral) : ∀ c ∈ n.write style, Stays c := by
  unfold Numeral.write
  dsimp only
  split
  · exact stays_positional (stays_digitsOf _) _
  · exact stays_scientific (stays_digitsOf _) _ _

/-- A minus in front of characters that stay stays as well. -/
theorem stays_signed (negative : Bool) {text : List Char} (h : ∀ c ∈ text, Stays c) :
    ∀ c ∈ if negative then '-' :: text else text, Stays c := by
  cases negative with
  | true => exact List.forall_mem_cons.mpr ⟨⟨rfl, by decide⟩, h⟩
  | false => exact h

theorem stays_writeInt (n : Int) : ∀ c ∈ writeInt n, Stays c := by
  have hsigned := stays_signed (decide (n < 0)) (stays_digitsOf n.natAbs)
  simp only [decide_eq_true_eq] at hsigned
  exact hsigned

theorem stays_writeDouble (style : Numeral.Style) (d : Double) : ∀ c ∈ d.write style, Stays c := by
  rw [Double.write]
  exact stays_signed d.negative (stays_write style _)

/-! ### Values -/

theorem squeezesTo_gap (layout : Layout) (depth other : Nat) :
    SqueezesTo (gap layout depth) (gap none other) :=
  squeezesTo_of_isGap fun _ => isGap_of_mem_gap

theorem squeezesTo_colon (layout : Layout) : SqueezesTo (colon layout) (colon none) := by
  have hcolon : Stays ':' := ⟨rfl, by decide⟩
  cases layout with
  | none => exact squeezesTo_nil.cons hcolon
  | some blanks => exact (squeezesTo_of_isGap (List.forall_mem_singleton.mpr rfl)).cons hcolon

/-- A character that stays, as a text of its own. -/
theorem squeezesTo_singleton {c : Char} (h : Stays c) : SqueezesTo [c] [c] :=
  squeezesTo_nil.cons h

mutual

/-- The text of a value ends outside strings, and its text without a layout is left of it. -/
theorem squeezesTo_writeValue (layout : Layout) : ∀ (v : Value) (depth other : Nat),
    SqueezesTo (writeValue layout depth v) (writeValue none other v)
  | .null, _, _ => fun _ => rfl
  | .bool true, _, _ => fun _ => rfl
  | .bool false, _, _ => fun _ => rfl
  | .int n, _, _ => squeezesTo_of_stays (stays_writeInt n)
  | .real d, _, _ => squeezesTo_of_stays (stays_writeDouble numeralStyle d)
  | .text s, _, _ => squeezesTo_writeText s
  | .array [], _, _ => fun _ => rfl
  | .array (v :: items), depth, other => by
    have hopen : Stays '[' := ⟨rfl, by decide⟩
    have hclose : Stays ']' := ⟨rfl, by decide⟩
    have hv := squeezesTo_writeValue layout v (depth + 1) (other + 1)
    have hitems := squeezesTo_writeItems layout items (depth + 1) (other + 1)
    exact (((((squeezesTo_gap layout _ _).append hv).append hitems).append
      (squeezesTo_gap layout _ _)).append (squeezesTo_singleton hclose)).cons hopen
  | .object [], _, _ => fun _ => rfl
  | .object ((name, v) :: fields), depth, other => by
    have hopen : Stays '{' := ⟨rfl, by decide⟩
    have hclose : Stays '}' := ⟨rfl, by decide⟩
    have hname := (squeezesTo_gap layout (depth + 1) (other + 1)).append (squeezesTo_writeText name)
    have hv := squeezesTo_writeValue layout v (depth + 1) (other + 1)
    have hfields := squeezesTo_writeFields layout fields (depth + 1) (other + 1)
    exact (((((hname.append (squeezesTo_colon layout)).append hv).append hfields).append
      (squeezesTo_gap layout _ _)).append (squeezesTo_singleton hclose)).cons hopen

theorem squeezesTo_writeItems (layout : Layout) : ∀ (items : List Value) (depth other : Nat),
    SqueezesTo (writeItems layout depth items) (writeItems none other items)
  | [], _, _ => squeezesTo_nil
  | v :: items, depth, other => by
    have hcomma : Stays ',' := ⟨rfl, by decide⟩
    have hv := squeezesTo_writeValue layout v depth other
    have hitems := squeezesTo_writeItems layout items depth other
    exact (((squeezesTo_gap layout _ _).append hv).append hitems).cons hcomma

theorem squeezesTo_writeFields (layout : Layout) :
    ∀ (fields : List (String × Value)) (depth other : Nat),
      SqueezesTo (writeFields layout depth fields) (writeFields none other fields)
  | [], _, _ => squeezesTo_nil
  | (name, v) :: fields, depth, other => by
    have hcomma : Stays ',' := ⟨rfl, by decide⟩
    have hname := (squeezesTo_gap layout depth other).append (squeezesTo_writeText name)
    have hv := squeezesTo_writeValue layout v depth other
    have hfields := squeezesTo_writeFields layout fields depth other
    exact (((hname.append (squeezesTo_colon layout)).append hv).append hfields).cons hcomma

end

theorem squeeze_print (layout : Layout) (v : Value) : squeeze (print layout v) = print none v := by
  have htext := squeezesTo_writeValue layout v 0 0 []
  rw [List.append_nil, squeezeFrom, List.append_nil] at htext
  rw [squeeze, print, String.toList_ofList, htext, print]

end ComponentAtlas.Json
