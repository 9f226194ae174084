import ComponentAtlas.Proofs.Document.Forms

/-!
# What a document has of its record

Normalization is told here slot by slot, without its program. Entries, methods
and data stay in their order, and each of them keeps what it has, save what is
empty and the blanks around a description. A record has this one document if it
has a document, and what is said of the document says also which records have one.
-/

namespace ComponentAtlas

open Checked Record Schema

/-! ### Texts without outer blanks -/

namespace Text

/-- What is left of a text when the blanks at both ends are gone, if anything is left. -/
inductive Trims (s : String) : Option String → Prop
  | nothing : (∀ c ∈ s.toList, isBlank c = true) → Trims s none
  | left {t : String} {before after : List Char} : s.toList = before ++ t.toList ++ after →
      (∀ c ∈ before, isBlank c = true) → (∀ c ∈ after, isBlank c = true) → t ≠ "" →
      (∀ c, t.toList.head? = some c → isBlank c = false) →
      (∀ c, t.toList.getLast? = some c → isBlank c = false) → Trims s (some t)

theorem dropWhile_append_of_head {blanks rest : List Char} (hblanks : ∀ c ∈ blanks, isBlank c = true)
    (hrest : ∀ c, rest.head? = some c → isBlank c = false) :
    (blanks ++ rest).dropWhile isBlank = rest := by
  rw [List.dropWhile_append_of_pos hblanks]
  cases rest with
  | nil => rfl
  | cons c rest => rw [List.dropWhile_cons_of_neg (Bool.eq_false_iff.mp (hrest c rfl))]

theorem head?_dropWhile_isBlank {cs : List Char} {c : Char}
    (h : (cs.dropWhile isBlank).head? = some c) : isBlank c = false := by
  have hnot := List.head?_dropWhile_not isBlank cs
  rw [h] at hnot
  simpa using hnot

/-- Blanks before and after are what trimming takes away. -/
theorem trimChars_append {before middle after : List Char}
    (hbefore : ∀ c ∈ before, isBlank c = true) (hafter : ∀ c ∈ after, isBlank c = true)
    (hne : middle ≠ []) (hhead : ∀ c, middle.head? = some c → isBlank c = false)
    (hlast : ∀ c, middle.getLast? = some c → isBlank c = false) :
    trimChars (before ++ middle ++ after) = middle := by
  have hfront : ∀ c, (middle ++ after).head? = some c → isBlank c = false := by
    intro c hc
    rw [List.head?_append_of_ne_nil _ hne] at hc
    exact hhead c hc
  have hback : ∀ c, middle.reverse.head? = some c → isBlank c = false := by
    intro c hc
    rw [List.head?_reverse] at hc
    exact hlast c hc
  have hreversed : ∀ c ∈ after.reverse, isBlank c = true :=
    fun c hc => hafter c (List.mem_reverse.mp hc)
  rw [trimChars, List.append_assoc, dropWhile_append_of_head hbefore hfront, List.reverse_append,
    dropWhile_append_of_head hreversed hback, List.reverse_reverse]

theorem exists_trimChars (cs : List Char) : ∃ before after, cs = before ++ trimChars cs ++ after ∧
    (∀ c ∈ before, isBlank c = true) ∧ (∀ c ∈ after, isBlank c = true) ∧
      (∀ c, (trimChars cs).head? = some c → isBlank c = false) ∧
      ∀ c, (trimChars cs).getLast? = some c → isBlank c = false := by
  have hblank (l : List Char) : ∀ c ∈ l.takeWhile isBlank, isBlank c = true :=
    fun c hc => List.mem_takeWhile_imp hc
  have hrest : cs.dropWhile isBlank =
      trimChars cs ++ ((cs.dropWhile isBlank).reverse.takeWhile isBlank).reverse := by
    rw [trimChars, ← List.reverse_append, List.takeWhile_append_dropWhile, List.reverse_reverse]
  refine ⟨cs.takeWhile isBlank, ((cs.dropWhile isBlank).reverse.takeWhile isBlank).reverse, ?_,
    hblank cs, fun c hc => hblank _ c (List.mem_reverse.mp hc), fun c hc => ?_, fun c hc => ?_⟩
  · rw [List.append_assoc, ← hrest, List.takeWhile_append_dropWhile]
  · -- What is left begins as the text without the blanks before it begins.
    have hne : trimChars cs ≠ [] := by
      rintro hnil
      rw [hnil] at hc
      cases hc
    have hfirst : (cs.dropWhile isBlank).head? = some c := by
      rw [hrest, List.head?_append_of_ne_nil _ hne]
      exact hc
    exact head?_dropWhile_isBlank hfirst
  · rw [trimChars, List.getLast?_reverse] at hc
    exact head?_dropWhile_isBlank hc

end Text

namespace Draft

theorem cleanText_eq_iff (s : String) (o : Option String) :
    cleanText true s = o ↔ Text.Trims s o := by
  obtain ⟨before, after, hsplit, hbefore, hafter, hhead, hlast⟩ := Text.exists_trimChars s.toList
  have hlist : (Text.trim s).toList = Text.trimChars s.toList := String.toList_ofList
  constructor
  · rintro rfl
    by_cases hnil : Text.trim s = ""
    · have hnone : cleanText true s = none := if_pos hnil
      have hchars : Text.trimChars s.toList = [] := by rw [← hlist, hnil]; rfl
      rw [hnone]
      refine .nothing fun c hc => ?_
      rw [hsplit, hchars, List.append_nil, List.mem_append] at hc
      rcases hc with hc | hc
      · exact hbefore c hc
      · exact hafter c hc
    · have hsome : cleanText true s = some (Text.trim s) := if_neg hnil
      rw [hsome]
      rw [← hlist] at hsplit hhead hlast
      exact .left hsplit hbefore hafter hnil hhead hlast
  · intro h
    cases h with
    | nothing hblank =>
      have hchars : Text.trimChars s.toList = [] := by
        have hdrop : s.toList.dropWhile Text.isBlank = [] := List.dropWhile_eq_nil_iff.mpr hblank
        rw [Text.trimChars, hdrop]
        rfl
      refine if_pos ?_
      show String.ofList (Text.trimChars s.toList) = ""
      rw [hchars]
    | @left t before after hs hb ha hne hh hl =>
      have hchars : Text.trimChars s.toList = t.toList := by
        rw [hs]
        refine Text.trimChars_append hb ha ?_ hh hl
        exact fun hnil => hne (String.toList_eq_nil_iff.mp hnil)
      have htrim : Text.trim s = t := by
        rw [Text.trim, hchars, String.ofList_toList]
      refine (nonEmptyText_eq_some _ _).mpr ⟨?_, hne⟩
      exact htrim

end Draft

/-! ### Lists without repetitions -/

/-- The items of a list, each once, in the order in which they come first. -/
structure Distinct.IsFirsts {α : Type} [DecidableEq α] (given found : List α) : Prop where
  mem : ∀ a, a ∈ found ↔ a ∈ given
  nodup : found.Nodup
  ordered : found.Pairwise fun a b => given.idxOf a < given.idxOf b

theorem Distinct.IsFirsts.unique {α : Type} [DecidableEq α] {given found other : List α}
    (h : IsFirsts given found) (h' : IsFirsts given other) : found = other := by
  have hperm : found.Perm other := by
    rw [List.perm_ext_iff_of_nodup h.nodup h'.nodup]
    intro a
    rw [h.mem, h'.mem]
  refine hperm.eq_of_pairwise ?_ h.ordered h'.ordered
  intro a b _ _ hab hba
  exact absurd (Nat.lt_trans hab hba) (Nat.lt_irrefl _)

theorem Distinct.isFirsts_eraseDups {α : Type} [DecidableEq α] (l : List α) :
    IsFirsts l l.eraseDups where
  mem a := List.mem_eraseDups
  nodup := by
    refine (Distinct.pairwise_eraseDupsBy l).imp ?_
    rintro a b hab rfl
    simp at hab
  ordered := Distinct.pairwise_findIdx id l

/-! ### Parts of entries and methods -/

/-- What is absent or empty is absent in the end, and what is there stays as it is. -/
def KeepsNonEmpty {α : Type} (given found : Option (List α)) : Prop :=
  ∀ l, found = some l ↔ given = some l ∧ l ≠ []

inductive KeepsText : Option String → Option String → Prop
  | absent : KeepsText none none
  | given {s : String} {o : Option String} : Text.Trims s o → KeepsText (some s) o

structure Record.PropDescriptor.Becomes (given found : PropDescriptor Value) : Prop where
  type : KeepsNonEmpty given.type found.type
  flowType : KeepsNonEmpty given.flowType found.flowType
  tsType : KeepsNonEmpty given.tsType found.tsType
  defaultValue : KeepsNonEmpty given.defaultValue found.defaultValue
  required_of_default : found.defaultValue ≠ none → found.required = some false
  required_of_none : found.defaultValue = none → found.required = given.required
  description : KeepsText given.description found.description

structure Record.MethodDescriptor.Becomes (given : MethodDescriptor Value)
    (found : MethodEntry) : Prop where
  named : given.name ≠ ""
  name : found.name = given.name
  modifiers : given.modifiers = found.modifiers.map .text
  params : given.params = found.params.map .object
  returns : KeepsNonEmpty given.returns found.returns
  docblock : KeepsText given.docblock found.docblock
  description : KeepsText given.description found.description

namespace Draft

theorem bind_nonEmptyList_eq_some {α : Type} (given : Option (List α)) (l : List α) :
    given.bind nonEmptyList = some l ↔ given = some l ∧ l ≠ [] := by
  rw [Option.bind_eq_some_iff]
  constructor
  · rintro ⟨m, hm, hl⟩
    obtain ⟨rfl, hne⟩ := (nonEmptyList_eq_some _ _).mp hl
    exact ⟨hm, hne⟩
  · rintro ⟨hl, hne⟩
    exact ⟨l, hl, (nonEmptyList_eq_some _ _).mpr ⟨rfl, hne⟩⟩

theorem bind_nonEmptyList_eq_iff {α : Type} (given found : Option (List α)) :
    given.bind nonEmptyList = found ↔ KeepsNonEmpty given found := by
  constructor
  · rintro rfl l
    exact bind_nonEmptyList_eq_some given l
  · intro h
    refine Option.ext fun l => ?_
    rw [bind_nonEmptyList_eq_some, h]

theorem bind_cleanText_eq_iff (given found : Option String) :
    given.bind (cleanText true) = found ↔ KeepsText given found := by
  cases given with
  | none =>
    constructor
    · rintro rfl
      exact .absent
    · intro h
      cases h
      rfl
  | some s =>
    rw [Option.bind_some, cleanText_eq_iff]
    constructor
    · exact .given
    · intro h
      cases h with
      | given h => exact h

theorem cleanEntry_eq_iff (given found : PropDescriptor Value) :
    cleanEntry true given = found ↔ given.Becomes found := by
  constructor
  · rintro rfl
    refine ⟨(bind_nonEmptyList_eq_iff _ _).mp rfl, (bind_nonEmptyList_eq_iff _ _).mp rfl,
      (bind_nonEmptyList_eq_iff _ _).mp rfl, (bind_nonEmptyList_eq_iff _ _).mp rfl, ?_, ?_,
      (bind_cleanText_eq_iff _ _).mp rfl⟩
    · intro h
      exact if_pos (Option.isSome_iff_ne_none.mpr h)
    · intro h
      have hnone : ¬ (given.defaultValue.bind nonEmptyList).isSome = true := by
        rw [Option.not_isSome_iff_eq_none]
        exact h
      exact if_neg hnone
  · intro h
    have hdefault := (bind_nonEmptyList_eq_iff _ _).mpr h.defaultValue
    have hrequired : (if (given.defaultValue.bind nonEmptyList).isSome then some false
        else given.required) = found.required := by
      rw [hdefault]
      cases hfound : found.defaultValue with
      | none => exact (h.required_of_none hfound).symm
      | some fields =>
        exact (h.required_of_default (by rw [hfound]; exact Option.some_ne_none _)).symm
    rw [cleanEntry, hrequired, hdefault, (bind_nonEmptyList_eq_iff _ _).mpr h.type,
      (bind_nonEmptyList_eq_iff _ _).mpr h.flowType, (bind_nonEmptyList_eq_iff _ _).mpr h.tsType,
      (bind_cleanText_eq_iff _ _).mpr h.description]

theorem checkMethod_eq_iff (given : MethodDescriptor Value) (found : MethodEntry) :
    checkMethod .values true given = pure found ↔ given.Becomes found := by
  have hid : (Record.mapData (View.value .values) : Keyed String Value → _) = id :=
    funext fun fields => Record.mapData_id fields
  have hparams (params : List (Keyed String Value)) :
      readItems (takeMapping .values) given.params = pure params ↔
        given.params = params.map .object := by
    rw [funext takeMapping_values]
    exact readItems_readMapping
  have hmodifiers (modifiers : List String) :
      readItems (takeText .values) given.modifiers = pure modifiers ↔
        given.modifiers = modifiers.map .text := readItems_readText
  rw [checkMethod_eq_pure]
  simp only [hid, List.map_id, Option.map_id, id_eq, hparams, hmodifiers]
  constructor
  · rintro ⟨hname, modifiers, params, hmodifiers, hparams, rfl⟩
    exact ⟨hname, rfl, hmodifiers, hparams, (bind_nonEmptyList_eq_iff _ _).mp rfl,
      (bind_cleanText_eq_iff _ _).mp rfl, (bind_cleanText_eq_iff _ _).mp rfl⟩
  · intro h
    refine ⟨h.named, found.modifiers, found.params, h.modifiers, h.params, ?_⟩
    rw [(bind_nonEmptyList_eq_iff _ _).mpr h.returns, (bind_cleanText_eq_iff _ _).mpr h.docblock,
      (bind_cleanText_eq_iff _ _).mpr h.description, ← h.name]

theorem checkMethodsFrom_eq_iff (i : Nat) (given : List (MethodDescriptor Value))
    (found : List MethodEntry) : checkMethodsFrom .values true i given = pure found ↔
      List.Forall₂ MethodDescriptor.Becomes given found := by
  induction given generalizing i found with
  | nil => rw [checkMethodsFrom, pure_eq_pure, List.forall₂_nil_left_iff, eq_comm]
  | cons m rest ih =>
    simp only [checkMethodsFrom, bind_eq_pure, under_eq_pure, pure_eq_pure, checkMethod_eq_iff, ih]
    constructor
    · rintro ⟨entry, hentry, entries, hentries, rfl⟩
      exact .cons hentry hentries
    · intro h
      cases h with
      | cons hentry hentries => exact ⟨_, hentry, _, hentries, rfl⟩

end Draft

/-! ### Slots -/

/-- The slot has what becomes of each item, in the order of the items, and is absent without any. -/
def SlotBecomes {α β : Type} (R : α → β → Prop) (given : List α) (found : Option (List β)) : Prop :=
  found ≠ some [] ∧ List.Forall₂ R given (found.getD [])

def EntriesBecome (given : Keyed Key (PropDescriptor Value))
    (found : Option (Keyed String (PropDescriptor Value))) : Prop :=
  SlotBecomes (fun g f => g.1 = .text f.1 ∧ g.2.Becomes f.2) given found

/-- The names stay, each where it comes first. -/
def ComposesBecome (given : List Value) (found : List String) : Prop :=
  ∃ names, given = names.map .text ∧ Distinct.IsFirsts names found

/-- A value that carries nothing. -/
def IsNothing (v : Value) : Prop := v = .null ∨ v = .text "" ∨ v = .array [] ∨ v = .object []

/-- The data that carry something stay, in their order and under the names that they have. -/
inductive ExtraBecomes : Keyed Key Value → Keyed String Value → Prop
  | nil : ExtraBecomes [] []
  | dropped {key : Key} {v : Value} {given : Keyed Key Value} {found : Keyed String Value} :
      IsNothing v → ExtraBecomes given found → ExtraBecomes ((key, v) :: given) found
  | kept {name : String} {v : Value} {given : Keyed Key Value} {found : Keyed String Value} :
      ¬ IsNothing v → ExtraBecomes given found →
      ExtraBecomes ((.text name, v) :: given) ((name, v) :: found)

inductive DescriptionBecomes : Value → Option String → Prop
  | absent : DescriptionBecomes .null none
  | text {s : String} {o : Option String} : Text.Trims s o → DescriptionBecomes (.text s) o

inductive NameBecomes : Value → Option String → Prop
  | nothing {v : Value} : IsNothing v → NameBecomes v none
  | text {s : String} : s ≠ "" → NameBecomes (.text s) (some s)

/-- The document has this of the record: all of it but what is empty, and no more. -/
structure Record.Becomes (r : Record Value) (d : Document) : Prop where
  description : DescriptionBecomes r.description d.description
  displayName : NameBecomes r.displayName d.displayName
  props : EntriesBecome r.props d.props
  context : EntriesBecome r.context d.context
  childContext : EntriesBecome r.childContext d.childContext
  methods : SlotBecomes (fun m entry => m.2.Becomes entry) r.methods d.methods
  composes : d.composes ≠ some [] ∧ ComposesBecome r.composes (d.composes.getD [])
  extra : d.extra ≠ some [] ∧ ExtraBecomes r.extra (d.extra.getD [])

theorem Value.isEmpty_iff (v : Value) : v.isEmpty = true ↔ IsNothing v := by
  cases v <;> simp [Value.isEmpty, IsNothing]

namespace Draft

theorem checkEntries_eq_iff (given : Keyed Key (PropDescriptor Value))
    (found : Option (Keyed String (PropDescriptor Value))) :
    checkKeys (cleanEntries true given) = pure found ↔ EntriesBecome given found := by
  have hentry (g : Key × PropDescriptor Value) (f : String × PropDescriptor Value) :
      (g.1, cleanEntry true g.2) = (Key.text f.1, f.2) ↔ g.1 = .text f.1 ∧ g.2.Becomes f.2 := by
    rw [Prod.mk.injEq, cleanEntry_eq_iff]
  have hlists (l : Keyed String (PropDescriptor Value)) : cleanEntries true given = keyed l ↔
      List.Forall₂ (fun g f => g.1 = .text f.1 ∧ g.2.Becomes f.2) given l := by
    simp only [← hentry]
    rw [cleanEntries, keyed, ← List.forall₂_eq_eq_eq, List.forall₂_map_left_iff,
      List.forall₂_map_right_iff]
  rw [checkKeys_eq_iff, hlists, EntriesBecome, SlotBecomes]

theorem cleanExtra_eq_keyed_iff (given : Keyed Key Value) (found : Keyed String Value) :
    cleanExtra given = keyed found ↔ ExtraBecomes given found := by
  induction given generalizing found with
  | nil =>
    constructor
    · intro h
      obtain rfl := List.map_eq_nil_iff.mp h.symm
      exact .nil
    · intro h
      cases h
      rfl
  | cons entry rest ih =>
    obtain ⟨key, v⟩ := entry
    by_cases hempty : v.isEmpty = true
    · have hdrop : cleanExtra ((key, v) :: rest) = cleanExtra rest :=
        List.filter_cons_of_neg (by simp [hempty])
      rw [hdrop, ih]
      constructor
      · exact .dropped ((Value.isEmpty_iff v).mp hempty)
      · intro h
        cases h with
        | dropped _ h => exact h
        | kept hkept _ => exact absurd ((Value.isEmpty_iff v).mp hempty) hkept
    · have hkeep : cleanExtra ((key, v) :: rest) = (key, v) :: cleanExtra rest :=
        List.filter_cons_of_pos (by simp [hempty])
      rw [hkeep]
      constructor
      · intro h
        cases found with
        | nil => cases h
        | cons f fs =>
          obtain ⟨hf, hfs⟩ := List.cons.inj h
          obtain ⟨rfl, rfl⟩ := Prod.mk.inj hf
          exact .kept (mt (Value.isEmpty_iff _).mpr hempty) ((ih fs).mp hfs)
      · intro h
        cases h with
        | dropped hnothing _ => exact absurd ((Value.isEmpty_iff v).mpr hnothing) hempty
        | kept _ h =>
          rw [(ih _).mpr h]
          rfl

theorem checkComposes_eq_iff (given : List Value) (found : List String) :
    readItems readText (distinct given) = pure found ↔ ComposesBecome given found := by
  have htexts (names : List String) : readItems readText (distinct (names.map .text)) =
      pure names.eraseDups := by
    have hsame : ∀ a ∈ names, ∀ b ∈ names, Value.same (.text a) (.text b) = (a == b) := by
      intro a _ b _
      show (Key.text a == Key.text b) = (a == b)
      rw [Key.text_beq_text]
      rfl
    rw [distinct, Distinct.eraseDupsBy_map hsame]
    exact readItems_texts _
  constructor
  · intro h
    have hdistinct : ∀ v ∈ distinct given, v.IsText := by
      intro v hv
      obtain ⟨s, hs⟩ := exists_readItems.mp ⟨found, h⟩ v hv
      exact ⟨s, (readText_eq_pure _ _).mp hs⟩
    obtain ⟨names, rfl⟩ := exists_map_eq (isText_of_distinct hdistinct)
    refine ⟨names, rfl, ?_⟩
    rw [htexts, pure_eq_pure] at h
    exact h ▸ Distinct.isFirsts_eraseDups names
  · rintro ⟨names, rfl, h⟩
    rw [htexts, h.unique (Distinct.isFirsts_eraseDups names)]

theorem checkDescription_iff (given : Value) (found : Option String) :
    (∃ clean, cleanDescription true given = .ok clean ∧ checkText clean = pure found) ↔
      DescriptionBecomes given found := by
  have hclean (s : String) : checkText (optionValue .text (cleanText true s)) =
      pure (cleanText true s) := checkText_optionValue fun t ht => cleanText_ne_empty ht
  constructor
  · rintro ⟨clean, hgiven, hfound⟩
    cases given with
    | null =>
      obtain rfl := Except.ok.inj hgiven
      obtain rfl := (pure_eq_pure none found).mp hfound
      exact .absent
    | text s =>
      obtain rfl := Except.ok.inj hgiven
      rw [hclean, pure_eq_pure] at hfound
      exact .text ((cleanText_eq_iff s found).mp hfound)
    | _ => cases hgiven
  · intro h
    cases h with
    | absent => exact ⟨.null, rfl, rfl⟩
    | text h =>
      obtain rfl := (cleanText_eq_iff _ _).mpr h
      exact ⟨_, rfl, hclean _⟩

theorem checkName_eq_iff (given : Value) (found : Option String) :
    checkText given = pure found ↔ NameBecomes given found := by
  constructor
  · intro h
    rcases checkText_eq_pure h with ⟨hempty, rfl⟩ | ⟨s, hs, rfl, rfl⟩
    · exact .nothing ((Value.isEmpty_iff _).mp hempty)
    · exact .text hs
  · intro h
    cases h with
    | nothing hnothing => exact if_pos ((Value.isEmpty_iff _).mpr hnothing)
    | text hs => exact checkText_optionValue fun t ht => Option.some.inj ht ▸ hs

end Draft

/-! ### Documents of records -/

theorem Document.ofRecord_eq_ok_iff (r : Record Value) (d : Document) :
    ofRecord true r = .ok d ↔ r.Becomes d := by
  have hmethods (entries : List MethodEntry) :
      Draft.checkMethodsFrom .values true 0 (r.methods.map Prod.snd) = pure entries ↔
        List.Forall₂ (fun m entry => m.2.Becomes entry) r.methods entries := by
    rw [Draft.checkMethodsFrom_eq_iff, List.forall₂_map_left_iff]
  have hextra (found : Option (Keyed String Value)) :
      Draft.checkKeys (Draft.cleanExtra r.extra) = pure found ↔
        found ≠ some [] ∧ ExtraBecomes r.extra (found.getD []) := by
    rw [Draft.checkKeys_eq_iff, Draft.cleanExtra_eq_keyed_iff]
  rw [ofRecord, Draft.normalize_eq_ok]
  simp only [Draft.check, bind_eq_pure, under_eq_pure, pure_eq_pure, Draft.ofRecord, hmethods,
    hextra, Draft.checkEntries_eq_iff, Draft.checkName_eq_iff, Draft.checkComposes_eq_iff]
  constructor
  · rintro ⟨clean, hgiven, description, hclean, displayName, hname, props, hprops, context, hcontext,
      childContext, hchild, methods, hmethods, composes, hcomposes, extra, hextra, rfl⟩
    have hread := (Draft.checkName_eq_iff _ _).mpr hclean
    have hdescription := (Draft.checkDescription_iff _ _).mp ⟨clean, hgiven, hread⟩
    exact ⟨hdescription, hname, hprops, hcontext, hchild,
      Draft.exists_nonEmptyList.mp ⟨methods, hmethods, rfl⟩,
      Draft.exists_nonEmptyList.mp ⟨composes, hcomposes, rfl⟩, hextra⟩
  · intro h
    obtain ⟨clean, hgiven, hclean⟩ := (Draft.checkDescription_iff _ _).mpr h.description
    obtain ⟨methods, hmethods, hmethodsSlot⟩ := Draft.exists_nonEmptyList.mpr h.methods
    obtain ⟨composes, hcomposes, hcomposesSlot⟩ := Draft.exists_nonEmptyList.mpr h.composes
    have hread := (Draft.checkName_eq_iff _ _).mp hclean
    refine ⟨clean, hgiven, d.description, hread, d.displayName, h.displayName, d.props, h.props,
      d.context, h.context, d.childContext, h.childContext, methods, hmethods, composes, hcomposes,
      d.extra, h.extra, ?_⟩
    rw [hmethodsSlot, hcomposesSlot]

namespace Record

/--
With trimming on a record is published as the document that has what is not empty of it, slot by
slot and in order, unless there is no such document or its free-form data reach too deep to be
copied. This document is in normal form: it is the document of itself.
-/
theorem publication_iff_becomes (bench : Bench) (d : Document) :
    (bench.publication true = .ok d ↔
      (∀ e ∈ bench.record.extra, e.2.height ≤ deepestCopied) ∧ bench.record.Becomes d) ∧
      (bench.record.Becomes d → d.IsNormal true ∧ d.renormalize true = .ok d) := by
  constructor
  · rw [publication_eq_ok, requireCopyable_eq_ok, List.forall_mem_map, Document.ofRecord_eq_ok_iff]
  · intro h
    have hrecord : Document.ofRecord true bench.record = .ok d :=
      (Document.ofRecord_eq_ok_iff _ _).mpr h
    have hnormal : d.IsNormal true := Draft.isNormal_of_normalize .values hrecord
    exact ⟨hnormal, Document.renormalize_of_isNormal hnormal⟩

def panel : Record Value where
  description := .text " A panel.\n"
  displayName := .text ""
  props :=
    [(.text "size", { type := some [], required := some true, description := some " \t",
                      defaultValue := some [("value", .int 0)] }),
      (.text "kind", { flowType := some [("name", .text "")] })]
  methods := [("focus", { name := "focus", docblock := some "Takes it.\t", params := [.object []] })]
  composes := [.text "./b", .text "./a", .text "./b"]
  extra := [(.text "since", .null), (.text "open", .bool false), (.text "tags", .array [])]

def panelDocument : Document where
  description := some "A panel."
  props := some
    [("size", { required := some false, defaultValue := some [("value", .int 0)] }),
      ("kind", { flowType := some [("name", .text "")] })]
  methods := some [{ name := "focus", docblock := some "Takes it.", params := [[]] }]
  composes := some ["./b", "./a"]
  extra := some [("open", .bool false)]

theorem publication_iff_becomes_panel :
    Bench.publication true ⟨panel, none⟩ = .ok panelDocument ∧ panel.Becomes panelDocument ∧
      panelDocument.renormalize true = .ok panelDocument := by
  have hmade : Bench.publication true ⟨panel, none⟩ = .ok panelDocument := by rfl
  obtain ⟨hiff, hnormal⟩ := publication_iff_becomes ⟨panel, none⟩ panelDocument
  have hbecomes := (hiff.mp hmade).2
  exact ⟨hmade, hbecomes, (hnormal hbecomes).2⟩

end Record

end ComponentAtlas
