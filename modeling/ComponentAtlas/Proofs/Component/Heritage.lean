import ComponentAtlas.Proofs.Path.Recursion
import ComponentAtlas.Reading.Components

/-!
# What a class extends

The superclass of a class is read off its heritage, which is shaped in two ways:
as a bare expression, or as clauses of which one extends and one implements. The
bare expression is taken for the first content of the heritage, so a heritage that
only implements has its clause for a superclass. A clause has no path, and the
test for class components does not see it.
-/

namespace ComponentAtlas.Component

open SourceTree

/-- The first item of a kind. -/
def IsFirstOf (kind : String) (items : List Cursor) (c : Cursor) : Prop :=
  c.kind = kind ∧ ∃ before after, items = before ++ c :: after ∧ ∀ d ∈ before, d.kind ≠ kind

def LacksKind (kind : String) (items : List Cursor) : Prop := ∀ d ∈ items, d.kind ≠ kind

section

variable {kind : String} {items : List Cursor}

theorem find?_kind_eq_some_iff {c : Cursor} :
    (items.find? fun d => d.kind == kind) = some c ↔ IsFirstOf kind items c := by
  simp only [List.find?_eq_some_iff_append, IsFirstOf, beq_iff_eq, Bool.not_eq_true',
    beq_eq_false_iff_ne]

theorem find?_kind_eq_none_iff :
    (items.find? fun d => d.kind == kind) = none ↔ LacksKind kind items := by
  simp only [List.find?_eq_none, LacksKind, beq_iff_eq, ne_eq]

theorem IsFirstOf.unique {c d : Cursor} (hc : IsFirstOf kind items c)
    (hd : IsFirstOf kind items d) : c = d :=
  Option.some.inj ((find?_kind_eq_some_iff.mpr hc).symm.trans (find?_kind_eq_some_iff.mpr hd))

theorem IsFirstOf.not_lacksKind {c : Cursor} (h : IsFirstOf kind items c) :
    ¬ LacksKind kind items := by
  obtain ⟨hkind, before, after, rfl, -⟩ := h
  exact fun hlacks => hlacks c (List.mem_append_right _ (List.mem_cons_self ..)) hkind

end

/-- What follows `extends` in the heritage of a class. -/
inductive Extends (c : Cursor) : Option Cursor → Prop
  | value {heritage clause e : Cursor} : IsFirstOf "class_heritage" c.contents heritage →
      IsFirstOf "extends_clause" heritage.contents clause → clause.child? "value" = some e →
      Extends c (some e)
  | lostField {heritage clause : Cursor} : IsFirstOf "class_heritage" c.contents heritage →
      IsFirstOf "extends_clause" heritage.contents clause → clause.child? "value" = none →
      Extends c clause.content?
  | bare {heritage e : Cursor} : IsFirstOf "class_heritage" c.contents heritage →
      LacksKind "extends_clause" heritage.contents → heritage.content? = some e →
      e.kind ≠ "implements_clause" → Extends c (some e)
  | implements {heritage clause : Cursor} : IsFirstOf "class_heritage" c.contents heritage →
      LacksKind "extends_clause" heritage.contents → heritage.content? = some clause →
      clause.kind = "implements_clause" → Extends c none
  | empty {heritage : Cursor} : IsFirstOf "class_heritage" c.contents heritage →
      LacksKind "extends_clause" heritage.contents → heritage.content? = none → Extends c none
  | nothing : LacksKind "class_heritage" c.contents → Extends c none

/-- The heritage has no clause that extends, and the clause that implements is its first content. -/
def ImplementsOnly (c clause : Cursor) : Prop :=
  ∃ heritage, IsFirstOf "class_heritage" c.contents heritage ∧
    LacksKind "extends_clause" heritage.contents ∧ heritage.content? = some clause ∧
    clause.kind = "implements_clause"

/-- The test for class components, with what the class extends taken to be `s`. -/
def classTestBy (c : Cursor) (s : Option Cursor) : Except Failure Bool :=
  Reading.checked
    (if classKinds.contains c.kind then
      Reading.inPath s ++ if s.any namesBase then [] else Reading.texts (Reading.inRender c)
    else [])
    (classKinds.contains c.kind && (s.any namesBase || hasRender c))

section

variable {c heritage clause : Cursor} {s : Option Cursor}

theorem superclass_of_clause (hheritage : IsFirstOf "class_heritage" c.contents heritage)
    (hclause : IsFirstOf "extends_clause" heritage.contents clause) :
    superclass c = (clause.child? "value").or clause.content? := by
  rw [superclass, find?_kind_eq_some_iff.mpr hheritage, Option.bind_some,
    find?_kind_eq_some_iff.mpr hclause]

theorem superclass_of_lacksKind (hheritage : IsFirstOf "class_heritage" c.contents heritage)
    (hlacks : LacksKind "extends_clause" heritage.contents) : superclass c = heritage.content? := by
  rw [superclass, find?_kind_eq_some_iff.mpr hheritage, Option.bind_some,
    find?_kind_eq_none_iff.mpr hlacks]

theorem superclass_of_no_heritage (h : LacksKind "class_heritage" c.contents) :
    superclass c = none := by
  rw [superclass, find?_kind_eq_none_iff.mpr h, Option.bind_none]

theorem ImplementsOnly.superclass_eq (h : ImplementsOnly c clause) :
    superclass c = some clause := by
  obtain ⟨heritage, hheritage, hlacks, hfirst, -⟩ := h
  rw [superclass_of_lacksKind hheritage hlacks, hfirst]

theorem ImplementsOnly.extends_none (h : ImplementsOnly c clause) : Extends c none := by
  obtain ⟨heritage, hheritage, hlacks, hfirst, hkind⟩ := h
  exact .implements hheritage hlacks hfirst hkind

theorem Extends.superclass_eq_or (h : Extends c s) :
    superclass c = s ∨ ∃ clause, ImplementsOnly c clause := by
  -- Only where the first content is an implements clause is it taken for the bare expression.
  cases h with
  | value hheritage hclause hvalue =>
    left
    rw [superclass_of_clause hheritage hclause, hvalue, Option.some_or]
  | lostField hheritage hclause hvalue =>
    left
    rw [superclass_of_clause hheritage hclause, hvalue, Option.none_or]
  | bare hheritage hlacks hfirst _ =>
    left
    rw [superclass_of_lacksKind hheritage hlacks, hfirst]
  | implements hheritage hlacks hfirst hkind =>
    exact .inr ⟨_, _, hheritage, hlacks, hfirst, hkind⟩
  | empty hheritage hlacks hfirst =>
    left
    rw [superclass_of_lacksKind hheritage hlacks, hfirst]
  | nothing hlacks => exact .inl (superclass_of_no_heritage hlacks)

theorem exists_extends (c : Cursor) : ∃ s, Extends c s := by
  cases hh : c.contents.find? fun d => d.kind == "class_heritage" with
  | none => exact ⟨none, .nothing (find?_kind_eq_none_iff.mp hh)⟩
  | some heritage =>
    have hheritage := find?_kind_eq_some_iff.mp hh
    cases hc : heritage.contents.find? fun d => d.kind == "extends_clause" with
    | some clause =>
      have hclause := find?_kind_eq_some_iff.mp hc
      cases hvalue : clause.child? "value" with
      | some e => exact ⟨some e, .value hheritage hclause hvalue⟩
      | none => exact ⟨_, .lostField hheritage hclause hvalue⟩
    | none =>
      have hlacks := find?_kind_eq_none_iff.mp hc
      cases hfirst : heritage.content? with
      | none => exact ⟨none, .empty hheritage hlacks hfirst⟩
      | some e =>
        by_cases hkind : e.kind = "implements_clause"
        · exact ⟨none, .implements hheritage hlacks hfirst hkind⟩
        · exact ⟨some e, .bare hheritage hlacks hfirst hkind⟩

/-- A class whose heritage only implements extends nothing. -/
theorem ImplementsOnly.eq_none (h : ImplementsOnly c clause) (hs : Extends c s) : s = none := by
  obtain ⟨heritage, hheritage, hlacks, hfirst, hkind⟩ := h
  cases hs with
  | value hheritage' hclause _ =>
    obtain rfl := hheritage.unique hheritage'
    exact absurd hlacks hclause.not_lacksKind
  | lostField hheritage' hclause _ =>
    obtain rfl := hheritage.unique hheritage'
    exact absurd hlacks hclause.not_lacksKind
  | bare hheritage' _ hfirst' hkind' =>
    obtain rfl := hheritage.unique hheritage'
    rw [hfirst] at hfirst'
    exact absurd (Option.some.inj hfirst' ▸ hkind) hkind'
  | implements _ _ _ _ => rfl
  | empty _ _ _ => rfl
  | nothing _ => rfl

theorem Extends.superclass_eq_iff (h : Extends c s) :
    superclass c = s ↔ ¬ ∃ clause, ImplementsOnly c clause := by
  constructor
  · intro heq hex
    obtain ⟨clause, hclause⟩ := hex
    rw [hclause.superclass_eq, hclause.eq_none h] at heq
    cases heq
  · exact h.superclass_eq_or.resolve_right

theorem Extends.unique {s' : Option Cursor} (h : Extends c s) (h' : Extends c s') : s = s' := by
  by_cases hex : ∃ clause, ImplementsOnly c clause
  · obtain ⟨clause, hclause⟩ := hex
    rw [hclause.eq_none h, hclause.eq_none h']
  · exact (h.superclass_eq_iff.mpr hex).symm.trans (h'.superclass_eq_iff.mpr hex)

/-- An implements clause has no path, and looking for one looks at no text. -/
theorem ImplementsOnly.classTestBy_eq (h : ImplementsOnly c clause) :
    classTestBy c (some clause) = classTestBy c none := by
  obtain ⟨_, _, _, _, hkind⟩ := h
  have hform : Path.Form.ofKind clause.kind = .other := by
    rw [hkind]
    rfl
  have hpath : Reading.inPath (some clause) = [] := by
    simp only [Reading.inPath, Reading.inPathBy, Reading.inCollect, hform]
  have hbase : namesBase clause = false := by
    simp only [namesBase, Path.segments, Path.segmentsBy, Path.collect, hform, List.getLast?_nil,
      Option.any_none]
  simp only [classTestBy, hpath, Reading.inPath_none, Option.any_some, hbase, Option.any_none]

theorem Extends.isClassComponent_eq (h : Extends c s) :
    Reading.isClassComponent c = classTestBy c s := by
  have htest : Reading.isClassComponent c = classTestBy c (superclass c) := rfl
  obtain heq | ⟨clause, hclause⟩ := h.superclass_eq_or
  · rw [htest, heq]
  · rw [htest, hclause.superclass_eq, hclause.eq_none h, hclause.classTestBy_eq]

end

/--
The superclass is what follows `extends`, but in a class whose heritage only implements; there it
is the clause that does. The test for class components goes as if it were what follows `extends`.
-/
theorem superclass_follows_extends (c : Cursor) :
    (∃! s, Extends c s) ∧
      (∀ s, Extends c s → (superclass c = s ↔ ¬ ∃ clause, ImplementsOnly c clause) ∧
        Reading.isClassComponent c = classTestBy c s) ∧
      ∀ clause, ImplementsOnly c clause → Extends c none ∧ superclass c = some clause := by
  refine ⟨?_, ?_, ?_⟩
  · obtain ⟨s, hs⟩ := exists_extends c
    exact ⟨s, hs, fun _ h => h.unique hs⟩
  · exact fun s hs => ⟨hs.superclass_eq_iff, hs.isClassComponent_eq⟩
  · exact fun clause hclause => ⟨hclause.extends_none, hclause.superclass_eq⟩

/-- The rows of a class that only implements. -/
def implementingRows : List Row :=
  let row (parent : Nat) (kind : String) (start stop : Nat) (field : Option String) : Row :=
    ⟨some parent, kind, start, stop, field, true, false⟩
  [⟨none, "program", 0, 23, none, true, false⟩, row 0 "class_declaration" 0 23 none,
    row 1 "type_identifier" 6 7 (some "name"), row 1 "class_heritage" 8 20 none,
    row 3 "implements_clause" 8 20 none, row 4 "type_identifier" 19 20 none,
    row 1 "class_body" 21 23 (some "body")]

def implementing : Node := (Node.ofRows? "class A implements B {}" implementingRows).get rfl

def implementingPlace (i : Fin 7) : Cursor := (Cursor.ofRoot implementing).preorder.get (i.cast rfl)

/-- The class extends nothing, and yet has its clause for a superclass. -/
theorem superclass_follows_extends_implementing :
    Extends (implementingPlace 1) none ∧
      superclass (implementingPlace 1) = some (implementingPlace 4) ∧
      superclass (implementingPlace 1) ≠ none ∧
      Reading.isClassComponent (implementingPlace 1) = .ok false := by
  have honly : ImplementsOnly (implementingPlace 1) (implementingPlace 4) :=
    ⟨implementingPlace 3, find?_kind_eq_some_iff.mp rfl, find?_kind_eq_none_iff.mp rfl, rfl, rfl⟩
  obtain ⟨-, hextends, himplements⟩ := superclass_follows_extends (implementingPlace 1)
  obtain ⟨hnone, hsuperclass⟩ := himplements _ honly
  obtain ⟨hsame, htest⟩ := hextends none hnone
  refine ⟨hnone, hsuperclass, fun heq => hsame.mp heq ⟨_, honly⟩, ?_⟩
  rw [htest]
  rfl

end ComponentAtlas.Component
