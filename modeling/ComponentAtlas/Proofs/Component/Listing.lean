import ComponentAtlas.Proofs.Component.Exposure

/-!
# The list of exported components

The exported components of a program are the definitions that its exported
values lead to. They are listed once each, in the order of the first export that
leads to them, and this leaves one list only. What leads to no component, or to
one that an earlier export leads to, has no part in it.
-/

namespace ComponentAtlas.Component

open SourceTree

/-- The exported value leads to the definition at `d`. -/
def leadsTo (d : Cursor) (value : Option Cursor) : Bool :=
  (value.bind definition).any fun found => found.id == d.id

/-- The number of the first of the exported values that leads to `d`. -/
def firstExport (values : List (Option Cursor)) (d : Cursor) : Nat := values.findIdx (leadsTo d)

/-- The definitions that exported values lead to, one for each value that leads to one. -/
def definitionsOf (values : List (Option Cursor)) : List Cursor :=
  values.filterMap fun value => value.bind definition

/-- The definitions that the values lead to, each once, by the first value that leads to it. -/
structure IsListing (values : List (Option Cursor)) (places : List Cursor) : Prop where
  mem : ∀ d, d ∈ places ↔ ∃ value ∈ values, value.bind definition = some d
  distinct : (places.map Cursor.id).Nodup
  ordered : places.Pairwise fun d e => firstExport values d < firstExport values e

theorem mem_definitionsOf {values : List (Option Cursor)} {d : Cursor} :
    d ∈ definitionsOf values ↔ ∃ value ∈ values, value.bind definition = some d :=
  List.mem_filterMap

theorem allExported_eq (program : Cursor) :
    allExported program = distinct (definitionsOf (exportedValues program)) := rfl

/-- Two lists of the same values are the same list. -/
theorem IsListing.unique {values : List (Option Cursor)} {places others : List Cursor}
    (h : IsListing values places) (h' : IsListing values others) : places = others := by
  have hnodup (l : List Cursor) (hl : IsListing values l) : l.Nodup := hl.distinct.of_map _
  have hperm : places.Perm others := by
    rw [List.perm_ext_iff_of_nodup (hnodup _ h) (hnodup _ h')]
    intro d
    rw [h.mem, h'.mem]
  refine hperm.eq_of_pairwise ?_ h.ordered h'.ordered
  intro a b _ _ hab hba
  exact absurd (Nat.lt_trans hab hba) (Nat.lt_irrefl _)

/-! ### Values of a program -/

section

variable {root : Node}

theorem within_of_definition {p q : Cursor} (hp : Cursor.Within root p)
    (h : definition p = some q) : Cursor.Within root q := by
  obtain ⟨e, he, hd⟩ := exists_definitionAt hp h
  exact within_of_definitionAt he hd

/-- In a numbered tree definitions are listed by keeping the first of each number. -/
theorem isListing_distinct (hnumbered : root.IsNumbered) {values : List (Option Cursor)}
    (hvalues : ∀ q, some q ∈ values → Cursor.Within root q) :
    IsListing values (distinct (definitionsOf values)) := by
  have hwithin : ∀ d ∈ definitionsOf values, Cursor.Within root d := by
    intro d hd
    obtain ⟨value, hvalue, hd⟩ := mem_definitionsOf.mp hd
    obtain ⟨q, rfl, hd⟩ := Option.bind_eq_some_iff.mp hd
    exact within_of_definition (hvalues q hvalue) hd
  have hpairs := Distinct.pairwise_findIdx Cursor.id (definitionsOf values)
  constructor
  case mem =>
    intro d
    rw [← mem_definitionsOf]
    constructor
    · intro hd
      exact Distinct.mem_of_mem_eraseDupsBy hd
    · intro hd
      obtain ⟨kept, hkept, hid⟩ := Distinct.exists_mem_eraseDupsBy
        (r := fun a b => a.id == b.id) (fun _ => beq_self_eq_true _) hd
      have hkin := hwithin kept (Distinct.mem_of_mem_eraseDupsBy hkept)
      have heq := Cursor.eq_of_id_eq hnumbered (hwithin d hd) hkin (beq_iff_eq.mp hid)
      exact heq ▸ hkept
  case distinct =>
    rw [List.nodup_iff_pairwise_ne, List.pairwise_map]
    refine hpairs.imp ?_
    intro a b hab he
    simp only [he, Nat.lt_irrefl] at hab
  case ordered =>
    refine hpairs.imp ?_
    intro a b hab
    exact Distinct.findIdx_lt_of_filterMap hab

/-- The exported components are the one list of what the exported values lead to. -/
theorem isListing_iff (hnumbered : root.IsNumbered) {places : List Cursor} :
    IsListing (exportedValues (Cursor.ofRoot root)) places ↔
      places = allExported (Cursor.ofRoot root) := by
  have hlist : IsListing (exportedValues (Cursor.ofRoot root)) (allExported (Cursor.ofRoot root)) :=
    isListing_distinct hnumbered fun _ => within_of_mem_exportedValues
  constructor
  · intro h
    exact h.unique hlist
  · rintro rfl
    exact hlist

end

/-! ### Exports that add nothing -/

theorem distinct_definitionsOf_skip {before after : List (Option Cursor)} {value : Option Cursor}
    (h : value.bind definition = none ∨
      ∃ earlier ∈ before, earlier.bind definition = value.bind definition) :
    distinct (definitionsOf (before ++ value :: after)) =
      distinct (definitionsOf (before ++ after)) := by
  simp only [definitionsOf, List.filterMap_append]
  cases hv : value.bind definition with
  | none => simp only [List.filterMap_cons, hv]
  | some d =>
    simp only [List.filterMap_cons, hv]
    have hd : d ∈ before.filterMap fun value => value.bind definition := by
      rcases h with hnone | ⟨earlier, hmem, he⟩
      · rw [hv] at hnone
        cases hnone
      · exact List.mem_filterMap.mpr ⟨earlier, hmem, he.trans hv⟩
    exact Distinct.eraseDupsBy_append_cons Cursor.id hd rfl

/-- A value changes nothing if it leads to no component, or to that of an earlier value. -/
theorem isListing_without {root : Node} (hnumbered : root.IsNumbered)
    {before after : List (Option Cursor)} {value : Option Cursor}
    (hvalues : exportedValues (Cursor.ofRoot root) = before ++ value :: after)
    (h : value.bind definition = none ∨
      ∃ earlier ∈ before, earlier.bind definition = value.bind definition) :
    IsListing (before ++ after) (allExported (Cursor.ofRoot root)) := by
  have hwithin : ∀ q, some q ∈ before ++ after → Cursor.Within root q := by
    intro q hq
    have hall : some q ∈ exportedValues (Cursor.ofRoot root) := by
      rw [hvalues]
      rcases List.mem_append.mp hq with hq | hq
      · exact List.mem_append_left _ hq
      · exact List.mem_append_right _ (List.mem_cons_of_mem _ hq)
    exact within_of_mem_exportedValues hall
  have hsame : allExported (Cursor.ofRoot root) = distinct (definitionsOf (before ++ after)) := by
    rw [allExported_eq, hvalues, distinct_definitionsOf_skip h]
  rw [hsame]
  exact isListing_distinct hnumbered hwithin

end ComponentAtlas.Component
