import Mathlib.Data.List.Basic
import ComponentAtlas.Proofs.Data.Descent
import ComponentAtlas.Proofs.Scope.Orbit
import ComponentAtlas.Reading.Paths

/-!
# Parts of expressions

The parts of an expression are the expressions whose paths its own path is made
of: the function of a call, the object of a member, the value behind a key, the
members of a literal. They are in the tree of the expression when its keys denote
places in that tree. How far a path is followed matters only as far as it matters
for the parts.
-/

namespace ComponentAtlas.Path

open SourceTree

def memberParts (m : Cursor) : List Cursor :=
  match MemberForm.ofKind m.kind with
  | .pair => (keyExpression (m.child? "key")).toList ++ (m.child? "value").toList
  | .shorthand => []
  | .spread => m.content?.toList
  | .named => (keyExpression (m.child? "name")).toList

def parts (resolve : KeyResolver) (c : Cursor) : List Cursor :=
  match Form.ofKind c.kind with
  | .call => (c.child? "function").toList
  | .member => (c.child? "object").toList
  | .subscript => (resolve (c.child? "index")).toList ++ (c.child? "object").toList
  | .parentheses => c.content?.toList
  | .object => c.contents.flatMap memberParts
  | .array => c.contents
  | .word | .self | .other => []

/-- The path of the first expression is made of that of the second. -/
def HasPart (resolve : KeyResolver) (c d : Cursor) : Prop := d ∈ parts resolve c

/-- No expression of the tree is a part of one of its parts, however far down. -/
def HasFinitePaths (resolve : KeyResolver) (root : Node) : Prop :=
  ∀ c, Cursor.Within root c → ¬ Relation.TransGen (HasPart resolve) c c

variable {resolve : KeyResolver} {n m : Nat} {c : Cursor}

/-! ### Where parts are -/

/-- One of the contents of the place, or what it holds in a field. -/
def HoldsPart (p d : Cursor) : Prop := d ∈ p.contents ∨ ∃ name, p.child? name = some d

theorem holdsPart_of_child? {p d : Cursor} {name : String} (h : d ∈ (p.child? name).toList) :
    HoldsPart p d :=
  .inr ⟨name, Option.mem_toList.mp h⟩

theorem holdsPart_of_content? {p d : Cursor} (h : d ∈ p.content?.toList) : HoldsPart p d :=
  .inl (Cursor.mem_contents_of_content? (Option.mem_toList.mp h))

theorem exists_holdsPart_of_keyExpression {m d : Cursor} {name : String}
    (h : d ∈ (keyExpression (m.child? name)).toList) : ∃ p, m.Contains p ∧ HoldsPart p d := by
  obtain ⟨k, hk, hd⟩ := Option.bind_eq_some_iff.mp (Option.mem_toList.mp h)
  split at hd
  · have hstep := Relation.ReflTransGen.single (Cursor.isChild_of_child? hk)
    exact ⟨k, hstep, holdsPart_of_content? (Option.mem_toList.mpr hd)⟩
  · exact ⟨m, .refl, .inr ⟨name, Option.some.inj hd ▸ hk⟩⟩

theorem exists_holdsPart_of_memberParts {m d : Cursor} (h : d ∈ memberParts m) :
    ∃ p, m.Contains p ∧ HoldsPart p d := by
  unfold memberParts at h
  split at h
  · rcases List.mem_append.mp h with h | h
    · exact exists_holdsPart_of_keyExpression h
    · exact ⟨m, .refl, holdsPart_of_child? h⟩
  · cases h
  · exact ⟨m, .refl, holdsPart_of_content? h⟩
  · exact exists_holdsPart_of_keyExpression h

/-- A part is found below the expression or is what a key of it denotes. -/
theorem HasPart.held_or_denoted {d : Cursor} (h : HasPart resolve c d) :
    (∃ p, c.Contains p ∧ HoldsPart p d) ∨ resolve (c.child? "index") = some d := by
  unfold HasPart parts at h
  split at h
  · exact .inl ⟨c, .refl, holdsPart_of_child? h⟩
  · exact .inl ⟨c, .refl, holdsPart_of_child? h⟩
  · rcases List.mem_append.mp h with h | h
    · exact .inr (Option.mem_toList.mp h)
    · exact .inl ⟨c, .refl, holdsPart_of_child? h⟩
  · exact .inl ⟨c, .refl, holdsPart_of_content? h⟩
  · obtain ⟨m, hm, hd⟩ := List.mem_flatMap.mp h
    obtain ⟨p, hp, hholds⟩ := exists_holdsPart_of_memberParts hd
    exact .inl ⟨p, .head (Cursor.isChild_of_mem_contents hm) hp, hholds⟩
  · exact .inl ⟨c, .refl, .inl h⟩
  · cases h
  · cases h
  · cases h

section

variable {root : Node} {d : Cursor}

/-- Keys in the tree denote places in the tree. -/
def StaysIn (resolve : KeyResolver) (root : Node) : Prop :=
  ∀ key k, (∀ c ∈ key, Cursor.Within root c) → resolve key = some k → Cursor.Within root k

theorem staysIn_byScope : StaysIn byScope root := fun _ _ hkey hk => by
  obtain ⟨c, hc, hk⟩ := Option.bind_eq_some_iff.mp hk
  exact Scope.within_of_resolve (hkey c hc) hk

theorem StaysIn.within (hstays : StaysIn resolve root) (hc : Cursor.Within root c)
    (h : HasPart resolve c d) : Cursor.Within root d := by
  rcases h.held_or_denoted with ⟨p, hp, hholds⟩ | hd
  · have hin : Cursor.Within root p := hc.trans hp
    rcases hholds with hd | ⟨name, hd⟩
    · exact hin.child (Cursor.isChild_of_mem_contents hd)
    · exact hin.child (Cursor.isChild_of_child? hd)
  · exact hstays _ d (fun index hindex => hc.child (Cursor.isChild_of_child? hindex)) hd

/-! ### Where the recursion over parts ends -/

/-- The recursion from the expression to its parts comes to an end. -/
def RecursionEnds (resolve : KeyResolver) (c : Cursor) : Prop :=
  Acc (fun d p => HasPart resolve p d) c

theorem RecursionEnds.acyclic (h : RecursionEnds resolve c) :
    ¬ Relation.TransGen (HasPart resolve) c c := by
  rw [← Relation.transGen_swap]
  have hends : Acc (Relation.TransGen (Function.swap (HasPart resolve))) c := h.transGen
  induction hends with
  | intro c _ ih => exact fun hback => ih c hback (h.inv_of_transGen hback) hback

/-- Where no expression is a part of itself, every recursion ends. -/
theorem HasFinitePaths.recursionEnds (hfinite : HasFinitePaths resolve root)
    (hstays : StaysIn resolve root) (hc : Cursor.Within root c) : RecursionEnds resolve c := by
  induction hn : Descent.reach (HasPart resolve) (Cursor.placesFrom [] root) c
    using Nat.strongRecOn generalizing c with
  | _ n ih =>
    refine .intro c fun d hd => ?_
    exact ih _ (hn ▸ Descent.reach_lt hc.mem_places hd (hfinite c hc)) (hstays.within hc hd) rfl

/-- Where each part is smaller, the recursion ends. -/
theorem recursionEnds_of_size (hstays : StaysIn resolve root)
    (h : ∀ c ∈ Cursor.placesFrom [] root, ∀ d ∈ parts resolve c, d.node.size < c.node.size)
    (hc : Cursor.Within root c) : RecursionEnds resolve c := by
  induction hn : c.node.size using Nat.strongRecOn generalizing c with
  | _ n ih =>
    refine .intro c fun d hd => ?_
    exact ih _ (hn ▸ h c hc.mem_places d hd) (hstays.within hc hd) rfl

end

/-! ### Steps over parts -/

theorem memberText_congr {write write' : Option Cursor → String} {member : Cursor}
    (h : ∀ x : Option Cursor, x.toList ⊆ memberParts member → write x = write' x) :
    memberText write member = memberText write' member := by
  unfold memberText
  unfold memberParts at h
  cases hform : MemberForm.ofKind member.kind with
  | pair =>
    simp only [hform] at h ⊢
    rw [h _ (List.subset_append_left ..), h _ (List.subset_append_right ..)]
  | shorthand => rfl
  | spread =>
    simp only [hform] at h ⊢
    rw [h _ (List.Subset.refl _)]
  | named =>
    simp only [hform] at h ⊢
    rw [h _ (List.Subset.refl _)]

theorem collect_none (found : List String) : collect resolve n none found = found := by
  cases n <;> rfl

/-- With one more step the same is collected when the same is collected for the parts. -/
theorem collect_congr
    (h : ∀ d, HasPart resolve c d → collect resolve n (some d) = collect resolve m (some d)) :
    collect resolve (n + 1) (some c) = collect resolve (m + 1) (some c) := by
  have hpart (x : Option Cursor) (hx : x.toList ⊆ parts resolve c) :
      collect resolve n x = collect resolve m x := by
    cases x with
    | none => exact funext fun found => (collect_none found).trans (collect_none found).symm
    | some d => exact h d (hx (List.mem_singleton_self d))
  funext found
  rw [collect, collect]
  unfold parts at hpart
  -- In each form the recursion is made at a sublist of the parts.
  cases hform : Form.ofKind c.kind with
  | call | member | parentheses =>
    simp only [hform] at hpart ⊢
    rw [hpart _ (List.Subset.refl _)]
  | subscript =>
    simp only [hform] at hpart ⊢
    rw [hpart _ (List.subset_append_right ..)]
    cases hkey : resolve (c.child? "index") with
    | none => rfl
    | some k =>
      rw [hkey] at hpart
      simp only [hpart (some k) (List.subset_append_left ..)]
  | object =>
    simp only [hform] at hpart ⊢
    rw [List.map_congr_left fun member hmember => memberText_congr fun x hx => ?_]
    rw [hpart x fun d hd => List.mem_flatMap.mpr ⟨member, hmember, hx hd⟩]
  | array =>
    simp only [hform] at hpart ⊢
    rw [List.map_congr_left fun element helement => ?_]
    rw [hpart (some element) (List.cons_subset.mpr ⟨helement, List.nil_subset _⟩)]
  | word | self | other => rfl

end ComponentAtlas.Path

namespace ComponentAtlas.Reading

open SourceTree

variable {resolve : Path.KeyResolver} {inKey : Option Cursor → List Cursor} {n m : Nat} {c : Cursor}

theorem inMember_congr {inPart inPart' : Option Cursor → List Look} {member : Cursor}
    (h : ∀ x : Option Cursor, x.toList ⊆ Path.memberParts member → inPart x = inPart' x) :
    inMember inPart member = inMember inPart' member := by
  unfold inMember
  unfold Path.memberParts at h
  cases hform : Path.MemberForm.ofKind member.kind with
  | pair =>
    simp only [hform] at h ⊢
    rw [h _ (List.subset_append_left ..), h _ (List.subset_append_right ..)]
  | shorthand => rfl
  | spread =>
    simp only [hform] at h ⊢
    rw [h _ (List.Subset.refl _)]
  | named =>
    simp only [hform] at h ⊢
    rw [h _ (List.Subset.refl _)]

theorem inCollect_none : inCollect resolve inKey n none = [] := by
  cases n <;> rfl

/-- With one more step the same is looked at when the same is looked at in the parts. -/
theorem inCollect_congr
    (h : ∀ d, Path.HasPart resolve c d →
      inCollect resolve inKey n (some d) = inCollect resolve inKey m (some d)) :
    inCollect resolve inKey (n + 1) (some c) = inCollect resolve inKey (m + 1) (some c) := by
  have hpart (x : Option Cursor) (hx : x.toList ⊆ Path.parts resolve c) :
      inCollect resolve inKey n x = inCollect resolve inKey m x := by
    cases x with
    | none => exact inCollect_none.trans inCollect_none.symm
    | some d => exact h d (hx (List.mem_singleton_self d))
  rw [inCollect, inCollect]
  unfold Path.parts at hpart
  cases hform : Path.Form.ofKind c.kind with
  | call | member | parentheses =>
    simp only [hform] at hpart ⊢
    rw [hpart _ (List.Subset.refl _)]
  | subscript =>
    simp only [hform] at hpart ⊢
    rw [hpart _ (List.subset_append_left ..), hpart _ (List.subset_append_right ..)]
  | object =>
    simp only [hform] at hpart ⊢
    refine List.flatMap_congr fun member hmember => inMember_congr fun x hx => ?_
    exact hpart x fun d hd => List.mem_flatMap.mpr ⟨member, hmember, hx hd⟩
  | array =>
    simp only [hform] at hpart ⊢
    exact List.flatMap_congr fun element helement =>
      hpart (some element) (List.cons_subset.mpr ⟨helement, List.nil_subset _⟩)
  | word | self | other => rfl

/-! ### Where steps go on without end -/

theorem endless_not_mem_texts (places : List Cursor) : Look.endless ∉ texts places := by
  simp [texts]

theorem exists_part_of_mem_inMember {inPart : Option Cursor → List Look} {member : Cursor}
    (hnone : inPart none = []) (h : Look.endless ∈ inMember inPart member) :
    ∃ d ∈ Path.memberParts member, Look.endless ∈ inPart (some d) := by
  have hsome {x : Option Cursor} (hx : Look.endless ∈ inPart x) :
      ∃ d, x = some d ∧ Look.endless ∈ inPart (some d) := by
    cases x with
    | none =>
      rw [hnone] at hx
      cases hx
    | some d => exact ⟨d, rfl, hx⟩
  unfold inMember at h
  unfold Path.memberParts
  cases hform : Path.MemberForm.ofKind member.kind with
  | pair =>
    simp only [hform] at h ⊢
    rcases List.mem_append.mp h with h | h
    · obtain ⟨d, hd, h⟩ := hsome h
      exact ⟨d, List.mem_append_left _ (Option.mem_toList.mpr hd), h⟩
    · obtain ⟨d, hd, h⟩ := hsome h
      exact ⟨d, List.mem_append_right _ (Option.mem_toList.mpr hd), h⟩
  | shorthand =>
    simp only [hform] at h
    cases List.mem_singleton.mp h
  | spread | named =>
    simp only [hform] at h ⊢
    obtain ⟨d, hd, h⟩ := hsome h
    exact ⟨d, Option.mem_toList.mpr hd, h⟩

/-- Steps without end go on at a part. -/
theorem exists_part_of_endless (h : Look.endless ∈ inCollect resolve inKey (n + 1) (some c)) :
    ∃ d, Path.HasPart resolve c d ∧ Look.endless ∈ inCollect resolve inKey n (some d) := by
  have hsome {x : Option Cursor} (hx : Look.endless ∈ inCollect resolve inKey n x) :
      ∃ d, x = some d ∧ Look.endless ∈ inCollect resolve inKey n (some d) := by
    cases x with
    | none =>
      rw [inCollect_none] at hx
      cases hx
    | some d => exact ⟨d, rfl, hx⟩
  rw [inCollect] at h
  unfold Path.HasPart Path.parts
  cases hform : Path.Form.ofKind c.kind with
  | call | parentheses =>
    simp only [hform] at h ⊢
    obtain ⟨d, hd, h⟩ := hsome h
    exact ⟨d, Option.mem_toList.mpr hd, h⟩
  | member =>
    simp only [hform] at h ⊢
    obtain ⟨d, hd, h⟩ := hsome ((List.mem_append.mp h).resolve_left (endless_not_mem_texts _))
    exact ⟨d, Option.mem_toList.mpr hd, h⟩
  | subscript =>
    simp only [hform] at h ⊢
    rcases List.mem_append.mp h with h | h
    · obtain ⟨d, hd, h⟩ := hsome ((List.mem_append.mp h).resolve_left (endless_not_mem_texts _))
      exact ⟨d, List.mem_append_left _ (Option.mem_toList.mpr hd), h⟩
    · obtain ⟨d, hd, h⟩ := hsome h
      exact ⟨d, List.mem_append_right _ (Option.mem_toList.mpr hd), h⟩
  | object =>
    simp only [hform] at h ⊢
    obtain ⟨member, hmember, h⟩ := List.mem_flatMap.mp h
    obtain ⟨d, hd, h⟩ := exists_part_of_mem_inMember inCollect_none h
    exact ⟨d, List.mem_flatMap.mpr ⟨member, hmember, hd⟩, h⟩
  | array =>
    simp only [hform] at h ⊢
    obtain ⟨element, helement, h⟩ := List.mem_flatMap.mp h
    exact ⟨element, helement, h⟩
  | word =>
    simp only [hform] at h
    cases List.mem_singleton.mp h
  | self | other =>
    simp only [hform] at h
    cases h

section

variable {root : Node} (hstays : Path.StaysIn resolve root)

include hstays

theorem endless_not_mem_inCollect (hc : Cursor.Within root c)
    (hends : Path.RecursionEnds resolve c)
    (hn : Descent.reach (Path.HasPart resolve) (Cursor.placesFrom [] root) c ≤ n) :
    Look.endless ∉ inCollect resolve inKey n (some c) := by
  induction n generalizing c with
  | zero =>
    have hpos := Descent.reach_pos (R := Path.HasPart resolve) hc.mem_places
    omega
  | succ n ih =>
    intro h
    obtain ⟨d, hd, h⟩ := exists_part_of_endless h
    have hlt := Descent.reach_lt hc.mem_places hd hends.acyclic
    exact ih (hstays.within hc hd) (hends.inv hd) (by omega) h

/-- Nothing goes on without end where the recursion over parts comes to an end. -/
theorem endless_not_mem_inPathBy {x : Option Cursor} (hx : ∀ c ∈ x, Cursor.Within root c)
    (hends : ∀ c ∈ x, Path.RecursionEnds resolve c) :
    Look.endless ∉ inPathBy resolve inKey x := by
  cases x with
  | none => exact List.not_mem_nil
  | some c =>
    have hc := hx c rfl
    have hreach : Descent.reach (Path.HasPart resolve) (Cursor.placesFrom [] root) c ≤ root.size :=
      Cursor.length_places root ▸ List.countP_le_length
    rw [inPathBy, hc.root_eq]
    exact endless_not_mem_inCollect hstays hc (hends c rfl) (Nat.le_succ_of_le hreach)

end

/-- Nothing goes on without end before something else is at fault. -/
def Ends (looks : List Look) : Prop := looks.findSome? Look.fault? ≠ some .endless

theorem ends_of_not_mem {looks : List Look} (h : Look.endless ∉ looks) : Ends looks := by
  intro hfault
  obtain ⟨look, hlook, hfault⟩ := List.exists_of_findSome?_eq_some hfault
  cases look with
  | endless => exact h hlook
  | text place =>
    rw [Look.fault?] at hfault
    split at hfault <;> cases hfault

theorem ends_texts (places : List Cursor) : Ends (texts places) :=
  ends_of_not_mem (endless_not_mem_texts places)

theorem Ends.append {looks others : List Look} (h : Ends looks) (h' : Ends others) :
    Ends (looks ++ others) := by
  unfold Ends at h h' ⊢
  rw [List.findSome?_append]
  cases hfault : looks.findSome? Look.fault? with
  | none => exact h'
  | some fault =>
    rw [hfault] at h
    exact h

theorem Ends.flatMap {α : Type} {items : List α} {looks : α → List Look}
    (h : ∀ item ∈ items, Ends (looks item)) : Ends (items.flatMap looks) := by
  induction items with
  | nil => exact ends_of_not_mem List.not_mem_nil
  | cons item rest ih =>
    rw [List.flatMap_cons]
    exact (h item (List.mem_cons_self ..)).append <|
      ih fun other hother => h other (List.mem_cons_of_mem _ hother)

theorem checked_ne_endless_iff {α : Type} {looks : List Look} {answer : α} :
    checked looks answer ≠ .error (.misuse .endless) ↔ Ends looks :=
  not_congr (checked_eq_error looks answer .endless)

theorem segmentsBy_ne_endless {reader : KeyReader} {root : Node}
    (hstays : Path.StaysIn reader.resolve root) {x : Option Cursor}
    (hx : ∀ c ∈ x, Cursor.Within root c)
    (hends : ∀ c ∈ x, Path.RecursionEnds reader.resolve c) :
    segmentsBy reader x ≠ .error (.misuse .endless) := by
  rw [segmentsBy, checked_ne_endless_iff]
  exact ends_of_not_mem (endless_not_mem_inPathBy hstays hx hends)

end ComponentAtlas.Reading
