import ComponentAtlas.Proofs.Data.Descent
import ComponentAtlas.Proofs.Path.Parts
import ComponentAtlas.Proofs.Scope.Comments

/-!
# Paths in uncommented trees

Step by step the same segments are collected in the uncommented tree. It has
fewer nodes and so allows fewer steps; where no expression is a part of itself
these are still enough.
-/

namespace ComponentAtlas

open SourceTree

variable (number : Nat → Nat)

namespace Path

theorem byScope_uncommented (key : Option Cursor) :
    byScope (key.map (Cursor.uncommented number)) =
      (byScope key).map (Cursor.uncommented number) :=
  Cursor.bind_map_uncommented number (Scope.resolve_uncommented number) key

theorem keyExpression_uncommented (key : Option Cursor) :
    keyExpression (key.map (Cursor.uncommented number)) =
      (keyExpression key).map (Cursor.uncommented number) := by
  refine Cursor.bind_map_uncommented number (fun k => ?_) key
  rw [Cursor.kind_uncommented, Cursor.content?_uncommented]
  split <;> rfl

theorem textOf_uncommented (c : Option Cursor) :
    textOf (c.map (Cursor.uncommented number)) = textOf c := by
  cases c with
  | none => rfl
  | some c => exact Cursor.text_uncommented number c

theorem memberText_uncommented {write : Option Cursor → String}
    (h : ∀ x, write (x.map (Cursor.uncommented number)) = write x) (member : Cursor) :
    memberText write (member.uncommented number) = memberText write member := by
  simp only [memberText, Cursor.kind_uncommented, Cursor.child?_uncommented,
    Cursor.content?_uncommented, Cursor.text_uncommented, keyExpression_uncommented, h]

theorem collect_uncommented (fuel : Nat) (c : Option Cursor) (found : List String) :
    collect byScope fuel (c.map (Cursor.uncommented number)) found =
      collect byScope fuel c found := by
  induction fuel generalizing c found with
  | zero => rfl
  | succ fuel ih =>
    cases c with
    | none => rfl
    | some c =>
      have helement (element : Cursor) :
          collect byScope fuel (some (element.uncommented number)) [] =
            collect byScope fuel (some element) [] := ih (some element) []
      have hmember (member : Cursor) :
          memberText (fun x => joinDots (collect byScope fuel x [])) (member.uncommented number) =
            memberText (fun x => joinDots (collect byScope fuel x [])) member :=
        memberText_uncommented number (fun x => by rw [ih]) member
      simp only [Option.map_some, collect, Cursor.kind_uncommented, Cursor.child?_uncommented,
        Cursor.content?_uncommented, Cursor.contents_uncommented, Cursor.text_uncommented,
        textOf_uncommented, byScope_uncommented, ih, List.map_map, Function.comp_def, hmember,
        helement]
      cases Form.ofKind c.kind with
      | subscript =>
        cases byScope (c.child? "index") with
        | none => rfl
        | some k => simp only [Option.map_some, helement]
      | _ => rfl

/-! ### Enough steps -/

section

variable {root : Node} {c d : Cursor}

theorem kept_of_hasPart (hc : Cursor.Within root c) (h : HasPart byScope c d) :
    Cursor.Kept root d := by
  rcases h.held_or_denoted with ⟨p, hp, hd | ⟨name, hd⟩⟩ | hd
  · exact Cursor.kept_of_mem_contents (hc.trans hp) hd
  · exact Cursor.kept_of_child? (hc.trans hp) hd
  · obtain ⟨index, hindex, hd⟩ := Option.bind_eq_some_iff.mp hd
    exact Scope.kept_of_resolve (Cursor.kept_of_child? hc hindex) hd

/-- Where each part is smaller, no expression is a part of itself. -/
theorem hasFinitePaths_of_size
    (h : ∀ c ∈ Cursor.placesFrom [] root, ∀ d ∈ parts byScope c, d.node.size < c.node.size) :
    HasFinitePaths byScope root := fun _ hc =>
  (recursionEnds_of_size staysIn_byScope h hc).acyclic

/-- A recursion over parts needs no more steps than there are places that stay. -/
theorem eq_of_uncommented_size {α : Type} {f : Nat → Cursor → α}
    (hfinite : HasFinitePaths byScope root) (hc : Cursor.Kept root c)
    (hstep : ∀ n m c, (∀ d, HasPart byScope c d → f n d = f m d) → f (n + 1) c = f (m + 1) c) :
    f ((root.uncommented number).size + 1) c = f (root.size + 1) c := by
  have hless : (Cursor.keptPlaces root).length ≤ (root.uncommented number).size + 1 := by
    rw [Cursor.length_keptPlaces number root hc.root]
    exact Nat.le_succ _
  have hmore : (Cursor.keptPlaces root).length ≤ root.size + 1 :=
    Nat.le_succ_of_le (Cursor.length_keptPlaces_le root)
  refine Descent.eq_of_length_le (S := Cursor.Kept root) (R := HasPart byScope) ?_ ?_ ?_ hstep hc
    hless hmore
  · exact fun _ hd => hd.mem_keptPlaces
  · exact fun _ _ hpart hd => kept_of_hasPart hd.within hpart
  · exact fun d hd => hfinite d hd.within

variable {x : Option Cursor}

theorem segments_uncommented (hfinite : HasFinitePaths byScope root)
    (hx : ∀ c ∈ x, Cursor.Kept root c) :
    segments (x.map (Cursor.uncommented number)) = segments x := by
  cases x with
  | none => rfl
  | some c =>
    have hc := hx c rfl
    -- Both trees allow enough steps, so that the comparison can be made at the same number.
    have hsteps := eq_of_uncommented_size number (f := fun n d => collect byScope n (some d))
      hfinite hc fun _ _ _ h => collect_congr h
    have hroot : (c.uncommented number).root = root.uncommented number := by
      rw [Cursor.root_uncommented, hc.within.root_eq]
    calc segments (some (c.uncommented number))
      _ = collect byScope ((root.uncommented number).size + 1)
            (some (c.uncommented number)) [] := by rw [segments, segmentsBy, hroot]
      _ = collect byScope ((root.uncommented number).size + 1) (some c) [] :=
          collect_uncommented number _ (some c) []
      _ = collect byScope (root.size + 1) (some c) [] := by rw [hsteps]
      _ = segments (some c) := by rw [segments, segmentsBy, hc.within.root_eq]

theorem dotted_uncommented (hfinite : HasFinitePaths byScope root)
    (hx : ∀ c ∈ x, Cursor.Kept root c) :
    dotted (x.map (Cursor.uncommented number)) = dotted x :=
  congrArg joinDots (segments_uncommented number hfinite hx)

end

end Path

/-! ### Texts that are looked at -/

namespace Reading

theorem inKeyByScope_uncommented (key : Option Cursor) :
    inKeyByScope (key.map (Cursor.uncommented number)) =
      (inKeyByScope key).map (Cursor.uncommented number) := by
  rw [inKeyByScope, toList_map_uncommented]
  exact flatMap_map_uncommented number (inResolve_uncommented number) _

theorem inMember_uncommented {inPart : Option Cursor → List Look}
    (h : ∀ x, inPart (x.map (Cursor.uncommented number)) =
      (inPart x).map (Look.uncommented number)) (member : Cursor) :
    inMember inPart (member.uncommented number) =
      (inMember inPart member).map (Look.uncommented number) := by
  simp only [inMember, Cursor.kind_uncommented, Cursor.child?_uncommented,
    Cursor.content?_uncommented, Path.keyExpression_uncommented, h]
  cases Path.MemberForm.ofKind member.kind with
  | pair => exact List.map_append.symm
  | _ => rfl

theorem inCollect_uncommented (fuel : Nat) (c : Option Cursor) :
    inCollect Path.byScope inKeyByScope fuel (c.map (Cursor.uncommented number)) =
      (inCollect Path.byScope inKeyByScope fuel c).map (Look.uncommented number) := by
  induction fuel generalizing c with
  | zero => cases c <;> rfl
  | succ fuel ih =>
    cases c with
    | none => rfl
    | some c =>
      simp only [Option.map_some, inCollect, Cursor.kind_uncommented, Cursor.child?_uncommented,
        Cursor.content?_uncommented, Cursor.contents_uncommented, toList_map_uncommented,
        texts_uncommented, inKeyByScope_uncommented, Path.byScope_uncommented, ih,
        flatMap_map_uncommented number (inMember_uncommented number ih)]
      cases Path.Form.ofKind c.kind with
      | member | subscript => simp only [List.map_append]
      | array => exact flatMap_map_uncommented number (fun element => ih (some element)) _
      | _ => rfl

variable {root : Node} {x : Option Cursor}

theorem inPath_uncommented (hfinite : Path.HasFinitePaths Path.byScope root)
    (hx : ∀ c ∈ x, Cursor.Kept root c) :
    inPath (x.map (Cursor.uncommented number)) = (inPath x).map (Look.uncommented number) := by
  cases x with
  | none => rfl
  | some c =>
    have hc := hx c rfl
    have hsteps := Path.eq_of_uncommented_size number
      (f := fun n d => inCollect Path.byScope inKeyByScope n (some d)) hfinite hc
      fun _ _ _ h => inCollect_congr h
    have hroot : (c.uncommented number).root = root.uncommented number := by
      rw [Cursor.root_uncommented, hc.within.root_eq]
    simp only [Option.map_some, inPath, inPathBy, hroot, hc.within.root_eq]
    rw [← hsteps]
    exact inCollect_uncommented number _ (some c)

theorem segments_uncommented (hfinite : Path.HasFinitePaths Path.byScope root)
    (hx : ∀ c ∈ x, Cursor.Kept root c) :
    segments (x.map (Cursor.uncommented number)) = segments x := by
  have hin := inPath_uncommented number hfinite hx
  have hsame := Path.segments_uncommented number hfinite hx
  calc segments (x.map (Cursor.uncommented number))
      = checked (inPath (x.map (Cursor.uncommented number)))
          (Path.segments (x.map (Cursor.uncommented number))) := rfl
    _ = checked (inPath x) (Path.segments x) := by rw [hin, hsame, checked_uncommented]
    _ = segments x := rfl

theorem dotted_uncommented (hfinite : Path.HasFinitePaths Path.byScope root)
    (hx : ∀ c ∈ x, Cursor.Kept root c) :
    dotted (x.map (Cursor.uncommented number)) = dotted x :=
  congrArg (Path.joinDots <$> ·) (segments_uncommented number hfinite hx)

end Reading

end ComponentAtlas
