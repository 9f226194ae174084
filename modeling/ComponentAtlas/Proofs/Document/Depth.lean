import ComponentAtlas.Proofs.Document.Acceptance

/-!
# Documents that reach too deep

Free-form data are copied to a greater depth than that to which documents can be
written. In between lie records that become documents which cannot be written.
-/

namespace ComponentAtlas

/-- A truth value inside `n` lists. -/
def Value.nested : (n : Nat) → Value
  | 0 => .bool true
  | n + 1 => .array [nested n]

theorem Value.height_nested (n : Nat) : (nested n).height = n + 1 := by
  induction n with
  | zero => rfl
  | succ n ih => simp only [nested, height, heightOfItems, ih, Nat.max_zero]

theorem Value.isEmpty_nested (n : Nat) : (nested n).isEmpty = false := by
  cases n with
  | zero => rfl
  | succ n => rfl

namespace Document

/-- A document whose only data lie inside `n` lists. -/
def ofNested (n : Nat) : Document := { extra := some [("k", .nested n)] }

theorem written_ofNested (n : Nat) :
    (ofNested n).written = .ok (ofNested n) ↔ n + 2 ≤ deepestLevel := by
  have hinner : Value.heightOfFields [("k", .nested n)] = n + 1 := by
    simp only [Value.heightOfFields, Value.height_nested, Nat.max_zero]
  have houter : (Value.object [("k", .nested n)]).height = n + 2 := by
    simp only [Value.height, hinner]
  have hreaches : (ofNested n).reaches = [⟨n + 1, n + 2⟩] := by
    simp only [reaches, reachesWith, ofNested, Option.map_none, Option.map_some, Option.getD_some,
      Reach.ofExtra, hinner, houter]
    rfl
  simp only [written_eq_ok, fault?_eq_none, hreaches, List.forall_mem_singleton, and_true]
  omega

theorem not_written_ofNested {n : Nat} (h : deepestLevel < n + 2) (written : Document) :
    (ofNested n).written ≠ .ok written := by
  intro hwritten
  obtain ⟨-, rfl⟩ := (written_eq_ok _ _).mp hwritten
  exact absurd ((written_ofNested n).mp hwritten) (Nat.not_le.mpr h)

end Document

namespace Record

/-- Keeps a truth value inside `n` lists. -/
def nestedSteps (n : Nat) : List (Step Value) := [.set (.text "k") (.nested n)]

theorem publication_nested {n : Nat} (h : n + 1 ≤ deepestCopied) (trim : Bool) :
    Bench.publication trim ⟨empty.runAll (nestedSteps n), none⟩ = .ok (Document.ofNested n) := by
  have hrecord : empty.runAll (nestedSteps n) = { empty with extra := [(.text "k", .nested n)] } :=
    rfl
  have hextra : Draft.cleanExtra [(.text "k", .nested n)] = [(.text "k", .nested n)] := by
    simp [Draft.cleanExtra, Value.isEmpty_nested]
  rw [hrecord, publication_eq_ok, requireCopyable_eq_ok]
  constructor
  · simp only [List.map_cons, List.map_nil, List.forall_mem_singleton, Value.height_nested, h]
  · refine (Draft.normalize_eq_ok _).mpr ⟨.null, ?_, ?_⟩
    · cases trim with
      | true => rfl
      | false => rfl
    · have hcheck : Draft.checkKeys (Draft.cleanExtra [(.text "k", .nested n)]) =
          pure (some [("k", .nested n)]) := by
        rw [hextra]
        rfl
      simp only [Draft.check, Checked.bind_eq_pure, Checked.under_eq_pure]
      exact ⟨none, rfl, none, rfl, none, rfl, none, rfl, none, rfl, [], rfl, [], rfl, _, hcheck, rfl⟩

end Record

end ComponentAtlas
