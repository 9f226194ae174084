import ComponentAtlas.Document.Normalize
import Mathlib.Data.List.Forall2

/-!
# What passes a check

A part passes a check when it is read as some value without an issue. Each
reader is described here by what passes it; the checks of documents are built
from these descriptions and do not look at lists of issues again.
-/

namespace ComponentAtlas.Checked

variable {α β : Type}

theorem eq_pure_iff (c : Checked α) (a : α) : c = pure a ↔ c.value = a ∧ c.issues = [] := by
  obtain ⟨value, issues⟩ := c
  constructor
  · intro h
    injection h with hv hi
    exact ⟨hv, hi⟩
  · rintro ⟨rfl, rfl⟩
    rfl

theorem bind_eq_pure (c : Checked α) (f : α → Checked β) (b : β) :
    c >>= f = pure b ↔ ∃ a, c = pure a ∧ f a = pure b := by
  constructor
  · intro h
    obtain ⟨hv, hi⟩ := (eq_pure_iff _ _).mp h
    have happ : c.issues ++ (f c.value).issues = [] := hi
    obtain ⟨hc, hf⟩ := List.append_eq_nil_iff.mp happ
    exact ⟨c.value, (eq_pure_iff _ _).mpr ⟨rfl, hc⟩, (eq_pure_iff _ _).mpr ⟨hv, hf⟩⟩
  · rintro ⟨a, rfl, h⟩
    exact h

theorem map_eq_pure (c : Checked α) (f : α → β) (b : β) :
    f <$> c = pure b ↔ ∃ a, c = pure a ∧ f a = b := by
  have h : f <$> c = c >>= fun a => pure (f a) := rfl
  rw [h, bind_eq_pure]
  constructor
  · rintro ⟨a, ha, hb⟩
    exact ⟨a, ha, ((eq_pure_iff _ _).mp hb).1⟩
  · rintro ⟨a, ha, rfl⟩
    exact ⟨a, ha, rfl⟩

theorem under_eq_pure (segment : Segment) (c : Checked α) (a : α) :
    c.under segment = pure a ↔ c = pure a := by
  simp only [eq_pure_iff, under, List.map_eq_nil_iff]

theorem pure_eq_pure (a b : α) : (pure a : Checked α) = pure b ↔ a = b := by
  simp only [eq_pure_iff]
  exact ⟨fun h => h.1, fun h => ⟨h, rfl⟩⟩

theorem bad_ne_pure (standIn a : α) (kind : IssueKind) : bad standIn kind ≠ pure a := by
  intro h
  have hi := ((eq_pure_iff _ _).mp h).2
  simp [bad] at hi

theorem result_eq_ok (c : Checked α) (a : α) : c.result = .ok a ↔ c = pure a := by
  obtain ⟨value, issues⟩ := c
  cases issues with
  | nil => simp [result, toExcept, eq_pure_iff]
  | cons i rest => simp [result, toExcept, eq_pure_iff]

end ComponentAtlas.Checked

namespace ComponentAtlas.Schema

open Checked

variable {α β : Type}

theorem readText_eq_pure (v : Value) (s : String) : readText v = pure s ↔ v = .text s := by
  cases v with
  | text t => simp [readText, pure_eq_pure]
  | _ => simp [readText, bad_ne_pure]

theorem readItemsFrom_eq_pure (read : β → Checked α) (i : Nat) (items : List β) (found : List α) :
    readItemsFrom read i items = pure found ↔
      List.Forall₂ (fun v a => read v = pure a) items found := by
  induction items generalizing i found with
  | nil => rw [readItemsFrom, pure_eq_pure, List.forall₂_nil_left_iff, eq_comm]
  | cons v rest ih =>
    simp only [readItemsFrom, bind_eq_pure, under_eq_pure, pure_eq_pure, ih]
    constructor
    · rintro ⟨a, ha, as, has, rfl⟩
      exact .cons ha has
    · intro h
      cases h with
      | cons ha has => exact ⟨_, ha, _, has, rfl⟩

theorem readItems_eq_pure (read : β → Checked α) (items : List β) (found : List α) :
    readItems read items = pure found ↔
      List.Forall₂ (fun v a => read v = pure a) items found :=
  readItemsFrom_eq_pure read 0 items found

/-- Items can be read together exactly when each of them can be read. -/
theorem exists_readItems {read : β → Checked α} {items : List β} :
    (∃ found, readItems read items = pure found) ↔ ∀ v ∈ items, ∃ a, read v = pure a := by
  simp only [readItems_eq_pure]
  induction items with
  | nil => simp
  | cons v rest ih =>
    rw [List.forall_mem_cons, ← ih]
    constructor
    · intro h
      obtain ⟨found, hfound⟩ := h
      cases hfound with
      | cons ha has => exact ⟨⟨_, ha⟩, ⟨_, has⟩⟩
    · intro h
      obtain ⟨⟨a, ha⟩, as, has⟩ := h
      exact ⟨a :: as, .cons ha has⟩

theorem readKey_eq_pure (key : Key) (name : String) : readKey key = pure name ↔ key = .text name := by
  cases key with
  | text s => simp [readKey, pure_eq_pure]
  | _ => simp [readKey, under_eq_pure, bad_ne_pure]

theorem readKeys_eq_pure (entries : Keyed Key α) (found : Keyed String α) :
    readKeys entries = pure found ↔ entries = keyed found := by
  induction entries generalizing found with
  | nil => cases found <;> simp [readKeys, pure_eq_pure, keyed]
  | cons entry rest ih =>
    obtain ⟨key, value⟩ := entry
    simp only [readKeys, bind_eq_pure, readKey_eq_pure, pure_eq_pure, ih]
    constructor
    · rintro ⟨name, rfl, names, rfl, rfl⟩
      rfl
    · intro h
      cases found with
      | nil => simp [keyed] at h
      | cons f fs =>
        simp only [keyed, List.map_cons, List.cons.injEq, Prod.mk.injEq] at h
        exact ⟨f.1, h.1.1, fs, h.2, by rw [h.1.2]⟩

theorem Field.read_eq_pure {field : Field} {absent a : α} {read : Value → Checked α}
    {fields : Keyed String Value} (key : String) {v : Value}
    (hgiven : field.given? fields = some (key, v)) :
    field.read absent read fields = pure a ↔ read v = pure a := by
  simp only [Field.read, hgiven]
  exact under_eq_pure _ _ _

/-- Nothing is refused when every key is one under which a known field is given. -/
theorem refuseOthers_eq_pure {known : List Field} {fields : Keyed String Value}
    (h : ∀ key ∈ fields.keys,
      key ∈ known.filterMap fun field => (field.given? fields).map Prod.fst) :
    refuseOthers known fields = pure () := by
  have hnone : fields.keys.filter (fun key =>
      !(known.filterMap fun field => (field.given? fields).map Prod.fst).contains key) = [] := by
    rw [List.filter_eq_nil_iff]
    intro key hkey
    rw [List.contains_iff_mem.mpr (h key hkey)]
    decide
  simp only [refuseOthers, hnone, List.map_nil]
  rfl

end ComponentAtlas.Schema
