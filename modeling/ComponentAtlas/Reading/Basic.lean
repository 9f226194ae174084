import ComponentAtlas.Failure
import ComponentAtlas.SourceTree.Cursor

/-!
# Texts that are looked at

A node may cover bytes that are no text, when a character is cut. Names and paths
take the text of such a node as empty; but an answer is refused when a text that
had to be looked at for it cannot be read. It is refused as well when a path that
is followed for it leads back to itself and so has no end. Here and in the other
modules of this folder it is listed what an answer looks at, in the order and as
far as it is looked at, and the answers are given with that check.
-/

namespace ComponentAtlas.Reading

open SourceTree

/-- The items up to the first that passes, with it: those that a search looks at. -/
def upTo {α : Type} (p : α → Bool) : List α → List α
  | [] => []
  | a :: rest => if p a then [a] else a :: upTo p rest

/-- A search that stops where it may stop finds the same. -/
theorem find?_upTo {α : Type} (p : α → Bool) (items : List α) :
    (upTo p items).find? p = items.find? p := by
  induction items with
  | nil => rfl
  | cons a rest ih => by_cases h : p a <;> simp [upTo, h, ih]

/-- What an answer comes upon: the text of a place, or a path that has no end. -/
inductive Look where
  | text (place : Cursor)
  | endless

def Look.fault? : Look → Option Misuse
  | .text place => if place.isReadable then none else some .brokenText
  | .endless => some .endless

/-- An answer is given when nothing it comes upon is at fault; else the first fault is. -/
def checked {α : Type} (looks : List Look) (answer : α) : Except Failure α :=
  match looks.findSome? Look.fault? with
  | none => .ok answer
  | some fault => .error (.misuse fault)

def texts (places : List Cursor) : List Look := places.map .text

theorem isReadable_of_faultless {looks : List Look} (h : ∀ look ∈ looks, look.fault? = none) :
    ∀ place, .text place ∈ looks → place.isReadable = true := by
  intro place hplace
  have hnone := h _ hplace
  rw [Look.fault?] at hnone
  split at hnone
  · assumption
  · cases hnone

theorem checked_eq_ok {α : Type} (looks : List Look) (answer given : α) :
    checked looks answer = .ok given ↔
      (∀ look ∈ looks, look.fault? = none) ∧ answer = given := by
  rw [checked, ← List.findSome?_eq_none_iff]
  split <;> simp [*]

theorem checked_eq_error {α : Type} (looks : List Look) (answer : α) (m : Misuse) :
    checked looks answer = .error (.misuse m) ↔ looks.findSome? Look.fault? = some m := by
  rw [checked]
  split <;> simp [*]

/-- What is looked at for an answer that is made of another comes after what that looks at. -/
theorem bind_checked {α β : Type} {looks others : List Look} {a : α} {b : β}
    {next : α → Except Failure β} (h : next a = checked others b) :
    (checked looks a).bind next = checked (looks ++ others) b := by
  unfold checked at h ⊢
  rw [List.findSome?_append]
  cases looks.findSome? Look.fault? with
  | none => exact h
  | some fault => rfl

theorem checked_map {α β : Type} (f : α → β) (looks : List Look) (answer : α) :
    checked looks (f answer) = (checked looks answer).map f := by
  unfold checked
  split <;> rfl

/-- For texts alone the answer is given when all of them can be read. -/
theorem checked_texts {α : Type} (places : List Cursor) (answer : α) :
    checked (texts places) answer =
      if places.all Cursor.isReadable then .ok answer else .error (.misuse .brokenText) := by
  induction places with
  | nil => rfl
  | cons c rest ih =>
    cases hc : c.isReadable with
    | true =>
      rw [List.all_cons, hc, Bool.true_and, ← ih]
      simp only [checked, texts, List.map_cons, List.findSome?_cons, Look.fault?, hc, if_true]
    | false =>
      rw [List.all_cons, hc, Bool.false_and]
      simp only [checked, texts, List.map_cons, List.findSome?_cons, Look.fault?, hc]
      rfl

theorem checked_texts_eq_ok {α : Type} (places : List Cursor) (answer given : α) :
    checked (texts places) answer = .ok given ↔ (∀ c ∈ places, c.isReadable) ∧ answer = given := by
  rw [checked_texts, ← List.all_eq_true]
  split <;> simp [*]

end ComponentAtlas.Reading
