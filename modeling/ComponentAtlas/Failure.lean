import ComponentAtlas.Diagnostic.Basic
import ComponentAtlas.Issue

/-!
# Failures

The ways in which an operation can end without a result.
-/

namespace ComponentAtlas

/-- Uses that the library does not answer with a report of its own. -/
inductive Misuse where
  /-- Something was asked of a datum that does not have it. -/
  | noSuchPart
  /-- A datum of an unsuitable sort was given. -/
  | unsuitable
  /-- No entry has the name asked for. -/
  | unknownKey
  /-- A sequence has no item at the index asked for. -/
  | outOfRange
  /-- A number lies outside the range in which it is wanted. -/
  | outOfBounds
  /-- Bytes were cut so that they are no text. -/
  | brokenText
  /-- An item that should be a pair has more parts or fewer. -/
  | wrongLength
  /-- Data contain themselves, or reach too deep to be written anywhere. -/
  | unwritable
  /-- Data reach too deep to be written where they are. -/
  | tooDeep
  /-- Data reach too deep to be copied. -/
  | uncopyable
  /-- An expression is a part of itself, so that its path has no end. -/
  | endless
deriving DecidableEq, Repr

/-- The two kinds of failure that a plug-in may raise, in words of its own. -/
inductive RaisedKind where
  | runtime
  | value
deriving DecidableEq, Repr

inductive Failure where
  | reported (report : Diagnostic)
  | invalid (issues : List Issue)
  | raised (kind : RaisedKind) (message : String)
  | misuse (m : Misuse)
deriving Repr

theorem map_eq_ok {α β : Type} {x : Except Failure α} {f : α → β} {b : β} :
    x.map f = .ok b ↔ ∃ a, x = .ok a ∧ f a = b := by
  cases x with
  | ok a => simp [Except.map]
  | error failure => simp [Except.map]

theorem bind_eq_ok {α β : Type} {x : Except Failure α} {f : α → Except Failure β} {b : β} :
    x.bind f = .ok b ↔ ∃ a, x = .ok a ∧ f a = .ok b := by
  cases x with
  | ok a => simp [Except.bind]
  | error failure => simp [Except.bind]

/-- A checked part as a result: its value, or all that is wrong with it. -/
def Checked.result {α : Type} (c : Checked α) : Except Failure α :=
  match c.toExcept with
  | .ok value => .ok value
  | .error issues => .error (.invalid issues)

end ComponentAtlas
