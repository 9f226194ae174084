import ComponentAtlas.Dialect
import ComponentAtlas.Failure
import ComponentAtlas.SourceTree.Cursor

/-!
# Logged work

An extraction calls plug-ins, which may leave something on a desk, and may warn.
Its outcome is kept together with the log of what happened on the way, in order,
and with the desk as it was left. After a failure nothing more happens.
-/

namespace ComponentAtlas.Extraction

open SourceTree

/-- What is documented: a node of the program, or any value a resolver made up. -/
inductive Definition where
  | node (place : Cursor)
  | value (v : Value)

inductive Event where
  | warned (text : String)
  /-- The resolver was called with the program and the dialect of the toolkit. -/
  | resolving (program : Cursor) (dialect : Dialect)
  /-- The handler of number `index` was called on the definition of number `number`. -/
  | handling (number index : Nat) (definition : Definition)

structure Logged (δ α : Type) where
  outcome : Except Failure α
  events : List Event
  desk : δ

/-- Work at a desk. -/
def Work (δ α : Type) : Type := δ → Logged δ α

namespace Work

variable {δ α β : Type}

instance : Monad (Work δ) where
  pure value desk := ⟨.ok value, [], desk⟩
  bind work next desk :=
    let done := work desk
    match done.outcome with
    | .ok value =>
      let rest := next value done.desk
      ⟨rest.outcome, done.events ++ rest.events, rest.desk⟩
    | .error failure => ⟨.error failure, done.events, done.desk⟩

def note (event : Event) : Work δ Unit := fun desk => ⟨.ok (), [event], desk⟩

def ofExcept (outcome : Except Failure α) : Work δ α := fun desk => ⟨outcome, [], desk⟩

def fail (failure : Failure) : Work δ α := ofExcept (.error failure)

/-- A change of the desk, which stays even when it ends in a failure. -/
def change (f : δ → δ × Except Failure α) : Work δ α := fun desk =>
  ⟨(f desk).2, [], (f desk).1⟩

/-- What the desk shows. -/
def look (f : δ → Except Failure α) : Work δ α := fun desk => ⟨f desk, [], desk⟩

end Work

end ComponentAtlas.Extraction
