import ComponentAtlas.Document.Depth
import ComponentAtlas.Document.Guard
import ComponentAtlas.Document.Normalize
import ComponentAtlas.Record.Copy
import ComponentAtlas.Record.Step

/-!
# Records and their documents side by side

A record may be published at any time, which makes a document of it as it then
stands. The last document made is kept beside the record; later steps on the
record do not reach it, and nothing changes it but publishing again. It is kept
also when it reaches too deep to be written.

For an answer, and for publishing, the record is copied, which has a limit too.
-/

namespace ComponentAtlas.Record

structure Bench where
  record : Record Value
  published : Option Document

namespace Bench

inductive Action where
  | step (s : Step Value)
  | publish
  /-- Shows the document last published. -/
  | show
  /-- Writes the document last published, with so many blanks for each level of depth. -/
  | write (blanks : Value)
  | setAttribute (name : Value)
  | setItem (slot : Value)
  | setEntry (slot key name : Value)

/-- What an action answers. -/
inductive Reply where
  | value (v : Value) (record : Record Value)
  | document (d : Document)
  | text (s : String)
  | done
deriving Repr

def empty : Bench := ⟨Record.empty, none⟩

/-- The layout with a given number of blanks, which has to be one. -/
def layoutOf : Value → Except Failure Json.Layout
  | .null => .ok none
  | .bool b => .ok (some (if b then 1 else 0))
  | .int n =>
    if 0 ≤ n && Schema.fitsWord n then .ok (some n.toNat) else .error (.misuse .outOfBounds)
  | _ => .error (.misuse .unsuitable)

/-- Something done with the document last published. -/
def withPublished {α : Type} (bench : Bench) (use : Document → Except Failure α) :
    Except Failure α :=
  match bench.published with
  | some d => use d
  | none => .error (.misuse .noSuchPart)

/--
An attempt to change the document last published. A part that can have no such
name is refused even while there is no document.
-/
def attempt (bench : Bench) (named : Value) (change : Document → Document.Verdict) :
    Except Failure Reply := do
  let _ ← attributeName named
  bench.withPublished change
  pure .done

/-- The document that publishing makes. -/
def publication (trim : Bool) (bench : Bench) : Except Failure Document := do
  requireCopyable bench.record.extra
  Document.ofRecord trim bench.record

def act (trim : Bool) (bench : Bench) : Action → Bench × Except Failure Reply
  | .step s =>
    let (record, outcome) := bench.record.run s
    ({ bench with record := record }, do
      outcome
      requireCopyable record.extra
      pure (.value (record.answer s) record))
  | .publish =>
    match bench.publication trim with
    | .ok d => ({ bench with published := some d }, .document <$> d.written)
    | .error failure => (bench, .error failure)
  | .show =>
    match bench.published with
    | some d => (bench, .document <$> d.written)
    | none => (bench, .error (Document.notDocumentation .null))
  | .write blanks =>
    (bench, bench.withPublished fun d => do
      let layout ← layoutOf blanks
      pure (.text (← d.write layout)))
  | .setAttribute name => (bench, bench.attempt name fun _ => Document.setAttribute name)
  | .setItem slot => (bench, bench.attempt slot fun _ => Document.setItem slot)
  | .setEntry slot key name => (bench, bench.attempt slot fun d => d.setEntry slot key name)

/-- What is kept under `key` when it is next set anew, or when the run ends. -/
def keptUntilSet (trim : Bool) (bench : Bench) (key : Key) : List Action → Option Value
  | [] => bench.record.extra.get? key
  | .step (.set other v) :: rest =>
    if other.key?.any (· == key) then bench.record.extra.get? key
    else (bench.act trim (.step (.set other v))).1.keptUntilSet trim key rest
  | a :: rest => (bench.act trim a).1.keptUntilSet trim key rest

/--
The answer to an action that more actions follow. Data that are handed out stay
shared with the record: what is appended to a list later shows in the answer.
-/
def sharedAnswer (after : Bench) (trim : Bool) (rest : List Action) (a : Action)
    (answer : Except Failure Reply) : Except Failure Reply :=
  match a, answer with
  | .step (.get key _), .ok (.value v record) =>
    .ok (.value ((key.key?.bind fun key => after.keptUntilSet trim key rest).getD v) record)
  | _, answer => answer

/-- The bench after a run of actions. -/
def actAll (trim : Bool) (bench : Bench) (actions : List Action) : Bench :=
  actions.foldl (fun bench a => (bench.act trim a).1) bench

/-- The answers to a run of actions, as they stand when the run has ended. -/
def answers (trim : Bool) (bench : Bench) : List Action → List (Except Failure Reply)
  | [] => []
  | a :: rest =>
    let (after, answer) := bench.act trim a
    after.sharedAnswer trim rest a answer :: after.answers trim rest

end Bench

end ComponentAtlas.Record
