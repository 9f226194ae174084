import ComponentAtlas.Data.Datum
import ComponentAtlas.Data.View
import ComponentAtlas.Issue

/-!
# Reading values of a fixed shape

Readers for the shapes that fields have. A reader takes a value to what it
means or notes an issue. Only truth values are read from more than one shape:
numbers that are one or zero, and the usual words for yes and no.
-/

namespace ComponentAtlas.Schema

def readText : Value → Checked String
  | .text s => pure s
  | _ => .bad "" .notText

def readMapping : Value → Checked (Keyed String Value)
  | .object fields => pure fields
  | _ => .bad [] .notMapping

/-- Null stands for the absence of a value. -/
def readOptional {α : Type} (read : Value → Checked α) : Value → Checked (Option α)
  | .null => pure none
  | v => some <$> read v

def yesWords : List String := ["1", "on", "t", "true", "y", "yes"]

def noWords : List String := ["0", "off", "f", "false", "n", "no"]

/-- The number can be held in 64 bits with a sign. -/
def fitsWord (n : Int) : Bool :=
  decide (-9223372036854775808 ≤ n) && decide (n ≤ 9223372036854775807)

def readTruthOfInt (n : Int) : Checked Bool :=
  if n = 0 then pure false
  else if n = 1 then pure true
  else .bad false (if fitsWord n then .unreadableTruth else .notTruth)

/-- A whole double is read as its whole number is, but for the least that 64 bits hold. -/
def readTruthOfReal (d : Double) : Checked Bool :=
  match d.toInt? with
  | some n => if fitsWord (n - 1) then readTruthOfInt n else .bad false .notTruth
  | none => .bad false .notTruth

def readTruthOfWord (s : String) : Checked Bool :=
  let word := s.map Char.toLower
  if yesWords.contains word then pure true
  else if noWords.contains word then pure false
  else .bad false .unreadableTruth

def readTruth : Value → Checked Bool
  | .bool b => pure b
  | .int n => readTruthOfInt n
  | .real d => readTruthOfReal d
  | .text s => readTruthOfWord s
  | _ => .bad false .notTruth

/-- Reads items one by one, those from number `i` on. -/
def readItemsFrom {α β : Type} (read : β → Checked α) : (i : Nat) → List β → Checked (List α)
  | _, [] => pure []
  | i, v :: rest => do
    let item ← (read v).under (.index i)
    let items ← readItemsFrom read (i + 1) rest
    pure (item :: items)

def readItems {α β : Type} (read : β → Checked α) (items : List β) : Checked (List α) :=
  readItemsFrom read 0 items

/-- Reads a sequence; `kind` says what is wrong with a value that is none. -/
def readSequence {α : Type} (kind : IssueKind) (read : Value → Checked α) :
    Value → Checked (List α)
  | .array items => readItems read items
  | _ => .bad [] kind

/-- Reads the entries of a mapping one by one. -/
def readEntries {α : Type} (read : Value → Checked α) :
    Keyed String Value → Checked (Keyed String α)
  | [] => pure []
  | (name, v) :: rest => do
    let entry ← (read v).under (.name name)
    let entries ← readEntries read rest
    pure ((name, entry) :: entries)

/-! ### Keys -/

/-- The step that leads to the entry of a key; a key that is no text or index is quoted. -/
def segmentOf : Key → Segment
  | .text s => .name s
  | .bool b => .index (if b then 1 else 0)
  | .int n => if fitsWord n then .index n else .name (toString n)
  | k => .name (Datum.ofValue k.toValue).quoted

/-- The key of an entry is a text. -/
def readKey : Key → Checked String
  | .text s => pure s
  | k => ((Checked.bad "" .notText).under (.name "[key]")).under (segmentOf k)

def readKeys {α : Type} : Keyed Key α → Checked (Keyed String α)
  | [] => pure []
  | (key, value) :: rest => do
    let name ← readKey key
    let entries ← readKeys rest
    pure ((name, value) :: entries)

/-- Entries by name as entries by key. -/
def keyed {α : Type} (fields : Keyed String α) : Keyed Key α :=
  fields.map fun e => (.text e.1, e.2)

theorem readKeys_keyed {α : Type} (fields : Keyed String α) :
    readKeys (keyed fields) = pure fields := by
  induction fields with
  | nil => rfl
  | cons entry rest ih =>
    change (do let entries ← readKeys (keyed rest); pure (entry :: entries)) = _
    rw [ih]
    rfl

/-! ### Data seen through a view -/

section

variable {ν : Type} (view : View ν)

/-- Null stands for the absence of a datum. -/
def takeOptional {α : Type} (take : ν → Checked α) (v : ν) : Checked (Option α) :=
  match view.value v with
  | .null => pure none
  | _ => some <$> take v

def takeText (v : ν) : Checked String := readText (view.value v)

def takeTruth (v : ν) : Checked Bool := readTruth (view.value v)

def takeMapping (v : ν) : Checked (Keyed String ν) :=
  match view.mapping? v with
  | some entries => readKeys entries
  | none => .bad [] .notMapping

/-- Takes a list of items of one shape, and the items as they are. -/
def takeListOf {α : Type} (take : ν → Checked α) (v : ν) : Checked (List ν) :=
  match view.list? v with
  | some items => (fun _ => items) <$> readItems take items
  | none => .bad [] .notList

end

theorem takeMapping_values (v : Value) : takeMapping .values v = readMapping v := by
  cases v with
  | object fields => exact readKeys_keyed fields
  | _ => rfl

/-- An attribute of this name can be set anywhere and is not kept. -/
def isPassing (name : String) : Bool := name.toList.head? == some '_'

/-! ### Fields of records -/

/-- A field of a record and the two keys under which it may be given; the first takes precedence. -/
structure Field where
  publicName : String
  ownName : String
deriving DecidableEq, Repr

/-- The key and the value under which a field is given. -/
def Field.given? (field : Field) (fields : Keyed String Value) : Option (String × Value) :=
  match fields.get? field.publicName with
  | some v => some (field.publicName, v)
  | none => (fields.get? field.ownName).map fun v => (field.ownName, v)

/-- Reads a field that may be absent. -/
def Field.read {α : Type} (field : Field) (absent : α) (read : Value → Checked α)
    (fields : Keyed String Value) : Checked α :=
  match field.given? fields with
  | some (key, v) => (read v).under (.name key)
  | none => pure absent

/-- Reads a field that must be given. -/
def Field.require {α : Type} (field : Field) (standIn : α) (read : Value → Checked α)
    (fields : Keyed String Value) : Checked α :=
  match field.given? fields with
  | some (key, v) => (read v).under (.name key)
  | none => (Checked.bad standIn .missing).under (.name field.publicName)

/-- Notes the keys under which no field is given. -/
def refuseOthers (known : List Field) (fields : Keyed String Value) : Checked Unit :=
  let used := known.filterMap fun field => (field.given? fields).map Prod.fst
  let others := fields.keys.filter fun key => !used.contains key
  ⟨(), others.map fun key => ⟨[.name key], .unknownField⟩⟩

end ComponentAtlas.Schema
