import ComponentAtlas.Failure
import ComponentAtlas.Record.Basic

/-!
# Steps on records

The operations on a record as data. Running a step gives the record after it
and says whether it succeeded; what a step that succeeds answers can be read off
the record after it. A step that fails leaves the record as it was; only the
entry that it asked for may be new.

The arguments of a step are of the type that the record's data have. Where an
argument has to be of some shape it is looked into through a view.
-/

namespace ComponentAtlas.Record

inductive Step (ν : Type) where
  | slot (name v : ν)
  | entry (slot : EntrySlot) (name : ν) (assignment : Option (ν × ν))
  | method (name : ν) (assignment : Option (ν × ν))
  | appendToMethod (name list v : ν)
  | compose (source : ν)
  | set (key v : ν)
  | get (key : ν) (default : Option ν)
  | appendToExtra (key v : ν)
  | names
  | raise (kind : RaisedKind) (message : ν)
deriving Repr

/-- The same step with its arguments taken through `f`, from left to right. -/
def Step.mapM {m : Type → Type} [Monad m] {ν μ : Type} (f : ν → m μ) : Step ν → m (Step μ)
  | .slot name v => do pure (.slot (← f name) (← f v))
  | .entry kind name none => do pure (.entry kind (← f name) none)
  | .entry kind name (some a) => do pure (.entry kind (← f name) (some (← f a.1, ← f a.2)))
  | .method name none => do pure (.method (← f name) none)
  | .method name (some a) => do pure (.method (← f name) (some (← f a.1, ← f a.2)))
  | .appendToMethod name list v => do pure (.appendToMethod (← f name) (← f list) (← f v))
  | .compose source => do pure (.compose (← f source))
  | .set key v => do pure (.set (← f key) (← f v))
  | .get key none => do pure (.get (← f key) none)
  | .get key (some default) => do pure (.get (← f key) (some (← f default)))
  | .appendToExtra key v => do pure (.appendToExtra (← f key) (← f v))
  | .names => pure .names
  | .raise kind message => do pure (.raise kind (← f message))

/-- Whether an operation succeeds. -/
abbrev Outcome := Except Failure Unit

def unknownAttribute (name : String) : Failure := .invalid [⟨[.name name], .unknownAttribute⟩]

/-! ### Reading arguments -/

/-- Attributes have texts as names. -/
def attributeName : Value → Except Failure String
  | .text name => .ok name
  | _ => .error (.misuse .unsuitable)

def keyOf (v : Value) : Except Failure Key :=
  match v.key? with
  | some key => .ok key
  | none => .error (.misuse .unsuitable)

/-- The name of a method is a text; sequences and mappings cannot even be looked up. -/
def methodName : Value → Except Failure String
  | .text s => .ok s
  | .array _ | .object _ => .error (.misuse .unsuitable)
  | _ => .error (.invalid [⟨[.name "name"], .notText⟩])

/-! ### Assignments -/

section

variable {ν : Type} (view : View ν)

/-- An attribute, given by its name, and what to assign to it. -/
abbrev Assignment (ν : Type) := ν × ν

/-- The descriptor after an assignment, checked. -/
def assignEntry (d : PropDescriptor ν) (a : Assignment ν) :
    Except Failure (PropDescriptor ν) := do
  let name ← attributeName (view.value a.1)
  match PropAttribute.ofName? name with
  | some attr => ((d.assign view attr a.2).under (.name name)).result
  | none => if Schema.isPassing name then pure d else throw (unknownAttribute name)

def assignMethod (d : MethodDescriptor ν) (a : Assignment ν) :
    Except Failure (MethodDescriptor ν) := do
  let name ← attributeName (view.value a.1)
  match MethodAttribute.ofLabel? name with
  | some attr => ((d.assign view attr a.2).under (.name name)).result
  | none => if Schema.isPassing name then pure d else throw (unknownAttribute name)

def appendToList (d : MethodDescriptor ν) (list v : ν) : Except Failure (MethodDescriptor ν) := do
  let name ← attributeName (view.value list)
  match (MethodAttribute.ofLabel? name).bind fun attr => d.append? attr v with
  | some longer => pure longer
  | none => throw (.misuse .noSuchPart)

/-! ### Running -/

/-- The record and the outcome after an attempt to change it. -/
def after (r : Record ν) (attempt : Except Failure (Record ν)) : Record ν × Outcome :=
  match attempt with
  | .ok changed => (changed, .ok ())
  | .error failure => (r, .error failure)

/-- Changes the entry of a key, which is added first when there is none. -/
def changeEntry (r : Record ν) (slot : EntrySlot) (key : Key)
    (change : PropDescriptor ν → Except Failure (PropDescriptor ν)) : Record ν × Outcome :=
  let (descriptor, present) := r.entryOf slot key
  present.after ((change descriptor).map fun changed =>
    present.withEntries slot ((present.entries slot).put key changed))

/-- Changes the descriptor of a method, which is added first when there is none. -/
def changeMethod (r : Record ν) (name : String)
    (change : MethodDescriptor ν → Except Failure (MethodDescriptor ν)) : Record ν × Outcome :=
  let (descriptor, present) := r.methodOf name
  present.after ((change descriptor).map fun changed =>
    { present with methods := present.methods.put name changed })

def assignSlot (r : Record ν) (name : String) (v : ν) : Except Failure (Record ν) :=
  if name = "description" then .ok { r with description := v }
  else if name = "display_name" then .ok { r with displayName := v }
  else .error (.misuse .noSuchPart)

/-- Runs a step; `grow?` gives a list with one item more. -/
def runWith (grow? : ν → ν → Option ν) (r : Record ν) : Step ν → Record ν × Outcome
  | .slot name v => r.after ((attributeName (view.value name)).bind fun name => r.assignSlot name v)
  | .entry slot name assignment =>
    match keyOf (view.value name) with
    | .ok key =>
      r.changeEntry slot key fun d =>
        match assignment with
        | some a => assignEntry view d a
        | none => .ok d
    | .error failure => (r, .error failure)
  | .method name assignment =>
    match methodName (view.value name) with
    | .ok name =>
      r.changeMethod name fun d =>
        match assignment with
        | some a => assignMethod view d a
        | none => .ok d
    | .error failure => (r, .error failure)
  | .appendToMethod name list v =>
    match methodName (view.value name) with
    | .ok name => r.changeMethod name fun d => appendToList view d list v
    | .error failure => (r, .error failure)
  | .compose source => (r.compose source, .ok ())
  | .set key v => r.after ((keyOf (view.value key)).map fun key => r.set key v)
  | .get key _ => (r, (keyOf (view.value key)).map fun _ => ())
  | .appendToExtra key v => r.after (do
      let key ← keyOf (view.value key)
      match (r.extra.get? key).bind fun held => grow? held v with
      | some longer => pure (r.set key longer)
      | none => throw (.misuse .noSuchPart))
  | .names => (r, .ok ())
  | .raise kind message => (r, .error (.raised kind (Datum.ofValue (view.value message)).plain))

end

/-! ### Records of values -/

/-- An array with one item more; nothing else can grow. -/
def grow? : Value → Value → Option Value
  | .array items, v => some (.array (items ++ [v]))
  | _, _ => none

def run (r : Record Value) (step : Step Value) : Record Value × Outcome :=
  r.runWith .values grow? step

/-- The names of the props, the names that the methods go by, and the composed sources. -/
def namesValue (r : Record Value) : Value :=
  .array [.array (r.props.keys.map Key.toValue), .array (r.methods.map fun m => .text m.2.name),
    .array r.composes]

/-- What a step that has succeeded answers, read off the record after it. -/
def answer (r : Record Value) : Step Value → Value
  | .entry slot name _ =>
    optionValue PropDescriptor.toValue (name.key?.bind fun key => (r.entries slot).get? key)
  | .method name _ =>
    optionValue MethodDescriptor.toValue (name.asText?.bind fun name => r.methods.get? name)
  | .get key default =>
    match key.key? with
    | some key => r.get key (default.getD .null)
    | none => .null
  | .names => r.namesValue
  | _ => .null

/-- The record after a run of steps, failing ones included. -/
def runAll (r : Record Value) (steps : List (Step Value)) : Record Value :=
  steps.foldl (fun r s => (r.run s).1) r

end ComponentAtlas.Record
