import ComponentAtlas.Schema

/-!
# Descriptors

What is recorded of one prop or context entry, and of one method. Attributes
are checked when they are assigned; the lists of a method may be appended to
without a check. The parts that are not looked into are data of any type `ν`.
-/

namespace ComponentAtlas.Record

def optionValue {α : Type} (write : α → Value) : Option α → Value
  | some a => write a
  | none => .null

def mapData {ν μ : Type} (f : ν → μ) (fields : Keyed String ν) : Keyed String μ :=
  fields.map fun e => (e.1, f e.2)

theorem mapData_id {ν : Type} (fields : Keyed String ν) : mapData id fields = fields := by
  simp [mapData]

/-! ### Props and context entries -/

structure PropDescriptor (ν : Type) where
  type : Option (Keyed String ν) := none
  flowType : Option (Keyed String ν) := none
  tsType : Option (Keyed String ν) := none
  required : Option Bool := none
  description : Option String := none
  defaultValue : Option (Keyed String ν) := none
deriving DecidableEq, Repr

inductive PropAttribute where
  | type
  | flowType
  | tsType
  | required
  | description
  | defaultValue
deriving DecidableEq, Repr

namespace PropAttribute

def all : List PropAttribute := [.type, .flowType, .tsType, .required, .description, .defaultValue]

def name : PropAttribute → String
  | .type => "type"
  | .flowType => "flow_type"
  | .tsType => "ts_type"
  | .required => "required"
  | .description => "description"
  | .defaultValue => "default_value"

def ofName? (name : String) : Option PropAttribute := all.find? fun a => a.name == name

theorem ofName?_name (a : PropAttribute) : ofName? a.name = some a := by cases a <;> decide

end PropAttribute

namespace PropDescriptor

variable {ν μ : Type}

def map (f : ν → μ) (d : PropDescriptor ν) : PropDescriptor μ where
  type := d.type.map (mapData f)
  flowType := d.flowType.map (mapData f)
  tsType := d.tsType.map (mapData f)
  required := d.required
  description := d.description
  defaultValue := d.defaultValue.map (mapData f)

/-- All free-form data of the descriptor. -/
def data (d : PropDescriptor ν) : List ν :=
  [d.type, d.flowType, d.tsType, d.defaultValue].flatMap fun given => (given.getD []).map Prod.snd

def assign (view : View ν) (d : PropDescriptor ν) (a : PropAttribute) (v : ν) :
    Checked (PropDescriptor ν) :=
  let mapping := Schema.takeOptional view (Schema.takeMapping view) v
  match a with
  | .type => (fun x => { d with type := x }) <$> mapping
  | .flowType => (fun x => { d with flowType := x }) <$> mapping
  | .tsType => (fun x => { d with tsType := x }) <$> mapping
  | .required =>
    (fun x => { d with required := x }) <$> Schema.takeOptional view (Schema.takeTruth view) v
  | .description =>
    (fun x => { d with description := x }) <$> Schema.takeOptional view (Schema.takeText view) v
  | .defaultValue => (fun x => { d with defaultValue := x }) <$> mapping

def get (d : PropDescriptor Value) : PropAttribute → Value
  | .type => optionValue .object d.type
  | .flowType => optionValue .object d.flowType
  | .tsType => optionValue .object d.tsType
  | .required => optionValue .bool d.required
  | .description => optionValue .text d.description
  | .defaultValue => optionValue .object d.defaultValue

/-- All attributes by their names. -/
def toValue (d : PropDescriptor Value) : Value :=
  .object (PropAttribute.all.map fun a => (a.name, d.get a))

end PropDescriptor

/-! ### Methods -/

structure MethodDescriptor (ν : Type) where
  name : String
  docblock : Option String := none
  modifiers : List ν := []
  params : List ν := []
  returns : Option (Keyed String ν) := none
  description : Option String := none
deriving DecidableEq, Repr

inductive MethodAttribute where
  | name
  | docblock
  | modifiers
  | params
  | returns
  | description
deriving DecidableEq, Repr

namespace MethodAttribute

def all : List MethodAttribute := [.name, .docblock, .modifiers, .params, .returns, .description]

def label : MethodAttribute → String
  | .name => "name"
  | .docblock => "docblock"
  | .modifiers => "modifiers"
  | .params => "params"
  | .returns => "returns"
  | .description => "description"

def ofLabel? (label : String) : Option MethodAttribute := all.find? fun a => a.label == label

theorem ofLabel?_label (a : MethodAttribute) : ofLabel? a.label = some a := by cases a <;> decide

end MethodAttribute

namespace MethodDescriptor

variable {ν μ : Type}

def map (f : ν → μ) (d : MethodDescriptor ν) : MethodDescriptor μ where
  name := d.name
  docblock := d.docblock
  modifiers := d.modifiers.map f
  params := d.params.map f
  returns := d.returns.map (mapData f)
  description := d.description

/-- All unchecked and free-form data of the descriptor. -/
def data (d : MethodDescriptor ν) : List ν :=
  d.modifiers ++ d.params ++ (d.returns.getD []).map Prod.snd

def assign (view : View ν) (d : MethodDescriptor ν) (a : MethodAttribute) (v : ν) :
    Checked (MethodDescriptor ν) :=
  let text := Schema.takeText view
  let mapping := Schema.takeMapping view
  match a with
  | .name => (fun x => { d with name := x }) <$> text v
  | .docblock => (fun x => { d with docblock := x }) <$> Schema.takeOptional view text v
  | .modifiers => (fun x => { d with modifiers := x }) <$> Schema.takeListOf view text v
  | .params => (fun x => { d with params := x }) <$> Schema.takeListOf view mapping v
  | .returns => (fun x => { d with returns := x }) <$> Schema.takeOptional view mapping v
  | .description => (fun x => { d with description := x }) <$> Schema.takeOptional view text v

/-- Appends to one of the two lists; no other attribute can be appended to. -/
def append? (d : MethodDescriptor ν) (a : MethodAttribute) (v : ν) :
    Option (MethodDescriptor ν) :=
  match a with
  | .modifiers => some { d with modifiers := d.modifiers ++ [v] }
  | .params => some { d with params := d.params ++ [v] }
  | _ => none

def get (d : MethodDescriptor Value) : MethodAttribute → Value
  | .name => .text d.name
  | .docblock => optionValue .text d.docblock
  | .modifiers => .array d.modifiers
  | .params => .array d.params
  | .returns => optionValue .object d.returns
  | .description => optionValue .text d.description

def toValue (d : MethodDescriptor Value) : Value :=
  .object (MethodAttribute.all.map fun a => (a.label, d.get a))

end MethodDescriptor

end ComponentAtlas.Record
