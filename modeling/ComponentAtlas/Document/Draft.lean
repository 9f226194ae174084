import ComponentAtlas.Document.Basic

/-!
# Drafts

What a document is made from: the slots of a record or of a finished document,
brought to one shape. Names of methods need not differ, keys need not be texts,
and some parts are not yet checked. The parts of methods are data of any type `ν`.
-/

namespace ComponentAtlas

open Record (PropDescriptor MethodDescriptor)

structure Draft (ν : Type) where
  description : Value
  displayName : Value
  props : Keyed Key (PropDescriptor Value)
  context : Keyed Key (PropDescriptor Value)
  childContext : Keyed Key (PropDescriptor Value)
  methods : List (MethodDescriptor ν)
  composes : List Value
  extra : Keyed Key Value
deriving DecidableEq, Repr

namespace Draft

def ofRecord (r : Record Value) : Draft Value where
  description := r.description
  displayName := r.displayName
  props := r.props
  context := r.context
  childContext := r.childContext
  methods := r.methods.map Prod.snd
  composes := r.composes
  extra := r.extra

def ofMethod (m : MethodEntry) : MethodDescriptor Value where
  name := m.name
  docblock := m.docblock
  modifiers := m.modifiers.map .text
  params := m.params.map .object
  returns := m.returns
  description := m.description

def ofDocument (d : Document) : Draft Value where
  description := Record.optionValue .text d.description
  displayName := Record.optionValue .text d.displayName
  props := Schema.keyed (d.props.getD [])
  context := Schema.keyed (d.context.getD [])
  childContext := Schema.keyed (d.childContext.getD [])
  methods := (d.methods.getD []).map ofMethod
  composes := (d.composes.getD []).map .text
  extra := Schema.keyed (d.extra.getD [])

end Draft

end ComponentAtlas
