import ComponentAtlas.Failure

/-!
# Settings

Values kept by topic and key. A value that was never set is answered by
whatever default the asker brings. Topics and keys may be given as any values;
a sequence or a mapping is no key and is refused, once it has to be looked up.
-/

namespace ComponentAtlas

structure Settings where
  sections : Keyed Key (Keyed Key Value)
deriving DecidableEq, Repr

namespace Settings

/-- The settings that hold until something is set, and again after a reset. -/
def initial : Settings where
  sections :=
    [(.text "parsing", [(.text "dialect", .text "javascript"), (.text "strict", .bool false)]),
      (.text "post_processing", [(.text "trim_descriptions", .bool true)])]

def section? (s : Settings) (topic : Key) : Option (Keyed Key Value) :=
  Keyed.get? s.sections topic

def get? (s : Settings) (topic key : Key) : Option Value :=
  (s.section? topic).bind fun entries => Keyed.get? entries key

def get (s : Settings) (topic key : Key) (default : Value) : Value :=
  (s.get? topic key).getD default

def set (s : Settings) (topic key : Key) (value : Value) : Settings :=
  { sections := s.sections.put topic (((s.section? topic).getD []).put key value) }

/-- The value under a topic and a key; the key does not matter when the topic is unknown. -/
def lookup (s : Settings) (topic key default : Value) : Except Failure Value :=
  match topic.key? with
  | none => .error (.misuse .unsuitable)
  | some topic =>
    match s.section? topic, key.key? with
    | none, _ => .ok default
    | some _, none => .error (.misuse .unsuitable)
    | some entries, some key => .ok ((Keyed.get? entries key).getD default)

/-- Sets a value; a new topic stays even when the key is refused. -/
def assign (s : Settings) (topic key value : Value) : Settings × Except Failure Unit :=
  match topic.key? with
  | none => (s, .error (.misuse .unsuitable))
  | some topic =>
    match key.key? with
    | some key => (s.set topic key value, .ok ())
    | none =>
      ({ sections := s.sections.put topic ((s.section? topic).getD []) },
        .error (.misuse .unsuitable))

/-- Descriptions lose the blanks at their ends. -/
def trimsDescriptions (s : Settings) : Bool :=
  (s.get (.text "post_processing") (.text "trim_descriptions") (.bool true)).isTruthy

end Settings

end ComponentAtlas
