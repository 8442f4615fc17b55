import HtmlTemplates.Template.Binding
/-!
A store of parsed templates, keyed by their literals.

Looking up literals that are stored gives the stored template. Other literals are parsed
into a new template, which is stored while the store holds fewer templates than its limit;
nothing is ever removed. Each parse gets a serial number, so two results are the same
template exactly when their serials agree.

`html` binds values to the template of some literals. Values as many as the literals, one
or more, are read as a template that ends with a value: an empty literal is added.

A store serves calls one after another: look-ups, bindings, membership tests and its size.
-/
namespace HtmlTemplates

/-- A template as a store hands it out, with the serial of the parse that made it. -/
structure SharedTemplate where
  serial : Nat
  template : Template
  deriving Inhabited

/-- A template store. -/
structure Store where
  settings : Settings := {}
  /-- The stored templates with their literals, in the order they were stored. -/
  entries : List (List String × SharedTemplate) := []
  /-- The number of templates parsed so far. -/
  parsed : Nat := 0
  deriving Inhabited

/-- The outcome of a look-up: the template, whether it was stored already, and the store
after. -/
structure Fetched where
  shared : SharedTemplate
  hit : Bool
  store : Store

namespace Store

/-- The stored template of some literals. -/
def find? (s : Store) (literals : List String) : Option SharedTemplate :=
  (s.entries.find? (·.1 == literals)).map (·.2)

/-- Whether the literals have a stored template. -/
def contains (s : Store) (literals : List String) : Bool := (s.find? literals).isSome

/-- The number of stored templates. -/
def size (s : Store) : Nat := s.entries.length

/-- The template of some literals: the stored one, or a new parse, stored if there is room. -/
def fetch (s : Store) (literals : List String) : Except Text.SliceError Fetched :=
  match s.find? literals with
  | some shared => .ok ⟨shared, true, s⟩
  | none => do
    let t ← Template.make literals s.settings.memory
    let shared : SharedTemplate := ⟨s.parsed, t⟩
    let s := { s with parsed := s.parsed + 1 }
    let s := if s.size < s.settings.memory.maxCachedTemplates
      then { s with entries := s.entries ++ [(literals, shared)] } else s
    pure ⟨shared, false, s⟩

end Store

/-- The literals of a template for `valueCount` values: an empty literal is added when the
values are as many as the literals, one or more. -/
def withTrailingSlot (literals : List String) (valueCount : Nat) : List String :=
  if !literals.isEmpty && valueCount == literals.length then literals ++ [""] else literals

/-- What `html` gives: the look-up, and the binding or why it failed. -/
structure Instantiated where
  fetched : Fetched
  binding : Except TemplateError Binding

/-- Binds values to the template of some literals. -/
def Store.html (s : Store) (literals : List String) (values : List Value) :
    Except Text.SliceError Instantiated := do
  let f ← s.fetch (withTrailingSlot literals values.length)
  pure ⟨f, Binding.make f.shared.template values s.settings.strict⟩

/-- A call on a store. -/
inductive Store.Call where
  | getOrParse (literals : List String)
  | html (literals : List String) (values : List Value)
  | contains (literals : List String)
  | len

/-- What a call on a store answers. -/
inductive Store.Reply where
  | template (shared : SharedTemplate)
  | html (shared : SharedTemplate) (binding : Except TemplateError Binding)
  | contains (found : Bool)
  | len (n : Nat)

namespace Store

/-- Makes one call: its reply, and the store after it. -/
def call (s : Store) : Call → Except Text.SliceError (Reply × Store)
  | .getOrParse literals => do
    let f ← s.fetch literals
    pure (.template f.shared, f.store)
  | .html literals values => do
    let r ← s.html literals values
    pure (.html r.fetched.shared r.binding, r.fetched.store)
  | .contains literals => pure (.contains (s.contains literals), s)
  | .len => pure (.len s.size, s)

/-- Makes calls one after another, in one thread: each call's reply, with the store after it. -/
def run (s : Store) : List Call → Except Text.SliceError (List (Reply × Store))
  | [] => pure []
  | c :: cs => do
    let (r, s') ← s.call c
    let rest ← s'.run cs
    pure ((r, s') :: rest)

end Store

/-- Binds values to the template of some literals, strictly, as a store with default
settings does. -/
def html (literals : List String) (values : List Value) :
    Except Text.SliceError (Except TemplateError Binding) :=
  (({} : Store).html literals values).map (·.binding)

end HtmlTemplates
