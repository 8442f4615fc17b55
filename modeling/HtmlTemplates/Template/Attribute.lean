import HtmlTemplates.Template.Fragment
/-!
Attributes of a tag, with the formatting they were written with.

An attribute is written as the blanks before its name, the name, the `=` with the blanks
around it, the blanks and the opening quote before the value, the value, and the closing
quote. Name and value are fragments, so values can fill them. An attribute is *blank*
while it holds only blanks: no name, no `=` and no value.
-/
namespace HtmlTemplates

/-- The quotes around an attribute value. -/
inductive Quote where
  | unquoted
  | double
  | single
  deriving DecidableEq, Repr, Inhabited

/-- The closing quote as written. -/
def Quote.text : Quote → String
  | .unquoted => ""
  | .double => "\""
  | .single => "'"

/-- The name of a kind of quote. -/
def Quote.name : Quote → String
  | .unquoted => "None"
  | .double => "Double"
  | .single => "Single"

/-- An attribute of a tag. -/
structure Attribute where
  beforeName : String := ""
  name : List Fragment := []
  /-- The `=` with the blanks before it. -/
  afterName : String := ""
  /-- The blanks after `=` and the opening quote. -/
  beforeValue : String := ""
  value : List Fragment := []
  quote : Quote := .unquoted
  deriving DecidableEq, Repr, Inhabited

namespace Attribute

/-- Whether the attribute has a `=`. -/
def hasValue (a : Attribute) : Bool := !a.afterName.isEmpty

/-- The name with ASCII letters lowered, unless a value fills part of it. -/
def staticName (a : Attribute) : Option String := (Fragment.staticText a.name).map asciiLower

/-- The number of values the name takes. -/
def nameSlots (a : Attribute) : Nat := Fragment.countSlots a.name

/-- The number of values the attribute takes. -/
def slots (a : Attribute) : Nat := a.nameSlots + Fragment.countSlots a.value

/-- An attribute that holds only the blanks before its name. -/
def isBlank (a : Attribute) : Bool := a.name.isEmpty && a.afterName.isEmpty && a.value.isEmpty

/-- The name ends with a slot and nothing followed it, so text that resumes right after the
slot goes on with the same name. -/
def endsWithNameSlot (a : Attribute) : Bool :=
  a.name.getLast? == some .slot && a.afterName.isEmpty && a.value.isEmpty

def pushBeforeName (a : Attribute) (s : String) : Attribute :=
  { a with beforeName := a.beforeName ++ s }

def pushName (a : Attribute) (s : String) : Attribute :=
  { a with name := Fragment.pushText a.name s }

def addNameSlot (a : Attribute) : Attribute := { a with name := a.name ++ [.slot] }

def pushAfterName (a : Attribute) (s : String) : Attribute :=
  { a with afterName := a.afterName ++ s }

/-- Adds text before the value; a quote at its end is the opening quote. -/
def pushBeforeValue (a : Attribute) (s : String) : Attribute :=
  let quote := match s.toList.getLast? with
    | some '"' => .double
    | some '\'' => .single
    | _ => a.quote
  { a with beforeValue := a.beforeValue ++ s, quote }

def setQuote (a : Attribute) (q : Quote) : Attribute := { a with quote := q }

def pushValue (a : Attribute) (s : String) : Attribute :=
  { a with value := Fragment.pushText a.value s }

def addValueSlot (a : Attribute) : Attribute := { a with value := a.value ++ [.slot] }

end Attribute

end HtmlTemplates
