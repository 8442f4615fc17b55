import HtmlTemplates.Template.Attribute
/-!
Parts of a template: runs of content and tags.

A content part holds one string more than the values it takes; the values go between the
strings. A tag part keeps its source text, its name and attributes as fragments, the blanks
before its end, and whether it is self-closing, an end tag and closed by `>`. The building
operations here are those the parser applies as tokens arrive.
-/
namespace HtmlTemplates

/-- Text between tags, with places for values between its strings. -/
structure ContentPart where
  strings : List String := [""]
  deriving DecidableEq, Repr, Inhabited

namespace ContentPart

/-- The number of values the part takes. -/
def slots (c : ContentPart) : Nat := c.strings.length - 1

/-- Appends text to the last string. -/
def pushText (c : ContentPart) (s : String) : ContentPart :=
  match c.strings.getLast? with
  | some last => { strings := c.strings.dropLast ++ [last ++ s] }
  | none => c

/-- Starts a new string after a place for a value. -/
def addSlot (c : ContentPart) : ContentPart := { strings := c.strings ++ [""] }

/-- A part with no text and no place for a value. -/
def isBlank (c : ContentPart) : Bool := c.strings == [""]

end ContentPart

/-- A start or end tag. -/
structure TagPart where
  /-- The source text of the tag. -/
  raw : String := ""
  name : List Fragment := []
  attributes : List Attribute := []
  /-- Blanks between the last attribute and the end of the tag. -/
  trailing : String := ""
  selfClosing : Bool := false
  endTag : Bool := false
  closed : Bool := false
  deriving DecidableEq, Repr, Inhabited

namespace TagPart

/-- A tag opened by `<` or `</`. -/
def opened (tagOpen : String) : TagPart := { raw := tagOpen, endTag := tagOpen == "</" }

/-- The name with ASCII letters lowered, unless a value fills part of it. -/
def tagName (t : TagPart) : Option String := (Fragment.staticText t.name).map asciiLower

/-- The number of values the tag takes. -/
def slots (t : TagPart) : Nat :=
  Fragment.countSlots t.name + (t.attributes.map Attribute.slots).foldr (· + ·) 0

def pushRaw (t : TagPart) (s : String) : TagPart := { t with raw := t.raw ++ s }

def pushName (t : TagPart) (s : String) : TagPart := { t with name := Fragment.pushText t.name s }

def addNameSlot (t : TagPart) : TagPart := { t with name := t.name ++ [.slot] }

def setSelfClosing (t : TagPart) (b : Bool) : TagPart := { t with selfClosing := b }

/-- Changes the last attribute, making a blank one first if there is none. -/
def updateCurrent (t : TagPart) (f : Attribute → Attribute) : TagPart :=
  match t.attributes.getLast? with
  | some a => { t with attributes := t.attributes.dropLast ++ [f a] }
  | none => { t with attributes := [f {}] }

/-- Blanks that may start an attribute. Empty text right after a name slot is where a literal
resumed, and goes on with the same name. Otherwise the blanks join a blank last attribute or
start a new one, after a `/` that did not close the tag. -/
def startAttribute (t : TagPart) (beforeName : String) : TagPart :=
  let slash := if t.selfClosing then "/" else ""
  match t.attributes.getLast? with
  | some a =>
    if beforeName.isEmpty && !t.selfClosing && a.endsWithNameSlot then t
    else if a.isBlank then
      { t with
        attributes := t.attributes.dropLast ++ [(a.pushBeforeName slash).pushBeforeName beforeName]
        selfClosing := false }
    else
      { t with attributes := t.attributes ++ [{ beforeName := slash ++ beforeName }],
               selfClosing := false }
  | none =>
    { t with attributes := [{ beforeName := slash ++ beforeName }], selfClosing := false }

/-- Drops a blank last attribute; its blanks become the trailing blanks of the tag. -/
def finish (t : TagPart) : TagPart :=
  match t.attributes.getLast? with
  | some a =>
    if a.isBlank then { t with trailing := a.beforeName, attributes := t.attributes.dropLast }
    else t
  | none => t

/-- Ends the tag with `>`. -/
def close (t : TagPart) (s : String) : TagPart :=
  ({ t.pushRaw s with closed := true }).finish

end TagPart

/-- A part of a template. -/
inductive Part where
  | content (c : ContentPart)
  | tag (t : TagPart)
  deriving DecidableEq, Repr, Inhabited

/-- The number of values a part takes. -/
def Part.slots : Part → Nat
  | .content c => c.slots
  | .tag t => t.slots

/-- Whether a part is content. -/
def Part.isContent : Part → Bool
  | .content _ => true
  | .tag _ => false

end HtmlTemplates
