/-!
The states of the markup scanner.

The scanner reads a template literal as HTML: text, then tags with a name, attributes and
optionally quoted values. Each token it emits is tagged with the state that read it, and a
literal that runs out inside a tag leaves the scanner in a state from which the next literal
goes on. Two states are not places in the markup: `atEnd`, once the input is exhausted, and
`illegal`, the empty token after a `<` that starts no tag.
-/
namespace HtmlTemplates.Markup

/-- Where the scanner stands in the markup. -/
inductive LexState where
  /-- Text between tags. -/
  | content
  /-- The `<` or `</` that opens a tag. -/
  | tagOpen
  | tagName
  /-- Blanks before an attribute name. -/
  | beforeAttributeName
  | attributeName
  /-- The `=` after an attribute name, with the blanks around it. -/
  | afterAttributeName
  /-- Blanks before a value, with its opening quote. -/
  | beforeAttributeValue
  | attributeValueDoubleQuoted
  | attributeValueSingleQuoted
  | attributeValueUnquoted
  /-- The closing quote of a value. -/
  | afterAttributeValueQuoted
  /-- The `/` of a tag such as `<br/>`. -/
  | selfClosingStartTag
  /-- The `>` that ends a tag. -/
  | tagClose
  /-- The input is exhausted. -/
  | atEnd
  /-- A `<` that starts no tag. -/
  | illegal
  deriving DecidableEq, Repr, Inhabited

namespace LexState

/-- Every state, in the order of the constructors. -/
def all : List LexState :=
  [content, tagOpen, tagName, beforeAttributeName, attributeName, afterAttributeName,
    beforeAttributeValue, attributeValueDoubleQuoted, attributeValueSingleQuoted,
    attributeValueUnquoted, afterAttributeValueQuoted, selfClosingStartTag, tagClose, atEnd,
    illegal]

/-- The name under which a state is shown and chosen. -/
def name : LexState → String
  | content => "Content"
  | tagOpen => "TagOpen"
  | tagName => "TagName"
  | beforeAttributeName => "BeforeAttributeName"
  | attributeName => "AttributeName"
  | afterAttributeName => "AfterAttributeName"
  | beforeAttributeValue => "BeforeAttributeValue"
  | attributeValueDoubleQuoted => "AttributeValueDoubleQuoted"
  | attributeValueSingleQuoted => "AttributeValueSingleQuoted"
  | attributeValueUnquoted => "AttributeValueUnquoted"
  | afterAttributeValueQuoted => "AfterAttributeValueQuoted"
  | selfClosingStartTag => "SelfClosingStartTag"
  | tagClose => "TagClose"
  | atEnd => "End"
  | illegal => "Illegal"

/-- The state of a name, matched exactly. -/
def ofName? (s : String) : Option LexState :=
  all.find? (·.name == s)

/-- The three states that read an attribute value. -/
def isAttributeValue : LexState → Bool
  | attributeValueDoubleQuoted | attributeValueSingleQuoted | attributeValueUnquoted => true
  | _ => false

/-- The two states that read towards or inside an attribute name. -/
def isAttributeName : LexState → Bool
  | beforeAttributeName | attributeName => true
  | _ => false

/-- The state a scanner starts in. -/
def isDefault (q : LexState) : Bool := q == content

theorem ofName?_name (q : LexState) : ofName? q.name = some q := by
  cases q <;> rfl

end LexState

/-- A state name that names no state. -/
structure UnknownState where
  name : String
  deriving Repr, DecidableEq

/-- The text of the refusal of an unknown state name. -/
def UnknownState.message (e : UnknownState) : String :=
  "Unknown tokenizer state: " ++ e.name

/-- The state of a name, or the refusal of it. -/
def LexState.parse (s : String) : Except UnknownState LexState :=
  match LexState.ofName? s with
  | some q => .ok q
  | none => .error ⟨s⟩

end HtmlTemplates.Markup
