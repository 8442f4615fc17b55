import HtmlTemplates.Template.Render
import HtmlTemplates.Text.Escape
import HtmlTemplates.Json.Basic
import HtmlTemplates.Number.Read
/-!
Values that fill the slots of a template.

Text is escaped wherever it goes. Numbers are written as numbers, null as nothing, and a
boolean as `true` or `false`. The items of a list follow one another in content and are
joined by commas in an attribute value. Markup is inserted as it is; a markup value is known
by what rendering it gives, which may be an error. An object cannot go into markup at all.
In an attribute value, null and false leave the value out, and an attribute that is such a
value alone is dropped.
-/
namespace HtmlTemplates

open HtmlTemplates.Number HtmlTemplates.Text

/-- A value for a slot. -/
inductive Value where
  | null
  | bool (b : Bool)
  | int (n : Int64)
  | float (x : Float)
  | str (s : String)
  | list (items : List Value)
  /-- Markup inserted without escaping, known by its rendering. -/
  | markup (html : Except TemplateError String)
  /-- A JSON object; it cannot be rendered. -/
  | object (fields : List (String × Json))
  deriving Inhabited

/-- How markup writes a double: as the number a script would print, positionally for
exponents from -6 to 20, without `.0`, with `e+` before a non-negative exponent, zero
without sign, and `Infinity` and `NaN` as words. -/
def Notation.content : Notation :=
  ⟨-6, 21, false, true, .up, false, "NaN", "Infinity"⟩

namespace Value

/-- The name of the kind of a value. -/
def kind : Value → String
  | .null => "null"
  | .bool _ => "bool"
  | .int _ => "int"
  | .float _ => "float"
  | .str _ => "string"
  | .list _ => "list"
  | .markup _ => "markup"
  | .object _ => "object"

/-- Null and false, the values that drop an attribute. -/
def isOmitted : Value → Bool
  | .null | .bool false => true
  | _ => false

mutual
/-- The text of a value in content or in a name. -/
def nodeText : Value → Except TemplateError String
  | .null => .ok ""
  | .bool b => .ok (if b then "true" else "false")
  | .int n => .ok (toString n.toInt)
  | .float x => .ok (Notation.content.format x)
  | .str s => .ok (escapeHtml s)
  | .list items => nodeTexts items
  | .markup html => html
  | .object _ => .error (.unsupportedValue "object")

/-- The texts of values, one after another. -/
def nodeTexts : List Value → Except TemplateError String
  | [] => .ok ""
  | v :: vs => do
    let a ← nodeText v
    let b ← nodeTexts vs
    pure (a ++ b)
end

/-- The text of a value in an attribute value; none for null and false. -/
def attrValueText : Value → Except TemplateError (Option String)
  | .null | .bool false => .ok none
  | .str s => .ok (some (escapeHtml s))
  | .list items => do
    let texts ← items.mapM nodeText
    pure (some (",".intercalate texts))
  | v => v.nodeText.map some

/-- What a template sees of a value. -/
def rendering (v : Value) : Rendering := ⟨v.nodeText, v.attrValueText, v.isOmitted⟩

mutual
/-- Refuses a value that holds an object at any depth of lists. -/
def check : Value → Except TemplateError Unit
  | .list items => checkAll items
  | .object _ => .error (.unsupportedValue "object")
  | _ => .ok ()

/-- Refuses values of which one holds an object at any depth of lists. -/
def checkAll : List Value → Except TemplateError Unit
  | [] => .ok ()
  | v :: vs => do
    check v
    checkAll vs
end

/-- A value from an integer of any width: an integer if it fits in 64 signed bits, else the
nearest double. -/
def ofWideInt (n : Int) : Value :=
  if -Int.ofNat (Nat.pow 2 63) ≤ n ∧ n < Int.ofNat (Nat.pow 2 63) then .int (Int64.ofInt n)
  else .float (withSign (n < 0) (nearestDouble n.natAbs 0))

mutual
/-- A value from a JSON value: an integer if it fits in 64 signed bits, any other number as
a double, an array as a list. -/
def ofJson : Json → Value
  | .null => .null
  | .bool b => .bool b
  | .number (.posInt n) => ofWideInt n
  | .number (.negInt n) => ofWideInt n
  | .number (.float x) => .float x
  | .string s => .str s
  | .array items => .list (ofJsonList items)
  | .object fields => .object fields

/-- Values from JSON values. -/
def ofJsonList : List Json → List Value
  | [] => []
  | j :: js => ofJson j :: ofJsonList js
end

end Value

/-- The template rendered with values, which must be as many as its slots. -/
def Template.compile (t : Template) (vs : List Value) : Except TemplateError String :=
  t.renderWith true (vs.map Value.rendering)

end HtmlTemplates
