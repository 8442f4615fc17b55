import HtmlTemplates.Debug.Shape
import HtmlTemplates.Template.Store
import HtmlTemplates.Markup.Scanner
/-!
Diagnostic texts of the values of this library.

Strings are shown quoted, numbers in decimal, doubles with the fewest digits that read back
and always with a point or an exponent, and each structure under the name and field names
its diagnostics have always used.
-/
namespace HtmlTemplates.Debug

open HtmlTemplates.Text HtmlTemplates.Number HtmlTemplates.Markup

/-- How diagnostics write a double: positionally for exponents from -4 to 15, an integral
value with `.0`, negative zero with its sign, and `inf` and `NaN`. -/
def Notation.debug : Notation :=
  ⟨-4, 16, true, false, .up, true, "NaN", "inf"⟩

/-- A quoted string. -/
def str (s : String) : Shape := .atom (quoteString s)

/-- A number. -/
def nat (n : Nat) : Shape := .atom (toString n)

/-- A truth value. -/
def bool (b : Bool) : Shape := .atom (if b then "true" else "false")

/-- A list of strings. -/
def strs (ss : List String) : Shape := .list (ss.map str)

mutual
/-- The shape of a JSON value. -/
def jsonShape : Json → Shape
  | .null => .atom "Null"
  | .bool b => .atom ("Bool(" ++ (if b then "true" else "false") ++ ")")
  | .number n => .atom ("Number(" ++ n.render ++ ")")
  | .string s => .atom ("String(" ++ quoteString s ++ ")")
  | .array items => .prefixed "Array " (.list (jsonShapes items))
  | .object fields => .prefixed "Object " (.map (jsonFieldShapes fields))

/-- The shapes of JSON values. -/
def jsonShapes : List Json → List Shape
  | [] => []
  | j :: js => jsonShape j :: jsonShapes js

/-- The shapes of the entries of a JSON object. -/
def jsonFieldShapes : List (String × Json) → List (Shape × Shape)
  | [] => []
  | (k, v) :: rest => (str k, jsonShape v) :: jsonFieldShapes rest
end

mutual
/-- The shape of a value. -/
def valueShape : Value → Shape
  | .null => .atom "Null"
  | .bool b => .tuple "Bool" [bool b]
  | .int n => .tuple "Int" [.atom (toString n.toInt)]
  | .float x => .tuple "Float" [.atom (Notation.debug.format x)]
  | .str s => .tuple "Str" [str s]
  | .list items => .tuple "List" [.list (valueShapes items)]
  | .markup _ => .atom "Markup(..)"
  | .object fields => .tuple "Object" [.map (jsonFieldShapes fields)]

/-- The shapes of values. -/
def valueShapes : List Value → List Shape
  | [] => []
  | v :: vs => valueShape v :: valueShapes vs
end

/-- The shape of a fragment. -/
def fragmentShape : Fragment → Shape
  | .text s => .tuple "Static" [str s]
  | .slot => .atom "External"

/-- The shape of an attribute. -/
def attributeShape (a : Attribute) : Shape :=
  .record "Attribute" [
    ("before_name", str a.beforeName),
    ("name", .list (a.name.map fragmentShape)),
    ("after_name", str a.afterName),
    ("before_value", str a.beforeValue),
    ("value", .list (a.value.map fragmentShape)),
    ("quote", .atom a.quote.name)]

/-- The shape of a part. -/
def partShape : Part → Shape
  | .content c => .tuple "Content" [.record "ContentPart" [("strings", strs c.strings)]]
  | .tag t => .tuple "Tag" [.record "TagPart" [
      ("raw", str t.raw),
      ("name", .list (t.name.map fragmentShape)),
      ("attributes", .list (t.attributes.map attributeShape)),
      ("trailing", str t.trailing),
      ("self_closing", bool t.selfClosing),
      ("end_tag", bool t.endTag),
      ("closed", bool t.closed)]]

/-- The shape of a template. -/
def templateShape (t : Template) : Shape :=
  .record "Template" [
    ("literals", strs t.literals),
    ("parts", .list (t.parts.map partShape)),
    ("value_count", nat t.valueCount),
    ("output_size_hint", nat t.outputSizeHint),
    ("is_parsed", bool t.isParsed)]

/-- The shape of a binding. -/
def bindingShape (b : Binding) : Shape :=
  .record "TemplateCompiler" [
    ("template", templateShape b.template),
    ("values", .list (valueShapes b.values)),
    ("strict", bool b.strict)]

/-- The shape of an error. -/
def errorShape : TemplateError → Shape
  | .valueCountMismatch e a => .record "ValueCountMismatch" [("expected", nat e), ("actual", nat a)]
  | .unsupportedValue k => .tuple "UnsupportedValue" [str k]

/-- The shape of store settings. -/
def settingsShape (s : Settings) : Shape :=
  .record "Settings" [
    ("memory_settings", .record "MemorySettings" [
      ("preallocated_output_size", nat s.memory.preallocatedOutputSize),
      ("max_cached_templates", nat s.memory.maxCachedTemplates)]),
    ("strict", bool s.strict)]

/-- The shape of a scanner. -/
def scannerShape (s : Scanner) : Shape :=
  .record "HtmlTokenizer"
    [("state", .atom s.state.name), ("pos", nat s.pos), ("source", str s.source)]

end HtmlTemplates.Debug
