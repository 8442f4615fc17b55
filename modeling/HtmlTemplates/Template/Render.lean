import HtmlTemplates.Template.Basic
/-!
Rendering parts with what they see of their values.

A part sees a value only through a `Rendering`: its text in content or in a name, its text in
an attribute value (none when the attribute drops it), and whether it is *omitted*, null or
false. A missing value is seen as null. Each part takes its own slice of the values, in
order: as many as it has slots, fewer when the values run out.

A tag without slots is written as its source text. Otherwise it is rebuilt: `<` or `</`,
the name, each attribute unless skipped, the trailing blanks, `/` and `>` as the source had
them. An attribute is skipped when its whole name or its whole value is one slot and the
value there is omitted.
-/
namespace HtmlTemplates

/-- What a template sees of a value. -/
structure Rendering where
  /-- The text in content, a tag name or an attribute name. -/
  node : Except TemplateError String
  /-- The text in an attribute value; none leaves the value out. -/
  attrValue : Except TemplateError (Option String)
  /-- Whether an attribute that is this value alone is dropped. -/
  omitted : Bool

/-- What a missing value renders as. -/
def Rendering.null : Rendering := ⟨.ok "", .ok none, true⟩

/-- The value at a slot, null when the values have run out. -/
def slotValue (vs : List Rendering) : Rendering := vs.headD .null

/-- Splits values among consumers that take `counts` values each, in order; a consumer gets
fewer when the values run out. -/
def splitAmong {α : Type} : List Nat → List α → List (List α)
  | [], _ => []
  | n :: ns, vs => vs.take n :: splitAmong ns (vs.drop n)

/-- Name fragments with their slots filled by node texts. -/
def fillName : List Fragment → List Rendering → Except TemplateError String
  | [], _ => .ok ""
  | .text s :: fs, vs => (fillName fs vs).map (s ++ ·)
  | .slot :: fs, vs => do
    let t ← (slotValue vs).node
    let r ← fillName fs vs.tail
    pure (t ++ r)

/-- Value fragments with their slots filled by attribute texts. -/
def fillValue : List Fragment → List Rendering → Except TemplateError String
  | [], _ => .ok ""
  | .text s :: fs, vs => (fillValue fs vs).map (s ++ ·)
  | .slot :: fs, vs => do
    let t ← (slotValue vs).attrValue
    let r ← fillValue fs vs.tail
    pure (t.getD "" ++ r)

/-- Whether a value, if present, is omitted; a missing one counts as omitted. -/
def omittedAt (v : Option Rendering) : Bool := v.all (·.omitted)

namespace Attribute

/-- Whether the attribute is dropped: its whole name or its whole value is one slot, and the
value there is omitted or missing. -/
def isSkipped (a : Attribute) (vs : List Rendering) : Bool :=
  (a.name == [.slot] && omittedAt vs.head?) || (a.value == [.slot] && omittedAt vs[a.nameSlots]?)

/-- The name with its slots filled. -/
def resolveName (a : Attribute) (vs : List Rendering) : Except TemplateError String :=
  fillName a.name vs

/-- The value with its slots filled, without quotes. -/
def resolveValue (a : Attribute) (vs : List Rendering) : Except TemplateError String :=
  fillValue a.value (vs.drop a.nameSlots)

/-- The attribute as written, with its slots filled. -/
def renderAll (a : Attribute) (vs : List Rendering) : Except TemplateError String := do
  let name ← a.resolveName vs
  let value ← a.resolveValue vs
  pure (a.beforeName ++ name ++ a.afterName ++ a.beforeValue ++ value ++ a.quote.text)

/-- The attribute as written, or nothing if it is skipped. -/
def render (a : Attribute) (vs : List Rendering) : Except TemplateError String :=
  if a.isSkipped vs then .ok "" else a.renderAll vs

end Attribute

namespace TagPart

/-- Each attribute with its slice of the tag's values, which start after those of the name. -/
def attributeSlices {α : Type} (t : TagPart) (vs : List α) : List (Attribute × List α) :=
  let counts := t.attributes.map Attribute.slots
  t.attributes.zip (splitAmong counts (vs.drop (Fragment.countSlots t.name)))

/-- The name with its slots filled. -/
def resolveTagName (t : TagPart) (vs : List Rendering) : Except TemplateError String :=
  fillName t.name vs

/-- The names and values of the attributes that are not skipped, names with ASCII letters
lowered; of two attributes with one name the first counts. -/
def attributeValues (t : TagPart) (vs : List Rendering) :
    Except TemplateError (List (String × String)) :=
  (t.attributeSlices vs).foldlM collect []
where
  collect (acc : List (String × String)) (entry : Attribute × List Rendering) :
      Except TemplateError (List (String × String)) := do
    let (a, avs) := entry
    if a.isSkipped avs then return acc
    let name := asciiLower (← a.resolveName avs)
    if acc.any (·.1 == name) then return acc
    let value ← a.resolveValue avs
    return acc ++ [(name, value)]

/-- The tag with its slots filled: the source text if it has none. -/
def render (t : TagPart) (vs : List Rendering) : Except TemplateError String :=
  if t.slots = 0 then .ok t.raw
  else do
    let name ← fillName t.name vs
    let attrs ← (t.attributeSlices vs).mapM fun (a, avs) => a.render avs
    pure ((if t.endTag then "</" else "<") ++ name ++ String.join attrs ++ t.trailing ++
      (if t.selfClosing then "/" else "") ++ (if t.closed then ">" else ""))

end TagPart

/-- The strings of content with the node texts of the values between them. -/
def renderContent : List String → List Rendering → Except TemplateError String
  | [], _ => .ok ""
  | [s], _ => .ok s
  | s :: rest@(_ :: _), vs => do
    let t ← (slotValue vs).node
    let r ← renderContent rest vs.tail
    pure (s ++ t ++ r)

/-- A part with its own slice of values. -/
def Part.render : Part → List Rendering → Except TemplateError String
  | .content c, vs => renderContent c.strings vs
  | .tag t, vs => t.render vs

namespace Template

/-- Each part with its slice of the values. -/
def partSlices {α : Type} (t : Template) (vs : List α) : List (Part × List α) :=
  t.parts.zip (splitAmong (t.parts.map Part.slots) vs)

/-- The template rendered with values; strict rendering first checks their number. -/
def renderWith (t : Template) (strict : Bool) (vs : List Rendering) :
    Except TemplateError String := do
  if strict then t.checkValueCount vs.length
  let texts ← (t.partSlices vs).mapM fun (p, pvs) => p.render pvs
  pure (String.join texts)

end Template

end HtmlTemplates
