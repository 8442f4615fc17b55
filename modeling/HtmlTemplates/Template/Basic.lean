import HtmlTemplates.Template.Parse
import HtmlTemplates.Template.Error
import HtmlTemplates.Settings
/-!
Templates: literals parsed once into parts.

`n` literals leave room for `n - 1` values, one between each two, and each lands in the
part where its literal ended. A template is made once from its literals and serves every
rendering after.
-/
namespace HtmlTemplates

/-- A parsed template. -/
structure Template where
  literals : List String
  parts : List Part
  /-- The number of values the template takes. -/
  valueCount : Nat
  /-- The capacity an output buffer starts with. -/
  outputSizeHint : Nat
  isParsed : Bool
  deriving DecidableEq, Repr, Inhabited

namespace Template

/-- The template of `literals`. Scanning fails only where a token ends inside a character. -/
def make (literals : List String) (settings : MemorySettings := {}) :
    Except Text.SliceError Template := do
  let parts ← parseLiterals literals
  pure {
    literals
    parts
    valueCount := (parts.map Part.slots).foldr (· + ·) 0
    outputSizeHint :=
      Nat.max ((literals.map String.utf8ByteSize).foldr (· + ·) 0) settings.preallocatedOutputSize
    isParsed := true }

/-- Whether the template was made from no literals at all. -/
def isEmpty (t : Template) : Bool := t.literals.isEmpty

/-- Accepts `actual` values when the template takes exactly that many. -/
def checkValueCount (t : Template) (actual : Nat) : Except TemplateError Unit :=
  if actual = t.valueCount then .ok () else .error (.valueCountMismatch t.valueCount actual)

end Template

end HtmlTemplates
