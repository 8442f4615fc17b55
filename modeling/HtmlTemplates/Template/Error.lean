/-!
Why a template cannot be bound or rendered.
-/
namespace HtmlTemplates

/-- Why binding values to a template or rendering it fails. -/
inductive TemplateError where
  /-- The template has `expected` slots and `actual` values came. -/
  | valueCountMismatch (expected actual : Nat)
  /-- A value of this kind cannot go into markup. -/
  | unsupportedValue (kind : String)
  deriving DecidableEq, Repr, Inhabited

namespace TemplateError

/-- The name of the cause. -/
def name : TemplateError → String
  | .valueCountMismatch .. => "ValueCountMismatch"
  | .unsupportedValue _ => "UnsupportedValue"

/-- The text of the error. -/
def message : TemplateError → String
  | .valueCountMismatch e a =>
    "The template expects " ++ toString e ++ " value(s), but " ++ toString a ++
      " value(s) have been provided."
  | .unsupportedValue k => "Values of type `" ++ k ++ "` can't be interpolated into a template."

end TemplateError

end HtmlTemplates
