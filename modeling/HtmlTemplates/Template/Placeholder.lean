import HtmlTemplates.Template.Binding
/-!
Templates written as one string with `{}` placeholders.

`splitPlaceholders` cuts the string into literals at each `{}`. A doubled brace, `{{` or
`}}`, stands for one brace, and any other brace is kept as it is. A skeleton is such a
string, parsed into its template once and bound strictly.
-/
namespace HtmlTemplates

/-- The literals after the current one `cur`, last character first, and the characters
left. -/
def splitFrom (cur : List Char) : List Char → List String
  | [] => [String.ofList cur.reverse]
  | '\x7b' :: '\x7d' :: rest => String.ofList cur.reverse :: splitFrom [] rest
  | '\x7b' :: '\x7b' :: rest => splitFrom ('\x7b' :: cur) rest
  | '\x7d' :: '\x7d' :: rest => splitFrom ('\x7d' :: cur) rest
  | c :: rest => splitFrom (c :: cur) rest

/-- The literals of a string with `{}` placeholders. -/
def splitPlaceholders (s : String) : List String := splitFrom [] s.toList

/-- A template source with `{}` placeholders. -/
structure Skeleton where
  source : String
  deriving DecidableEq, Repr

namespace Skeleton

/-- The literals of the skeleton. -/
def literals (sk : Skeleton) : List String := splitPlaceholders sk.source

/-- The template of the skeleton. -/
def template (sk : Skeleton) : Except Text.SliceError Template := Template.make sk.literals

/-- Binds values to the template, strictly. -/
def bind (t : Template) (values : List Value) : Except TemplateError Binding :=
  Binding.make t values true

end Skeleton

end HtmlTemplates
