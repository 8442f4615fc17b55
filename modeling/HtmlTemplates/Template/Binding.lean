import HtmlTemplates.Template.Value
/-!
Bindings: a template with the values it is rendered with.

Binding checks the values once. No value may hold an object, at any depth of lists, and a
strict binding needs exactly as many values as the template has slots. A lenient binding
renders missing values as null and ignores extra ones. Replacing the values checks them the
same way and keeps the old ones when the check fails.
-/
namespace HtmlTemplates

/-- A template and its values. -/
structure Binding where
  template : Template
  values : List Value
  strict : Bool
  deriving Inhabited

/-- Each part with its slice of the values, which must be as many as the slots. -/
def Template.partsWithValues {α : Type} (t : Template) (vs : List α) :
    Except TemplateError (List (Part × List α)) := do
  t.checkValueCount vs.length
  pure (t.partSlices vs)

namespace Binding

/-- Binds values to a template, checking them. -/
def make (t : Template) (values : List Value) (strict : Bool) : Except TemplateError Binding := do
  Value.checkAll values
  if strict then t.checkValueCount values.length
  pure ⟨t, values, strict⟩

/-- Replaces the values, checking them as `make` does. -/
def setValues (b : Binding) (values : List Value) : Except TemplateError Binding :=
  make b.template values b.strict

/-- `setValues` as a call on a binding in place: its outcome, and the binding after it, which
keeps its old values when the new ones are refused. -/
def assign (b : Binding) (values : List Value) : Except TemplateError Unit × Binding :=
  match b.setValues values with
  | .ok b' => (.ok (), b')
  | .error e => (.error e, b)

/-- Each part with its slice of the values; strict bindings check their number first. -/
def partsWithValues (b : Binding) : Except TemplateError (List (Part × List Value)) :=
  if b.strict then b.template.partsWithValues b.values else .ok (b.template.partSlices b.values)

/-- The rendered markup. -/
def compile (b : Binding) : Except TemplateError String :=
  b.template.renderWith b.strict (b.values.map Value.rendering)

/-- The binding as a markup value. -/
def toValue (b : Binding) : Value := .markup b.compile

end Binding

end HtmlTemplates
