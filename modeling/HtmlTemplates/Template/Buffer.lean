import HtmlTemplates.Template.Binding
/-!
Output buffers.

Rendering into a fresh text first asks for a buffer with room for the template's size hint.
Buffer sizes are signed 64-bit numbers, so a hint past `maxBufferSize` cannot be met: the
request fails with a capacity overflow before any value is looked at. That failure is no error
of the template; it stops the program. A hint within the bound only sets how much room the
buffer starts with, so it never changes what is rendered.
-/
namespace HtmlTemplates

/-- The largest buffer that can be asked for: the largest signed 64-bit number. -/
def maxBufferSize : Nat := 9223372036854775807

/-- A buffer request that cannot be met. -/
structure CapacityOverflow where
  /-- The number of bytes asked for. -/
  requested : Nat
  deriving DecidableEq, Repr

/-- The text a failed buffer request stops the program with. -/
def CapacityOverflow.message (_ : CapacityOverflow) : String := "capacity overflow"

/-- Asks for a buffer of `n` bytes. -/
def reserveBuffer (n : Nat) : Except CapacityOverflow Unit :=
  if n ≤ maxBufferSize then .ok () else .error ⟨n⟩

/-- The template rendered with values into a fresh buffer: the buffer is asked for first,
then the values are counted and rendered as `Template.compile` does. -/
def Template.compileFresh (t : Template) (vs : List Value) :
    Except CapacityOverflow (Except TemplateError String) := do
  reserveBuffer t.outputSizeHint
  pure (t.compile vs)

/-- The binding rendered into a fresh buffer: the buffer is asked for first, then the binding
renders as `Binding.compile` does. -/
def Binding.compileFresh (b : Binding) :
    Except CapacityOverflow (Except TemplateError String) := do
  reserveBuffer b.template.outputSizeHint
  pure b.compile

theorem compileFresh_of_le {t : Template} (h : t.outputSizeHint ≤ maxBufferSize)
    (vs : List Value) : t.compileFresh vs = .ok (t.compile vs) := by
  unfold Template.compileFresh reserveBuffer
  rw [if_pos h]
  rfl

theorem compileFresh_of_lt {t : Template} (h : maxBufferSize < t.outputSizeHint)
    (vs : List Value) : t.compileFresh vs = .error ⟨t.outputSizeHint⟩ := by
  unfold Template.compileFresh reserveBuffer
  rw [if_neg (Nat.not_le.2 h)]
  rfl

end HtmlTemplates
