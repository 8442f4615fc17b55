import HtmlTemplates.Template.Part
import HtmlTemplates.Markup.Lexing
/-!
Building the parts of a template from the events of its literals.

The builder keeps the finished parts and the part being built, content or a tag. Content
tokens extend the content, `<` starts a tag and `>` ends it, and the other tokens extend the
tag: its name, its attributes and their values. A `<` that starts no tag is folded back into
the content before it. A slot goes where the live state stood: into the tag name, an
attribute name, an attribute value, or between two strings of the content. Empty content is
never kept as a part.
-/
namespace HtmlTemplates

open HtmlTemplates.Markup

namespace Template

/-- The part being built. -/
inductive Pending where
  | idle
  | content (c : ContentPart)
  | tag (t : TagPart)
  deriving DecidableEq, Repr, Inhabited

/-- The parts built so far and the part being built. -/
structure Builder where
  parts : Array Part := #[]
  pending : Pending := .idle
  deriving Repr, Inhabited

/-- What a trace of the builder shows. -/
inductive ParseNote where
  /-- A `<` and what followed it went back into the content. -/
  | folded (raw : String)
  /-- A slot arrived when `parts` parts were finished. -/
  | slot (parts : Nat) (live : LexState)
  deriving DecidableEq, Repr

namespace Builder

/-- Keeps a content part unless it is blank. -/
def keepContent (parts : Array Part) (c : ContentPart) : Array Part :=
  if c.isBlank then parts else parts.push (.content c)

/-- Works on the content: a pending tag is finished first, and blank content is started if
there is none. -/
def onContent (b : Builder) (f : ContentPart → ContentPart) : Builder :=
  match b.pending with
  | .content c => { b with pending := .content (f c) }
  | .tag t => { parts := b.parts.push (.tag t), pending := .content (f {}) }
  | .idle => { b with pending := .content (f {}) }

/-- Works on the tag: pending content is finished first, and an empty tag is started if there
is none. -/
def onTag (b : Builder) (f : TagPart → TagPart) : Builder :=
  match b.pending with
  | .tag t => { b with pending := .tag (f t) }
  | .content c => { parts := keepContent b.parts c, pending := .tag (f {}) }
  | .idle => { b with pending := .tag (f {}) }

/-- Finishes the pending part. -/
def flush (b : Builder) : Builder :=
  match b.pending with
  | .content c => { parts := keepContent b.parts c, pending := .idle }
  | .tag t => { parts := b.parts.push (.tag t), pending := .idle }
  | .idle => b

/-- The pending tag was no tag: its text goes back into the content, which is the last
finished part if that is content. -/
def fold (b : Builder) : Builder × List ParseNote :=
  let (raw, b) : String × Builder := match b.pending with
    | .tag t => (t.raw, { b with pending := .idle })
    | _ => ("", b)
  let b : Builder := match b.pending, b.parts.back? with
    | .idle, some (.content c) => { parts := b.parts.pop, pending := .content c }
    | _, _ => b
  (b.onContent (·.pushText raw), [.folded raw])

/-- A token of the tag: its text joins the source of the tag and the part the state reads. -/
def tagToken (q : LexState) (text : String) (t : TagPart) : TagPart :=
  let t := t.pushRaw text
  match q with
  | .tagName => t.pushName text
  | .beforeAttributeName => t.startAttribute text
  | .attributeName => t.updateCurrent (·.pushName text)
  | .afterAttributeName => t.updateCurrent (·.pushAfterName text)
  | .beforeAttributeValue => t.updateCurrent (·.pushBeforeValue text)
  | .attributeValueDoubleQuoted => t.updateCurrent fun a => (a.setQuote .double).pushValue text
  | .attributeValueSingleQuoted => t.updateCurrent fun a => (a.setQuote .single).pushValue text
  | .attributeValueUnquoted => t.updateCurrent (·.pushValue text)
  | .selfClosingStartTag => t.setSelfClosing true
  | _ => t

/-- Takes one token. -/
def token (b : Builder) (q : LexState) (text : String) : Builder × List ParseNote :=
  match q with
  | .content => (b.onContent (·.pushText text), [])
  | .tagOpen => ({ b.flush with pending := .tag (TagPart.opened text) }, [])
  | .illegal => b.fold
  | .tagClose => ({ (b.onTag (·.close text)).flush with pending := .content {} }, [])
  | .atEnd => (b, [])
  | _ => (b.onTag (tagToken q text), [])

/-- Takes a slot whose literal ran out in state `live`. -/
def slot (b : Builder) (live : LexState) : Builder × List ParseNote :=
  let note := [ParseNote.slot b.parts.size live]
  match live with
  | .tagOpen | .tagName => (b.onTag (·.addNameSlot), note)
  | .beforeAttributeName | .attributeName | .afterAttributeValueQuoted
  | .selfClosingStartTag => (b.onTag (·.updateCurrent (·.addNameSlot)), note)
  | .afterAttributeName | .beforeAttributeValue | .attributeValueDoubleQuoted
  | .attributeValueSingleQuoted | .attributeValueUnquoted =>
    (b.onTag (·.updateCurrent (·.addValueSlot)), note)
  | .content | .tagClose | .illegal | .atEnd => (b.onContent (·.addSlot), note)

/-- Takes one event. -/
def feed (b : Builder) : LexEvent → Builder × List ParseNote
  | .token _ q text => b.token q text
  | .slot _ live => b.slot live

/-- The finished parts, once all events are in: a pending tag drops a blank last
attribute. -/
def finish (b : Builder) : List Part :=
  let b : Builder := match b.pending with
    | .tag t => { b with pending := .tag t.finish }
    | _ => b
  b.flush.parts.toList

end Builder

/-- The parts built from a sequence of events. -/
def partsOfEvents (events : List LexEvent) : List Part :=
  (events.foldl (fun b e => (b.feed e).1) ({} : Builder)).finish

/-- The parts of a template written as `literals`. -/
def parseLiterals (literals : List String) : Except Text.SliceError (List Part) :=
  (tokenizeLiterals literals).map partsOfEvents

end Template

end HtmlTemplates
