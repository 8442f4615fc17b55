import HtmlTemplates.Markup.Scanner
import HtmlTemplates.Text.Slice
/-!
Scanning a sequence of literals as one source.

A template is written as literals with a value between each two. The literals are scanned in
order, each by a fresh scanner, and each literal after the first starts in the *live state*
of the one before: the state of its last token, the one that ran out of input. The value
between them goes where that state stood, so a slot event marks it.
-/
namespace HtmlTemplates.Markup

open HtmlTemplates.Text

/-- What the scan of a sequence of literals reports, in order. -/
inductive LexEvent where
  /-- A token of literal `literal`, with its text. -/
  | token (literal : Nat) (state : LexState) (text : String)
  /-- The end of literal `literal`, not the last; the next one starts in `live`. -/
  | slot (literal : Nat) (live : LexState)
  deriving DecidableEq, Repr

/-- The state of the last token before the end token, or `content` if there is none. -/
def liveState (steps : List Step) : LexState :=
  match (steps.map (·.token.state)).filter (· != .atEnd) |>.getLast? with
  | some q => q
  | none => .content

/-- One literal as the scan of a sequence reads it. -/
structure LiteralScan where
  index : Nat
  source : String
  /-- The state the literal starts in. -/
  entry : LexState
  steps : List Step

/-- The scans of `literals`, the first numbered `i` and started in `q`. -/
def scanFrom (i : Nat) (q : LexState) : List String → List LiteralScan
  | [] => []
  | lit :: rest =>
    let steps := (Scanner.start lit q).steps
    ⟨i, lit, q, steps⟩ :: scanFrom (i + 1) (liveState steps) rest

/-- The scans of a sequence of literals, from the first in `content`. -/
def scanLiterals (literals : List String) : List LiteralScan :=
  scanFrom 0 .content literals

/-- The tokens of a literal before its end token. -/
def LiteralScan.tokens (ls : LiteralScan) : List Token :=
  (ls.steps.map (·.token)).filter (·.state != .atEnd)

/-- The token events of one literal, with their texts. -/
def LiteralScan.tokenEvents (ls : LiteralScan) : Except SliceError (List LexEvent) :=
  ls.tokens.mapM fun t => (slice ls.source t.start t.stop).map (.token ls.index t.state)

/-- The events of the literals of `scans`; the last one is followed by no slot. -/
def eventsOf : List LiteralScan → Except SliceError (List LexEvent)
  | [] => .ok []
  | [ls] => ls.tokenEvents
  | ls :: rest@(_ :: _) => do
    let here ← ls.tokenEvents
    let later ← eventsOf rest
    pure (here ++ LexEvent.slot ls.index (liveState ls.steps) :: later)

/-- The events of a sequence of literals: the tokens of each, and a slot between each two. -/
def tokenizeLiterals (literals : List String) : Except SliceError (List LexEvent) :=
  eventsOf (scanLiterals literals)

end HtmlTemplates.Markup
