import HtmlTemplates.Fuzz.Draw
import HtmlTemplates.Debug.Describe
/-!
Two checks of the template engine, each driven by a stream of bytes.

`runTemplate` renders a drawn template with drawn values; it passes unless scanning breaks
down. `runBoundaries` draws a source whose tags are all closed, splits it at drawn char
boundaries, and renders the pieces with empty strings between them; it passes when that
gives the source back. A failed check is reported by the text of the failure.
-/
namespace HtmlTemplates.Fuzz

open HtmlTemplates.Markup

/-- The state of the last token of a source scanned as one literal. -/
def finalState (s : String) : Except Text.SliceError LexState := do
  let events ← tokenizeLiterals [s]
  pure (events.foldl (fun q e => match e with
    | .token _ q' _ => q'
    | .slot _ _ => q) .content)

/-- Renders a drawn template with drawn values in a store whose strictness is drawn too. -/
def runTemplate (data : List UInt8) : Except String Unit :=
  let draw : Draw (UInt8 × List String × List Value) := do
    let settings ← byte
    let src ← source
    let ps ← splitPositions src
    let literals := splitAt src ps 0
    let count := literals.length - 1 + (if settings &&& 2 == 0 then 1 else 0)
    let vs ← values count
    pure (settings, literals, vs)
  let ((settings, literals, vs), _) := draw.run data
  let store : Store := { settings := { strict := settings &&& 1 == 0 } }
  match store.html literals vs with
  | .ok _ => .ok ()
  | .error e => .error e.message
where
  values (n : Nat) : Draw (List Value) := (List.range n).mapM fun _ => value 3

/-- The text of a failed comparison of the rendered pieces with the source. -/
def mismatchMessage (literals : List String) (output source : String) : String :=
  "assertion `left == right` failed: literals: " ++ (Debug.strs literals).compact ++
    "\n  left: " ++ Text.quoteString output ++ "\n right: " ++ Text.quoteString source

/-- Splits a drawn source with closed tags and checks that empty values give it back. -/
def runBoundaries (data : List UInt8) : Except String Unit := do
  let (src, data) := source.run data
  let last ← (finalState src).mapError (·.message)
  if last != .content then return
  let (ps, _) := (splitPositions src).run data
  let literals := splitAt src ps 0
  let vs := (List.range (literals.length - 1)).map fun _ => Value.str ""
  let bound ← (html literals vs).mapError (·.message)
  let output ← match bound.bind (·.compile) with
    | .ok out => pure out
    | .error e =>
      .error ("called `Result::unwrap()` on an `Err` value: " ++ (Debug.errorShape e).compact)
  if output != src then .error (mismatchMessage literals output src)

end HtmlTemplates.Fuzz
