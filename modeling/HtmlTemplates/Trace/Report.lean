import HtmlTemplates.Trace.Options
import HtmlTemplates.Debug.Describe
import HtmlTemplates.Template.Placeholder
/-!
The trace tool: how literals are scanned and parsed, step by step.

With `-s STATE` each free argument is scanned alone from that state, and every token is
printed with its state. Otherwise the free arguments are the literals of a template, or with
`-p` one string split at its `{}` placeholders; values come from `-v`, and `-L` binds them
leniently. The literals are scanned once with every event printed, then bound through a
fresh store, whose parse is traced too; then come the parts, pretty-printed, and the
rendered output.

Trace lines show the probes of each step (`>peek: Some('a')`), each token with its byte
range (`@token: …`), where each literal resumes (`@resume: …`), each slot (`@break: …`),
each `<` that starts no tag (`@fold: …`) and each store look-up (`@cache: …`). A token
that ends inside a character stops the tool, as a failure of the program.
-/
namespace HtmlTemplates.Trace

open HtmlTemplates.Markup HtmlTemplates.Text

/-- What the tool writes: its standard output and error, and the failure that stopped it,
if one did. -/
structure Outcome where
  stdout : String
  stderr : String
  failure : Option String
  deriving Repr

/-- The exit status: 101 after a failure, 0 otherwise. -/
def Outcome.status (o : Outcome) : Nat := if o.failure.isSome then 101 else 0

/-- Writing lines, possibly stopped by a failure; the lines written before it stay. -/
abbrev Tracer := ExceptT String (StateM (Array String))

/-- Writes one line. -/
def emit (line : String) : Tracer Unit := modify (·.push line)

/-- The piece of a source between two byte offsets; a failure if they are not char
boundaries. -/
def sliceOrFail (source : String) (start stop : Nat) : Tracer String :=
  match slice source start stop with
  | .ok s => pure s
  | .error e => throw e.message

/-- The trace line of a token. -/
def tokenLine (t : Token) (text : String) : String :=
  "@token: " ++ t.state.name ++ " Range \x7b start: " ++ toString t.start ++ ", end: " ++
    toString t.stop ++ " \x7d `" ++ text ++ "`"

/-- The trace line of a note of the parser. -/
def ParseNote.text : Template.ParseNote → String
  | .folded raw => "@fold: `" ++ raw ++ "` is not a tag"
  | .slot n q => "@break: part #" ++ toString n ++ " in " ++ q.name

/-- Traces the scans of literals, passing each event to `handler` as it arises. -/
def traceScans {σ : Type} (handler : σ → LexEvent → Tracer σ) :
    σ → List LiteralScan → Tracer σ
  | acc, [] => pure acc
  | acc, ls :: rest => do
    emit ("@resume: fragment #" ++ toString ls.index ++ " in " ++ ls.entry.name)
    let mut acc := acc
    for st in ls.steps do
      for p in st.probes do
        emit p.text
      if st.token.state != .atEnd then
        let text ← sliceOrFail ls.source st.token.start st.token.stop
        emit (tokenLine st.token text)
        acc ← handler acc (.token ls.index st.token.state text)
    if !rest.isEmpty then
      acc ← handler acc (.slot ls.index (liveState ls.steps))
    traceScans handler acc rest

/-- Prints each event as the tool's own line. -/
def printEvent (_ : Unit) : LexEvent → Tracer Unit
  | .token i q text => emit ("[" ++ toString i ++ "] " ++ q.name ++ " " ++ quoteString text)
  | .slot i q => emit ("[" ++ toString i ++ "] --- break in " ++ q.name ++ " ---")

/-- Feeds each event to the template builder and traces its notes. -/
def buildEvent (b : Template.Builder) (e : LexEvent) : Tracer Template.Builder := do
  let (b, notes) := b.feed e
  for n in notes do
    emit (ParseNote.text n)
  pure b

/-- Scans one literal alone from state `q`, printing every token with its state. -/
def traceSingle (q : LexState) (literal : String) : Tracer Unit := do
  for st in (Scanner.start literal q).steps do
    for p in st.probes do
      emit p.text
    let text ← sliceOrFail literal st.token.start st.token.stop
    if st.token.state != .atEnd then
      emit (tokenLine st.token text)
    emit (st.token.state.name ++ " " ++ quoteString text)

/-- Traces a template: its scan, its binding through a fresh store with its parse, its parts
and its output. Gives what goes to the error output. -/
def traceTemplate (literals : List String) (values : List Value) (strict : Bool) :
    Tracer String := do
  let _ ← traceScans printEvent () (scanLiterals literals)
  let store : Store := { settings := { strict } }
  let key := withTrailingSlot literals values.length
  match store.html literals values with
  | .error e => throw e.message
  | .ok r =>
    emit ("@cache: " ++ (if r.fetched.hit then "hit" else "miss") ++ " (" ++
      toString key.length ++ " literal(s))")
    if !r.fetched.hit then
      let _ ← traceScans buildEvent {} (scanLiterals key)
    match r.binding with
    | .error e => pure (e.message ++ "\n")
    | .ok b =>
      for (p, i) in b.template.parts.zipIdx do
        emit ("Part #" ++ toString i ++ " (" ++ toString p.slots ++ " break(s)): " ++
          (Debug.partShape p).pretty)
      match b.compile with
      | .ok out =>
        emit ("Output: " ++ out)
        pure ""
      | .error e => pure (e.message ++ "\n")

/-- The options of the tool. -/
def options : List OptionSpec := [
  ⟨'s', "state", .once, "-s (Content|TagName|BeforeAttributeName|AttributeValueDoubleQuoted|...)",
    "Initial tokenizer state, traces a single literal"⟩,
  ⟨'v', "value", .many, "-v VALUE", "Value for a placeholder"⟩,
  ⟨'p', "placeholders", .flag, "", "Join the input and split it at `\x7b\x7d` placeholders"⟩,
  ⟨'L', "lenient", .flag, "", "Treat missing values as null"⟩,
  ⟨'h', "help", .flag, "", "Show this help"⟩]

/-- The usage text of the tool. -/
def usageText : String := usage "Usage: cargo run -- [options] LITERAL..." options

/-- Traces what the matched options ask for. Gives what goes to the error output. -/
def traceMatches (m : Matches) : Tracer String := do
  match m.value? 's' with
  | some name =>
    for literal in m.free do
      match LexState.parse name with
      | .ok q => traceSingle q literal
      | .error e => throw e.message
    pure ""
  | none =>
    let literals := if m.present 'p' then splitPlaceholders (String.join m.free) else m.free
    traceTemplate literals ((m.values 'v').map .str) (!m.present 'L')

/-- What the tool writes for a command line. -/
def run (args : List String) : Outcome :=
  match parseOptions options args with
  | .error e => ⟨"", e.message ++ "\n" ++ usageText ++ "\n", none⟩
  | .ok m =>
    if m.free.isEmpty then ⟨"", "Missing template literals\n" ++ usageText ++ "\n", none⟩
    else if m.present 'h' then ⟨"", usageText ++ "\n", none⟩
    else
      let (result, lines) := (traceMatches m).run.run #[]
      let stdout := String.join (lines.toList.map (· ++ "\n"))
      match result with
      | .ok err => ⟨stdout, err, none⟩
      | .error msg => ⟨stdout, "", some msg⟩

end HtmlTemplates.Trace
