import HtmlTemplates.Trace.Report
/-!
The command line of the trace tool.
-/

open HtmlTemplates

/-- Runs the trace tool on the command line's words and writes what it gives. -/
def main (args : List String) : IO UInt32 := do
  let outcome := Trace.run args
  IO.print outcome.stdout
  IO.eprint outcome.stderr
  if let some msg := outcome.failure then
    IO.eprintln ("\nthread 'main' panicked:\n" ++ msg)
  return outcome.status.toUInt32
