/-!
Command-line options.

Each option has a one-letter name, a long name and one of three kinds: a flag, an option
given at most once with an argument, or an option given any number of times with an
argument. `--name=value` and `--name value` give a long option its argument, and `--x` with
a one-letter `x` is the short option `-x`. Short options may be grouped, as in `-pL`; the
first one in a group that takes an argument takes the rest of the group, or else the next
word. `--` ends the options, and every word that is not an
option is a free argument, wherever it stands.
-/
namespace HtmlTemplates.Trace

/-- Whether an option takes an argument, and how often it may be given. -/
inductive OptionKind where
  | flag
  | once
  | many
  deriving DecidableEq, Repr

/-- An option a command accepts. -/
structure OptionSpec where
  short : Char
  long : String
  kind : OptionKind
  /-- How the argument is shown in the usage text. -/
  hint : String
  description : String
  deriving Repr

/-- Why the words of a command line are refused. -/
inductive OptionError where
  | argumentMissing (name : String)
  | unrecognized (name : String)
  | duplicated (name : String)
  | unexpectedArgument (name : String)
  deriving DecidableEq, Repr

/-- The text of a refusal. -/
def OptionError.message : OptionError → String
  | .argumentMissing n => "Argument to option '" ++ n ++ "' missing"
  | .unrecognized n => "Unrecognized option: '" ++ n ++ "'"
  | .duplicated n => "Option '" ++ n ++ "' given more than once"
  | .unexpectedArgument n => "Option '" ++ n ++ "' does not take an argument"

/-- The options given, each with its argument, in order, and the free arguments. -/
structure Matches where
  given : List (OptionSpec × Option String) := []
  free : List String := []

namespace Matches

/-- The arguments of the option with the one-letter name `c`, in order. -/
def values (m : Matches) (c : Char) : List String :=
  m.given.filterMap fun (spec, arg) => if spec.short == c then arg else none

/-- Whether the option with the one-letter name `c` was given. -/
def present (m : Matches) (c : Char) : Bool := m.given.any (·.1.short == c)

/-- The first argument of the option with the one-letter name `c`. -/
def value? (m : Matches) (c : Char) : Option String := (m.values c).head?

end Matches

/-- The option with a one-letter name. -/
def findShort (specs : List OptionSpec) (c : Char) : Option OptionSpec :=
  specs.find? (·.short == c)

/-- The option with a long name. -/
def findLong (specs : List OptionSpec) (n : String) : Option OptionSpec :=
  specs.find? (·.long == n)

/-- The option that a name after `--` stands for. A name of a single one-byte character is a
one-letter name, so `--s` is `-s`. -/
def findNamed (specs : List OptionSpec) (name : String) : Option OptionSpec :=
  match name.toList with
  | [c] => if c.utf8Size == 1 then findShort specs c else findLong specs name
  | _ => findLong specs name

/-- The options of a group of short options, with the argument the group holds, if any: an
option that takes an argument ends the group, and the characters after it are its argument. -/
def shortGroup (specs : List OptionSpec) :
    List Char → Except OptionError (List OptionSpec × Option String)
  | [] => .ok ([], none)
  | c :: rest =>
    match findShort specs c with
    | none => .error (.unrecognized (String.singleton c))
    | some spec =>
      if spec.kind != .flag && !rest.isEmpty then .ok ([spec], some (String.ofList rest))
      else do
        let (more, arg) ← shortGroup specs rest
        pure (spec :: more, arg)

/-- Records the options of one word, the last of which may take `arg` or the next of
`words`; also gives how many of `words` were taken. -/
def takeOptions (names : List (OptionSpec × String)) (arg : Option String) (words : List String)
    (acc : Matches) : Except OptionError (Matches × Nat) :=
  match names with
  | [] => .ok (acc, 0)
  | (spec, name) :: rest =>
    match spec.kind with
    | .flag =>
      if rest.isEmpty && arg.isSome then .error (.unexpectedArgument name)
      else takeOptions rest arg words { acc with given := acc.given ++ [(spec, none)] }
    | _ =>
      match arg, words with
      | some a, _ => takeOptions rest none words { acc with given := acc.given ++ [(spec, some a)] }
      | none, w :: ws => do
        let (m, n) ← takeOptions rest none ws { acc with given := acc.given ++ [(spec, some w)] }
        pure (m, n + 1)
      | none, [] => .error (.argumentMissing name)

/-- The options a word names, with the argument it holds: a long option with its name, or a
group of short options. -/
def optionsOfWord (specs : List OptionSpec) (w : String) :
    Except OptionError (List (OptionSpec × String) × Option String) :=
  if w.startsWith "--" then
    let tail := (w.drop 2).toString
    let (name, arg) := match tail.splitOn "=" with
      | n :: rest@(_ :: _) => (n, some ("=".intercalate rest))
      | _ => (tail, none)
    match findNamed specs name with
    | none => .error (.unrecognized name)
    | some spec => .ok ([(spec, name)], arg)
  else do
    let (group, arg) ← shortGroup specs (w.toList.drop 1)
    pure (group.map fun s => (s, String.singleton s.short), arg)

/-- Reads the words of a command line. -/
def readWords (specs : List OptionSpec) (acc : Matches) : List String → Except OptionError Matches
  | [] => .ok acc
  | w :: ws =>
    if w == "--" then .ok { acc with free := acc.free ++ ws }
    else if w.utf8ByteSize > 1 && w.startsWith "-" then do
      let (names, arg) ← optionsOfWord specs w
      let (acc, n) ← takeOptions names arg ws acc
      readWords specs acc (ws.drop n)
    else readWords specs { acc with free := acc.free ++ [w] } ws
termination_by ws => ws.length
decreasing_by all_goals (simp only [List.length_drop, List.length_cons]; omega)

/-- The name an option is reported by: its long name, if it has one. -/
def OptionSpec.name (spec : OptionSpec) : String :=
  if spec.long.isEmpty then String.singleton spec.short else spec.long

/-- Reads a command line: the options given and the free arguments. An option that may be
given once is refused when given twice. -/
def parseOptions (specs : List OptionSpec) (words : List String) : Except OptionError Matches := do
  let m ← readWords specs {} words
  let given (spec : OptionSpec) := (m.given.filter (·.1.short == spec.short)).length
  match specs.find? fun spec => spec.kind != .many && given spec > 1 with
  | some spec => .error (.duplicated spec.name)
  | none => pure m

/-- The line of an option in the usage text: its names and argument, and its description
from column 24, or on a line of its own when the names reach that far. -/
def OptionSpec.usageLine (spec : OptionSpec) : String :=
  let names := "    -" ++ String.singleton spec.short ++ ", --" ++ spec.long ++ " " ++
    (if spec.kind == .flag then "" else spec.hint)
  let pad (n : Nat) := String.ofList (List.replicate n ' ')
  if names.length < 24 then names ++ pad (24 - names.length) ++ spec.description
  else names ++ "\n" ++ pad 24 ++ spec.description

/-- The usage text: a first line, then one line per option. -/
def usage (brief : String) (specs : List OptionSpec) : String :=
  brief ++ "\n\nOptions:\n" ++ "\n".intercalate (specs.map OptionSpec.usageLine) ++ "\n"

end HtmlTemplates.Trace
