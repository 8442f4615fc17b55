/-!
Escaping text for HTML.

Five characters can end a text or a quoted attribute value, or start a tag or an entity:
`"`, `&`, `'`, `<` and `>`. Escaping writes each of them as its entity and keeps every
other character. `chunks` gives the same output as a sequence of pieces, as a writer that
copies plain runs in one go sees it: maximal runs free of the five characters, and the
entities between them.
-/
namespace HtmlTemplates.Text

/-- The entity that stands for a character that HTML text cannot hold as it is. -/
def entity? : Char → Option String
  | '"' => some "&quot;"
  | '&' => some "&amp;"
  | '\'' => some "&#x27;"
  | '<' => some "&lt;"
  | '>' => some "&gt;"
  | _ => none

/-- Each of the five characters replaced by its entity, every other character kept. -/
def escapeHtml (s : String) : String :=
  String.join (s.toList.map fun c => (entity? c).getD (String.singleton c))

/-- Whether escaping changes the text at all. -/
def needsEscape (s : String) : Bool :=
  s.toList.any fun c => (entity? c).isSome

/-- A plain run as a piece: nothing if it is empty. -/
def flushRun (run : String) : List String := if run.isEmpty then [] else [run]

/-- The pieces of the escaped text after the plain run `run`, which is still open. -/
def chunksAfter (run : String) : List Char → List String
  | [] => flushRun run
  | c :: cs =>
    match entity? c with
    | some e => flushRun run ++ e :: chunksAfter "" cs
    | none => chunksAfter (run.push c) cs

/-- The escaped text as maximal plain runs and single entities, in order. -/
def escapeChunks (s : String) : List String :=
  chunksAfter "" s.toList

/-- A piece that is a plain run: not empty, and free of the five characters. -/
def isPlainRun (t : String) : Bool :=
  !t.isEmpty && t.toList.all fun c => (entity? c).isNone

/-- The text of one character in escaped text, as characters. -/
def escapedChars (c : Char) : List Char := ((entity? c).getD (String.singleton c)).toList

theorem toList_escapeHtml (s : String) : (escapeHtml s).toList = s.toList.flatMap escapedChars := by
  simp [escapeHtml, String.toList_join, List.flatMap_map]
  rfl

theorem needsEscape_eq_false_iff (s : String) :
    needsEscape s = false ↔ ∀ c ∈ s.toList, entity? c = none := by
  simp [needsEscape, List.any_eq_false, Option.isSome_iff_ne_none]

/-- No entity is a plain run: each starts with `&`. -/
theorem isPlainRun_of_entity {c : Char} {e : String} (h : entity? c = some e) :
    isPlainRun e = false := by
  unfold entity? at h
  split at h <;> simp only [Option.some.injEq, reduceCtorEq] at h <;> subst h <;> decide

example : escapeHtml "a<b>&'\"" = "a&lt;b&gt;&amp;&#x27;&quot;" := by decide
example : escapeChunks "ab<c" = ["ab", "&lt;", "c"] := by decide

end HtmlTemplates.Text
