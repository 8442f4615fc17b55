/-!
The shapes of diagnostic texts.

A value is shown as a record `Name { field: value, … }`, a tuple `Name(item, …)`, a list
`[item, …]`, a map `{key: value, …}`, or plain text. The compact form puts everything on one
line. The pretty form puts each field, item or entry on a line of its own, indented by four
spaces and followed by a comma; an empty list or map stays `[]` or `{}`.
-/
namespace HtmlTemplates.Debug

/-- The shape of a shown value. -/
inductive Shape where
  /-- Text shown as it is. -/
  | atom (text : String)
  | record (name : String) (fields : List (String × Shape))
  | tuple (name : String) (items : List Shape)
  | list (items : List Shape)
  | map (entries : List (Shape × Shape))
  /-- Text followed by a shape. -/
  | prefixed (text : String) (inner : Shape)
  deriving Repr, Inhabited

/-- A line break followed by the indentation of `depth` levels, four spaces each. -/
def newline (out : String) (depth : Nat) : String := (out.push '\n').pushn ' ' (4 * depth)

/-- Text written after `out`, each line break in it followed by the indentation of `depth`
levels. -/
def writeAt (out : String) (depth : Nat) (text : String) : String :=
  text.foldl (fun acc c => if c = '\n' then newline acc depth else acc.push c) out

mutual
/-- The compact text of a shape, written after `out`. -/
def Shape.compactOnto (out : String) : Shape → String
  | .atom t => out ++ t
  | .record n [] => out ++ n
  | .record n fs => compactFieldsOnto (out ++ n ++ " \x7b ") fs ++ " \x7d"
  | .tuple n [] => out ++ n
  | .tuple n items => (compactItemsOnto (out ++ n ++ "(") items).push ')'
  | .list items => (compactItemsOnto (out.push '[') items).push ']'
  | .map entries => (compactEntriesOnto (out.push '\x7b') entries).push '\x7d'
  | .prefixed t inner => inner.compactOnto (out ++ t)

/-- Items separated by commas. -/
def compactItemsOnto (out : String) : List Shape → String
  | [] => out
  | [s] => s.compactOnto out
  | s :: rest => compactItemsOnto (s.compactOnto out ++ ", ") rest

/-- Fields separated by commas. -/
def compactFieldsOnto (out : String) : List (String × Shape) → String
  | [] => out
  | [(n, s)] => s.compactOnto (out ++ n ++ ": ")
  | (n, s) :: rest => compactFieldsOnto (s.compactOnto (out ++ n ++ ": ") ++ ", ") rest

/-- Map entries separated by commas. -/
def compactEntriesOnto (out : String) : List (Shape × Shape) → String
  | [] => out
  | [(k, v)] => v.compactOnto (k.compactOnto out ++ ": ")
  | (k, v) :: rest => compactEntriesOnto (v.compactOnto (k.compactOnto out ++ ": ") ++ ", ") rest
end

/-- The compact text of a shape: everything on one line. -/
def Shape.compact (s : Shape) : String := s.compactOnto ""

mutual
/-- The pretty text of a shape at `depth` levels of indentation, written after `out`. -/
def Shape.prettyOnto (out : String) (depth : Nat) : Shape → String
  | .atom t => writeAt out depth t
  | .record n [] => writeAt out depth n
  | .record n fs =>
    newline (prettyFieldsOnto (writeAt out depth n ++ " \x7b") (depth + 1) fs) depth ++ "\x7d"
  | .tuple n [] => writeAt out depth n
  | .tuple n items =>
    (newline (prettyItemsOnto (writeAt out depth n ++ "(") (depth + 1) items) depth).push ')'
  | .list [] => out ++ "[]"
  | .list items => (newline (prettyItemsOnto (out.push '[') (depth + 1) items) depth).push ']'
  | .map [] => out ++ "\x7b\x7d"
  | .map entries =>
    (newline (prettyEntriesOnto (out.push '\x7b') (depth + 1) entries) depth).push '\x7d'
  | .prefixed t inner => inner.prettyOnto (writeAt out depth t) depth

/-- Items, each on a line of its own at `depth` and followed by a comma. -/
def prettyItemsOnto (out : String) (depth : Nat) : List Shape → String
  | [] => out
  | s :: rest => prettyItemsOnto ((s.prettyOnto (newline out depth) depth).push ',') depth rest

/-- Fields, each on a line of its own at `depth` and followed by a comma. -/
def prettyFieldsOnto (out : String) (depth : Nat) : List (String × Shape) → String
  | [] => out
  | (n, s) :: rest =>
    let line := writeAt (newline out depth) depth n ++ ": "
    prettyFieldsOnto ((s.prettyOnto line depth).push ',') depth rest

/-- Map entries, each on a line of its own at `depth` and followed by a comma. -/
def prettyEntriesOnto (out : String) (depth : Nat) : List (Shape × Shape) → String
  | [] => out
  | (k, v) :: rest =>
    let line := k.prettyOnto (newline out depth) depth ++ ": "
    prettyEntriesOnto ((v.prettyOnto line depth).push ',') depth rest
end

/-- The pretty text of a shape: each field, item or entry on a line of its own, indented by
four spaces a level and followed by a comma. -/
def Shape.pretty (s : Shape) : String := s.prettyOnto "" 0

end HtmlTemplates.Debug
