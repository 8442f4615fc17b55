/-!
Fragments: the pieces of a tag name, an attribute name or an attribute value.

A piece is either text from the literals or a slot that a value fills. `pushText` keeps a
list of fragments in normal form: no empty text and no two texts side by side.
-/
namespace HtmlTemplates

/-- A piece of a name or a value. -/
inductive Fragment where
  /-- Text from the literals. -/
  | text (s : String)
  /-- A place for a value. -/
  | slot
  deriving DecidableEq, Repr, Inhabited

namespace Fragment

/-- Whether a fragment is a slot. -/
def isSlot : Fragment → Bool
  | .slot => true
  | .text _ => false

/-- Appends text to fragments: nothing for empty text, onto a last text fragment, or as a
new fragment. -/
def pushText (fs : List Fragment) (s : String) : List Fragment :=
  if s.isEmpty then fs
  else
    match fs.getLast? with
    | some (.text t) => fs.dropLast ++ [.text (t ++ s)]
    | _ => fs ++ [.text s]

/-- The number of slots. -/
def countSlots (fs : List Fragment) : Nat :=
  fs.countP isSlot

/-- The text of the fragments, if none is a slot. -/
def staticText : List Fragment → Option String
  | [] => some ""
  | .text s :: rest => (staticText rest).map (s ++ ·)
  | .slot :: _ => none

end Fragment

/-- ASCII letters lowered, every other character kept. -/
def asciiLower (s : String) : String :=
  s.map fun c => if 'A' ≤ c ∧ c ≤ 'Z' then Char.ofNat (c.toNat + 32) else c

end HtmlTemplates
