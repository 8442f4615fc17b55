import HtmlTemplates.Number.Notation
/-!
JSON values.

A number keeps the kind its literal had: a non-negative integer within 64 bits, a negative
integer within 64 bits, or a double. An object keeps one value per key, its keys in
increasing order. `Json.render` writes a value compactly; a double is written with the
fewest digits that read back, positionally for exponents from -5 to 15, an integral value
with `.0`, and otherwise in scientific form with a signed exponent (`1e+22`, `5e-324`).
-/
namespace HtmlTemplates

open HtmlTemplates.Number

/-- A JSON number, by the kind of its literal. -/
inductive JsonNumber where
  /-- An integer from `0` to `2 ^ 64 - 1`. -/
  | posInt (n : Nat)
  /-- An integer from `-2 ^ 63` to `-1`. -/
  | negInt (n : Int)
  | float (x : Float)

/-- A JSON value. -/
inductive Json where
  | null
  | bool (b : Bool)
  | number (n : JsonNumber)
  | string (s : String)
  | array (items : List Json)
  /-- Fields with distinct keys, in increasing order of key. -/
  | object (fields : List (String × Json))

/-- How a JSON text writes a double. -/
def Notation.json : Notation :=
  ⟨-5, 16, true, true, .even, true, "NaN", "inf"⟩

/-- The text of a number. -/
def JsonNumber.render : JsonNumber → String
  | .posInt n => toString n
  | .negInt n => toString n
  | .float x => Notation.json.format x

/-- How one character is written inside a JSON string. -/
def jsonEscape (c : Char) : String :=
  if c = '"' then "\\\""
  else if c = '\\' then "\\\\"
  else if c = '\n' then "\\n"
  else if c = '\r' then "\\r"
  else if c = '\t' then "\\t"
  else if c.toNat < 0x20 then
    "\\u" ++ String.ofList (List.replicate (4 - (Nat.toDigits 16 c.toNat).length) '0' ++
      Nat.toDigits 16 c.toNat)
  else String.singleton c

/-- A string as a JSON string literal. -/
def jsonString (s : String) : String :=
  (s.foldl (fun acc c => acc ++ jsonEscape c) "\"").push '"'

/-- Inserts a field into fields ordered by key; a field of the same key is replaced. -/
def insertField (k : String) (v : Json) : List (String × Json) → List (String × Json)
  | [] => [(k, v)]
  | (k', v') :: rest =>
    if k = k' then (k, v) :: rest
    else if k < k' then (k, v) :: (k', v') :: rest
    else (k', v') :: insertField k v rest

/-- An object from fields in any order; of two fields with one key the later wins. -/
def Json.ofFields (fields : List (String × Json)) : Json :=
  .object (fields.foldl (fun acc (k, v) => insertField k v acc) [])

mutual
/-- The compact text of a value, written after `out`. -/
def Json.renderOnto (out : String) : Json → String
  | .null => out ++ "null"
  | .bool b => out ++ (if b then "true" else "false")
  | .number n => out ++ n.render
  | .string s => out ++ jsonString s
  | .array items => (Json.renderItemsOnto (out.push '[') items).push ']'
  | .object fields => (Json.renderFieldsOnto (out.push '\x7b') fields).push '\x7d'

/-- Values separated by commas, written after `out`. -/
def Json.renderItemsOnto (out : String) : List Json → String
  | [] => out
  | [j] => j.renderOnto out
  | j :: rest => Json.renderItemsOnto ((j.renderOnto out).push ',') rest

/-- Fields separated by commas, written after `out`. -/
def Json.renderFieldsOnto (out : String) : List (String × Json) → String
  | [] => out
  | [(k, v)] => v.renderOnto ((out ++ jsonString k).push ':')
  | (k, v) :: rest =>
    Json.renderFieldsOnto ((v.renderOnto ((out ++ jsonString k).push ':')).push ',') rest
end

/-- The compact text of a value. Each piece is appended to the text so far, so writing takes
time linear in the length of the text. -/
def Json.render (j : Json) : String := j.renderOnto ""

end HtmlTemplates
