import HtmlTemplates.Proofs.Template.Slots
import HtmlTemplates.Template.Placeholder
/-!
Placeholder sources read back.

A placeholder source is read once, greedily from the left (`scanBraces`): `{}` is a
placeholder, `{{` and `}}` stand for one brace, and every other character is kept. The pieces
spell the source, and cutting it at its placeholders gives one literal more than there are
placeholders (`length_splitFrom`), so the template of a skeleton takes exactly as many values
as the scan finds placeholders. Writing literals as a source, each brace doubled and `{}`
between each two (`joinLiterals`), and splitting it again gives the literals back: each
doubled brace is read as a pair, so no pair straddles a literal and its placeholder
(`splitFrom_doubleBraces`).
-/
namespace HtmlTemplates

/-- What the scan of a placeholder source reads at a point: a placeholder, a doubled brace that
stands for one, or a character kept as it is. -/
inductive BracePiece where
  | placeholder
  | doubled (c : Char)
  | plain (c : Char)
  deriving DecidableEq, Repr

/-- The characters of the source a piece was read from. -/
def BracePiece.source : BracePiece → List Char
  | placeholder => ['\x7b', '\x7d']
  | doubled c => [c, c]
  | plain c => [c]

/-- The pieces of a placeholder source, read greedily from the left. -/
def scanBraces : List Char → List BracePiece
  | [] => []
  | '\x7b' :: '\x7d' :: rest => .placeholder :: scanBraces rest
  | '\x7b' :: '\x7b' :: rest => .doubled '\x7b' :: scanBraces rest
  | '\x7d' :: '\x7d' :: rest => .doubled '\x7d' :: scanBraces rest
  | c :: rest => .plain c :: scanBraces rest

/-- The number of placeholders the scan of a source finds. -/
def placeholderCount (s : String) : Nat := (scanBraces s.toList).count .placeholder

/-- A literal as a placeholder source writes it: each brace doubled. -/
def doubleBraces : List Char → List Char
  | [] => []
  | c :: cs => if c = '\x7b' ∨ c = '\x7d' then c :: c :: doubleBraces cs else c :: doubleBraces cs

/-- Literals written as one placeholder source: each with its braces doubled, and `{}` between
each two. -/
def joinLiterals : List String → List Char
  | [] => []
  | [l] => doubleBraces l.toList
  | l :: ls => doubleBraces l.toList ++ '\x7b' :: '\x7d' :: joinLiterals ls

/-- The scan reads the whole source: its pieces spell it. -/
theorem flatMap_source_scanBraces (cs : List Char) :
    (scanBraces cs).flatMap BracePiece.source = cs := by
  fun_induction scanBraces cs <;> simp_all [BracePiece.source]

/-- Each placeholder the scan finds ends one literal, and the last literal ends the source. -/
theorem length_splitFrom (cur cs : List Char) :
    (splitFrom cur cs).length = (scanBraces cs).count .placeholder + 1 := by
  fun_induction splitFrom cur cs with
  | case1 => simp [scanBraces]
  | case2 cur rest ih => simp [scanBraces, ih]
  | case3 cur rest ih => simp [scanBraces, ih]
  | case4 cur rest ih => simp [scanBraces, ih]
  | case5 cur c rest h₁ h₂ h₃ ih =>
    rw [ih, scanBraces.eq_5 c rest h₁ h₂ h₃, List.count_cons]
    simp

/-- A character that is no brace is kept as it is. -/
theorem splitFrom_plain {c : Char} (hc : ¬(c = '\x7b' ∨ c = '\x7d')) (cur rest : List Char) :
    splitFrom cur (c :: rest) = splitFrom (c :: cur) rest := by
  rw [not_or] at hc
  exact splitFrom.eq_5 cur c rest (fun _ h => absurd h hc.1) (fun _ h => absurd h hc.1)
    (fun _ h => absurd h hc.2)

/-- A literal with its braces doubled is read back as it was, whatever follows it. -/
theorem splitFrom_doubleBraces (cur cs rest : List Char) :
    splitFrom cur (doubleBraces cs ++ rest) = splitFrom (cs.reverse ++ cur) rest := by
  induction cs generalizing cur with
  | nil => rfl
  | cons c cs ih =>
    by_cases hc : c = '\x7b' ∨ c = '\x7d'
    · rw [doubleBraces, if_pos hc]
      rcases hc with rfl | rfl
      · simp [splitFrom, ih]
      · simp [splitFrom, ih]
    · rw [doubleBraces, if_neg hc, List.cons_append, splitFrom_plain hc, ih]
      simp

theorem splitFrom_joinLiterals : ∀ {ls : List String}, ls ≠ [] → splitFrom [] (joinLiterals ls) = ls
  | [], h => absurd rfl h
  | [l], _ => by
    rw [joinLiterals, ← List.append_nil (doubleBraces _), splitFrom_doubleBraces]
    simp [splitFrom]
  | l :: l' :: ls, _ => by
    rw [joinLiterals.eq_3 _ _ (List.cons_ne_nil l' ls), splitFrom_doubleBraces, List.append_nil,
      splitFrom, splitFrom_joinLiterals (List.cons_ne_nil l' ls)]
    simp

namespace Skeleton

/-- A skeleton has a template, which takes as many values as the scan finds placeholders. -/
theorem template_valueCount (sk : Skeleton) :
    ∃ t, sk.template = .ok t ∧ t.valueCount = placeholderCount sk.source := by
  have hlen : sk.literals.length = placeholderCount sk.source + 1 :=
    length_splitFrom [] sk.source.toList
  have hl : sk.literals ≠ [] := List.ne_nil_of_length_pos (by omega)
  obtain ⟨events, htok, hw, hcount, -⟩ := Markup.walk_tokenizeLiterals hl
  refine ⟨_, by simp [template, Template.make, Template.parseLiterals, htok]; rfl, ?_⟩
  show ((Template.partsOfEvents events).map Part.slots).sum = _
  rw [Template.sum_slots_partsOfEvents hw (by decide), hcount, hlen]
  rfl

/-- Values free of objects bind to a template exactly when there are as many as it takes. -/
theorem bind_ok_iff (t : Template) {values : List Value} (hv : Value.checkAll values = .ok ()) :
    (∃ b, bind t values = .ok b) ↔ values.length = t.valueCount := by
  simp only [bind, Binding.make, hv, Template.checkValueCount, if_true]
  by_cases h : values.length = t.valueCount
  · simp only [h, iff_true]
    exact ⟨_, rfl⟩
  · simp only [h, iff_false, not_exists]
    intro b hb
    cases hb

end Skeleton

/-- Splitting a placeholder source gives back the literals it was written from; a source has
one literal more than the placeholders its scan reads, which spell it with the other pieces;
and the template of a skeleton binds exactly as many values, free of objects, as it has
placeholders. -/
theorem placeholders_round_trip :
    (∀ ls : List String, ls ≠ [] → splitPlaceholders (String.ofList (joinLiterals ls)) = ls) ∧
      (∀ s : String, (scanBraces s.toList).flatMap BracePiece.source = s.toList ∧
        (splitPlaceholders s).length = placeholderCount s + 1) ∧
      ∀ sk : Skeleton, ∃ t, sk.template = .ok t ∧ ∀ values, Value.checkAll values = .ok () →
        ((∃ b, Skeleton.bind t values = .ok b) ↔ values.length = placeholderCount sk.source) := by
  refine ⟨fun ls hls => ?_, fun s => ⟨flatMap_source_scanBraces _, length_splitFrom _ _⟩,
    fun sk => ?_⟩
  · rw [splitPlaceholders, String.toList_ofList]
    exact splitFrom_joinLiterals hls
  · obtain ⟨t, ht, hcount⟩ := sk.template_valueCount
    exact ⟨t, ht, fun values hv => hcount ▸ Skeleton.bind_ok_iff t hv⟩

/-- Two literals that are a lone brace each: their source `{{{}}}` is read as an escaped
brace, a placeholder and an escaped brace, splits back into them, and binds one value. -/
theorem placeholders_round_trip_braces :
    ["\x7b", "\x7d"] ≠ [] ∧
      splitPlaceholders (String.ofList (joinLiterals ["\x7b", "\x7d"])) = ["\x7b", "\x7d"] ∧
      ∃ t, (Skeleton.mk "\x7b\x7b\x7b\x7d\x7d\x7d").template = .ok t ∧
        Value.checkAll [.int 1] = .ok () ∧
        ((∃ b, Skeleton.bind t [.int 1] = .ok b) ↔
          [Value.int 1].length = placeholderCount "\x7b\x7b\x7b\x7d\x7d\x7d") := by
  obtain ⟨t, ht, hbind⟩ := placeholders_round_trip.2.2 ⟨"\x7b\x7b\x7b\x7d\x7d\x7d"⟩
  exact ⟨by decide, placeholders_round_trip.1 _ (by decide), t, ht, rfl, hbind _ rfl⟩

end HtmlTemplates
