import HtmlTemplates.Proofs.Markup.Partition
import HtmlTemplates.Markup.Lexing
/-!
The events of a sequence of literals, as the parser receives them.

The scanner is a state machine, and its tokens are a walk through it (`Walk`): each token is read
in the state the token before it leads to, and a slot stands where a literal ran out, in the
state of its last token, which is where the next literal resumes. Those states are the *live*
ones (`LexState.isLive`): a literal ends only in a state whose rule may read to the end of the
input. The rules that take a byte they expect (`<`, `/`, `>` and closing quotes) find it, so
those tokens have fixed texts (`ReadToken.Fits`). Scanning literals never fails
(`walk_tokenizeLiterals`): there is one slot between each two of them, and their texts, with
values at the slots, spell the literals with the values between them.
-/

namespace HtmlTemplates.Markup
open HtmlTemplates.Text

namespace LexState

/-- The states a literal can end in: those whose rule may read up to the end of the input. -/
def isLive : LexState → Bool
  | content | tagName | beforeAttributeName | attributeName | attributeValueDoubleQuoted
  | attributeValueSingleQuoted | attributeValueUnquoted => true
  | _ => false

theorem isLive_of_atEnd_mem {q : LexState} (hq : q ≠ .atEnd) (h : atEnd ∈ q.successors) :
    q.isLive = true := by
  cases q <;> simp_all [successors, isLive]

end LexState

/-- A token of a literal as the parser takes it: its state and its text, with the state the
scanner reads on in. -/
structure ReadToken where
  state : LexState
  text : String
  next : LexState

/-- What the text of a token is, by its state, after a token of state `prev`: the rules of these
states take the bytes the state before them stopped at. -/
structure ReadToken.Fits (prev : LexState) (t : ReadToken) : Prop where
  next_mem : t.next ∈ t.state.successors
  tagOpen : t.state = .tagOpen → t.text = "<" ∨ t.text = "</"
  selfClosing : t.state = .selfClosingStartTag → t.text = "/"
  tagClose : t.state = .tagClose → t.text = ">"
  closingQuote : t.state = .afterAttributeValueQuoted →
    prev = .attributeValueDoubleQuoted ∧ t.text = "\"" ∨
      prev = .attributeValueSingleQuoted ∧ t.text = "'"
  openingQuote : t.state = .beforeAttributeValue →
    (t.next = .attributeValueDoubleQuoted ↔ t.text.toList.getLast? = some '"') ∧
      (t.next = .attributeValueSingleQuoted ↔ t.text.toList.getLast? = some '\'')
  equals : t.state = .afterAttributeName → t.text ≠ ""
  illegal : t.state = .illegal → t.text = ""

section Texts
variable {input : String} {pos : Nat} {text : String}

theorem text_consumeIf {c : UInt8} (h : byteAt? input pos = some c) (hc : c < 0x80)
    (ht : slice input pos (consumeIf c input pos).1 = .ok text) :
    text = String.singleton (asciiChar c) := by
  rw [consumeIf_fst, if_pos h, slice_succ h hc] at ht
  injection ht with ht
  exact ht.symm

theorem text_readTagOpen (h : byteAt? input pos = some 0x3C)
    (ht : slice input pos (readTagOpen input pos).stop = .ok text) : text = "<" ∨ text = "</" := by
  dsimp only [readTagOpen] at ht
  rw [consumeIf_fst 0x3C input pos, if_pos h, consumeIf_fst] at ht
  have h₁ := slice_succ h (by decide)
  split at ht
  · rename_i h₂
    rw [slice_append h₁ (slice_succ h₂ (by decide))] at ht
    injection ht with ht
    right
    rw [← ht]
    decide
  · rw [h₁] at ht
    injection ht with ht
    left
    rw [← ht]
    decide

theorem getLast?_ne_quote_of_blankRun
    (ht : slice input pos (firstFrom (fun c => !isBlank c) input pos) = .ok text) {c : Char}
    (hc : text.toList.getLast? = some c) : c ≠ '"' ∧ c ≠ '\'' := by
  by_cases he : firstFrom (fun c => !isBlank c) input pos = pos
  · rw [he] at ht
    rw [eq_empty_of_slice_self ht] at hc
    simp at hc
  · have hlt : pos < firstFrom (fun c => !isBlank c) input pos :=
      Nat.lt_of_le_of_ne (le_firstFrom _ _ _) (Ne.symm he)
    obtain ⟨b, hb, hnb⟩ := not_of_lt_firstFrom (fun c => !isBlank c) input pos
      (j := firstFrom (fun c => !isBlank c) input pos - 1) (by omega) (by omega)
    have hblank : isBlank b = true := by simpa using hnb
    rw [← Nat.sub_add_cancel (Nat.one_le_of_lt hlt)] at ht
    rw [getLast?_toList_of_slice ht hb (isBlank_lt hblank) (by omega), Option.some.injEq] at hc
    subst hc
    constructor
    · intro h
      have := asciiChar_injective (h.trans (by decide : '"' = asciiChar 0x22))
      subst this
      simp [isBlank] at hblank
    · intro h
      have := asciiChar_injective (h.trans (by decide : '\'' = asciiChar 0x27))
      subst this
      simp [isBlank] at hblank

/-- The blanks before a value end with a quote exactly when a quoted value follows, and with
that quote. -/
theorem text_readBeforeAttributeValue
    (ht : slice input pos (readBeforeAttributeValue input pos).stop = .ok text) :
    ((readBeforeAttributeValue input pos).next = .attributeValueDoubleQuoted ↔
        text.toList.getLast? = some '"') ∧
      ((readBeforeAttributeValue input pos).next = .attributeValueSingleQuoted ↔
        text.toList.getLast? = some '\'') := by
  have hle := le_firstFrom (fun c => !isBlank c) input pos
  dsimp only [readBeforeAttributeValue] at ht ⊢
  split at ht
  · rw [getLast?_toList_of_slice ht ‹_› (by decide) hle]
    have : asciiChar 0x22 = '"' := by decide
    simp [this]
  · rw [getLast?_toList_of_slice ht ‹_› (by decide) hle]
    have : asciiChar 0x27 = '\'' := by decide
    simp [this]
  all_goals
    simp only [reduceCtorEq, false_iff]
    exact ⟨fun h => (getLast?_ne_quote_of_blankRun ht h).1 rfl,
      fun h => (getLast?_ne_quote_of_blankRun ht h).2 rfl⟩

end Texts

namespace Scanner

/-- A scanner about to read after a token of state `prev`: its state follows `prev`, or is
`prev` itself where a literal resumes, and the byte it expects first is at the cursor. -/
structure Entered (prev : LexState) (s : Scanner) : Prop where
  follows : s.state ∈ prev.successors ∨ s.state = prev ∧ prev.isLive = true
  entry : ∀ x, s.state.entryByte prev = some x → byteAt? s.source s.pos = some x

theorem Entered.start (source : String) {q : LexState} (hq : q.isLive = true) :
    (start source q).Entered q := by
  refine ⟨Or.inr ⟨rfl, hq⟩, fun x (hx : q.entryByte q = some x) => ?_⟩
  cases q <;> simp_all [LexState.isLive, LexState.entryByte]

theorem Entered.step {s : Scanner} (hq : s.state ≠ .atEnd) :
    s.step.after.Entered s.step.token.state := by
  rw [step_of_ne_atEnd hq]
  exact ⟨Or.inl (s.state.read_next_mem s.source s.pos), fun x hx => s.state.read_entryByte hx⟩

/-- The token a scanner reads, with its text, fits the token before it. -/
theorem fits_step {s : Scanner} {prev : LexState} {text : String}
    (he : s.Entered prev) (hq : s.state ≠ .atEnd)
    (ht : slice s.source s.step.token.start s.step.token.stop = .ok text) :
    ReadToken.Fits prev ⟨s.step.token.state, text, s.step.after.state⟩ := by
  rw [step_of_ne_atEnd hq] at ht ⊢
  dsimp only at ht ⊢
  -- the states below tag their tokens with themselves
  have hlabel : ∀ l, l ≠ .beforeAttributeName → (s.state.read s.source s.pos).label = l →
      s.state = l := by
    intro l hl h
    rcases s.state.read_label s.source s.pos with h' | ⟨-, h'⟩
    · exact h'.symm.trans h
    · exact absurd (h'.symm.trans h) (Ne.symm hl)
  have hentry : ∀ x, s.state.entryByte prev = some x → byteAt? s.source s.pos = some x := he.entry
  refine ⟨s.state.read_next_mem s.source s.pos, fun h => ?_, fun h => ?_, fun h => ?_,
    fun h => ?_, fun h => ?_, fun h => ?_, fun h => ?_⟩
  · have hs := hlabel _ (by decide) h
    rw [hs] at ht hentry
    exact text_readTagOpen (hentry _ rfl) ht
  · have hs := hlabel _ (by decide) h
    rw [hs] at ht hentry
    rw [text_consumeIf (hentry _ rfl) (by decide) ht]
    exact (by decide : String.singleton (asciiChar 0x2F) = "/")
  · have hs := hlabel _ (by decide) h
    rw [hs] at ht hentry
    rw [text_consumeIf (hentry _ rfl) (by decide) ht]
    exact (by decide : String.singleton (asciiChar 0x3E) = ">")
  · have hs := hlabel _ (by decide) h
    -- the closing quote follows a quoted value, whose quote is at the cursor
    have hprev : prev = .attributeValueDoubleQuoted ∨ prev = .attributeValueSingleQuoted := by
      rcases he.follows with hm | ⟨hp', hl⟩
      · rw [hs] at hm
        cases prev <;> simp_all [LexState.successors]
      · rw [hs] at hp'
        rw [← hp'] at hl
        simp [LexState.isLive] at hl
    rw [hs] at ht hentry
    rcases hprev with rfl | rfl
    · have hb := hentry 0x22 rfl
      simp only [LexState.read, readAfterAttributeValueQuoted, hb, Option.isSome_some, if_true,
        slice_succ hb (by decide : (0x22 : UInt8) < 0x80), Except.ok.injEq] at ht
      exact Or.inl ⟨rfl, by rw [← ht]; exact (by decide : String.singleton (asciiChar 0x22) = "\"")⟩
    · have hb := hentry 0x27 rfl
      simp only [LexState.read, readAfterAttributeValueQuoted, hb, Option.isSome_some, if_true,
        slice_succ hb (by decide : (0x27 : UInt8) < 0x80), Except.ok.injEq] at ht
      exact Or.inr ⟨rfl, by rw [← ht]; exact (by decide : String.singleton (asciiChar 0x27) = "'")⟩
  · have hs := hlabel _ (by decide) h
    rw [hs] at ht ⊢
    exact text_readBeforeAttributeValue ht
  · have hs := hlabel _ (by decide) h
    rw [hs] at ht h
    -- only the branch that finds `=` tags its token with this state, and it takes the `=`
    by_cases he : byteAt? s.source (s.pos + blankRun s.source s.pos) = some 0x3D
    · rintro rfl
      have hsize := utf8ByteSize_of_slice ht
      simp only [LexState.read, (readAfterAttributeName_of_eq s.source s.pos he).1] at hsize
      simp at hsize
      omega
    · simp only [LexState.read, (readAfterAttributeName_of_ne s.source s.pos he).2.1] at h
      cases h
  · have hs := hlabel _ (by decide) h
    rw [hs] at ht
    exact eq_empty_of_slice_self ht

end Scanner

/-- Whether an event is a slot. -/
def LexEvent.isSlot : LexEvent → Bool
  | .token _ _ _ => false
  | .slot _ _ => true

/-- The text of an event: a token's text, nothing for a slot. -/
def LexEvent.text : LexEvent → String
  | .token _ _ text => text
  | .slot _ _ => ""

/-- Events as the scanner's state machine walks through literals, ending in state `last`.
`prev` is the state of the last token and `q` the state the scanner reads on in. Each token is
read in `q`, tagged with it (or, after a name, with the blanks it reads again) and fits the token
before it; a slot stands where a literal ran out, in the state of its last token, and the next
literal resumes there. -/
def Walk (last : LexState) : LexState → LexState → List LexEvent → Prop
  | prev, q, [] => q = .atEnd ∧ prev = last
  | prev, q, .token _ l text :: es =>
    q ≠ .atEnd ∧ (l = q ∨ q = .afterAttributeName ∧ l = .beforeAttributeName) ∧
      ∃ n, ReadToken.Fits prev ⟨l, text, n⟩ ∧ Walk last l n es
  | prev, q, .slot _ live :: es =>
    q = .atEnd ∧ live = prev ∧ prev.isLive = true ∧ Walk last prev prev es

namespace Scanner

theorem filter_stepsWithin_of_atEnd {s : Scanner} (fuel : Nat) (hq : s.state = .atEnd) :
    ((stepsWithin fuel s).map (·.token)).filter (·.state != .atEnd) = [] := by
  cases fuel with
  | zero => rfl
  | succ fuel => simp [stepsWithin_succ_of_atEnd fuel hq, step_atEnd hq]

theorem filter_states_stepsWithin_of_atEnd {s : Scanner} (fuel : Nat) (hq : s.state = .atEnd) :
    ((stepsWithin fuel s).map (·.token.state)).filter (· != .atEnd) = [] := by
  cases fuel with
  | zero => rfl
  | succ fuel => simp [stepsWithin_succ_of_atEnd fuel hq, step_atEnd hq]

theorem liveState_cons_of_atEnd {r : Step} {rest : List Step} (hr : r.token.state ≠ .atEnd)
    (hrest : (rest.map (·.token.state)).filter (· != .atEnd) = []) :
    liveState (r :: rest) = r.token.state := by
  simp [liveState, hr, hrest]

theorem liveState_cons_of_ne {r : Step} {rest : List Step}
    (hrest : (rest.map (·.token.state)).filter (· != .atEnd) ≠ []) :
    liveState (r :: rest) = liveState rest := by
  obtain ⟨x, hx⟩ : ∃ x, ((rest.map (·.token.state)).filter (· != .atEnd)).getLast? = some x :=
    Option.ne_none_iff_exists'.1 (by simpa [List.getLast?_eq_none_iff] using hrest)
  unfold liveState
  rw [List.map_cons, List.filter_cons]
  by_cases hr : r.token.state = .atEnd
  · simp [hr]
  · simp [hr, List.getLast?_cons, hx]

theorem slice_step {s : Scanner} (hp : s.Poised) (ha : s.Aligned) (hq : s.state ≠ .atEnd) :
    ∃ text, slice s.source s.step.token.start s.step.token.stop = .ok text := by
  rw [step_of_ne_atEnd hq]
  have hb := s.state.read_bounds hp.pos_le
  exact slice_isOk hb.1 hb.2 ha.boundary
    (s.state.read_isCharBoundary hp.pos_le ha.boundary ha.quote)

/-- The run of a scanner from a state but `atEnd`, to its end token, walks: its tokens have
texts, which put together are the rest of the source, and any walk on from the state of the
last token, after a literal ended there, continues it. -/
theorem walk_stepsWithin (i fuel : Nat) (s : Scanner) (prev : LexState) (hq : s.state ≠ .atEnd)
    (hp : s.Poised) (ha : s.Aligned) (he : s.Entered prev)
    (hend : (stepsWithin fuel s).getLast?.map (·.token.state) = some .atEnd) :
    ∃ evs, (((stepsWithin fuel s).map (·.token)).filter (·.state != .atEnd)).mapM
        (fun t => (slice s.source t.start t.stop).map (.token i t.state)) = .ok evs ∧
      (∀ e ∈ evs, e.isSlot = false) ∧
      slice s.source s.pos s.source.utf8ByteSize = .ok (String.join (evs.map LexEvent.text)) ∧
      (liveState (stepsWithin fuel s)).isLive = true ∧
      ∀ last rest, Walk last (liveState (stepsWithin fuel s)) .atEnd rest →
        Walk last prev s.state (evs ++ rest) := by
  induction fuel generalizing s prev with
  | zero => simp [stepsWithin] at hend
  | succ fuel ih =>
    have hne : s.step.token.state ≠ .atEnd := fun h => hq (step_state_eq_atEnd.1 h)
    rw [stepsWithin_succ_of_ne fuel hq] at hend ⊢
    obtain ⟨text, ht⟩ := slice_step hp ha hq
    have hfits := fits_step he hq ht
    have hlabel : s.step.token.state = s.state ∨ s.state = .afterAttributeName ∧
        s.step.token.state = .beforeAttributeName := by
      rw [step_of_ne_atEnd hq]
      rcases s.state.read_label s.source s.pos with h | ⟨h₁, h₂⟩
      · exact Or.inl h
      · exact Or.inr ⟨h₁, h₂⟩
    have hstart : s.step.token.start = s.pos := by rw [step_of_ne_atEnd hq]
    have hstop : s.step.token.stop = s.step.after.pos := by rw [step_of_ne_atEnd hq]
    rw [List.map_cons, List.filter_cons_of_pos (by simpa using hne), List.mapM_cons, ht]
    by_cases hn : s.step.after.state = .atEnd
    · -- the last token: after it the run gives only the end token
      have hnil := filter_stepsWithin_of_atEnd fuel hn
      have hstates := filter_states_stepsWithin_of_atEnd fuel hn
      have hsize : s.step.after.pos = s.source.utf8ByteSize := by
        rw [← step_source]
        exact hp.step.pos_of_atEnd hn
      rw [hnil, liveState_cons_of_atEnd hne hstates]
      refine ⟨[.token i s.step.token.state text], rfl, by simp [LexEvent.isSlot], ?_, ?_,
        fun last rest hrest => ?_⟩
      · rw [hstart, hstop, hsize] at ht
        simpa [LexEvent.text] using ht
      · exact LexState.isLive_of_atEnd_mem hne (hn ▸ hfits.next_mem)
      · exact ⟨hq, hlabel, _, hfits, hn ▸ hrest⟩
    · obtain ⟨evs, hevs, hall, htext, hlive, hwalk⟩ := ih s.step.after s.step.token.state hn hp.step
        (ha.step hp) (Entered.step hq) ((getLast?_cons_state hne).1 hend)
      -- the rest of the run starts with a token, so the last token's state is its own
      have hstates : ((stepsWithin fuel s.step.after).map (·.token.state)).filter
          (· != .atEnd) ≠ [] := by
        cases fuel with
        | zero => simp [stepsWithin, hne] at hend
        | succ fuel =>
          have hne' : s.step.after.step.token.state ≠ .atEnd :=
            fun h => hn (step_state_eq_atEnd.1 h)
          simp [stepsWithin_succ_of_ne fuel hn, hne']
      rw [step_source] at hevs htext
      rw [hevs, liveState_cons_of_ne hstates]
      refine ⟨.token i s.step.token.state text :: evs, rfl, ?_, ?_, hlive, fun last rest hrest => ?_⟩
      · simpa [LexEvent.isSlot] using hall
      · rw [hstart, hstop] at ht
        rw [slice_append ht htext, List.map_cons, String.join_cons]
        rfl
      · exact ⟨hq, hlabel, _, hfits, hwalk last rest hrest⟩

end Scanner

/-- The literals with texts between them, `l₀ ++ v₁ ++ l₁ ++ … ++ vₙ ++ lₙ`; a missing text is
empty. -/
def interleave : List String → List String → String
  | [], _ => ""
  | [l], _ => l
  | l :: ls, vs => l ++ vs.headD "" ++ interleave ls vs.tail

/-- The texts of events with the texts `vs`, in order, at their slots. -/
def spellEvents : List LexEvent → List String → String
  | [], _ => ""
  | .token _ _ text :: es, vs => text ++ spellEvents es vs
  | .slot _ _ :: es, vs => vs.headD "" ++ spellEvents es vs.tail

theorem spellEvents_append_tokens {evs : List LexEvent} (h : ∀ e ∈ evs, e.isSlot = false)
    (rest : List LexEvent) (vs : List String) :
    spellEvents (evs ++ rest) vs = String.join (evs.map LexEvent.text) ++ spellEvents rest vs := by
  induction evs with
  | nil => simp
  | cons e evs ih =>
    cases e with
    | token j q text =>
      rw [List.cons_append, spellEvents, ih (fun e he => h e (List.mem_cons_of_mem _ he)),
        List.map_cons, String.join_cons, String.append_assoc]
      rfl
    | slot j q => simp [LexEvent.isSlot] at h

/-- One literal scanned from a live state walks from it, and its token texts spell it. -/
theorem walk_literal (i : Nat) {q : LexState} (hq : q.isLive = true) (lit : String) :
    ∃ evs, LiteralScan.tokenEvents ⟨i, lit, q, (Scanner.start lit q).steps⟩ = .ok evs ∧
      (∀ e ∈ evs, e.isSlot = false) ∧ String.join (evs.map LexEvent.text) = lit ∧
      (liveState (Scanner.start lit q).steps).isLive = true ∧
      ∀ last rest, Walk last (liveState (Scanner.start lit q).steps) .atEnd rest →
        Walk last q q (evs ++ rest) := by
  have hne : q ≠ .atEnd := by
    rintro rfl
    simp [LexState.isLive] at hq
  obtain ⟨evs, hevs, hall, htext, hlive, hwalk⟩ := Scanner.walk_stepsWithin i _ _ q hne
    (Scanner.Poised.start lit q hne) (Scanner.Aligned.start lit q (fun h => by simp [h, LexState.isLive] at hq))
    (Scanner.Entered.start lit hq) (Scanner.steps_reach_end lit q)
  refine ⟨evs, hevs, hall, ?_, hlive, hwalk⟩
  have htext' : slice lit 0 lit.utf8ByteSize = .ok (String.join (evs.map LexEvent.text)) := htext
  rw [slice_zero_size] at htext'
  injection htext' with h
  exact h.symm

/-- The state the scans of a sequence of literals end in: the live state of the last literal. -/
def endState (scans : List LiteralScan) : LexState :=
  match scans.getLast? with
  | some ls => liveState ls.steps
  | none => .content

theorem endState_cons (ls : LiteralScan) {scans : List LiteralScan} (h : scans ≠ []) :
    endState (ls :: scans) = endState scans := by
  obtain ⟨x, hx⟩ := Option.ne_none_iff_exists'.1 (mt List.getLast?_eq_none_iff.1 h)
  simp [endState, List.getLast?_cons, hx]

/-- Literals scanned one after another from a live state: every literal has texts, the events
walk from that state to where the last literal ends, with one slot between each two literals, and spell the literals with the
values between them. -/
theorem walk_eventsOf (i : Nat) {q : LexState} (hq : q.isLive = true) {lits : List String}
    (hl : lits ≠ []) :
    ∃ events, eventsOf (scanFrom i q lits) = .ok events ∧
      Walk (endState (scanFrom i q lits)) q q events ∧
      events.countP LexEvent.isSlot = lits.length - 1 ∧
      ∀ vs, spellEvents events vs = interleave lits vs := by
  induction lits generalizing i q with
  | nil => exact absurd rfl hl
  | cons lit rest ih =>
    obtain ⟨evs, hevs, hall, htext, hlive, hwalk⟩ := walk_literal i hq lit
    have hcount : evs.countP LexEvent.isSlot = 0 := List.countP_eq_zero.2 (by simpa using hall)
    cases rest with
    | nil =>
      have hend : endState (scanFrom i q [lit]) = liveState (Scanner.start lit q).steps := rfl
      refine ⟨evs, (by rw [scanFrom, scanFrom, eventsOf]; exact hevs),
        by simpa [hend] using hwalk _ [] ⟨rfl, rfl⟩, by simpa using hcount, fun vs => ?_⟩
      rw [← List.append_nil evs, spellEvents_append_tokens hall, htext]
      simp [spellEvents, interleave]
    | cons lit' rest =>
      obtain ⟨later, hlater, hwalk', hcount', hspell⟩ := ih (i + 1) hlive (List.cons_ne_nil _ _)
      have hend : endState (scanFrom i q (lit :: lit' :: rest)) =
          endState (scanFrom (i + 1) (liveState (Scanner.start lit q).steps) (lit' :: rest)) :=
        endState_cons _ (by simp [scanFrom])
      refine ⟨evs ++ .slot i (liveState (Scanner.start lit q).steps) :: later, ?_,
        hend ▸ hwalk _ _ ⟨rfl, rfl, hlive, hwalk'⟩, ?_, fun vs => ?_⟩
      · simp only [scanFrom] at hlater ⊢
        rw [eventsOf, hevs, hlater]
        rfl
      · rw [List.countP_append, List.countP_cons, hcount, hcount']
        simp [LexEvent.isSlot]
      · rw [spellEvents_append_tokens hall, htext, spellEvents, hspell]
        show _ = lit ++ vs.headD "" ++ interleave (lit' :: rest) vs.tail
        simp [String.append_assoc]

/-- The events of any literals walk from `content` to where the last literal ends, with one
slot between each two literals, and spell the literals with the values between them. -/
theorem walk_tokenizeLiterals {lits : List String} (hl : lits ≠ []) :
    ∃ events, tokenizeLiterals lits = .ok events ∧
      Walk (endState (scanLiterals lits)) .content .content events ∧
      events.countP LexEvent.isSlot = lits.length - 1 ∧
      ∀ vs, spellEvents events vs = interleave lits vs :=
  walk_eventsOf 0 rfl hl

end HtmlTemplates.Markup
