import KepServerLogger.Proofs.EventScan

/-!
# Blocks of any content

A block, as far as the event expression asks: a tag, an opening, any text, and
a closing line. What the text is does not matter, but for one thing: the block
is complete where the first closing line in it is its own.

A closing line has a bracket nowhere, a zero only after zeros, and does not end
in white space. So it does not reach over the end of a block, and none that
begins before another ends after it.
-/

namespace KepServerLogger.Lib

open KepServerLogger.Py

/-- The text of an event. -/
structure EventText (u : CharTables) where
  tag : List Char
  tag_ne : tag ≠ []
  tag_inBrackets : ∀ c ∈ tag, inBrackets c = true
  opening : Opening u
  body : List Char
  closing : Mark

variable {u : CharTables}

namespace EventText

/-- The text up to "Event started". -/
def head (b : EventText u) : List Char := '[' :: (b.tag ++ ']' :: b.opening.write)

def write (b : EventText u) : List Char :=
  '[' :: (b.tag ++ ']' :: (b.opening.write ++ (b.body ++ b.closing.complete)))

/-- The closing line is the first that there is. -/
def First (b : EventText u) (rest : List Char) : Prop :=
  ∀ a c, b.body = a ++ c → c ≠ [] → ∀ (m : Mark) (x : List Char),
    c ++ (b.closing.complete ++ rest) ≠ m.complete ++ x

def event (b : EventText u) : OpcEvent :=
  let fields := fieldsOf u b.body
  { timestamp := fields.getD "timestamp (UTC)" ""
    session_tag := String.ofList (strip b.tag)
    event_type := String.ofList b.opening.type
    fields }

end EventText

/-- There is a closing line somewhere in the text. -/
def Closes (s : List Char) : Prop := ∃ a x, ∃ m : Mark, s = a ++ (m.complete ++ x)

/-- A complete block: a closing line ends it, and none is in the text before. The
zeros before the colon are the closing line's. -/
structure EventBlock (u : CharTables) extends EventText u where
  body_open : ¬ Closes body
  body_zeros : ∀ c ∈ body.getLast?, isZero c = false

/-! ## What a closing line is made of -/

theorem not_mem_of_blank {w : List Char} {c : Char} (hw : Blank w) (hc : isStrSpace c = false) :
    c ∉ w := by
  intro hmem
  rw [hw c hmem] at hc
  cases hc

theorem not_mem_of_not_blank {l : List Char} {c : Char} (hl : ∀ x ∈ l, isStrSpace x = false)
    (hc : isStrSpace c = true) : c ∉ l := by
  intro hmem
  rw [hl c hmem] at hc
  cases hc

theorem not_mem_zeros {m : Mark} {c : Char} (hc : isZero c = false) : c ∉ m.zeros := by
  intro hmem
  rw [m.zeros_zero c hmem] at hc
  cases hc

theorem Mark.bracket_not_mem_write (m : Mark) : '[' ∉ m.write := by
  unfold Mark.write
  rw [List.mem_append, List.mem_cons, not_or, not_or]
  exact ⟨not_mem_zeros (by decide), by decide, not_mem_of_blank m.gap_blank (by decide)⟩

theorem Mark.bracket_not_mem_complete (m : Mark) : '[' ∉ m.complete := by
  unfold Mark.complete
  rw [List.mem_append, not_or]
  exact ⟨m.bracket_not_mem_write, by decide⟩

theorem Opening.bracket_not_mem_write (o : Opening u) : '[' ∉ o.write := by
  have hword : '[' ∉ o.type := by
    intro hmem
    have hbracket := o.type_word _ hmem
    rw [CharTables.isWord, u.alnum_ascii _ (by decide)] at hbracket
    exact absurd hbracket (by decide)
  unfold Opening.write
  simp only [List.mem_append, not_or]
  exact ⟨not_mem_of_blank o.gap_blank (by decide), hword,
    not_mem_of_blank o.lineEnd.blank (by decide), o.mark.bracket_not_mem_write, by decide⟩

/-- The text does not end in white space. -/
def Solid (l : List Char) : Prop := ∃ front c, l = front ++ [c] ∧ isStrSpace c = false

theorem Mark.solid_complete (m : Mark) : Solid m.complete := by
  refine ⟨m.write ++ "Event complet".toList, 'e', ?_, by decide⟩
  rw [Mark.complete, List.append_assoc]
  rfl

theorem Opening.solid_write (o : Opening u) : Solid o.write := by
  refine ⟨o.gap ++ (o.type ++ (o.lineEnd.text ++ (o.mark.write ++ "Event starte".toList))), 'd', ?_,
    by decide⟩
  simp only [Opening.write, List.append_assoc]
  rfl

/-- Such a text stops before white space. -/
theorem Solid.prefix_of_append {l a w : List Char} (hl : Solid l) (hw : Blank w)
    (h : l <+: a ++ w) : l <+: a := by
  obtain ⟨front, c, rfl, hc⟩ := hl
  rcases prefix_append_cases h with h | ⟨d, mid, hfront, hmid⟩
  · exact h
  · have hlast : c ∈ d :: mid := by
      have hget := congrArg List.getLast? hfront
      rw [List.getLast?_concat, List.getLast?_append_cons] at hget
      exact List.mem_of_getLast? hget.symm
    rw [hw c (hmid.subset hlast)] at hc
    cases hc

/-- A text without a bracket stops before a bracket. -/
theorem prefix_of_append_bracket {l a x : List Char} (hl : '[' ∉ l)
    (hx : ∀ c ∈ x.head?, c = '[') (h : l <+: a ++ x) : l <+: a := by
  rcases prefix_append_cases h with h | ⟨c, mid, rfl, y, rfl⟩
  · exact h
  · obtain rfl : c = '[' := hx c rfl
    exact absurd (by simp) hl

/-- Only zeros stand before a zero. -/
theorem Mark.zeros_before {m : Mark} {a b : List Char} (h : m.complete = a ++ '0' :: b) :
    ∀ c ∈ a, isZero c = true := by
  have hzero : '0' ∉ ':' :: (m.gap ++ eventComplete) := by
    rw [List.mem_cons, List.mem_append, not_or, not_or]
    exact ⟨by decide, not_mem_of_blank m.gap_blank (by decide), by decide⟩
  have h : m.zeros ++ (':' :: (m.gap ++ eventComplete)) = a ++ '0' :: b := by
    rw [← h, Mark.complete, Mark.write, List.append_assoc, List.cons_append]
  rcases List.append_eq_append_iff.mp h with ⟨mid, -, hmid⟩ | ⟨mid, hzeros, -⟩
  · exact absurd (by rw [hmid]; simp) hzero
  · intro c hc
    exact m.zeros_zero c (by rw [hzeros]; exact List.mem_append_left _ hc)

theorem head_colon (s : List Char) : ∀ c ∈ (':' :: s).head?, isZero c = false := by
  intro c hc
  cases hc
  rfl

theorem head_eventComplete (s : List Char) :
    ∀ c ∈ (eventComplete ++ s).head?, isStrSpace c = false := by
  intro c hc
  cases hc
  rfl

/-- Zeros before a closing line make a closing line, and this ends where it ends. -/
theorem Mark.complete_inj {m m' : Mark} {zeros x x' : List Char}
    (hzeros : ∀ c ∈ zeros, isZero c = true) (h : zeros ++ (m.complete ++ x) = m'.complete ++ x') :
    x = x' := by
  have h : (zeros ++ m.zeros) ++ ':' :: (m.gap ++ (eventComplete ++ x)) =
      m'.zeros ++ ':' :: (m'.gap ++ (eventComplete ++ x')) := by
    simpa [Mark.complete, Mark.write] using h
  have hall : ∀ c ∈ zeros ++ m.zeros, isZero c = true := fun c hc =>
    (List.mem_append.mp hc).elim (hzeros c) (m.zeros_zero c)
  obtain ⟨-, h⟩ := run_inj hall m'.zeros_zero (head_colon _) (head_colon _) h
  obtain ⟨-, h⟩ := List.cons.inj h
  obtain ⟨-, h⟩ := run_inj m.gap_blank m'.gap_blank (head_eventComplete _) (head_eventComplete _) h
  exact List.append_cancel_left h

/-! ## Where there is a closing line -/

theorem matchAt_completeRe_eq_none {s : List Char} (h : ∀ (m : Mark) (x : List Char),
    s ≠ m.complete ++ x) : Pattern.matchAt completeRe s = none := by
  cases hmatch : Pattern.matchAt completeRe s with
  | none => rfl
  | some r =>
      obtain ⟨m, hs⟩ := completeRe_eq_some hmatch
      exact absurd hs (h m r.2)

theorem refuses_completeRe {c : Char} (hc : isZero c = false) : Pattern.Refuses completeRe c :=
  Pattern.refuses_some rfl hc

theorem avoids_blank {w rest : List Char} (hw : Blank w) : Pattern.Avoids completeRe w rest :=
  .of_refuses fun c hc => refuses_completeRe (isZero_blank (hw c hc))

theorem isSome_completeRe {s : List Char} :
    (Pattern.matchAt completeRe s).isSome ↔ ∃ (m : Mark) (x : List Char), s = m.complete ++ x := by
  constructor
  · intro h
    obtain ⟨r, hr⟩ := Option.isSome_iff_exists.mp h
    obtain ⟨m, hs⟩ := completeRe_eq_some hr
    exact ⟨m, r.2, hs⟩
  · intro h
    obtain ⟨m, x, rfl⟩ := h
    rw [matchAt_completeRe]
    rfl

theorem closes_iff {s : List Char} :
    Closes s ↔ (Pattern.matchAt (Pattern.anyLazily :: completeRe) s).isSome := by
  rw [Pattern.isSome_anyLazily]
  constructor
  · intro h
    obtain ⟨a, x, m, rfl⟩ := h
    exact ⟨a, m.complete ++ x, rfl, isSome_completeRe.mpr ⟨m, x, rfl⟩⟩
  · intro h
    obtain ⟨a, y, rfl, hy⟩ := h
    obtain ⟨m, x, rfl⟩ := isSome_completeRe.mp hy
    exact ⟨a, x, m, rfl⟩

theorem closes_append_iff {t rest : List Char} (h : Pattern.Avoids completeRe t rest) :
    Closes (t ++ rest) ↔ Closes rest := by
  rw [closes_iff, closes_iff, Pattern.matchAt_cons, Pattern.matchAt_cons, Option.isSome_map,
    Option.isSome_map]
  show (Piece.lazily (fun _ => true) _ (t ++ rest)).isSome ↔
    (Piece.lazily (fun _ => true) _ rest).isSome
  rw [Pattern.lazily_avoids h, Option.isSome_map]

instance (s : List Char) : Decidable (Closes s) := decidable_of_iff _ closes_iff.symm

/-! ## The match of a block -/

theorem EventText.first_iff {b : EventText u} {rest : List Char} :
    b.First rest ↔ Pattern.Avoids completeRe b.body (b.closing.complete ++ rest) := by
  constructor
  · intro h a c hac hne
    exact matchAt_completeRe_eq_none (h a c hac hne)
  · intro h a c hac hne m x heq
    have hnone := h a c hac hne
    rw [heq, matchAt_completeRe] at hnone
    cases hnone

theorem EventText.write_append (b : EventText u) (rest : List Char) :
    b.write ++ rest =
      '[' :: (b.tag ++ ']' :: (b.opening.write ++ (b.body ++ (b.closing.complete ++ rest)))) := by
  simp [EventText.write]

/-- The closing line of a complete block is the first, whatever comes after it. -/
theorem EventBlock.first (b : EventBlock u) (rest : List Char) : b.First rest := by
  intro a c hbody hne m x h
  rcases prefix_append_cases ⟨x, h.symm⟩ with ⟨y, rfl⟩ | ⟨d, mid, hcomplete, y, hy⟩
  · exact b.body_open ⟨a, y, m, hbody⟩
  · -- it reaches into the closing line, so that only zeros stand before that
    have hd : isZero d = true := by
      refine b.closing.head_write (eventComplete ++ rest) d ?_
      rw [← List.append_assoc, ← Mark.complete, ← hy]
      rfl
    obtain rfl : d = '0' := of_decide_eq_true hd
    obtain ⟨front, z, rfl⟩ := List.eq_nil_or_concat c |>.resolve_left hne
    have hz := m.zeros_before hcomplete z (by simp)
    have hlast := b.body_zeros z (by simp [hbody])
    rw [hz] at hlast
    cases hlast

/-- No text without a closing line in it is left out: zeros at its end belong to the
line that comes. -/
theorem EventText.exists_eventBlock (b : EventText u) (h : ¬ Closes b.body) :
    ∃ b' : EventBlock u, b'.write = b.write := by
  obtain ⟨tag, tag_ne, tag_in, opening, body, closing⟩ := b
  induction body using List.reverseRecOn generalizing closing with
  | nil => exact ⟨⟨⟨tag, tag_ne, tag_in, opening, [], closing⟩, h, by simp⟩, rfl⟩
  | append_singleton front c ih =>
      by_cases hc : isZero c = true
      · have hfront : ¬ Closes front := by
          rintro ⟨a, x, m, rfl⟩
          exact h ⟨a, x ++ [c], m, by simp⟩
        have hzeros : ∀ z ∈ c :: closing.zeros, isZero z = true := by
          intro z hz
          rcases List.mem_cons.mp hz with rfl | hz
          · exact hc
          · exact closing.zeros_zero z hz
        obtain ⟨b', hb'⟩ := ih { closing with
          zeros := c :: closing.zeros
          zeros_ne := List.cons_ne_nil _ _
          zeros_zero := hzeros } hfront
        refine ⟨b', hb'.trans ?_⟩
        simp [EventText.write, Mark.complete, Mark.write]
      · exact ⟨⟨⟨tag, tag_ne, tag_in, opening, front ++ [c], closing⟩, h, by simpa using hc⟩, rfl⟩

/-- From "Event started" on, the match goes to the first closing line. -/
theorem EventText.matchAt_head (b : EventText u) (x : List Char) :
    Pattern.matchAt (logEventRe u) (b.head ++ x) =
      (Pattern.matchAt (Pattern.anyLazily :: completeRe) x).map fun m =>
        (b.tag :: b.opening.type :: m.1, m.2) := by
  have hhead : b.head ++ x = '[' :: (b.tag ++ ']' :: (b.opening.write ++ x)) := by
    simp [EventText.head]
  rw [hhead, logEventRe, matchAt_bracketRe b.tag_ne b.tag_inBrackets, matchAt_startedRe,
    Option.map_map]
  rfl

theorem EventText.matchAt_write {b : EventText u} {rest : List Char} (hfirst : b.First rest) :
    Pattern.matchAt (logEventRe u) (b.write ++ rest) =
      some ([b.tag, b.opening.type, b.body], rest) := by
  have hwrite : b.write ++ rest = b.head ++ (b.body ++ (b.closing.complete ++ rest)) := by
    simp [EventText.write, EventText.head]
  rw [hwrite, b.matchAt_head, Pattern.matchAt_anyLazily (EventText.first_iff.mp hfirst)
    (matchAt_completeRe b.closing rest)]
  rfl

theorem strip_word {w : List Char} (h : ∀ c ∈ w, u.isWord c = true) : strip w = w :=
  stripBy_eq_self fun c hc => not_blank_of_isWord (h c hc)

theorem eventOf_eventText (b : EventText u) (start stop : Nat) :
    eventOf u ⟨start, stop, [b.tag, b.opening.type, b.body]⟩ = b.event := by
  unfold eventOf EventText.event group
  simp only [List.getD_cons_zero, List.getD_cons_succ, strip_word b.opening.type_word]

end KepServerLogger.Lib
