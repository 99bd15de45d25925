import KepServerLogger.Lib.BinaryLog

/-!
# What the event expression matches

Nothing in the expression for an event can be matched in two ways, but for the
text between "Event started" and "Event complete". So the expression is read
here part by part: the tag, the opening up to "Event started", and the line
that ends the block. Each part is a structure of the texts that it takes, with
the rule that a text of this shape is taken as a whole, and the rule that
nothing else is.
-/

namespace KepServerLogger.Lib

open KepServerLogger.Py

/-- White space. -/
def Blank (w : List Char) : Prop := ∀ c ∈ w, isStrSpace c = true

theorem Blank.append {w w' : List Char} (h : Blank w) (h' : Blank w') : Blank (w ++ w') := by
  intro c hc
  exact (List.mem_append.mp hc).elim (h c) (h' c)

/-- Zeros, a colon and white space. -/
structure Mark where
  zeros : List Char
  gap : List Char
  zeros_ne : zeros ≠ []
  zeros_zero : ∀ c ∈ zeros, isZero c = true
  gap_ne : gap ≠ []
  gap_blank : Blank gap

def Mark.write (m : Mark) : List Char := m.zeros ++ ':' :: m.gap

/-- The line that ends a block. -/
def Mark.complete (m : Mark) : List Char := m.write ++ eventComplete

/-- White space with a line break in it. -/
structure LineEnd where
  text : List Char
  blank : Blank text
  newline : '\n' ∈ text

/-- What stands between the tag and the fields. -/
structure Opening (u : CharTables) where
  gap : List Char
  type : List Char
  lineEnd : LineEnd
  mark : Mark
  gap_ne : gap ≠ []
  gap_blank : Blank gap
  type_ne : type ≠ []
  type_word : ∀ c ∈ type, u.isWord c = true

def Opening.write {u : CharTables} (o : Opening u) : List Char :=
  o.gap ++ (o.type ++ (o.lineEnd.text ++ (o.mark.write ++ eventStarted)))

variable {u : CharTables} {ps : Pattern Char} {s x t : List Char}
  {r : List (List Char) × List Char}

/-! ## A line mark -/

theorem matchAt_lineMark (m : Mark) (hs : ∀ c ∈ s.head?, isStrSpace c = false)
    (hps : ∀ c, isStrSpace c = true → Pattern.Refuses ps c) :
    Pattern.matchAt (lineMark ++ ps) (m.write ++ s) = Pattern.matchAt ps s := by
  have hcolon : ∀ c, isZero c = true →
      Pattern.Refuses (.one (· = ':') :: .plus isStrSpace :: ps) c := by
    intro c hc
    obtain rfl : c = '0' := of_decide_eq_true hc
    exact Pattern.refuses_one (by decide)
  show Pattern.matchAt (.plus isZero :: .one (· = ':') :: .plus isStrSpace :: ps) _ = _
  rw [Mark.write, List.append_assoc, List.cons_append,
    Pattern.matchAt_plus m.zeros_ne m.zeros_zero (fun c hc => by cases hc; rfl) hcolon,
    Pattern.matchAt_one_cons, if_pos (by decide)]
  exact Pattern.matchAt_plus m.gap_ne m.gap_blank hs hps

theorem lineMark_eq_some (h : Pattern.matchAt (lineMark ++ ps) s = some r) :
    ∃ (m : Mark) (x : List Char), s = m.write ++ x ∧ Pattern.matchAt ps x = some r := by
  obtain ⟨zeros, x₁, g₁, rfl, hzeros, h₁, hr₁⟩ := Pattern.matchAt_cons_eq_some h
  obtain ⟨colon, x₂, g₂, rfl, hcolon, h₂, hr₂⟩ := Pattern.matchAt_cons_eq_some h₁
  obtain ⟨gap, x₃, g₃, rfl, hgap, h₃, hr₃⟩ := Pattern.matchAt_cons_eq_some h₂
  obtain ⟨c, rfl⟩ := List.length_eq_one_iff.mp hcolon.2
  obtain rfl : c = ':' := of_decide_eq_true (hcolon.1 c (List.mem_singleton_self c))
  refine ⟨⟨zeros, gap, hzeros.2, hzeros.1, hgap.2, hgap.1⟩, x₃, ?_, ?_⟩
  · simp [Mark.write]
  · have hr : r = (g₃, r.2) := Prod.ext (hr₁.trans (hr₂.trans hr₃)) rfl
    rw [hr]
    exact h₃

/-! ## The line that ends a block -/

theorem refuses_text {c : Char} {t : List Char} (h : ∀ x ∈ t.head?, x ≠ c) (ht : t ≠ []) :
    Pattern.Refuses (Pattern.text t ++ ps) c := by
  obtain ⟨x, t, rfl⟩ := List.exists_cons_of_ne_nil ht
  exact Pattern.refuses_one (decide_eq_false fun hc => h x rfl hc.symm)

theorem refuses_eventComplete (c : Char) (hc : isStrSpace c = true) :
    Pattern.Refuses (Pattern.text eventComplete ++ ps) c := by
  refine refuses_text (fun x hx => ?_) (by decide)
  obtain rfl : 'E' = x := Option.some.inj hx
  intro hEc
  subst hEc
  revert hc
  decide

theorem refuses_eventStarted (c : Char) (hc : isStrSpace c = true) :
    Pattern.Refuses (Pattern.text eventStarted ++ ps) c := by
  refine refuses_text (fun x hx => ?_) (by decide)
  obtain rfl : 'E' = x := Option.some.inj hx
  intro hEc
  subst hEc
  revert hc
  decide

theorem matchAt_completeRe (m : Mark) (x : List Char) :
    Pattern.matchAt completeRe (m.complete ++ x) = some ([], x) := by
  have hhead : ∀ c ∈ (eventComplete ++ x).head?, isStrSpace c = false := by
    intro c hc
    obtain rfl : 'E' = c := Option.some.inj hc
    decide
  have htext := Pattern.matchAt_text eventComplete [] x
  rw [List.append_nil] at htext
  rw [completeRe, Mark.complete, List.append_assoc, matchAt_lineMark m hhead, htext]
  · rfl
  · intro c hc
    have hrefuses := @refuses_eventComplete [] c hc
    rwa [List.append_nil] at hrefuses

theorem completeRe_eq_some (h : Pattern.matchAt completeRe s = some r) :
    ∃ m : Mark, s = m.complete ++ r.2 := by
  obtain ⟨m, x, rfl, hx⟩ := lineMark_eq_some h
  rw [← List.append_nil (Pattern.text eventComplete)] at hx
  obtain ⟨rest, rfl, hrest⟩ := Pattern.matchAt_text_eq_some hx
  cases hrest
  exact ⟨m, by rw [Mark.complete, List.append_assoc]⟩

/-! ## The opening -/

theorem ne_of_blank {c d : Char} (hc : isStrSpace c = true) (hd : isStrSpace d = false) :
    c ≠ d := by
  intro h
  rw [h, hd] at hc
  cases hc

theorem isZero_blank {c : Char} (hc : isStrSpace c = true) : isZero c = false :=
  decide_eq_false (ne_of_blank hc (by decide))

theorem not_blank_of_isZero {c : Char} (hc : isZero c = true) : isStrSpace c = false := by
  obtain rfl : c = '0' := of_decide_eq_true hc
  decide

theorem not_blank_of_isWord {c : Char} (hc : u.isWord c = true) : isStrSpace c = false := by
  rw [← Bool.not_eq_true]
  intro hspace
  rw [u.isWord_space hspace] at hc
  cases hc

theorem Mark.head_write (m : Mark) (s : List Char) : ∀ c ∈ (m.write ++ s).head?, isZero c = true := by
  obtain ⟨z, zeros, hzeros⟩ := List.exists_cons_of_ne_nil m.zeros_ne
  intro c hc
  rw [Mark.write, hzeros] at hc
  obtain rfl : z = c := Option.some.inj hc
  exact m.zeros_zero z (by rw [hzeros]; exact List.mem_cons_self)

theorem matchAt_lineEnd (e : LineEnd) (m : Mark) (s : List Char) :
    Pattern.matchAt (.star isStrSpace :: .one (· = '\n') :: .star isStrSpace :: (lineMark ++ ps))
        (e.text ++ (m.write ++ s)) =
      Pattern.matchAt (lineMark ++ ps) (m.write ++ s) := by
  have hsub : ∀ c, decide (c = '\n') = true → isStrSpace c = true := by
    intro c hc
    rw [of_decide_eq_true hc]
    decide
  have hrefuses : ∀ c, isStrSpace c = true → Pattern.Refuses (lineMark ++ ps) c :=
    fun c hc => Pattern.refuses_some rfl (isZero_blank hc)
  have hhead : ∀ c ∈ (m.write ++ s).head?, isStrSpace c = false :=
    fun c hc => not_blank_of_isZero (m.head_write s c hc)
  rw [Pattern.matchAt_run_with hsub e.blank hhead hrefuses, if_pos ⟨'\n', e.newline, rfl⟩]

theorem head_append_of_ne_nil {p : Char → Prop} (hne : t ≠ []) (h : ∀ c ∈ t, p c) :
    ∀ c ∈ (t ++ s).head?, p c := by
  obtain ⟨x, t, rfl⟩ := List.exists_cons_of_ne_nil hne
  intro c hc
  obtain rfl : x = c := Option.some.inj hc
  exact h x List.mem_cons_self

theorem matchAt_startedRe (o : Opening u) (x : List Char) :
    Pattern.matchAt (startedRe u ++ ps) (o.write ++ x) =
      (Pattern.matchAt ps x).map fun m => (o.type :: m.1, m.2) := by
  have htype : ∀ c ∈ (o.type ++ (o.lineEnd.text ++ (o.mark.write ++ (eventStarted ++ x)))).head?,
      isStrSpace c = false :=
    head_append_of_ne_nil o.type_ne fun c hc => not_blank_of_isWord (o.type_word c hc)
  have hend : ∀ c ∈ (o.lineEnd.text ++ (o.mark.write ++ (eventStarted ++ x))).head?,
      u.isWord c = false :=
    head_append_of_ne_nil (List.ne_nil_of_mem o.lineEnd.newline) fun c hc =>
      u.isWord_space (o.lineEnd.blank c hc)
  have hstarted : ∀ c ∈ (eventStarted ++ x).head?, isStrSpace c = false := by
    intro c hc
    obtain rfl : 'E' = c := Option.some.inj hc
    decide
  have hword : ∀ c, u.isWord c = true → Pattern.Refuses (.star isStrSpace :: .one (· = '\n') ::
      .star isStrSpace :: (lineMark ++ (Pattern.text eventStarted ++ ps))) c := by
    intro c hc
    refine Pattern.refuses_star (not_blank_of_isWord hc) (Pattern.refuses_one ?_)
    exact decide_eq_false fun h => ne_of_blank (by decide) (not_blank_of_isWord hc) h.symm
  show Pattern.matchAt (.plus isStrSpace :: .group (.plus u.isWord) :: .star isStrSpace ::
    .one (· = '\n') :: .star isStrSpace :: (lineMark ++ (Pattern.text eventStarted ++ ps))) _ = _
  simp only [Opening.write, List.append_assoc]
  rw [Pattern.matchAt_plus o.gap_ne o.gap_blank htype fun c hc =>
      Pattern.refuses_some rfl (u.isWord_space hc),
    Pattern.matchAt_group_plus o.type_ne o.type_word hend hword,
    matchAt_lineEnd, matchAt_lineMark _ hstarted refuses_eventStarted, Pattern.matchAt_text]

theorem startedRe_eq_some (h : Pattern.matchAt (startedRe u ++ ps) s = some r) :
    ∃ (o : Opening u) (x : List Char) (groups : List (List Char)), s = o.write ++ x ∧
      Pattern.matchAt ps x = some (groups, r.2) := by
  obtain ⟨gap, x₁, g₁, rfl, hgap, h₁, -⟩ := Pattern.matchAt_cons_eq_some h
  obtain ⟨type, x₂, g₂, rfl, htype, h₂, -⟩ := Pattern.matchAt_cons_eq_some h₁
  obtain ⟨before, x₃, g₃, rfl, hbefore, h₃, -⟩ := Pattern.matchAt_cons_eq_some h₂
  obtain ⟨newline, x₄, g₄, rfl, hnewline, h₄, -⟩ := Pattern.matchAt_cons_eq_some h₃
  obtain ⟨after, x₅, g₅, rfl, hafter, h₅, -⟩ := Pattern.matchAt_cons_eq_some h₄
  obtain ⟨m, x₆, rfl, h₆⟩ := @lineMark_eq_some (Pattern.text eventStarted ++ ps) _ _ h₅
  obtain ⟨x, rfl, hx⟩ := Pattern.matchAt_text_eq_some h₆
  obtain ⟨c, rfl⟩ := List.length_eq_one_iff.mp hnewline.2
  obtain rfl : c = '\n' := of_decide_eq_true (hnewline.1 c (List.mem_singleton_self c))
  have hblank : Blank (before ++ ['\n'] ++ after) := by
    refine Blank.append (Blank.append hbefore.1 fun c hc => ?_) hafter.1
    rw [List.mem_singleton.mp hc]
    decide
  refine ⟨⟨gap, type, ⟨before ++ ['\n'] ++ after, hblank, by simp⟩, m, hgap.2, hgap.1, htype.2,
    htype.1⟩, x, _, ?_, hx⟩
  simp only [Opening.write, List.append_assoc]

/-! ## The tag -/

theorem refuses_bracket {c : Char} (h : c ≠ '[') : Pattern.Refuses (bracketRe ++ ps) c :=
  Pattern.refuses_one (decide_eq_false h)

/-- A bracket that is closed on its line. -/
theorem matchAt_bracketRe (hne : t ≠ []) (ht : ∀ c ∈ t, inBrackets c = true) (x : List Char) :
    Pattern.matchAt (bracketRe ++ ps) ('[' :: (t ++ ']' :: x)) =
      (Pattern.matchAt ps x).map fun m => (t :: m.1, m.2) := by
  have hclose : ∀ c, inBrackets c = true → Pattern.Refuses (.one (· = ']') :: ps) c := by
    intro c hc
    refine Pattern.refuses_one (decide_eq_false fun h => ?_)
    rw [h] at hc
    exact absurd hc (by decide)
  have hhead : ∀ c ∈ (']' :: x).head?, inBrackets c = false := by
    intro c hc
    obtain rfl : ']' = c := Option.some.inj hc
    decide
  show Pattern.matchAt (.one (· = '[') :: .group (.plus inBrackets) :: .one (· = ']') :: ps) _ = _
  rw [Pattern.matchAt_one_cons, if_pos (by decide), Pattern.matchAt_group_plus hne ht hhead hclose,
    Pattern.matchAt_one_cons, if_pos (by decide)]

theorem bracketRe_eq_some (h : Pattern.matchAt (bracketRe ++ ps) s = some r) :
    ∃ (t x : List Char) (groups : List (List Char)), s = '[' :: (t ++ ']' :: x) ∧ t ≠ [] ∧
      (∀ c ∈ t, inBrackets c = true) ∧ Pattern.matchAt ps x = some (groups, r.2) := by
  obtain ⟨opened, x₁, g₁, rfl, hopen, h₁, -⟩ := Pattern.matchAt_cons_eq_some h
  obtain ⟨t, x₂, g₂, rfl, ht, h₂, -⟩ := Pattern.matchAt_cons_eq_some h₁
  obtain ⟨closed, x₃, g₃, rfl, hclose, h₃, -⟩ := Pattern.matchAt_cons_eq_some h₂
  obtain ⟨c, rfl⟩ := List.length_eq_one_iff.mp hopen.2
  obtain ⟨d, rfl⟩ := List.length_eq_one_iff.mp hclose.2
  obtain rfl : c = '[' := of_decide_eq_true (hopen.1 c (List.mem_singleton_self c))
  obtain rfl : d = ']' := of_decide_eq_true (hclose.1 d (List.mem_singleton_self d))
  exact ⟨t, x₃, g₃, rfl, ht.2, ht.1, h₃⟩

end KepServerLogger.Lib
