import KepServerLogger.Proofs.EventBlocks

/-!
# Blocks as they are written

A block as the server writes it: a tag, an opening, a line for each field and a
closing line. A block that is valid carries with it what makes it readable: its
keys are keys, and nothing in the text of a field looks like the end of a block
or like the beginning of a field.

From this two facts follow about the text between "Event started" and the
closing line: no closing line begins in it, so that this is a complete block
like any other, and the field expression splits it at the fields and nowhere
else.
-/

namespace KepServerLogger.Lib

open KepServerLogger.Py

/-- What introduces a field. -/
def fieldMark : List Char := "0000000000:".toList

/-- A key and its value. -/
structure LogField (u : CharTables) where
  key : List Char
  value : List Char
  key_ne : key ≠ []
  key_trimmed : strip key = key
  key_colon : ':' ∉ key
  key_digit : ∀ c ∈ key.head?, u.isDigit c = false
  key_heading : key ∉ headings
  value_ne : value ≠ []
  value_trimmed : strip value = value
  complete_start : ¬ eventComplete <+: key ++ ':' :: ' ' :: value
  complete_inside : ∀ m : Mark, ¬ m.complete <:+: key ++ ':' :: ' ' :: value
  mark_inside : ¬ fieldMark <:+: key ++ ':' :: ' ' :: value

structure FieldLine (u : CharTables) where
  field : LogField u
  gap : List Char
  gap_blank : Blank gap
  lineEnd : LineEnd

structure Block (u : CharTables) where
  tag : List Char
  tag_ne : tag ≠ []
  tag_trimmed : strip tag = tag
  tag_inBrackets : ∀ c ∈ tag, inBrackets c = true
  opening : Opening u
  startedEnd : LineEnd
  lines : List (FieldLine u)
  closing : Mark

variable {u : CharTables}

/-- The text `key: value` -/
def LogField.text (f : LogField u) : List Char := f.key ++ ':' :: ' ' :: f.value

/-- The line after the mark. -/
def FieldLine.rest (l : FieldLine u) : List Char := l.gap ++ (l.field.text ++ l.lineEnd.text)

def FieldLine.write (l : FieldLine u) : List Char := fieldMark ++ l.rest

namespace Block

/-- The text up to "Event started". -/
def head (b : Block u) : List Char := '[' :: (b.tag ++ ']' :: b.opening.write)

/-- The text between "Event started" and the closing line. -/
def body (b : Block u) : List Char := b.startedEnd.text ++ b.lines.flatMap FieldLine.write

def write (b : Block u) : List Char := b.head ++ (b.body ++ b.closing.complete)

/-- The first value of every key. -/
def fields (b : Block u) : Dict String String :=
  b.lines.foldl (fun fields l =>
    fields.setdefault (String.ofList l.field.key) (String.ofList l.field.value)) ∅

/-- The event that the block records. -/
def event (b : Block u) : OpcEvent where
  timestamp := b.fields.getD "timestamp (UTC)" ""
  session_tag := String.ofList b.tag
  event_type := String.ofList b.opening.type
  fields := b.fields

end Block

/-! ## No closing line begins in a field -/

theorem not_blank_head_of_strip {l s : List Char} (hne : l ≠ []) (h : strip l = l) :
    ∀ c ∈ (l ++ s).head?, isStrSpace c = false := by
  obtain ⟨x, l, rfl⟩ := List.exists_cons_of_ne_nil hne
  exact (stripBy_eq_self_iff.mp h).1

namespace LogField

variable (f : LogField u)

theorem head_text (s : List Char) : ∀ c ∈ (f.text ++ s).head?, isStrSpace c = false := by
  rw [LogField.text, List.append_assoc]
  exact not_blank_head_of_strip f.key_ne f.key_trimmed

/-- The text does not begin as a closing line goes on. -/
theorem text_append_ne (s x : List Char) : f.text ++ s ≠ eventComplete ++ x := by
  intro h
  rcases List.append_eq_append_iff.mp h with ⟨mid, hmid, -⟩ | ⟨mid, hmid, -⟩
  · have hcolon : ':' ∈ eventComplete := by
      rw [hmid, LogField.text]
      simp
    exact absurd hcolon (by decide)
  · exact f.complete_start ⟨mid, hmid.symm⟩

end LogField

/-- What comes after the last line of a field: another mark, another block, or
nothing. -/
def LineStart (s : List Char) : Prop := ∀ c ∈ s.head?, c = '0' ∨ c = '['

theorem avoids_fieldMark (l : FieldLine u) (rest : List Char) :
    Pattern.Avoids completeRe fieldMark (l.rest ++ rest) := by
  intro a b hab hne
  refine matchAt_completeRe_eq_none fun m x h => ?_
  -- what is left of the mark is zeros and the colon
  obtain ⟨zeros, hzeros, rfl⟩ : ∃ zeros, (∀ c ∈ zeros, isZero c = true) ∧ b = zeros ++ [':'] := by
    have hmark : List.replicate 10 '0' ++ [':'] = a ++ b := hab
    rcases List.append_eq_append_iff.mp hmark with ⟨mid, rfl, hmid⟩ | ⟨mid, hmid, rfl⟩
    · cases mid with
      | nil => exact ⟨[], by simp, hmid.symm⟩
      | cons c mid =>
          obtain ⟨-, hnil⟩ := List.cons.inj hmid
          exact absurd (List.append_eq_nil_iff.mp hnil.symm).2 hne
    · refine ⟨mid, fun c hc => ?_, rfl⟩
      have hmem : c ∈ List.replicate 10 '0' := by
        rw [hmid]
        exact List.mem_append_right _ hc
      rw [List.eq_of_mem_replicate hmem]
      decide
  have h : zeros ++ ':' :: (l.rest ++ rest) = m.zeros ++ ':' :: (m.gap ++ (eventComplete ++ x)) := by
    simpa [Mark.complete, Mark.write] using h
  obtain ⟨-, h⟩ := run_inj hzeros m.zeros_zero (head_colon _) (head_colon _) h
  obtain ⟨-, h⟩ := List.cons.inj h
  simp only [FieldLine.rest, List.append_assoc] at h
  obtain ⟨-, h⟩ := run_inj l.gap_blank m.gap_blank (l.field.head_text _) (head_eventComplete x) h
  exact l.field.text_append_ne _ _ h

/-- A closing line does not reach over the end of a line. -/
theorem prefix_of_lineEnd {m : Mark} {b rest : List Char} (e : LineEnd) (hrest : LineStart rest)
    (h : m.complete <+: b ++ (e.text ++ rest)) : m.complete <+: b := by
  rw [← List.append_assoc] at h
  refine m.solid_complete.prefix_of_append e.blank ?_
  rcases prefix_append_cases h with h | ⟨c, mid, hcomplete, y, rfl⟩
  · exact h
  · rcases hrest c rfl with rfl | rfl
    · have hzero := Mark.zeros_before hcomplete '\n' (List.mem_append_right _ e.newline)
      exact absurd hzero (by decide)
    · exact absurd (by rw [hcomplete]; simp) m.bracket_not_mem_complete

theorem avoids_text (f : LogField u) (e : LineEnd) {rest : List Char} (hrest : LineStart rest) :
    Pattern.Avoids completeRe f.text (e.text ++ rest) := by
  intro a b hab _
  refine matchAt_completeRe_eq_none fun m x h => ?_
  obtain ⟨y, hy⟩ := prefix_of_lineEnd e hrest ⟨x, h.symm⟩
  refine f.complete_inside m ⟨a, y, ?_⟩
  rw [List.append_assoc, hy]
  exact hab.symm

theorem avoids_line (l : FieldLine u) {rest : List Char} (hrest : LineStart rest) :
    Pattern.Avoids completeRe l.write rest := by
  refine (avoids_fieldMark l rest).append ?_
  refine Pattern.Avoids.append (avoids_blank l.gap_blank) (Pattern.Avoids.append ?_ ?_)
  · exact avoids_text l.field l.lineEnd hrest
  · exact avoids_blank l.lineEnd.blank

theorem avoids_lines (lines : List (FieldLine u)) {rest : List Char} (hrest : LineStart rest) :
    Pattern.Avoids completeRe (lines.flatMap FieldLine.write) rest ∧
      LineStart (lines.flatMap FieldLine.write ++ rest) := by
  induction lines with
  | nil => exact ⟨.nil, hrest⟩
  | cons l lines ih =>
      rw [List.flatMap_cons]
      refine ⟨Pattern.Avoids.append (avoids_line l ih.2) ih.1, fun c hc => .inl ?_⟩
      cases hc
      rfl

/-- No closing line begins between "Event started" and the one of the block. -/
theorem Block.avoids_body (b : Block u) {rest : List Char} (hrest : LineStart rest) :
    Pattern.Avoids completeRe b.body rest :=
  Pattern.Avoids.append (avoids_blank b.startedEnd.blank) (avoids_lines b.lines hrest).1

/-! ## The fields are read back -/

theorem fieldMark_not_blank : ∀ c ∈ fieldMark, isStrSpace c = false := by
  have hall : fieldMark.all (!isStrSpace ·) = true := rfl
  simpa using hall

theorem logFieldSplitRe_eq : logFieldSplitRe = Pattern.text fieldMark ++ [] := rfl

theorem matchAt_logFieldSplitRe (x : List Char) :
    Pattern.matchAt logFieldSplitRe (fieldMark ++ x) = some ([], x) := by
  rw [logFieldSplitRe_eq, Pattern.matchAt_text]
  rfl

theorem logFieldSplitRe_avoids_blank {w rest : List Char} (hw : Blank w) :
    Pattern.Avoids logFieldSplitRe w rest :=
  .of_refuses fun c hc => Pattern.refuses_one (isZero_blank (hw c hc))

/-- A mark has no white space in it, so it does not reach into the end of a line. -/
theorem logFieldSplitRe_avoids_text (f : LogField u) (e : LineEnd) (rest : List Char) :
    Pattern.Avoids logFieldSplitRe f.text (e.text ++ rest) := by
  intro a b hab _
  cases hmatch : Pattern.matchAt logFieldSplitRe (b ++ (e.text ++ rest)) with
  | none => rfl
  | some r =>
      rw [logFieldSplitRe_eq] at hmatch
      obtain ⟨y, hy, -⟩ := Pattern.matchAt_text_eq_some hmatch
      have hinside : fieldMark <+: b := by
        rcases prefix_append_cases ⟨y, hy.symm⟩ with h | ⟨c, mid, hmark, z, hz⟩
        · exact h
        · obtain ⟨d, e', he⟩ := List.exists_cons_of_ne_nil (List.ne_nil_of_mem e.newline)
          rw [he] at hz
          obtain ⟨rfl, -⟩ := List.cons.inj hz
          have hblank := e.blank c (by rw [he]; exact List.mem_cons_self)
          have hmem : c ∈ fieldMark := by
            rw [hmark]
            simp
          exact absurd hmem (not_mem_of_not_blank fieldMark_not_blank hblank)
      obtain ⟨z, hz⟩ := hinside
      exact absurd ⟨a, z, by rw [List.append_assoc, hz]; exact hab.symm⟩ f.mark_inside

theorem logFieldSplitRe_avoids_rest (l : FieldLine u) (rest : List Char) :
    Pattern.Avoids logFieldSplitRe l.rest rest := by
  refine Pattern.Avoids.append (logFieldSplitRe_avoids_blank l.gap_blank)
    (Pattern.Avoids.append ?_ (logFieldSplitRe_avoids_blank l.lineEnd.blank))
  exact logFieldSplitRe_avoids_text l.field l.lineEnd rest

theorem split_lines {t : List Char} (ht : ∀ rest, Pattern.Avoids logFieldSplitRe t rest)
    (lines : List (FieldLine u)) :
    Pattern.split logFieldSplitRe (t ++ lines.flatMap FieldLine.write) =
      t :: lines.map FieldLine.rest := by
  induction lines generalizing t with
  | nil =>
      rw [List.flatMap_nil, List.append_nil]
      exact Pattern.split_self (ht [])
  | cons l lines ih =>
      rw [List.flatMap_cons, FieldLine.write, List.append_assoc,
        Pattern.split_match (ht _) (by decide) (matchAt_logFieldSplitRe _),
        ih (logFieldSplitRe_avoids_rest l), List.map_cons]

theorem extractFieldBinary_blank {w : List Char} (hw : Blank w) :
    extractFieldBinary u w = none := by
  have hstrip : strip w = [] := stripBy_eq_nil hw
  unfold extractFieldBinary
  simp only [hstrip, true_or, if_true]

namespace LogField

variable (f : LogField u)

theorem strip_text : strip f.text = f.text := by
  refine stripBy_eq_self_iff.mpr ⟨?_, ?_⟩
  · have hhead := f.head_text []
    rwa [List.append_nil] at hhead
  · have hlast := (stripBy_eq_self_iff.mp f.value_trimmed).2
    intro c hc
    refine hlast c ?_
    rw [LogField.text, List.getLast?_append, List.getLast?_cons_cons,
      List.getLast?_cons_of_ne_nil f.value_ne] at hc
    simpa [f.value_ne] using hc

theorem before_colon : ∀ c ∈ f.key, decide (c ≠ ':') = true := by
  intro c hc
  refine decide_eq_true fun h => f.key_colon ?_
  rw [← h]
  exact hc

theorem takeWhile_text : f.text.takeWhile (· ≠ ':') = f.key := by
  rw [LogField.text, List.takeWhile_append_of_pos f.before_colon, List.takeWhile_cons_of_neg (by simp),
    List.append_nil]

theorem dropWhile_text : f.text.dropWhile (· ≠ ':') = ':' :: ' ' :: f.value := by
  rw [LogField.text, List.dropWhile_append_of_pos f.before_colon, List.dropWhile_cons_of_neg (by simp)]

theorem colon_mem_text : ':' ∈ f.text := List.mem_append_right _ List.mem_cons_self

theorem strip_value : strip (' ' :: f.value) = f.value := by
  have hspace : Blank [' '] := by
    intro c hc
    rw [List.mem_singleton.mp hc]
    decide
  have hstrip : strip ([' '] ++ (f.value ++ [])) = strip f.value :=
    stripBy_append hspace (by simp) f.value
  rw [List.append_nil] at hstrip
  exact hstrip.trans f.value_trimmed

end LogField

theorem extractFieldBinary_rest (l : FieldLine u) :
    extractFieldBinary u l.rest =
      some (String.ofList l.field.key, String.ofList l.field.value) := by
  have hstrip : strip l.rest = l.field.text :=
    (stripBy_append l.gap_blank l.lineEnd.blank _).trans l.field.strip_text
  have hne : ∀ t : List Char, ':' ∉ t → l.field.text ≠ t := fun t ht h =>
    ht (h ▸ l.field.colon_mem_text)
  have hdigit : ¬ l.field.key.head?.any u.isDigit = true := by
    cases hkey : l.field.key.head? with
    | none => exact Bool.false_ne_true
    | some c =>
        rw [Option.any_some, l.field.key_digit c hkey]
        exact Bool.false_ne_true
  unfold extractFieldBinary
  simp only [hstrip, l.field.takeWhile_text, l.field.dropWhile_text, List.drop_succ_cons,
    List.drop_zero, l.field.strip_value, l.field.key_trimmed, rstrip_eq_self l.field.key_trimmed]
  rw [if_neg, if_neg (not_not.mpr l.field.colon_mem_text), if_neg, if_neg l.field.key_heading]
  · intro h
    rcases h with h | h | h
    · exact l.field.key_ne h
    · exact l.field.value_ne h
    · exact hdigit h
  · intro h
    rcases h with h | h | h
    · exact hne [] (by simp) h
    · exact hne eventStarted (by decide) h
    · exact hne eventComplete (by decide) h

/-- The fields of a block are read from its text. -/
theorem fieldsOf_body (b : Block u) : fieldsOf u b.body = b.fields := by
  have hsplit : logFieldSplitRe.split b.body =
      b.startedEnd.text :: b.lines.map FieldLine.rest :=
    split_lines (fun rest => logFieldSplitRe_avoids_blank b.startedEnd.blank) b.lines
  unfold fieldsOf Block.fields
  rw [hsplit, List.foldl_cons, extractFieldBinary_blank b.startedEnd.blank, List.foldl_map]
  simp only [extractFieldBinary_rest]

/-! ## The block is a complete one -/

theorem getLast?_lineEnd (t : List Char) (e : LineEnd) :
    ∀ c ∈ (t ++ e.text).getLast?, isStrSpace c = true := by
  intro c hc
  rw [List.getLast?_append_of_ne_nil _ (List.ne_nil_of_mem e.newline)] at hc
  exact e.blank c (List.mem_of_getLast? hc)

/-- The last thing before the closing line is the end of a line. -/
theorem Block.getLast?_body (b : Block u) : ∀ c ∈ b.body.getLast?, isStrSpace c = true := by
  rcases List.eq_nil_or_concat b.lines with hlines | ⟨lines, l, hlines⟩
  · have hbody : b.body = [] ++ b.startedEnd.text := by simp [Block.body, hlines]
    rw [hbody]
    exact getLast?_lineEnd _ _
  · have hbody : b.body = (b.startedEnd.text ++ (lines.flatMap FieldLine.write ++
        (fieldMark ++ (l.gap ++ l.field.text)))) ++ l.lineEnd.text := by
      simp [Block.body, hlines, FieldLine.write, FieldLine.rest]
    rw [hbody]
    exact getLast?_lineEnd _ _

theorem not_closes_nil : ¬ Closes [] := by decide

/-- The block as the event expression sees it. -/
def Block.toEventBlock (b : Block u) : EventBlock u where
  tag := b.tag
  tag_ne := b.tag_ne
  tag_inBrackets := b.tag_inBrackets
  opening := b.opening
  body := b.body
  closing := b.closing
  body_open h := by
    refine not_closes_nil ((closes_append_iff (t := b.body) (b.avoids_body ?_)).mp ?_)
    · intro c hc
      cases hc
    · rwa [List.append_nil]
  body_zeros c hc := isZero_blank (b.getLast?_body c hc)

theorem Block.write_toEventBlock (b : Block u) : b.toEventBlock.write = b.write := by
  simp [Block.write, Block.head, EventText.write, Block.toEventBlock]

/-- What the text of a block is read as is its event. -/
theorem Block.event_toEventBlock (b : Block u) : b.toEventBlock.event = b.event := by
  unfold EventText.event Block.event Block.toEventBlock
  simp only [fieldsOf_body, b.tag_trimmed]

end KepServerLogger.Lib
