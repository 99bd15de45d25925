import KepServerLogger.Proofs.EventBlocks

/-!
# A log with blocks that are cut off

A crash leaves a block without its end, and the log goes on with the next one.
The event expression knows no end but a closing line. So a block that got as
far as "Event started" takes the first closing line after it, whose ever it
is, and a tag that was never closed goes on with the next line, if it is not
on a line of its own. Where neither happens, the blocks found are the complete
ones.
-/

namespace KepServerLogger.Lib

open KepServerLogger.Py

/-- A block that was cut off before its end. -/
structure Cut (u : CharTables) where
  block : EventBlock u
  text : List Char
  text_ne : text ≠ []
  text_prefix : text <+: block.write
  text_short : text ≠ block.write

/-- A block in the log, and the white space after it. -/
inductive Entry (u : CharTables)
  | complete (b : EventBlock u) (after : {w : List Char // Blank w})
  | cut (c : Cut u) (after : {w : List Char // Blank w})

variable {u : CharTables}

def Entry.write : Entry u → List Char
  | complete b after => b.write ++ after.1
  | cut c after => c.text ++ after.1

def writeAll (entries : List (Entry u)) : List Char := entries.flatMap Entry.write

namespace Cut

/-- The block got as far as "Event started". -/
def Started (c : Cut u) : Prop := c.block.head <+: c.text

/-- The block did not get past its tag. -/
def InTag (c : Cut u) : Prop := c.text <+: '[' :: c.block.tag

end Cut

/-- A match of the event expression begins with the first of the blocks. -/
def RunsOn : List (Entry u) → Prop
  | [] => False
  | .complete _ _ :: _ => True
  | .cut c after :: rest =>
      (c.Started ∧ Closes (writeAll rest)) ∨ (c.InTag ∧ '\n' ∉ after.1 ∧ RunsOn rest)

def NoneRunsOn : List (Entry u) → Prop
  | [] => True
  | .complete _ _ :: rest => NoneRunsOn rest
  | .cut c after :: rest => ¬ RunsOn (.cut c after :: rest) ∧ NoneRunsOn rest

/-! ## Closing lines -/

/-- The only closing line of a block is its own. -/
theorem EventBlock.not_closes (b : EventBlock u) {q : List Char}
    (hq : q <+: b.body ++ b.closing.complete) (hshort : q ≠ b.body ++ b.closing.complete) :
    ¬ Closes q := by
  intro h
  obtain ⟨a, x, m, rfl⟩ := h
  obtain ⟨z, hz⟩ := hq
  rw [List.append_assoc, List.append_assoc] at hz
  have hown : ∀ mid, b.closing.complete = mid ++ (m.complete ++ (x ++ z)) → False := by
    intro mid hmid
    obtain ⟨y, hy⟩ : ∃ y, m.complete = '0' :: y := by
      obtain ⟨c, zeros, hzeros⟩ := List.exists_cons_of_ne_nil m.zeros_ne
      have hc := m.zeros_zero c (by rw [hzeros]; exact List.mem_cons_self)
      obtain rfl : c = '0' := of_decide_eq_true hc
      exact ⟨_, by rw [Mark.complete, Mark.write, hzeros]; rfl⟩
    have hzeros : ∀ c ∈ mid, isZero c = true :=
      Mark.zeros_before (hmid.trans (congrArg (fun l => mid ++ (l ++ (x ++ z))) hy))
    have hnil : x ++ z = [] :=
      Mark.complete_inj hzeros (hmid.symm.trans (List.append_nil _).symm)
    refine hshort ?_
    rw [List.append_eq_nil_iff.mp hnil |>.2, List.append_nil] at hz
    rw [hz]
  rcases List.append_eq_append_iff.mp hz with ⟨mid, hbody, hmid⟩ | ⟨mid, -, hmid⟩
  · cases mid with
    | nil => exact hown [] hmid.symm
    | cons c mid =>
        have hnone := EventText.first_iff.mp (b.first []) a (c :: mid) hbody
          (List.cons_ne_nil _ _)
        rw [List.append_nil, ← hmid, matchAt_completeRe] at hnone
        cases hnone
  · exact hown mid hmid

theorem EventBlock.avoids_cut (b : EventBlock u) {q w rest : List Char}
    (hq : q <+: b.body ++ b.closing.complete) (hshort : q ≠ b.body ++ b.closing.complete)
    (hw : Blank w) (hrest : ∀ c ∈ rest.head?, c = '[') :
    Pattern.Avoids completeRe (q ++ w) rest := by
  refine Pattern.Avoids.append (fun a y hay _ => ?_) (avoids_blank hw)
  refine matchAt_completeRe_eq_none fun m x h => b.not_closes hq hshort ?_
  have hprefix : m.complete <+: (y ++ w) ++ rest := ⟨x, by rw [List.append_assoc]; exact h.symm⟩
  obtain ⟨z, hz⟩ := m.solid_complete.prefix_of_append hw
    (prefix_of_append_bracket m.bracket_not_mem_complete hrest hprefix)
  exact ⟨a, z, m, by rw [hz]; exact hay⟩

/-! ## Tags -/

/-- The event expression after the tag. -/
def afterTag (u : CharTables) : Pattern Char := startedRe u ++ (Pattern.anyLazily :: completeRe)

theorem logEventRe_eq (u : CharTables) : logEventRe u = bracketRe ++ afterTag u := rfl

theorem refuses_logEventRe {c : Char} (h : c ≠ '[') : Pattern.Refuses (logEventRe u) c :=
  refuses_bracket h

theorem isSome_logEventRe {s : List Char} :
    (Pattern.matchAt (logEventRe u) ('[' :: s)).isSome ↔
      ∃ t x : List Char, s = t ++ ']' :: x ∧ t ≠ [] ∧ (∀ c ∈ t, inBrackets c = true) ∧
        (Pattern.matchAt (afterTag u) x).isSome := by
  rw [logEventRe_eq]
  constructor
  · intro h
    obtain ⟨r, hr⟩ := Option.isSome_iff_exists.mp h
    obtain ⟨t, x, groups, hs, hne, ht, hx⟩ := bracketRe_eq_some hr
    obtain ⟨-, rfl⟩ := List.cons.inj hs
    exact ⟨t, x, rfl, hne, ht, by rw [hx]; rfl⟩
  · intro h
    obtain ⟨t, x, rfl, hne, ht, hx⟩ := h
    rw [matchAt_bracketRe hne ht, Option.isSome_map]
    exact hx

/-- A bracket opened in a tag begins a match only if the tag's own does. -/
theorem isSome_of_inner {t s : List Char} (ht : ∀ c ∈ t, inBrackets c = true)
    (h : (Pattern.matchAt (logEventRe u) ('[' :: s)).isSome) :
    (Pattern.matchAt (logEventRe u) ('[' :: (t ++ '[' :: s))).isSome := by
  obtain ⟨t', x, rfl, hne, ht', hx⟩ := isSome_logEventRe.mp h
  refine isSome_logEventRe.mpr ⟨t ++ '[' :: t', x, by simp, by simp, fun c hc => ?_, hx⟩
  rcases List.mem_append.mp hc with hc | hc
  · exact ht c hc
  · rcases List.mem_cons.mp hc with rfl | hc
    · decide
    · exact ht' c hc

theorem isSome_inner_of {t s : List Char} (ht : ∀ c ∈ t, inBrackets c = true)
    (hs : ∀ c ∈ s.head?, c ≠ ']')
    (h : (Pattern.matchAt (logEventRe u) ('[' :: (t ++ '[' :: s))).isSome) :
    (Pattern.matchAt (logEventRe u) ('[' :: s)).isSome := by
  obtain ⟨t', x, heq, -, ht', hx⟩ := isSome_logEventRe.mp h
  have hsplit : t ++ '[' :: s = (t ++ '[' :: s.takeWhile inBrackets) ++ s.dropWhile inBrackets := by
    rw [List.append_assoc, List.cons_append, List.takeWhile_append_dropWhile]
  have hrun : ∀ c ∈ t ++ '[' :: s.takeWhile inBrackets, inBrackets c = true := by
    intro c hc
    rcases List.mem_append.mp hc with hc | hc
    · exact ht c hc
    · rcases List.mem_cons.mp hc with rfl | hc
      · decide
      · exact List.mem_takeWhile_imp hc
  have hstop : ∀ c ∈ (s.dropWhile inBrackets).head?, inBrackets c = false := by
    intro c hc
    have hnot := List.head?_dropWhile_not inBrackets s
    rw [hc] at hnot
    simpa using hnot
  have hclose : ∀ c ∈ (']' :: x).head?, inBrackets c = false := by
    intro c hc
    cases hc
    rfl
  obtain ⟨-, hrest⟩ := run_inj hrun ht' hstop hclose (hsplit.symm.trans heq)
  have hs' : s = s.takeWhile inBrackets ++ ']' :: x := by
    rw [← hrest, List.takeWhile_append_dropWhile]
  refine isSome_logEventRe.mpr ⟨s.takeWhile inBrackets, x, hs', fun hnil => ?_,
    fun c hc => List.mem_takeWhile_imp hc, hx⟩
  rw [hnil] at hs'
  exact hs ']' (by rw [hs']; rfl) rfl

/-! ## How far a block got -/

theorem EventBlock.write_eq (b : EventBlock u) :
    b.write = ('[' :: b.tag) ++ (']' :: (b.opening.write ++ (b.body ++ b.closing.complete))) := by
  simp [EventText.write]

namespace Cut

variable (c : Cut u)

/-- A block is cut off in its tag, in its opening, or after "Event started". -/
theorem cases :
    (∃ t, c.text = '[' :: t ∧ t <+: c.block.tag) ∨
    (∃ q, c.text = '[' :: (c.block.tag ++ ']' :: q) ∧ q <+: c.block.opening.write ∧
      q ≠ c.block.opening.write) ∨
    (∃ q, c.text = c.block.head ++ q ∧ q <+: c.block.body ++ c.block.closing.complete ∧
      q ≠ c.block.body ++ c.block.closing.complete) := by
  have hshort := c.text_short
  have hprefix := c.text_prefix
  rw [EventBlock.write_eq] at hprefix
  rcases prefix_append_cases hprefix with htag | ⟨d, q, htext, hq⟩
  · obtain ⟨x, t, htext⟩ := List.exists_cons_of_ne_nil c.text_ne
    rw [htext] at htag
    obtain ⟨rfl, ht⟩ := List.cons_prefix_cons.mp htag
    exact .inl ⟨t, htext, ht⟩
  · obtain ⟨rfl, hafter⟩ := List.cons_prefix_cons.mp hq
    have hstarted : ∀ q', q = c.block.opening.write ++ q' →
        q' <+: c.block.body ++ c.block.closing.complete →
        ∃ q, c.text = c.block.head ++ q ∧ q <+: c.block.body ++ c.block.closing.complete ∧
          q ≠ c.block.body ++ c.block.closing.complete := by
      intro q' hq' hprefix'
      refine ⟨q', by rw [htext, hq']; simp [EventText.head], hprefix', fun heq => hshort ?_⟩
      rw [htext, hq', heq, EventBlock.write_eq]
    rcases prefix_append_cases hafter with hopening | ⟨x, mid, hmid, hrest⟩
    · by_cases hwhole : q = c.block.opening.write
      · exact .inr (.inr (hstarted [] (by rw [hwhole, List.append_nil]) List.nil_prefix))
      · exact .inr (.inl ⟨q, htext, hopening, hwhole⟩)
    · exact .inr (.inr (hstarted (x :: mid) hmid hrest))

variable {c}

theorem length_of_inTag (h : c.InTag) : c.text.length ≤ c.block.tag.length + 1 := h.length_le

theorem length_of_started (h : c.Started) :
    c.block.tag.length + c.block.opening.write.length + 2 ≤ c.text.length := by
  have hle := h.length_le
  simp only [EventText.head, List.length_cons, List.length_append] at hle
  omega

theorem not_started_of_inTag (h : c.InTag) : ¬ c.Started := by
  intro hstarted
  have := length_of_inTag h
  have := length_of_started hstarted
  omega

theorem opened_neither {q : List Char} (htext : c.text = '[' :: (c.block.tag ++ ']' :: q))
    (hq : q <+: c.block.opening.write) (hne : q ≠ c.block.opening.write) :
    ¬ c.InTag ∧ ¬ c.Started := by
  have hlt : q.length < c.block.opening.write.length :=
    lt_of_le_of_ne hq.length_le fun h => hne (hq.eq_of_length h)
  have hlength := congrArg List.length htext
  simp only [List.length_cons, List.length_append] at hlength
  refine ⟨fun h => ?_, fun h => ?_⟩
  · have := length_of_inTag h
    omega
  · have := length_of_started h
    omega

end Cut

theorem Opening.eq_of_prefix {o o' : Opening u} (h : o.write <+: o'.write) : o.write = o'.write := by
  obtain ⟨y, hy⟩ := h
  have hwhole := @matchAt_startedRe u [] o' []
  rw [List.append_nil o'.write, ← hy, matchAt_startedRe] at hwhole
  have hnil : y = [] := congrArg Prod.snd (Option.some.inj hwhole)
  rw [← hy, hnil, List.append_nil]

/-- An opening that is cut off is none, whatever comes after it. -/
theorem matchAt_afterTag_opening {o : Opening u} {q w rest : List Char} (hq : q <+: o.write)
    (hne : q ≠ o.write) (hw : Blank w) (hrest : ∀ c ∈ rest.head?, c = '[') :
    Pattern.matchAt (afterTag u) (q ++ (w ++ rest)) = none := by
  cases hmatch : Pattern.matchAt (afterTag u) (q ++ (w ++ rest)) with
  | none => rfl
  | some r =>
      obtain ⟨o', x, groups, hwrite, -⟩ := startedRe_eq_some hmatch
      have hprefix : o'.write <+: (q ++ w) ++ rest :=
        ⟨x, by rw [List.append_assoc]; exact hwrite.symm⟩
      have hinside := o'.solid_write.prefix_of_append hw
        (prefix_of_append_bracket o'.bracket_not_mem_write hrest hprefix)
      have hwhole := Opening.eq_of_prefix (hinside.trans hq)
      refine absurd (hq.eq_of_length (le_antisymm hq.length_le ?_)) hne
      rw [← hwhole]
      exact hinside.length_le

/-! ## Where a match begins -/

theorem writeAll_cons (e : Entry u) (rest : List (Entry u)) :
    writeAll (e :: rest) = e.write ++ writeAll rest := List.flatMap_cons

theorem EventBlock.tag_ne_close (b : EventBlock u) : ∀ c ∈ b.tag, c ≠ ']' := by
  intro c hc heq
  have hin := b.tag_inBrackets c hc
  rw [heq] at hin
  exact absurd hin (by decide)

theorem EventBlock.head_tag (b : EventBlock u) (s : List Char) : ∀ c ∈ (b.tag ++ s).head?, c ≠ ']' :=
  head_append_of_ne_nil b.tag_ne b.tag_ne_close

/-- The text of a block begins with a bracket, which does not close at once. -/
theorem Entry.write_eq (e : Entry u) {rest : List Char} (hrest : ∀ c ∈ rest.head?, c = '[') :
    ∃ s, e.write ++ rest = '[' :: s ∧ ∀ c ∈ s.head?, c ≠ ']' := by
  cases e with
  | complete b after =>
      refine ⟨_, ?_, b.head_tag (']' :: (b.opening.write ++ (b.body ++ (b.closing.complete ++
        (after.1 ++ rest)))))⟩
      simp [Entry.write, EventText.write]
  | cut c after =>
      rcases c.cases with ⟨t, htext, ht⟩ | ⟨q, htext, -, -⟩ | ⟨q, htext, -, -⟩
      · refine ⟨t ++ (after.1 ++ rest), by simp [Entry.write, htext], fun x hx => ?_⟩
        cases t with
        | nil =>
            cases hafter : after.1 with
            | nil =>
                rw [hafter] at hx
                rw [hrest x hx]
                decide
            | cons y w =>
                rw [hafter] at hx
                obtain rfl : y = x := Option.some.inj hx
                exact ne_of_blank (after.2 y (by rw [hafter]; exact List.mem_cons_self)) (by decide)
        | cons y t =>
            obtain rfl : y = x := Option.some.inj hx
            exact c.block.tag_ne_close y (ht.subset List.mem_cons_self)
      · refine ⟨_, ?_, c.block.head_tag (']' :: (q ++ (after.1 ++ rest)))⟩
        simp [Entry.write, htext]
      · refine ⟨_, ?_, c.block.head_tag (']' :: (c.block.opening.write ++ (q ++ (after.1 ++ rest))))⟩
        simp [Entry.write, htext, EventText.head]

/-- What follows a block is another, or nothing. -/
theorem head_writeAll (entries : List (Entry u)) :
    ∀ c ∈ (writeAll entries).head?, c = '[' := by
  induction entries with
  | nil =>
      intro c hc
      cases hc
  | cons e rest ih =>
      obtain ⟨s, hs, -⟩ := e.write_eq ih
      rw [writeAll_cons, hs]
      intro c hc
      exact (Option.some.inj hc).symm

theorem isSome_started {b : EventBlock u} {q w rest : List Char}
    (hq : q <+: b.body ++ b.closing.complete) (hshort : q ≠ b.body ++ b.closing.complete)
    (hw : Blank w) (hrest : ∀ c ∈ rest.head?, c = '[') :
    (Pattern.matchAt (logEventRe u) (b.head ++ (q ++ (w ++ rest)))).isSome ↔ Closes rest := by
  rw [EventText.matchAt_head, Option.isSome_map, ← closes_iff, ← List.append_assoc]
  exact closes_append_iff (b.avoids_cut hq hshort hw hrest)

theorem not_isSome_of_open {t rest : List Char} (ht : ']' ∉ t) (hrest : '\n' ∈ t ∨ rest = []) :
    ¬ (Pattern.matchAt (logEventRe u) ('[' :: (t ++ rest))).isSome := by
  intro h
  obtain ⟨t', x, heq, -, ht', -⟩ := isSome_logEventRe.mp h
  have hprefix : t' ++ [']'] <+: t ++ rest := ⟨x, by rw [heq, List.append_assoc]; rfl⟩
  rcases prefix_append_cases hprefix with h | ⟨c, mid, hmid, hc⟩
  · exact ht (h.subset (by simp))
  · rcases hrest with hnewline | rfl
    · have hmem : '\n' ∈ t' ++ [']'] := by
        rw [hmid]
        exact List.mem_append_left _ hnewline
      rcases List.mem_append.mp hmem with hmem | hmem
      · exact absurd (ht' _ hmem) (by decide)
      · exact absurd hmem (by decide)
    · cases List.prefix_nil.mp hc

theorem isSome_inTag (rest : List (Entry u)) {t w : List Char}
    (ht : ∀ c ∈ t, inBrackets c = true) (hw : Blank w) :
    (Pattern.matchAt (logEventRe u) ('[' :: (t ++ (w ++ writeAll rest)))).isSome ↔
      '\n' ∉ w ∧ (Pattern.matchAt (logEventRe u) (writeAll rest)).isSome := by
  have hclose : ']' ∉ t ++ w := by
    rw [List.mem_append, not_or]
    exact ⟨fun h => absurd (ht _ h) (by decide), not_mem_of_blank hw (by decide)⟩
  rw [← List.append_assoc]
  by_cases hnewline : '\n' ∈ w
  · refine iff_of_false (not_isSome_of_open hclose (.inl (List.mem_append_right _ hnewline))) ?_
    exact fun h => h.1 hnewline
  · have hin : ∀ c ∈ t ++ w, inBrackets c = true := by
      intro c hc
      rcases List.mem_append.mp hc with hc | hc
      · exact ht c hc
      · have hne : c ≠ '\n' := fun h => hnewline (h ▸ hc)
        simp [inBrackets, hne, ne_of_blank (hw c hc) (show isStrSpace ']' = false by decide)]
    cases rest with
    | nil =>
        refine iff_of_false (not_isSome_of_open hclose (.inr rfl)) fun h => ?_
        exact Bool.false_ne_true h.2
    | cons e rest =>
        obtain ⟨s, hs, hhead⟩ := e.write_eq (head_writeAll rest)
        rw [writeAll_cons, hs]
        constructor
        · intro h
          exact ⟨hnewline, isSome_inner_of hin hhead h⟩
        · intro h
          exact isSome_of_inner hin h.2

/-- A match begins with a block exactly if it is complete or runs on. -/
theorem runsOn_iff (entries : List (Entry u)) :
    RunsOn entries ↔ (Pattern.matchAt (logEventRe u) (writeAll entries)).isSome := by
  induction entries with
  | nil => exact iff_of_false id Bool.false_ne_true
  | cons e rest ih =>
      have hrest := head_writeAll rest
      rw [writeAll_cons]
      cases e with
      | complete b after =>
          rw [Entry.write, List.append_assoc, EventText.matchAt_write (b.first _)]
          exact iff_of_true trivial rfl
      | cut c after =>
          rw [Entry.write, List.append_assoc]
          show (c.Started ∧ Closes (writeAll rest)) ∨ (c.InTag ∧ '\n' ∉ after.1 ∧ RunsOn rest) ↔ _
          rcases c.cases with ⟨t, htext, ht⟩ | ⟨q, htext, hq, hne⟩ | ⟨q, htext, hq, hne⟩
          · have htag : c.InTag := by
              rw [Cut.InTag, htext]
              exact List.cons_prefix_cons.mpr ⟨rfl, ht⟩
            have hin : ∀ x ∈ t, inBrackets x = true := fun x hx =>
              c.block.tag_inBrackets x (ht.subset hx)
            rw [htext, List.cons_append]
            refine Iff.trans ?_ (isSome_inTag rest hin after.2).symm
            simp [htag, Cut.not_started_of_inTag htag, ih]
          · obtain ⟨htag, hstarted⟩ := Cut.opened_neither htext hq hne
            refine iff_of_false (by simp [htag, hstarted]) ?_
            rw [htext, List.cons_append, List.append_assoc, List.cons_append, logEventRe_eq,
              matchAt_bracketRe c.block.tag_ne c.block.tag_inBrackets,
              matchAt_afterTag_opening hq hne after.2 hrest]
            exact Bool.false_ne_true
          · have hstarted : c.Started := ⟨q, htext.symm⟩
            have htag : ¬ c.InTag := fun htag => Cut.not_started_of_inTag htag hstarted
            rw [htext, List.append_assoc]
            refine Iff.trans ?_ (isSome_started hq hne after.2 hrest).symm
            simp [hstarted, htag]

/-! ## No match begins in a block that does not run on -/

theorem avoids_bracket {t rest : List Char} (ht : ∀ c ∈ t, inBrackets c = true)
    (h : Pattern.matchAt (logEventRe u) ('[' :: (t ++ rest)) = none) :
    Pattern.Avoids (logEventRe u) ('[' :: t) rest := by
  intro a b hab hne
  obtain ⟨c, b, rfl⟩ := List.exists_cons_of_ne_nil hne
  by_cases hc : c = '['
  · subst hc
    cases a with
    | nil =>
        obtain ⟨-, rfl⟩ := List.cons.inj hab
        exact h
    | cons x a =>
        obtain ⟨-, hab⟩ := List.cons.inj hab
        have htb : t = a ++ '[' :: b := hab
        have hin : ∀ c ∈ a, inBrackets c = true := fun c hc =>
          ht c (by rw [htb]; exact List.mem_append_left _ hc)
        rw [htb, List.append_assoc, List.cons_append] at h
        cases hmatch : Pattern.matchAt (logEventRe u) ('[' :: (b ++ rest)) with
        | none => exact hmatch
        | some r =>
            have houter := isSome_of_inner hin ((congrArg Option.isSome hmatch).trans rfl)
            rw [h] at houter
            cases houter
  · exact refuses_logEventRe hc _

theorem avoids_no_bracket {t rest : List Char} (ht : '[' ∉ t) :
    Pattern.Avoids (logEventRe u) t rest :=
  .of_refuses fun _ hc => refuses_logEventRe fun h => ht (h ▸ hc)

/-- Every match has a closing line in it. -/
theorem matchAt_logEventRe_eq_none {s : List Char} (h : ¬ Closes s) :
    Pattern.matchAt (logEventRe u) s = none := by
  cases hmatch : Pattern.matchAt (logEventRe u) s with
  | none => rfl
  | some r =>
      refine absurd ?_ h
      have hwhole : Pattern.matchAt ((bracketRe ++ startedRe u) ++
          (Pattern.anyLazily :: completeRe)) s = some r := by
        rw [List.append_assoc]
        exact hmatch
      obtain ⟨t, rest, groups, _, rfl, hrest, -⟩ := Pattern.matchAt_append_eq_some hwhole
      obtain ⟨a, x, m, hx⟩ := closes_iff.mpr (show (Pattern.matchAt _ rest).isSome by rw [hrest]; rfl)
      exact ⟨t ++ a, x, m, by rw [hx, List.append_assoc]⟩

theorem avoids_not_closes {t rest : List Char} (havoids : Pattern.Avoids completeRe t rest)
    (h : ¬ Closes rest) : Pattern.Avoids (logEventRe u) t rest := by
  intro a b hab _
  refine matchAt_logEventRe_eq_none fun hcloses => h ?_
  refine (closes_append_iff ?_).mp hcloses
  exact Pattern.Avoids.of_append (t := a) (hab ▸ havoids)

theorem Cut.avoids {c : Cut u} {after : {w : List Char // Blank w}} {rest : List (Entry u)}
    (h : ¬ RunsOn (.cut c after :: rest)) :
    Pattern.Avoids (logEventRe u) (c.text ++ after.1) (writeAll rest) := by
  have hrest := head_writeAll rest
  have hafter : ∀ s, Pattern.Avoids (logEventRe u) after.1 s := fun s =>
    avoids_no_bracket (not_mem_of_blank after.2 (by decide))
  have hnone : Pattern.matchAt (logEventRe u) (c.text ++ (after.1 ++ writeAll rest)) = none := by
    rw [runsOn_iff, writeAll_cons, Entry.write, List.append_assoc] at h
    simpa using h
  rcases c.cases with ⟨t, htext, ht⟩ | ⟨q, htext, hq, -⟩ | ⟨q, htext, hq, hne⟩
  · refine Pattern.Avoids.append ?_ (hafter _)
    rw [htext] at hnone ⊢
    exact avoids_bracket (fun x hx => c.block.tag_inBrackets x (ht.subset hx)) hnone
  · refine Pattern.Avoids.append ?_ (hafter _)
    have htext' : c.text = ('[' :: c.block.tag) ++ (']' :: q) := htext
    rw [htext', List.append_assoc] at hnone
    rw [htext']
    refine Pattern.Avoids.append (avoids_bracket c.block.tag_inBrackets hnone) ?_
    refine avoids_no_bracket fun hmem => ?_
    rcases List.mem_cons.mp hmem with hmem | hmem
    · exact absurd hmem (by decide)
    · exact c.block.opening.bracket_not_mem_write (hq.subset hmem)
  · have hcloses : ¬ Closes (writeAll rest) := by
      intro hcloses
      rw [htext, List.append_assoc] at hnone
      have hsome := (isSome_started hq hne after.2 hrest).mpr hcloses
      rw [hnone] at hsome
      cases hsome
    have htext' : c.text ++ after.1 =
        ('[' :: c.block.tag) ++ ((']' :: c.block.opening.write) ++ (q ++ after.1)) := by
      simp [htext, EventText.head]
    rw [← List.append_assoc, htext', List.append_assoc] at hnone
    rw [htext']
    refine Pattern.Avoids.append (avoids_bracket c.block.tag_inBrackets hnone)
      (Pattern.Avoids.append ?_ ?_)
    · refine avoids_no_bracket fun hmem => ?_
      rcases List.mem_cons.mp hmem with hmem | hmem
      · exact absurd hmem (by decide)
      · exact c.block.opening.bracket_not_mem_write hmem
    · exact avoids_not_closes (c.block.avoids_cut hq hne after.2 hrest) hcloses

/-! ## What is found -/

/-- Where the complete blocks stand. -/
def spans : (pos : Nat) → List (Entry u) → List (Nat × Nat)
  | _, [] => []
  | pos, .complete b after :: rest =>
      (pos, pos + b.write.length) :: spans (pos + (b.write ++ after.1).length) rest
  | pos, .cut c after :: rest => spans (pos + (c.text ++ after.1).length) rest

/-- The events of the complete blocks. -/
def completeEvents (entries : List (Entry u)) : List OpcEvent :=
  entries.filterMap fun
    | .complete b _ => some b.event
    | .cut _ _ => none

def spanOf (m : Found Char) : Nat × Nat := (m.start, m.stop)

theorem findFrom_complete (b : EventBlock u) (after : {w : List Char // Blank w})
    (rest : List (Entry u)) (pos : Nat) :
    Pattern.findFrom (logEventRe u) pos 0 (writeAll (.complete b after :: rest)) =
      ⟨pos, pos + b.write.length, [b.tag, b.opening.type, b.body]⟩ ::
        Pattern.findFrom (logEventRe u) (pos + (b.write ++ after.1).length) 0 (writeAll rest) := by
  have hne : b.write ≠ [] := by
    rw [EventBlock.write_eq]
    exact List.cons_ne_nil _ _
  have hafter : Pattern.Avoids (logEventRe u) after.1 (writeAll rest) :=
    avoids_no_bracket (not_mem_of_blank after.2 (by decide))
  rw [writeAll_cons, Entry.write, List.append_assoc,
    Pattern.findFrom_match hne (EventText.matchAt_write (b.first _)), Pattern.findFrom_avoids hafter,
    List.length_append, Nat.add_assoc]

theorem findFrom_cut {c : Cut u} {after : {w : List Char // Blank w}} {rest : List (Entry u)}
    (h : ¬ RunsOn (.cut c after :: rest)) (pos : Nat) :
    Pattern.findFrom (logEventRe u) pos 0 (writeAll (.cut c after :: rest)) =
      Pattern.findFrom (logEventRe u) (pos + (c.text ++ after.1).length) 0 (writeAll rest) := by
  rw [writeAll_cons]
  exact Pattern.findFrom_avoids (Cut.avoids h) pos

/-- A block that runs on is the beginning of a match. -/
theorem findFrom_runsOn {e : Entry u} {rest : List (Entry u)} (h : RunsOn (e :: rest))
    (pos : Nat) :
    ∃ m ms, Pattern.findFrom (logEventRe u) pos 0 (writeAll (e :: rest)) = m :: ms ∧
      m.start = pos := by
  have hsome := (runsOn_iff _).mp h
  obtain ⟨s, hs, -⟩ := e.write_eq (head_writeAll rest)
  rw [writeAll_cons, hs] at hsome ⊢
  obtain ⟨r, hr⟩ := Option.isSome_iff_exists.mp hsome
  rw [Pattern.findFrom, hr]
  exact ⟨_, _, rfl, rfl⟩

/-- An event that begins with a block has its tag, wherever it ends. -/
theorem findFrom_started (b : EventBlock u) {x : List Char} (h : Closes x) (pos : Nat) :
    ∃ m ms, Pattern.findFrom (logEventRe u) pos 0 (b.head ++ x) = m :: ms ∧
      (eventOf u m).session_tag = String.ofList (strip b.tag) := by
  obtain ⟨r, hr⟩ := Option.isSome_iff_exists.mp (closes_iff.mp h)
  have hmatch := b.matchAt_head x
  rw [hr, Option.map_some, EventText.head, List.cons_append] at hmatch
  rw [EventText.head, List.cons_append, Pattern.findFrom, hmatch]
  exact ⟨_, _, rfl, rfl⟩

theorem le_of_mem_spans {entries : List (Entry u)} {pos : Nat} {p : Nat × Nat}
    (h : p ∈ spans pos entries) : pos ≤ p.1 := by
  induction entries generalizing pos with
  | nil => cases h
  | cons e rest ih =>
      cases e with
      | complete b after =>
          rcases List.mem_cons.mp h with rfl | h
          · exact le_rfl
          · exact (Nat.le_add_right _ _).trans (ih h)
      | cut c after => exact (Nat.le_add_right _ _).trans (ih h)

theorem events_of_noneRunsOn {entries : List (Entry u)} (h : NoneRunsOn entries) (pos : Nat) :
    (Pattern.findFrom (logEventRe u) pos 0 (writeAll entries)).map (eventOf u) =
        completeEvents entries ∧
      (Pattern.findFrom (logEventRe u) pos 0 (writeAll entries)).map spanOf =
        spans pos entries := by
  induction entries generalizing pos with
  | nil => exact ⟨rfl, rfl⟩
  | cons e rest ih =>
      cases e with
      | complete b after =>
          obtain ⟨hevents, hspans⟩ := ih h (pos + (b.write ++ after.1).length)
          rw [findFrom_complete, List.map_cons, List.map_cons, eventOf_eventText, hevents, hspans]
          exact ⟨rfl, rfl⟩
      | cut c after =>
          rw [findFrom_cut h.1]
          exact ih h.2 _

theorem noneRunsOn_of_spans {entries : List (Entry u)} {pos : Nat}
    (h : (Pattern.findFrom (logEventRe u) pos 0 (writeAll entries)).map spanOf =
      spans pos entries) : NoneRunsOn entries := by
  induction entries generalizing pos with
  | nil => trivial
  | cons e rest ih =>
      cases e with
      | complete b after =>
          rw [findFrom_complete, List.map_cons] at h
          exact ih (List.cons.inj h).2
      | cut c after =>
          have hruns : ¬ RunsOn (.cut c after :: rest) := by
            intro hruns
            obtain ⟨m, ms, hfound, hstart⟩ := findFrom_runsOn hruns pos
            rw [hfound, List.map_cons] at h
            have hmem : spanOf m ∈ spans (pos + (c.text ++ after.1).length) rest := by
              have hspans : spans pos (.cut c after :: rest) =
                  spans (pos + (c.text ++ after.1).length) rest := rfl
              rw [← hspans, ← h]
              exact List.mem_cons_self
            have hle := le_of_mem_spans hmem
            have hpos := List.length_pos_iff.mpr c.text_ne
            rw [spanOf, hstart, List.length_append] at hle
            omega
          rw [findFrom_cut hruns] at h
          exact ⟨hruns, ih h⟩

/-- The blocks found are the complete ones, where they stand, and the events
are theirs. -/
def ReadsComplete (data : List UInt8) (pos : Nat) (entries : List (Entry u)) : Prop :=
  parseLogBinary u data = completeEvents entries ∧
    ((logEventRe u).findAll (logText data)).map spanOf = spans pos entries

theorem logText_encode (raw : List Char) : logText (encodeUtf16le raw) = raw.map nulToNewline := by
  rw [logText, decodeUtf16le_encode]

theorem findAll_logText {data : List UInt8} {lead : List Char} {entries : List (Entry u)}
    (hlead : Blank lead) (htext : logText data = lead ++ writeAll entries) :
    (logEventRe u).findAll (logText data) =
      Pattern.findFrom (logEventRe u) lead.length 0 (writeAll entries) := by
  have havoids : Pattern.Avoids (logEventRe u) lead (writeAll entries) :=
    avoids_no_bracket (not_mem_of_blank hlead (by decide))
  rw [htext, Pattern.findAll, Pattern.findFrom_avoids havoids, Nat.zero_add]

theorem readsComplete_of_noneRunsOn {data : List UInt8} {lead : List Char}
    {entries : List (Entry u)} (hlead : Blank lead) (htext : logText data = lead ++ writeAll entries)
    (h : NoneRunsOn entries) : ReadsComplete data lead.length entries := by
  rw [ReadsComplete, parseLogBinary, findAll_logText hlead htext]
  exact events_of_noneRunsOn h lead.length

/-- A log is read as its complete blocks exactly if no block that was cut off runs
on. -/
theorem readsComplete_iff {data : List UInt8} {lead : List Char} {entries : List (Entry u)}
    (hlead : Blank lead) (htext : logText data = lead ++ writeAll entries) :
    ReadsComplete data lead.length entries ↔ NoneRunsOn entries := by
  refine ⟨fun h => ?_, readsComplete_of_noneRunsOn hlead htext⟩
  have hspans := h.2
  rw [findAll_logText hlead htext] at hspans
  exact noneRunsOn_of_spans hspans

/-! ## A log with a crash in it -/

def newline : LineEnd where
  text := ['\n']
  blank c hc := by
    rw [List.mem_singleton.mp hc]
    decide
  newline := List.mem_singleton_self _

def tenZeros : Mark where
  zeros := List.replicate 10 '0'
  gap := [' ']
  zeros_ne := by decide
  zeros_zero := List.all_eq_true.mp rfl
  gap_ne := by decide
  gap_blank c hc := by
    rw [List.mem_singleton.mp hc]
    decide

def readResponse : Opening .ascii where
  gap := [' ']
  type := "ReadResponse".toList
  lineEnd := newline
  mark := tenZeros
  gap_ne := by decide
  gap_blank := tenZeros.gap_blank
  type_ne := by decide
  type_word := List.all_eq_true.mp rfl

/-- A response of the server: a heading, a field without a value, and a status. -/
def response (tag : List Char) (hne : tag ≠ []) (htag : ∀ c ∈ tag, inBrackets c = true) :
    EventBlock .ascii where
  tag := tag
  tag_ne := hne
  tag_inBrackets := htag
  opening := readResponse
  body := "\n0000000000: Response Header\n0000000000: text:\n0000000000: status: Good\n".toList
  closing := tenZeros
  body_open := by decide +kernel
  body_zeros c hc := by
    obtain rfl : '\n' = c := Option.some.inj hc
    rfl

def response2001 : EventBlock .ascii :=
  response "2001".toList (by decide) (List.all_eq_true.mp rfl)

def response2002 : EventBlock .ascii :=
  response "2002".toList (by decide) (List.all_eq_true.mp rfl)

/-- The first block is cut off after "Event started". -/
def crash : List (Entry .ascii) :=
  [.cut ⟨response2001, response2001.head, by decide, List.prefix_append _ _, by decide⟩
      ⟨['\n'], newline.blank⟩,
    .complete response2002 ⟨['\n'], newline.blank⟩]

theorem logText_crash : logText (encodeUtf16le (writeAll crash)) = [] ++ writeAll crash := by
  rw [logText_encode]
  decide +kernel

/-- The event that is read has the tag of the first block. -/
theorem crash_swallows :
    logText (encodeUtf16le (writeAll crash)) = [] ++ writeAll crash ∧
      (parseLogBinary .ascii (encodeUtf16le (writeAll crash))).head?.map (·.session_tag) =
        some "2001" ∧
      completeEvents crash = [response2002.event] ∧
      ¬ ReadsComplete (encodeUtf16le (writeAll crash)) 0 crash := by
  have hread : (parseLogBinary .ascii (encodeUtf16le (writeAll crash))).head?.map
      (·.session_tag) = some "2001" := by
    have hcloses : Closes (['\n'] ++ writeAll [.complete response2002 ⟨['\n'], newline.blank⟩]) :=
      ⟨['\n'] ++ (response2002.head ++ response2002.body), ['\n'], tenZeros, rfl⟩
    obtain ⟨m, ms, hfound, htag⟩ := findFrom_started response2001 hcloses 0
    have hlead : Blank [] := fun c hc => by cases hc
    have hwrite : writeAll crash = response2001.head ++ (['\n'] ++
      writeAll [.complete response2002 ⟨['\n'], newline.blank⟩]) := List.append_assoc _ _ _
    rw [parseLogBinary, findAll_logText hlead logText_crash, hwrite]
    show ((Pattern.findFrom _ 0 0 _).map (eventOf .ascii)).head?.map _ = _
    rw [hfound]
    exact congrArg some htag
  refine ⟨logText_crash, hread, rfl, fun h => ?_⟩
  rw [h.1] at hread
  exact absurd hread (by decide)

theorem readsComplete_crash :
    ReadsComplete (encodeUtf16le (writeAll crash)) 0 crash ↔ NoneRunsOn crash :=
  @readsComplete_iff .ascii (encodeUtf16le (writeAll crash)) [] crash (fun _ hc => by cases hc)
    logText_crash

end KepServerLogger.Lib
