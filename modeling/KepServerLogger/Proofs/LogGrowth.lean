import KepServerLogger.Base.Growing
import KepServerLogger.Proofs.CutBlocks

/-!
# What is read of any file

Of any bytes whatsoever, the parser reads the blocks from left to right, each the
first that begins after the one before, and each up to its first closing line;
that is the whole of it, and the expressions are not mentioned.

The server goes on writing to its log while it is read. What has been read then
is the beginning of what a later reading gets, wherever the writing stood: in
the middle of a block, of a character, or of a code unit.
-/

namespace KepServerLogger.Lib

open KepServerLogger.Py

variable {u : CharTables} {s rest : List Char} {groups : List (List Char)}

/-- A block begins here. -/
def Begins (u : CharTables) (s : List Char) : Prop :=
  ∃ (b : EventText u) (rest : List Char), s = b.write ++ rest

/-- The events in a text. -/
inductive Reading (u : CharTables) : List Char → List OpcEvent → Prop
  | done {gap : List Char} (hgap : ∀ a b, gap = a ++ b → ¬ Begins u b) : Reading u gap []
  | event {gap rest : List Char} {events : List OpcEvent} (b : EventText u)
      (hgap : ∀ a c, gap = a ++ c → c ≠ [] → ¬ Begins u (c ++ (b.write ++ rest)))
      (hfirst : b.First rest) (hrest : Reading u rest events) :
      Reading u (gap ++ (b.write ++ rest)) (b.event :: events)

/-! ## One block -/

/-- The event expression matches blocks, each up to its first closing line. -/
theorem logEventRe_eq_some_iff :
    Pattern.matchAt (logEventRe u) s = some (groups, rest) ↔
      ∃ b : EventText u, s = b.write ++ rest ∧ b.First rest ∧
        groups = [b.tag, b.opening.type, b.body] := by
  constructor
  · intro h
    obtain ⟨tag, x, _, rfl, hne, htag, htail⟩ := bracketRe_eq_some h
    obtain ⟨o, x, _, rfl, hcontent⟩ := startedRe_eq_some htail
    obtain ⟨body, x, _, rfl, havoids, hclosing, -⟩ := Pattern.anyLazily_eq_some hcontent
    obtain ⟨m, rfl⟩ := completeRe_eq_some hclosing
    have hfirst : (⟨tag, hne, htag, o, body, m⟩ : EventText u).First rest :=
      EventText.first_iff.mpr havoids
    have hwrite := EventText.write_append ⟨tag, hne, htag, o, body, m⟩ rest
    refine ⟨_, hwrite.symm, hfirst, ?_⟩
    rw [← hwrite, EventText.matchAt_write hfirst] at h
    exact (congrArg Prod.fst (Option.some.inj h)).symm
  · rintro ⟨b, rfl, hfirst, rfl⟩
    exact EventText.matchAt_write hfirst

/-- Where a block begins, the event expression matches, if not this block. -/
theorem isSome_logEventRe_iff : (Pattern.matchAt (logEventRe u) s).isSome ↔ Begins u s := by
  constructor
  · intro h
    obtain ⟨⟨groups, rest⟩, hmatch⟩ := Option.isSome_iff_exists.mp h
    obtain ⟨b, hs, -, -⟩ := logEventRe_eq_some_iff.mp hmatch
    exact ⟨b, rest, hs⟩
  · rintro ⟨b, rest, rfl⟩
    have hcloses : Closes (b.body ++ (b.closing.complete ++ rest)) :=
      ⟨b.body, rest, b.closing, rfl⟩
    rw [b.write_append, logEventRe, matchAt_bracketRe b.tag_ne b.tag_inBrackets,
      matchAt_startedRe, Option.isSome_map, Option.isSome_map]
    exact closes_iff.mp hcloses

theorem avoids_logEventRe_iff {t : List Char} :
    Pattern.Avoids (logEventRe u) t rest ↔
      ∀ a b, t = a ++ b → b ≠ [] → ¬ Begins u (b ++ rest) := by
  refine forall₄_congr fun a b _ _ => ?_
  rw [← isSome_logEventRe_iff, Option.not_isSome_iff_eq_none]

/-! ## The whole file -/

theorem EventText.write_ne (b : EventText u) : b.write ≠ [] := List.cons_ne_nil _ _

theorem findFrom_of_reading {events : List OpcEvent} (h : Reading u s events) (pos : Nat) :
    (Pattern.findFrom (logEventRe u) pos 0 s).map (eventOf u) = events := by
  induction h generalizing pos with
  | @done gap hgap =>
      have havoids : Pattern.Avoids (logEventRe u) gap [] := avoids_logEventRe_iff.mpr <| by
        intro a b hab _
        rw [List.append_nil]
        exact hgap a b hab
      have hfind := Pattern.findFrom_avoids havoids pos
      rw [List.append_nil] at hfind
      rw [hfind]
      rfl
  | event b hgap hfirst _ ih =>
      have hmatch := logEventRe_eq_some_iff.mpr ⟨b, rfl, hfirst, rfl⟩
      rw [Pattern.findFrom_avoids (avoids_logEventRe_iff.mpr hgap),
        Pattern.findFrom_match b.write_ne hmatch, List.map_cons, eventOf_eventText, ih]

theorem exists_reading (s : List Char) : ∃ events, Reading u s events := by
  induction hn : s.length using Nat.strong_induction_on generalizing s with
  | _ n ih =>
      rcases Pattern.avoids_or_first (logEventRe u) s with h | ⟨gap, x, rfl, havoids, hx⟩
      · refine ⟨[], .done fun a b hab hbegins => ?_⟩
        have hne : b ≠ [] := by
          obtain ⟨c, rest, rfl⟩ := hbegins
          exact List.cons_ne_nil _ _
        have hnot := avoids_logEventRe_iff.mp h a b hab hne
        rw [List.append_nil] at hnot
        exact hnot hbegins
      · obtain ⟨⟨groups, rest⟩, hmatch⟩ := Option.isSome_iff_exists.mp hx
        obtain ⟨b, rfl, hfirst, -⟩ := logEventRe_eq_some_iff.mp hmatch
        have hlt : rest.length < n := by
          have hpos := List.length_pos_iff.mpr b.write_ne
          rw [← hn, List.length_append, List.length_append]
          omega
        obtain ⟨events, hevents⟩ := ih rest.length hlt rest rfl
        exact ⟨b.event :: events, .event b (avoids_logEventRe_iff.mp havoids) hfirst hevents⟩

/-- The parser reads the blocks that there are. -/
theorem parseLogBinary_eq_iff {data : List UInt8} {events : List OpcEvent} :
    parseLogBinary u data = events ↔ Reading u (logText data) events := by
  constructor
  · rintro rfl
    obtain ⟨events, h⟩ := exists_reading (u := u) (logText data)
    rw [parseLogBinary, Pattern.findAll, findFrom_of_reading h]
    exact h
  · intro h
    exact findFrom_of_reading h 0

/-! ## A file that grows -/

theorem settled_completeRe : Pattern.Settled completeRe where
  kept := by
    intro s groups rest h y
    obtain ⟨m, rfl⟩ := completeRe_eq_some h
    rw [matchAt_completeRe] at h
    cases h
    rw [List.append_assoc, matchAt_completeRe]
  first := by
    intro a s hnone hs y
    obtain ⟨m, x, rfl⟩ := isSome_completeRe.mp hs
    refine matchAt_completeRe_eq_none fun m' x' heq => ?_
    rw [List.append_assoc] at heq
    have hbefore : ∀ z, a ++ (m.complete ++ x) ≠ m'.complete ++ z := by
      intro z hz
      rw [hz, matchAt_completeRe] at hnone
      cases hnone
    rcases prefix_append_cases ⟨x', heq.symm⟩ with ⟨z, rfl⟩ | ⟨c, mid, hm', y', hmid⟩
    · exact hbefore _ (List.append_assoc _ _ _)
    · -- the later line begins before the first and reaches into it, with zeros
      have hc : isZero c = true := by
        refine m.head_write (eventComplete ++ (x ++ y)) c ?_
        rw [← List.append_assoc, ← Mark.complete, ← hmid]
        rfl
      obtain rfl : c = '0' := of_decide_eq_true hc
      obtain rfl := Mark.complete_inj (m'.zeros_before hm') heq
      rw [← List.append_assoc] at heq
      refine hbefore x ?_
      rw [← List.append_assoc, List.append_cancel_right heq]

theorem settled_logEventRe : Pattern.Settled (logEventRe u) where
  kept := by
    intro s groups rest h y
    obtain ⟨b, rfl, hfirst, rfl⟩ := logEventRe_eq_some_iff.mp h
    refine logEventRe_eq_some_iff.mpr ⟨b, List.append_assoc _ _ _, ?_, rfl⟩
    rw [EventText.first_iff] at hfirst ⊢
    rw [← List.append_assoc]
    exact settled_completeRe.avoids hfirst (by rw [matchAt_completeRe]; rfl) y
  first := by
    intro a s hnone hs y
    obtain ⟨b, rest, rfl⟩ := isSome_logEventRe_iff.mp hs
    rw [← Option.not_isSome_iff_eq_none, isSome_logEventRe_iff] at hnone ⊢
    rintro ⟨b', rest', heq⟩
    refine hnone ?_
    cases a with
    | nil => exact ⟨b, rest, rfl⟩
    | cons d a =>
        rw [b'.write_append, List.cons_append, List.cons.injEq] at heq
        obtain ⟨rfl, heq⟩ := heq
        rcases List.append_eq_append_iff.mp heq with ⟨mid, htag, -⟩ | ⟨mid, rfl, hmid⟩
        · have ha : ∀ c ∈ a, inBrackets c = true := by
            intro c hc
            refine b'.tag_inBrackets c ?_
            rw [htag]
            exact List.mem_append_left _ hc
          exact isSome_logEventRe_iff.mp (isSome_of_inner ha hs)
        · cases mid with
          | nil => exact absurd (List.cons.inj hmid).1 (by decide)
          | cons d mid =>
              rw [List.cons_append, List.cons.injEq] at hmid
              have hhead : ∀ c ∈ (b.write ++ rest ++ y).head?, c = '[' :=
                fun c hc => (Option.some.inj hc).symm
              obtain ⟨w, rfl⟩ := prefix_of_append_bracket b'.opening.bracket_not_mem_write
                hhead ⟨_, hmid.2⟩
              refine ⟨{ b' with
                body := w ++ '[' :: (b.tag ++ ']' :: (b.opening.write ++ b.body))
                closing := b.closing }, rest, ?_⟩
              simp [EventText.write, ← hmid.1]

/-- Of bytes that are only the beginning, what is read is the beginning. -/
theorem decodeUtf16le_prefix (a b : List UInt8) : decodeUtf16le a <+: decodeUtf16le (a ++ b) := by
  fun_induction decodeUtf16le a with
  | case1 lo hi rest h ih =>
      rw [List.cons_append, List.cons_append, decodeUtf16le_unit h]
      exact List.cons_prefix_cons.mpr ⟨rfl, ih⟩
  | case2 lo hi rest h hlow ih =>
      rw [List.cons_append, List.cons_append, decodeUtf16le.eq_def (lo :: hi :: (rest ++ b))]
      show _ <+: if _ then _ else if _ then _ else _
      rw [if_neg h, if_pos hlow]
      exact ih
  | case3 lo hi h hhigh lo' hi' rest hlow ih =>
      have hsurrogate : 0xD800 ≤ unitOf lo hi ∧ unitOf lo hi < 0xDC00 := by omega
      simp only [List.cons_append]
      rw [decodeUtf16le_pair hsurrogate hlow]
      exact List.cons_prefix_cons.mpr ⟨rfl, ih⟩
  | case4 lo hi h hhigh lo' hi' rest hlow ih =>
      simp only [List.cons_append] at ih ⊢
      rw [decodeUtf16le.eq_def (lo :: hi :: lo' :: hi' :: (rest ++ b))]
      show _ <+: if _ then _ else if _ then _ else if _ then _ else _
      rw [if_neg h, if_neg hhigh, if_neg hlow]
      exact ih
  | case5 | case6 => exact List.nil_prefix

/-- A log that is still being written: what was read is what a later reading
begins with. -/
theorem parseLogBinary_prefix (u : CharTables) (data more : List UInt8) :
    parseLogBinary u data <+: parseLogBinary u (data ++ more) := by
  obtain ⟨y, hy⟩ := decodeUtf16le_prefix data more
  have htext : logText (data ++ more) = logText data ++ y.map nulToNewline := by
    rw [logText, logText, ← hy, List.map_append]
  rw [parseLogBinary, parseLogBinary, htext]
  exact (Pattern.findAll_prefix settled_logEventRe _ _).map (eventOf u)

end KepServerLogger.Lib
