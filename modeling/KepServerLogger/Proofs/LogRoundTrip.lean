import KepServerLogger.Proofs.CutBlocks
import KepServerLogger.Proofs.LogBlocks

/-!
# A log is read back

A log of complete blocks is read as their events, whatever white space is
between the lines and wherever a newline is written as NUL. The first value of
a key is the value of its field.
-/

namespace KepServerLogger.Lib

open KepServerLogger.Py

variable {u : CharTables}

/-- The first value that the lines have for the key. -/
def firstValue (lines : List (FieldLine u)) (key : String) : Option String :=
  (lines.find? fun l => String.ofList l.field.key = key).map fun l => String.ofList l.field.value

theorem get?_foldl_setdefault (lines : List (FieldLine u)) (d : Dict String String)
    (key : String) :
    (lines.foldl (fun fields l => fields.setdefault (String.ofList l.field.key)
        (String.ofList l.field.value)) d).get? key =
      (d.get? key).or (firstValue lines key) := by
  induction lines generalizing d with
  | nil => exact Option.or_none.symm
  | cons l lines ih =>
      rw [List.foldl_cons, ih, Dict.get?_setdefault, Option.or_assoc, firstValue, firstValue,
        List.find?_cons]
      by_cases hkey : String.ofList l.field.key = key
      · simp [hkey]
      · simp [hkey]

theorem get?_fields (b : Block u) (key : String) :
    b.fields.get? key = firstValue b.lines key := by
  rw [Block.fields, get?_foldl_setdefault]
  rfl

/-- Complete blocks, each with the white space after it. -/
abbrev Blocks (u : CharTables) := List (Block u × {w : List Char // Blank w})

def Blocks.write (blocks : Blocks u) : List Char := blocks.flatMap fun p => p.1.write ++ p.2.1

def Blocks.entries (blocks : Blocks u) : List (Entry u) :=
  blocks.map fun p => .complete p.1.toEventBlock p.2

theorem writeAll_entries (blocks : Blocks u) : writeAll blocks.entries = blocks.write := by
  rw [writeAll, Blocks.entries, List.flatMap_map, Blocks.write]
  simp only [Entry.write, Block.write_toEventBlock]

theorem noneRunsOn_entries (blocks : Blocks u) : NoneRunsOn blocks.entries := by
  induction blocks with
  | nil => trivial
  | cons p blocks ih => exact ih

theorem completeEvents_entries (blocks : Blocks u) :
    completeEvents blocks.entries = blocks.map (·.1.event) := by
  unfold completeEvents Blocks.entries
  rw [List.filterMap_map, ← List.filterMap_eq_map]
  simp only [Function.comp_def, Block.event_toEventBlock]

/-- What was written is read back: an event for every block, with the first
value of every key. -/
theorem parseLogBinary_write {lead raw : List Char} {blocks : Blocks u} (hlead : Blank lead)
    (hraw : raw.map nulToNewline = lead ++ blocks.write) :
    parseLogBinary u (encodeUtf16le raw) = blocks.map (·.1.event) ∧
      ∀ p ∈ blocks, ∀ key, p.1.event.fields.get? key = firstValue p.1.lines key := by
  have htext : logText (encodeUtf16le raw) = lead ++ writeAll blocks.entries := by
    rw [logText_encode, writeAll_entries, hraw]
  have hread := readsComplete_of_noneRunsOn hlead htext (noneRunsOn_entries blocks)
  refine ⟨?_, fun p _ => get?_fields p.1⟩
  rw [← completeEvents_entries]
  exact hread.1

/-- A closing line is seventeen characters long at least. -/
theorem Mark.length_complete (m : Mark) : 17 ≤ m.complete.length := by
  have hzeros := List.length_pos_iff.mpr m.zeros_ne
  have hgap := List.length_pos_iff.mpr m.gap_ne
  have hcomplete : eventComplete.length = 14 := by decide
  simp only [Mark.complete, Mark.write, List.length_append, List.length_cons, hcomplete]
  omega

def statusGood : LogField .ascii where
  key := "status".toList
  value := "Good".toList
  key_ne := by decide
  key_trimmed := by decide
  key_colon := by decide
  key_digit c hc := by
    obtain rfl : 's' = c := Option.some.inj hc
    rfl
  key_heading := by decide
  value_ne := by decide
  value_trimmed := by decide
  complete_start := by decide
  complete_inside m h := by
    have hle := h.length_le
    have hlength := m.length_complete
    simp at hle
    omega
  mark_inside := by decide

/-- A block with one field. -/
def readBlock (tag : List Char) (hne : tag ≠ []) (htrimmed : strip tag = tag)
    (htag : ∀ c ∈ tag, inBrackets c = true) : Block .ascii where
  tag := tag
  tag_ne := hne
  tag_trimmed := htrimmed
  tag_inBrackets := htag
  opening := readResponse
  startedEnd := newline
  lines := [⟨statusGood, [' '], tenZeros.gap_blank, newline⟩]
  closing := tenZeros

def read1001 : Block .ascii :=
  readBlock "1001".toList (by decide) rfl (List.all_eq_true.mp rfl)

def read1002 : Block .ascii :=
  readBlock "1002".toList (by decide) rfl (List.all_eq_true.mp rfl)

def twoReads : Blocks .ascii :=
  [(read1001, ⟨['\n'], newline.blank⟩), (read1002, ⟨[], fun _ hc => by cases hc⟩)]

/-- Their text, with NUL at the end of every line. -/
def twoReadsRaw : List Char := twoReads.write.map fun c => if c = '\n' then '\x00' else c

theorem parseLogBinary_twoReads :
    parseLogBinary .ascii (encodeUtf16le twoReadsRaw) = twoReads.map (·.1.event) ∧
      ∀ p ∈ twoReads, ∀ key, p.1.event.fields.get? key = firstValue p.1.lines key :=
  @parseLogBinary_write .ascii [] twoReadsRaw twoReads (fun _ hc => by cases hc) rfl

end KepServerLogger.Lib
