import KepServerLogger.Base.Regex
import KepServerLogger.Proofs.RowShapes

/-!
# What passes for an identifier

Table and column names go into the text of a query as they are, and the one
thing that stands before that is `_validate_identifier`. Its pattern spells out
what a name is and is anchored at both ends, but `$` is not the end of the
text: it also holds before a line break that ends it. So what is let in is a
name, or a name and one line break; and a query has nothing but names in it
exactly if no such name comes to it. None does from the program itself, whose
tables and columns are those of the schema.

`insert_many` goes from table to table, checks the names of each, writes them
into a query and reads the values of the rows. Where it raises, the queries
before that have been written all the same.
-/

namespace KepServerLogger.Lib

open KepServerLogger.Py

/-- An ASCII letter or underscore, then ASCII letters, digits and underscores,
and nothing else. -/
def isName : List Char → Bool
  | [] => false
  | c :: cs => isIdentifierStart c && cs.all isIdentifierChar

/-- A name, and a line break after it. -/
def isNameAndBreak (s : List Char) : Bool := s.getLast? = some '\n' && isName s.dropLast

/-! ## The pattern -/

/-- `[A-Za-z_][A-Za-z0-9_]*` -/
def identifierPattern : Pattern Char := [.one isIdentifierStart, .star isIdentifierChar]

/-- `$`, where the rest of the text is this. -/
def dollar (rest : List Char) : Bool := rest = [] || rest = ['\n']

theorem reads_identifierPattern_iff (s : List Char) :
    identifierPattern.Reads s ↔ isName s = true := by
  simp only [identifierPattern, Pattern.Reads, Piece.Takes, Piece.one, Piece.star]
  constructor
  · rintro ⟨a, _, rfl, ⟨ha, hlength⟩, b, _, rfl, ⟨hb, -⟩, rfl⟩
    obtain ⟨c, rfl⟩ := List.length_eq_one_iff.mp hlength
    simpa [isName] using ⟨ha c List.mem_cons_self, hb⟩
  · intro h
    cases s with
    | nil => cases h
    | cons c cs =>
        rw [isName, Bool.and_eq_true, List.all_eq_true] at h
        exact ⟨[c], cs, rfl, ⟨by simpa using h.1, rfl⟩, cs, [], (List.append_nil cs).symm,
          ⟨h.2, trivial⟩, rfl⟩

theorem isNameAndBreak_iff (s : List Char) :
    isNameAndBreak s = true ↔ ∃ t, isName t = true ∧ s = t ++ ['\n'] := by
  rw [isNameAndBreak, Bool.and_eq_true, decide_eq_true_eq]
  constructor
  · rintro ⟨hlast, hname⟩
    obtain ⟨t, rfl⟩ := List.getLast?_eq_some_iff.mp hlast
    exact ⟨t, by rwa [List.dropLast_concat] at hname, rfl⟩
  · rintro ⟨t, ht, rfl⟩
    simp [ht]

/-- The check as it is written out is the search for a match of the pattern. -/
theorem identifierRe_eq_matchTo (s : List Char) :
    identifierRe s = (identifierPattern.matchTo dollar s).isSome := by
  rw [Bool.eq_iff_iff, Pattern.isSome_matchTo_iff]
  simp only [reads_identifierPattern_iff]
  constructor
  · intro h
    cases s with
    | nil => cases h
    | cons c cs =>
        rw [identifierRe, Bool.and_eq_true] at h
        refine ⟨c :: cs.takeWhile isIdentifierChar, cs.dropWhile isIdentifierChar, ?_, ?_, h.2⟩
        · rw [List.cons_append, List.takeWhile_append_dropWhile]
        · rw [isName, h.1, Bool.true_and]
          exact List.all_takeWhile
  · rintro ⟨t, rest, rfl, ht, hrest⟩
    cases t with
    | nil => cases ht
    | cons c cs =>
        rw [isName, Bool.and_eq_true, List.all_eq_true] at ht
        have hdrop : rest.dropWhile isIdentifierChar = rest := by
          rw [dollar, Bool.or_eq_true, decide_eq_true_eq, decide_eq_true_eq] at hrest
          rcases hrest with rfl | rfl <;> rfl
        rw [List.cons_append, identifierRe, List.dropWhile_append_of_pos ht.2, hdrop, ht.1]
        exact hrest

theorem identifierRe_iff (s : List Char) :
    identifierRe s = true ↔ isName s = true ∨ isNameAndBreak s = true := by
  rw [identifierRe_eq_matchTo, Pattern.isSome_matchTo_iff, isNameAndBreak_iff]
  simp only [reads_identifierPattern_iff, dollar, Bool.or_eq_true, decide_eq_true_eq]
  constructor
  · rintro ⟨t, rest, rfl, ht, rfl | rfl⟩
    · exact .inl (by rwa [List.append_nil])
    · exact .inr ⟨t, ht, rfl⟩
  · rintro (hs | ⟨t, ht, rfl⟩)
    · exact ⟨s, [], (List.append_nil s).symm, hs, .inl rfl⟩
    · exact ⟨t, ['\n'], rfl, ht, .inr rfl⟩

theorem isNameAndBreak_of_isName {s : List Char} (h : isName s = true) :
    isNameAndBreak s = false := by
  rw [Bool.eq_false_iff, Ne, isNameAndBreak_iff]
  rintro ⟨t, ht, rfl⟩
  cases t with
  | nil => cases ht
  | cons c cs =>
      rw [List.cons_append, isName, Bool.and_eq_true, List.all_eq_true] at h
      have hbreak := h.2 '\n' (by simp)
      exact absurd hbreak (by decide)

theorem validateIdentifier_ok_iff (identifier : String) :
    validateIdentifier identifier = .ok () ↔ identifierRe identifier.toList = true := by
  unfold validateIdentifier
  split
  · next h => simp [h]
  · next h => simp [h]

/-- The check lets nothing but a name pass, unless it is given a name with a line
break after it. -/
theorem isName_of_validateIdentifier_iff (identifier : String) :
    (validateIdentifier identifier = .ok () → isName identifier.toList = true) ↔
      isNameAndBreak identifier.toList = false := by
  rw [validateIdentifier_ok_iff, identifierRe_iff]
  constructor
  · intro h
    rw [Bool.eq_false_iff]
    intro hbreak
    rw [isNameAndBreak_of_isName (h (.inr hbreak))] at hbreak
    cases hbreak
  · intro hbreak h
    exact h.resolve_right (by simp [hbreak])

end KepServerLogger.Lib

namespace KepServerLogger.Ingestor

open KepServerLogger.Py KepServerLogger.Lib

/-! ## The queries of insert_many -/

/-- The table and the columns that a turn of the loop writes into its query. -/
def writtenBy : String × List Row → Option (String × List String)
  | (_, []) => none
  | (table, first :: _) =>
      match (table :: first.keys).forM validateIdentifier with
      | .ok () => some (table, first.keys)
      | .error _ => none

/-- The table and the columns of every query that `insert_many` writes, also of
those before it raises. -/
def writtenNames (rowsByTable : Batch) : List (String × List String) :=
  (reached (fun p => insertStatement p.1 p.2) rowsByTable.items).filterMap writtenBy

/-- The loop goes on after this table: its names pass the check, and no row
lacks a column of the first. -/
def Passes (p : String × List Row) : Prop :=
  ∀ first ∈ p.2.head?,
    (∀ identifier ∈ p.1 :: first.keys, identifierRe identifier.toList = true) ∧
      ∀ row ∈ p.2, first.keys ⊆ row.keys

/-- Among the names of a table that the loop comes to, if they all pass the
check, there is none with a line break after it. -/
def Unbroken (rowsByTable : Batch) : Prop :=
  ∀ before table first rest after,
    rowsByTable.items = before ++ (table, first :: rest) :: after → (∀ p ∈ before, Passes p) →
      (∀ identifier ∈ table :: first.keys, identifierRe identifier.toList = true) →
        ∀ identifier ∈ table :: first.keys, isNameAndBreak identifier.toList = false

variable {table : String} {rows : List Row} {rowsByTable : Batch}

theorem forM_validateIdentifier_ok_iff (names : List String) :
    names.forM validateIdentifier = .ok () ↔
      ∀ identifier ∈ names, identifierRe identifier.toList = true := by
  rw [forM_ok_iff]
  simp only [validateIdentifier_ok_iff]

theorem rowValues_returns_iff (columns : List String) (row : Row) :
    (∃ values, rowValues columns row = .ok values) ↔ columns ⊆ row.keys := by
  unfold rowValues
  rw [mapM_returns_iff]
  refine forall₂_congr fun c _ => ?_
  cases hget : row.get? c with
  | none => simp [Dict.get?_eq_none.mp hget]
  | some v =>
      have hmem : c ∈ row.keys := by
        by_contra hc
        rw [Dict.get?_eq_none.mpr hc] at hget
        cases hget
      simp [hmem]

/-- What a turn of the loop returns, and what it needs to. -/
theorem insertStatement_ok_iff {first : Row} {rest : List Row} {st : Option Statement} :
    insertStatement table (first :: rest) = .ok st ↔
      (table :: first.keys).forM validateIdentifier = .ok () ∧
        ∃ params, (first :: rest).mapM (rowValues first.keys) = .ok params ∧
          st = some ⟨insertQuery table first.keys, table, first.keys, params⟩ := by
  constructor
  · intro h
    obtain ⟨_, hnames, h⟩ := ok_of_bind h
    obtain ⟨params, hparams, h⟩ := ok_of_bind h
    cases h
    exact ⟨hnames, params, hparams, rfl⟩
  · rintro ⟨hnames, params, hparams, rfl⟩
    simp only [insertStatement, hnames, hparams]
    rfl

theorem insertStatement_returns_iff (p : String × List Row) :
    (∃ st, insertStatement p.1 p.2 = .ok st) ↔ Passes p := by
  obtain ⟨table, rows⟩ := p
  cases rows with
  | nil => exact iff_of_true ⟨none, rfl⟩ fun first h => nomatch h
  | cons first rest =>
      have hparams : (∃ params, (first :: rest).mapM (rowValues first.keys) = .ok params) ↔
          ∀ row ∈ first :: rest, first.keys ⊆ row.keys := by
        simp only [mapM_returns_iff, rowValues_returns_iff]
      have hpasses : Passes (table, first :: rest) ↔
          (∀ identifier ∈ table :: first.keys, identifierRe identifier.toList = true) ∧
            ∀ row ∈ first :: rest, first.keys ⊆ row.keys :=
        ⟨fun h => h first rfl, fun h x hx => by cases hx; exact h⟩
      rw [hpasses, ← forM_validateIdentifier_ok_iff, ← hparams]
      constructor
      · rintro ⟨st, hst⟩
        obtain ⟨hnames, params, hparams, -⟩ := insertStatement_ok_iff.mp hst
        exact ⟨hnames, params, hparams⟩
      · rintro ⟨hnames, params, hparams⟩
        exact ⟨_, insertStatement_ok_iff.mpr ⟨hnames, params, hparams, rfl⟩⟩

theorem writtenBy_of_ok {st : Option Statement} (h : insertStatement table rows = .ok st) :
    writtenBy (table, rows) = st.map (fun st => (st.table, st.columns)) ∧
      ∀ s ∈ st, s.query = insertQuery s.table s.columns := by
  cases rows with
  | nil =>
      cases h
      exact ⟨rfl, fun s hs => nomatch hs⟩
  | cons first rest =>
      obtain ⟨hnames, params, -, rfl⟩ := insertStatement_ok_iff.mp h
      refine ⟨?_, fun s hs => ?_⟩
      · rw [writtenBy, hnames]
        rfl
      · cases hs
        rfl

theorem writtenBy_turns {items : List (String × List Row)} {turns : List (Option Statement)}
    (h : List.Forall₂ (fun p st => insertStatement p.1 p.2 = .ok st) items turns) :
    items.filterMap writtenBy = turns.reduceOption.map (fun st => (st.table, st.columns)) ∧
      ∀ st ∈ turns.reduceOption, st.query = insertQuery st.table st.columns := by
  induction h with
  | nil => exact ⟨rfl, List.forall_mem_nil _⟩
  | @cons p st items turns hst _ ih =>
      obtain ⟨hnames, hquery⟩ := writtenBy_of_ok hst
      cases st with
      | none =>
          rw [List.filterMap_cons_none hnames]
          exact ih
      | some st =>
          rw [List.filterMap_cons_some hnames, ih.1]
          exact ⟨rfl, List.forall_mem_cons.mpr ⟨hquery st rfl, ih.2⟩⟩

/-- Where it does not raise, these are the queries that are executed. -/
theorem writtenNames_of_ok {statements : List Statement}
    (h : insertStatements rowsByTable = .ok statements) :
    writtenNames rowsByTable = statements.map (fun st => (st.table, st.columns)) ∧
      ∀ st ∈ statements, st.query = insertQuery st.table st.columns := by
  obtain ⟨turns, hturns, hreturn⟩ := ok_of_bind h
  cases hreturn
  rw [writtenNames, reached_of_mapM_ok hturns]
  exact writtenBy_turns (forall₂_of_mapM_ok hturns)

theorem writtenBy_eq_some_iff {p : String × List Row} {q : String × List String} :
    writtenBy p = some q ↔
      ∃ first rest, p = (q.1, first :: rest) ∧ q.2 = first.keys ∧
        ∀ identifier ∈ q.1 :: first.keys, identifierRe identifier.toList = true := by
  obtain ⟨table, rows⟩ := p
  simp only [← forM_validateIdentifier_ok_iff]
  cases rows with
  | nil => simp [writtenBy]
  | cons first rest =>
      constructor
      · intro h
        rw [writtenBy] at h
        split at h
        · next hnames =>
            cases h
            exact ⟨first, rest, rfl, rfl, hnames⟩
        · cases h
      · rintro ⟨first', rest', heq, hcolumns, hnames⟩
        cases heq
        rw [writtenBy, hnames, ← hcolumns]

theorem onlyNames_iff (rowsByTable : Batch) :
    (∀ q ∈ writtenNames rowsByTable, ∀ identifier ∈ q.1 :: q.2,
      isName identifier.toList = true) ↔ Unbroken rowsByTable := by
  simp only [writtenNames, List.mem_filterMap, mem_reached_iff, writtenBy_eq_some_iff,
    insertStatement_returns_iff]
  constructor
  · intro h before table first rest after hitems hbefore hnames identifier hi
    refine (isName_of_validateIdentifier_iff identifier).mp fun _ => ?_
    exact h (table, first.keys)
      ⟨(table, first :: rest), ⟨before, after, hitems, hbefore⟩, first, rest, rfl, rfl, hnames⟩
      identifier hi
  · rintro h ⟨table, columns⟩ ⟨_, ⟨before, after, hitems, hbefore⟩, first, rest, rfl, rfl, hnames⟩
      identifier hi
    refine (isName_of_validateIdentifier_iff identifier).mpr ?_ ?_
    · exact h before table first rest after hitems hbefore hnames identifier hi
    · exact (validateIdentifier_ok_iff identifier).mpr (hnames identifier hi)

/-- The names of the schema have no line break after them, so no batch of the
program has one that does. -/
theorem SchemaRows.unbroken (h : SchemaRows rowsByTable) : Unbroken rowsByTable := by
  have hschema : ∀ p ∈ schema.items, ∀ identifier ∈ p.1 :: p.2,
      isNameAndBreak identifier.toList = false := by decide
  intro before table first rest after hitems _ _ identifier hi
  have hmem : (table, first :: rest) ∈ rowsByTable.items := by
    rw [hitems]
    exact List.mem_append_right _ List.mem_cons_self
  obtain ⟨columns, hget, hperm⟩ := h.of_mem_items hmem first List.mem_cons_self
  refine hschema _ (Dict.get?_eq_some.mp hget) identifier ?_
  simpa only [List.mem_cons, hperm.mem_iff] using hi

theorem Tasks.batches_unbroken {env : Externals} {tr : List (Tasks × Tasks.Event)} {s : Tasks}
    (h : Run (Tasks.step env) Tasks.start tr s) (hrtt : ∀ p ∈ tr, p.2.addsRtt = true) :
    ∀ batch ∈ s.batches, Unbroken batch :=
  fun _ hbatch => ((Run.shaped h hrtt).of_mem hbatch).unbroken

/-- What passes the check is a name exactly if it is not a name with a line
break after it; and nothing but names is written into a query exactly if no
name with a line break comes to one. -/
theorem checked_names_iff (identifier : String) (rowsByTable : Batch) :
    ((validateIdentifier identifier = .ok () → isName identifier.toList = true) ↔
      isNameAndBreak identifier.toList = false) ∧
    ((∀ q ∈ writtenNames rowsByTable, ∀ name ∈ q.1 :: q.2, isName name.toList = true) ↔
      Unbroken rowsByTable) :=
  ⟨isName_of_validateIdentifier_iff identifier, onlyNames_iff rowsByTable⟩

/-- A row for a table whose name has a line break after it. -/
def brokenTable : Batch := Dict.ofList [("tags\n", [Dict.ofList [("tag", .str "flow")]])]

/-- The name passes the check, and its line break is in the query. -/
theorem brokenTable_passes :
    validateIdentifier "tags\n" = .ok () ∧ isName "tags\n".toList = false ∧
      (insertStatements brokenTable).map (List.map Statement.query) =
        .ok ["INSERT INTO tags\n (tag) VALUES (%s) ON CONFLICT DO NOTHING;"] ∧
      ¬ ∀ q ∈ writtenNames brokenTable, ∀ identifier ∈ q.1 :: q.2,
        isName identifier.toList = true := by
  refine ⟨rfl, rfl, rfl, ?_⟩
  decide

end KepServerLogger.Ingestor
