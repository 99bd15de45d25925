import KepServerLogger.Ingestor.Schema

/-!
# Initializing again

However often `initialize` is run for a database, and wherever it was
interrupted before: what it returns from has all the tables, indexes and
hypertables that it asks for, and from then on it stays that way. The days
that a hypertable's rows are kept are those of the attempt that committed its
transaction first; a later attempt, with another `log_retention_days`, leaves
them alone.

The reason is one for all of them. An object of a database is as the first
statement says that was committed and names it, so it is enough to know which
statements have been committed.
-/

namespace KepServerLogger.Ingestor

open KepServerLogger.Py KepServerLogger.Lib

/-! ## What is declared -/

/-- A statement that some `initialize` executes. -/
def Declared (st : Ddl) : Prop :=
  st ∈ schemaStatements ∨
    ∃ p ∈ createHypertables, ∃ days, st ∈ hypertableStatements p.1 p.2 days

/-- The indexes that the server may make of itself. -/
def broughtAlong : List DbObject :=
  (schemaStatements ++ createHypertables.map fun p => Ddl.createHypertable p.1 p.2).flatMap Ddl.brings

theorem Declared.brings_subset {st : Ddl} (h : Declared st) : st.brings ⊆ broughtAlong := by
  intro o ho
  rcases h with h | ⟨p, hp, days, h⟩
  · exact List.mem_flatMap.mpr ⟨st, List.mem_append_left _ h, ho⟩
  · rcases List.mem_pair.mp h with rfl | rfl
    · exact List.mem_flatMap.mpr ⟨_, List.mem_append_right _ (List.mem_map_of_mem hp), ho⟩
    · cases ho

theorem relation_of_broughtAlong {o : DbObject} (h : o ∈ broughtAlong) :
    ∃ name, o = .relation name := by
  obtain ⟨st, -, ho⟩ := List.mem_flatMap.mp h
  cases st with
  | createTable | createHypertable => exact ⟨_, List.mem_singleton.mp ho⟩
  | createExtension | createIndex | addRetention => cases ho

theorem schema_not_broughtAlong : ∀ st ∈ schemaStatements, st.object ∉ broughtAlong := by decide

theorem nodup_schemaStatements : (schemaStatements.map Ddl.object).Nodup := by decide

theorem schema_object {st : Ddl} (h : st ∈ schemaStatements) :
    (∃ name, st.object = .extension name) ∨ ∃ name, st.object = .relation name := by
  rcases List.mem_append.mp h with h | h
  · rcases List.mem_cons.mp h with rfl | h
    · exact .inl ⟨_, rfl⟩
    · obtain ⟨p, -, rfl⟩ := List.mem_map.mp h
      exact .inr ⟨_, rfl⟩
  · obtain ⟨p, -, rfl⟩ := List.mem_map.mp h
    exact .inr ⟨_, rfl⟩

/-- No two statements make one relation. -/
theorem Declared.eq_of_relation {st st' : Ddl} {name : String} (h : Declared st)
    (h' : st' ∈ schemaStatements) (ho : st.object = .relation name) (ho' : st'.object = st.object) :
    st = st' := by
  rcases h with h | ⟨p, hp, days, h⟩
  · exact List.inj_on_of_nodup_map nodup_schemaStatements h h' ho'.symm
  · rcases List.mem_pair.mp h with rfl | rfl <;> cases ho

theorem nodup_hypertables : (createHypertables.map Prod.fst).Nodup := by decide

theorem Declared.eq_of_hypertable {st : Ddl} {p : String × String} (h : Declared st)
    (hp : p ∈ createHypertables) (ho : st.object = .hypertable p.1) :
    st = .createHypertable p.1 p.2 := by
  rcases h with h | ⟨q, hq, days, h⟩
  · rcases schema_object h with ⟨name, hname⟩ | ⟨name, hname⟩ <;> rw [hname] at ho <;> cases ho
  · rcases List.mem_pair.mp h with rfl | rfl
    · have hsame : q.1 = p.1 := by simpa [Ddl.object] using ho
      rw [List.inj_on_of_nodup_map nodup_hypertables hq hp hsame]
    · cases ho

theorem Declared.eq_of_retention {st : Ddl} {table : String} (h : Declared st)
    (ho : st.object = .retention table) : ∃ days, st = .addRetention table days := by
  rcases h with h | ⟨q, hq, days, h⟩
  · rcases schema_object h with ⟨name, hname⟩ | ⟨name, hname⟩ <;> rw [hname] at ho <;> cases ho
  · rcases List.mem_pair.mp h with rfl | rfl
    · cases ho
    · cases ho
      exact ⟨days, rfl⟩

theorem declared_of_transaction {days : Int} {about : Option (String × String)}
    (habout : ∀ p ∈ about, p ∈ createHypertables) {st : Ddl}
    (h : st ∈ transactionStatements days about) : Declared st := by
  cases about with
  | none => exact .inl h
  | some p => exact .inr ⟨p, habout p rfl, days, h⟩

namespace DatabaseServer

variable {Db : Type*} {pg : Postgres Db} {databases : Dict String Db} {db_name : String}
  {tr : List (DatabaseServer Db × Event)} {s s' : DatabaseServer Db} {e : Event}

/-! ## What an attempt has done -/

/-- The transaction about a hypertable is among these statements. -/
def Made (statements : List Ddl) (p : String × String) : Prop :=
  ∃ days, hypertableStatements p.1 p.2 days ⊆ statements

theorem Made.mono {statements statements' : List Ddl} {p : String × String}
    (h : Made statements p) (hsub : statements ⊆ statements') : Made statements' p :=
  h.imp fun _ hp => List.Subset.trans hp hsub

/-- An attempt at a transaction stands on the database as it is committed, and
has committed the transactions before. -/
def UnderWay (pg : Postgres Db) (tr : List (DatabaseServer Db × Event)) (s : DatabaseServer Db)
    (attempt : Initialize Db) : Prop :=
  match attempt.stage with
  | .database | .connect => True
  | .transaction db statements about rest =>
      ∃ base done before, s.databases.get? attempt.db_name = some base ∧
        done ++ statements = transactionStatements attempt.retention_days about ∧
        done.foldlM pg.execute base = some db ∧
        createHypertables = before ++ (about.toList ++ rest) ∧
        (about.isSome → schemaStatements ⊆ tr.flatMap (committed attempt.db_name)) ∧
        ∀ p ∈ before, Made (tr.flatMap (committed attempt.db_name)) p

/-- What is known of a database that there was not at first. -/
structure Inv (pg : Postgres Db) (db_name : String) (tr : List (DatabaseServer Db × Event))
    (s : DatabaseServer Db) : Prop where
  declared : ∀ st ∈ tr.flatMap (committed db_name), Declared st
  missing : s.databases.get? db_name = none → tr.flatMap (committed db_name) = []
  holds : ∀ db, s.databases.get? db_name = some db → ∀ o, o.isExtension = false →
    o ∉ broughtAlong →
    pg.holds db o = (tr.flatMap (committed db_name)).find? (·.object = o)
  underWay : ∀ attempt, s.attempt = some attempt → UnderWay pg tr s attempt
  complete : db_name ∈ tr.flatMap completed → (s.databases.get? db_name).isSome ∧
    schemaStatements ⊆ tr.flatMap (committed db_name) ∧
      ∀ p ∈ createHypertables, Made (tr.flatMap (committed db_name)) p

theorem Inv.start (hnone : databases.get? db_name = none) : Inv pg db_name [] (start databases) where
  declared _ h := absurd h List.not_mem_nil
  missing _ := rfl
  holds db h := by
    cases hnone.symm.trans h
  underWay _ h := by cases h
  complete h := absurd h List.not_mem_nil

/-- A step that commits nothing to the database. -/
theorem Inv.uncommitted (h : Inv pg db_name tr s)
    (hsame : s'.databases.get? db_name = s.databases.get? db_name)
    (hcommitted : committed db_name (s, e) = []) (hcompleted : db_name ∉ completed (s, e))
    (hattempt : ∀ attempt, s'.attempt = some attempt → UnderWay pg (tr ++ [(s, e)]) s' attempt) :
    Inv pg db_name (tr ++ [(s, e)]) s' := by
  have hcommits : (tr ++ [(s, e)]).flatMap (committed db_name) = tr.flatMap (committed db_name) := by
    rw [List.flatMap_append, List.flatMap_singleton, hcommitted, List.append_nil]
  refine ⟨?_, ?_, ?_, hattempt, fun hmem => ?_⟩
  · rw [hcommits]
    exact h.declared
  · rw [hcommits, hsame]
    exact h.missing
  · rw [hcommits, hsame]
    exact h.holds
  · rw [List.flatMap_append, List.flatMap_singleton] at hmem
    rw [hcommits, hsame]
    exact h.complete ((List.mem_append.mp hmem).resolve_right hcompleted)

/-- A database that is created is as the template. -/
theorem Inv.createDatabase (hpg : pg.Documented) {name : String} {days : Int}
    (h : Inv pg db_name tr ⟨databases, some ⟨name, days, .database⟩⟩)
    (hnone : databases.get? name = none) :
    Inv pg db_name (tr ++ [(⟨databases, some ⟨name, days, .database⟩⟩, .proceeds)])
      ⟨databases.set name pg.fresh, some ⟨name, days, .connect⟩⟩ := by
  by_cases heq : name = db_name
  · subst heq
    have hnil := h.missing hnone
    have hcommits : (tr ++ [((⟨databases, some ⟨name, days, .database⟩⟩ : DatabaseServer Db),
        Event.proceeds)]).flatMap (committed name) = [] := by
      rw [List.flatMap_append, hnil]
      rfl
    have hget : (databases.set name pg.fresh).get? name = some pg.fresh := by
      rw [Dict.get?_set, if_pos rfl]
    refine ⟨fun st hst => ?_, fun hmissing => ?_, fun db hdb o ho hbrought => ?_, ?_,
      fun hmem => ?_⟩
    · rw [hcommits] at hst
      cases hst
    · cases hget.symm.trans hmissing
    · cases hget.symm.trans hdb
      rw [hcommits, hpg.fresh o ho]
      rfl
    · rintro attempt ⟨⟩
      trivial
    · rw [List.flatMap_append, List.flatMap_singleton] at hmem
      obtain ⟨hsome, -⟩ := h.complete ((List.mem_append.mp hmem).resolve_right List.not_mem_nil)
      rw [show DatabaseServer.databases _ = databases from rfl, hnone] at hsome
      cases hsome
  · refine h.uncommitted ?_ rfl List.not_mem_nil ?_
    · show (databases.set name pg.fresh).get? db_name = databases.get? db_name
      rw [Dict.get?_set, if_neg heq]
    · rintro attempt ⟨⟩
      trivial

theorem databases_nextHypertable (s : DatabaseServer Db) (attempt : Initialize Db) (db : Db)
    (rest : List (String × String)) :
    (s.nextHypertable attempt db rest).databases = s.databases := by
  unfold nextHypertable
  split
  · rfl
  · split <;> rfl

/-- The next transaction, or none. -/
theorem underWay_nextHypertable (pg : Postgres Db) {name : String} {days : Int}
    {stage : InitializeStage Db} {db : Db} {before rest : List (String × String)}
    (hget : databases.get? name = some db)
    (hrest : createHypertables = before ++ rest)
    (hschema : schemaStatements ⊆ tr.flatMap (committed name))
    (hmade : ∀ p ∈ before, Made (tr.flatMap (committed name)) p)
    {attempt₀ : Option (Initialize Db)} :
    ∀ attempt, (nextHypertable ⟨databases, attempt₀⟩ ⟨name, days, stage⟩ db rest).attempt =
      some attempt →
      UnderWay pg tr (nextHypertable ⟨databases, attempt₀⟩ ⟨name, days, stage⟩ db rest) attempt := by
  intro attempt hattempt
  unfold nextHypertable at hattempt ⊢
  cases rest with
  | nil => cases hattempt
  | cons p rest =>
      obtain ⟨table, column⟩ := p
      dsimp only at hattempt ⊢
      split at hattempt
      · cases hattempt
        exact ⟨db, [], before, hget, rfl, rfl, hrest, fun _ => hschema, hmade⟩
      · cases hattempt

/-- A transaction is committed. -/
theorem Inv.commit (hpg : pg.Documented) {name : String} {days : Int} {db : Db}
    {about : Option (String × String)} {rest : List (String × String)}
    (h : Inv pg db_name tr ⟨databases, some ⟨name, days, .transaction db [] about rest⟩⟩) :
    Inv pg db_name
      (tr ++ [(⟨databases, some ⟨name, days, .transaction db [] about rest⟩⟩, .proceeds)])
      (nextHypertable ⟨databases.set name db, some ⟨name, days, .transaction db [] about rest⟩⟩
        ⟨name, days, .transaction db [] about rest⟩ db rest) := by
  obtain ⟨base, done, before, hbase, hdone, hexecute, hrest, hschema, hmade⟩ := h.underWay _ rfl
  rw [List.append_nil] at hdone
  subst hdone
  have hdatabases := databases_nextHypertable
    ⟨databases.set name db, some ⟨name, days, .transaction db [] about rest⟩⟩
    ⟨name, days, .transaction db [] about rest⟩ db rest
  have hget : (databases.set name db).get? name = some db := by rw [Dict.get?_set, if_pos rfl]
  have hcommits : ∀ db_name,
      (tr ++ [((⟨databases, some ⟨name, days, .transaction db [] about rest⟩⟩ : DatabaseServer Db),
        Event.proceeds)]).flatMap (committed db_name) = tr.flatMap (committed db_name) ++
          if name = db_name then transactionStatements days about else [] := fun db_name => by
    rw [List.flatMap_append, List.flatMap_singleton]
    rfl
  have habout : ∀ p ∈ about, p ∈ createHypertables := by
    intro p hp
    rw [hrest]
    exact List.mem_append_right _ (List.mem_append_left _ (Option.mem_toList.mpr hp))
  have hschema' : schemaStatements ⊆
      tr.flatMap (committed name) ++ transactionStatements days about := by
    cases about with
    | none => exact List.subset_append_right _ _
    | some p => exact List.Subset.trans (hschema rfl) (List.subset_append_left _ _)
  have hmade' : ∀ p ∈ before ++ about.toList,
      Made (tr.flatMap (committed name) ++ transactionStatements days about) p := by
    intro p hp
    rcases List.mem_append.mp hp with hp | hp
    · exact (hmade p hp).mono (List.subset_append_left _ _)
    · obtain rfl : about = some p := by simpa using hp
      exact ⟨days, List.subset_append_right _ _⟩
  rw [← List.append_assoc] at hrest
  have hnext : ∀ attempt, (nextHypertable
      ⟨databases.set name db, some ⟨name, days, .transaction db [] about rest⟩⟩
      ⟨name, days, .transaction db [] about rest⟩ db rest).attempt = some attempt → _ :=
    underWay_nextHypertable pg hget hrest
      (by rw [hcommits, if_pos rfl]; exact hschema')
      (by rw [hcommits, if_pos rfl]; exact hmade')
  by_cases heq : name = db_name
  · subst heq
    have hcommits := hcommits name
    rw [if_pos rfl] at hcommits
    refine ⟨fun st hst => ?_, fun hmissing => ?_, fun db' hdb' o ho hbrought => ?_, hnext,
      fun hmem => ?_⟩
    · rw [hcommits] at hst
      exact (List.mem_append.mp hst).elim (h.declared st) (declared_of_transaction habout)
    · rw [hdatabases] at hmissing
      cases hget.symm.trans hmissing
    · rw [hdatabases] at hdb'
      cases hget.symm.trans hdb'
      have hnot : ∀ st ∈ transactionStatements days about, o ∉ st.brings := fun st hst ho =>
        hbrought ((declared_of_transaction habout hst).brings_subset ho)
      rw [hcommits, List.find?_append, ← h.holds base hbase o ho hbrought]
      exact hpg.ifNotExists.holds_foldlM hnot hexecute
    · rw [hdatabases, hcommits]
      refine ⟨Option.isSome_iff_exists.mpr ⟨db, hget⟩, hschema', fun p hp => ?_⟩
      rw [List.flatMap_append, List.flatMap_singleton] at hmem
      rcases List.mem_append.mp hmem with hmem | hmem
      · exact ((h.complete hmem).2.2 p hp).mono (List.subset_append_left _ _)
      · cases rest with
        | nil =>
            rw [hrest, List.append_nil] at hp
            exact hmade' p hp
        | cons q rest => cases hmem
  · refine h.uncommitted ?_ (if_neg heq) (fun hmem => ?_) hnext
    · rw [hdatabases]
      show (databases.set name db).get? db_name = databases.get? db_name
      rw [Dict.get?_set, if_neg heq]
    · cases rest with
      | nil => exact heq (List.mem_singleton.mp hmem).symm
      | cons q rest => cases hmem

/-- One more statement of the transaction. -/
theorem UnderWay.execute {name : String} {days : Int} {db db' : Db} {statement : Ddl}
    {statements : List Ddl} {about : Option (String × String)} {rest : List (String × String)}
    {attempt : Option (Initialize Db)} (hnone : committed name (s, e) = [])
    (h : UnderWay pg tr ⟨databases, attempt⟩
      ⟨name, days, .transaction db (statement :: statements) about rest⟩)
    (hexecute : pg.execute db statement = some db') {attempt' : Option (Initialize Db)} :
    UnderWay pg (tr ++ [(s, e)]) ⟨databases, attempt'⟩
      ⟨name, days, .transaction db' statements about rest⟩ := by
  obtain ⟨base, done, before, hbase, hdone, hdb, hrest, hschema, hmade⟩ := h
  have hcommits : (tr ++ [(s, e)]).flatMap (committed name) = tr.flatMap (committed name) := by
    rw [List.flatMap_append, List.flatMap_singleton, hnone, List.append_nil]
  refine ⟨base, done ++ [statement], before, hbase, ?_, ?_, hrest, ?_, ?_⟩
  · rw [← hdone, List.append_assoc]
    rfl
  · rw [List.foldlM_append, hdb]
    show [statement].foldlM pg.execute db = some db'
    rw [List.foldlM_cons, hexecute]
    rfl
  · rw [hcommits]
    exact hschema
  · rw [hcommits]
    exact hmade

/-- Only an attempt that goes on commits. -/
theorem commits_interrupted (s : DatabaseServer Db) (db_name : String) :
    committed db_name (s, .interrupted) = [] ∧ completed (s, .interrupted) = [] := by
  constructor
  · unfold committed
    split
    · next heq => cases heq
    · rfl
  · unfold completed
    split
    · next heq => cases heq
    · rfl

theorem Inv.step (hpg : pg.Documented) (h : Inv pg db_name tr s)
    (hs : DatabaseServer.step pg s e = some s') : Inv pg db_name (tr ++ [(s, e)]) s' := by
  obtain ⟨databases, attempt₀⟩ := s
  cases e with
  | begins name retention_days =>
      simp only [DatabaseServer.step] at hs
      split at hs
      · cases hs
        refine h.uncommitted rfl rfl List.not_mem_nil ?_
        rintro attempt ⟨⟩
        trivial
      · cases hs
  | interrupted =>
      simp only [DatabaseServer.step] at hs
      obtain ⟨hcommitted, hcompleted⟩ := commits_interrupted ⟨databases, attempt₀⟩ db_name
      split at hs
      · cases hs
        exact h.uncommitted rfl hcommitted (hcompleted ▸ List.not_mem_nil) fun _ h => by cases h
      · cases hs
  | proceeds =>
      cases attempt₀ with
      | none => cases hs
      | some attempt =>
          obtain ⟨name, days, stage⟩ := attempt
          cases stage with
          | database =>
              simp only [DatabaseServer.step] at hs
              split at hs
              · cases hs
                exact h.uncommitted rfl rfl List.not_mem_nil fun _ h => by cases h
              · split at hs
                · cases hs
                  refine h.uncommitted rfl rfl List.not_mem_nil ?_
                  rintro attempt ⟨⟩
                  trivial
                · next hnone =>
                    cases hs
                    exact h.createDatabase hpg hnone
          | connect =>
              simp only [DatabaseServer.step] at hs
              split at hs
              · next base hbase =>
                  cases hs
                  refine h.uncommitted rfl rfl List.not_mem_nil ?_
                  rintro attempt ⟨⟩
                  exact ⟨base, [], [], hbase, rfl, rfl, rfl, fun h => (by cases h),
                    fun _ h => by cases h⟩
              · cases hs
                exact h.uncommitted rfl rfl List.not_mem_nil fun _ h => by cases h
          | transaction db statements about rest =>
              cases statements with
              | nil =>
                  cases hs
                  exact h.commit hpg
              | cons statement statements =>
                  simp only [DatabaseServer.step] at hs
                  split at hs
                  · next db' hexecute =>
                      cases hs
                      refine h.uncommitted rfl rfl List.not_mem_nil ?_
                      rintro attempt ⟨⟩
                      exact UnderWay.execute rfl (h.underWay _ rfl) hexecute
                  · cases hs
                    exact h.uncommitted rfl rfl List.not_mem_nil fun _ h => by cases h

theorem Run.inv (hpg : pg.Documented) (hnone : databases.get? db_name = none)
    (h : Run (DatabaseServer.step pg) (start databases) tr s) : Inv pg db_name tr s := by
  induction h with
  | nil => exact .start hnone
  | snoc _ hs ih => exact ih.step hpg hs

/-- An object is as a statement says that was committed, if no other declared
statement makes it. -/
theorem Inv.holds_of_committed (h : Inv pg db_name tr s) {db : Db}
    (hdb : s.databases.get? db_name = some db) {st : Ddl} (hextension : st.object.isExtension = false)
    (hbrought : st.object ∉ broughtAlong) (hmem : st ∈ tr.flatMap (committed db_name)) :
    ∃ st', Declared st' ∧ st'.object = st.object ∧ pg.holds db st.object = some st' := by
  have hfind := h.holds db hdb _ hextension hbrought
  cases hresult : (tr.flatMap (committed db_name)).find? (·.object = st.object) with
  | none => exact absurd (decide_eq_true rfl) (List.find?_eq_none.mp hresult st hmem)
  | some st' =>
      refine ⟨st', h.declared st' (List.mem_of_find?_eq_some hresult), ?_, hfind.trans hresult⟩
      simpa using List.find?_some hresult

/-- The retention that is committed first. -/
theorem find?_retention (tr : List (DatabaseServer Db × Event)) (table : String) :
    (tr.flatMap (committed db_name)).find? (·.object = .retention table) =
      (Dict.lookup table (tr.flatMap (tableCommits db_name))).map (.addRetention table) := by
  have hschema : schemaStatements.find? (·.object = .retention table) = none := by
    refine List.find?_eq_none.mpr fun st hst heq => ?_
    rcases schema_object hst with ⟨name, hname⟩ | ⟨name, hname⟩ <;> simp [hname] at heq
  have hone : ∀ p : DatabaseServer Db × Event,
      (committed db_name p).find? (·.object = .retention table) =
        (Dict.lookup table (tableCommits db_name p)).map (.addRetention table) := by
    rintro ⟨⟨databases, attempt⟩, e⟩
    unfold committed tableCommits
    split
    · next name days db about rest heq =>
        cases heq
        cases about with
        | none =>
            split
            · exact hschema
            · rfl
        | some p =>
            obtain ⟨table', column⟩ := p
            simp only
            split
            · by_cases htable : table' = table
              · subst htable
                simp [transactionStatements, hypertableStatements, Ddl.object, Dict.lookup]
              · simp [transactionStatements, hypertableStatements, Ddl.object, Dict.lookup, htable]
            · rfl
    · next hnone =>
        split
        · next heq =>
            cases heq
            exact (hnone _ _ _ _ _ _ rfl).elim
        · rfl
  induction tr with
  | nil => rfl
  | cons p tr ih =>
      rw [List.flatMap_cons, List.flatMap_cons, List.find?_append, Dict.lookup_append, hone, ih]
      cases Dict.lookup table (tableCommits db_name p) <;> rfl

end DatabaseServer

open DatabaseServer in
/-- However the attempts to initialize a server's databases follow each other
and wherever they are interrupted, for a database that was not there at first:
a hypertable has the retention of the attempt that committed it first, there is
nothing that was not asked for but what the server makes of itself, and when
one of the attempts has completed there is everything that was asked for. -/
theorem initialize_converges {Db : Type*} {pg : Postgres Db} (hpg : pg.Documented)
    {databases : Dict String Db} {db_name : String} (hnone : databases.get? db_name = none)
    {tr : List (DatabaseServer Db × Event)} {s : DatabaseServer Db}
    (h : Run (DatabaseServer.step pg) (start databases) tr s) :
    (∀ db, s.databases.get? db_name = some db →
      (∀ table, pg.holds db (.retention table) =
        (Dict.lookup table (tr.flatMap (tableCommits db_name))).map (.addRetention table)) ∧
      ∀ o, o.isExtension = false → (pg.holds db o).isSome →
        o ∈ broughtAlong ∨ ∃ st, Declared st ∧ st.object = o) ∧
    (db_name ∈ tr.flatMap completed → ∃ db, s.databases.get? db_name = some db ∧
      (∀ p ∈ createTables, pg.holds db (.relation p.1) = some (.createTable p.1 p.2)) ∧
      (∀ p ∈ createIndexes, pg.holds db (.relation p.1) = some (.createIndex p.1 p.2)) ∧
      ∀ p ∈ createHypertables,
        pg.holds db (.hypertable p.1) = some (.createHypertable p.1 p.2) ∧
        ∃ days, pg.holds db (.retention p.1) = some (.addRetention p.1 days)) := by
  have hinv := DatabaseServer.Run.inv hpg hnone h
  constructor
  · refine fun db hdb => ⟨fun table => ?_, fun o ho hsome => ?_⟩
    · rw [hinv.holds db hdb _ rfl fun hbrought => ?_, find?_retention]
      obtain ⟨name, hname⟩ := relation_of_broughtAlong hbrought
      cases hname
    · refine or_iff_not_imp_left.mpr fun hbrought => ?_
      rw [hinv.holds db hdb o ho hbrought] at hsome
      obtain ⟨st, hst⟩ := Option.isSome_iff_exists.mp hsome
      exact ⟨st, hinv.declared st (List.mem_of_find?_eq_some hst), by simpa using List.find?_some hst⟩
  · intro hcompleted
    obtain ⟨hsome, hschema, hmade⟩ := hinv.complete hcompleted
    obtain ⟨db, hdb⟩ := Option.isSome_iff_exists.mp hsome
    have hrelation : ∀ st ∈ schemaStatements, ∀ name, st.object = .relation name →
        pg.holds db (.relation name) = some st := by
      intro st hst name hname
      obtain ⟨st', hdeclared, hobject, hholds⟩ := hinv.holds_of_committed hdb
        (by rw [hname]; rfl) (schema_not_broughtAlong st hst) (hschema hst)
      rw [← hname, hholds, hdeclared.eq_of_relation hst (hobject.trans hname) hobject.symm]
    refine ⟨db, hdb, fun p hp => ?_, fun p hp => ?_, fun p hp => ?_⟩
    · exact hrelation _ (List.mem_append_left _ (List.mem_cons_of_mem _ (List.mem_map_of_mem hp)))
        p.1 rfl
    · exact hrelation _ (List.mem_append_right _ (List.mem_map_of_mem hp)) p.1 rfl
    · obtain ⟨days, hmade⟩ := hmade p hp
      have hnot : ∀ {o : DbObject}, (∀ name, o ≠ .relation name) → o ∉ broughtAlong :=
        fun ho hbrought => (relation_of_broughtAlong hbrought).elim ho
      constructor
      · obtain ⟨st, hdeclared, hobject, hholds⟩ := hinv.holds_of_committed hdb rfl
          (hnot fun _ h => by cases h) (hmade List.mem_cons_self)
        rw [← hdeclared.eq_of_hypertable hp hobject]
        exact hholds
      · obtain ⟨st, hdeclared, hobject, hholds⟩ := hinv.holds_of_committed hdb rfl
          (hnot fun _ h => by cases h) (hmade (List.mem_cons_of_mem _ List.mem_cons_self))
        obtain ⟨days', rfl⟩ := hdeclared.eq_of_retention hobject
        exact ⟨days', hholds⟩

/-! ## A server -/

/-- A database as the statements it is as if made by. -/
abbrev Catalog := List Ddl

namespace Catalog

def holds (c : Catalog) (o : DbObject) : Option Ddl := c.find? (·.object = o)

def make (c : Catalog) (st : Ddl) : Catalog := if (c.holds st.object).isSome then c else c ++ [st]

/-- There is an index of this column alone, from the newest row. -/
def indexed (c : Catalog) (table column : String) : Bool :=
  c.any fun st => match st with
    | .createIndex _ index => index = ⟨table, [(column, true)]⟩
    | _ => false

def execute (c : Catalog) (st : Ddl) : Option Catalog :=
  if (c.holds st.object).isSome then some c
  else
    match st with
    | .createExtension _ => some (c.make st)
    | .createTable name table =>
        if table.primary_key = [] then some (c.make st)
        else some ((c.make st).make (.createIndex (name ++ "_pkey")
          ⟨name, table.primary_key.map (·, false)⟩))
    | .createIndex _ index =>
        if (c.holds (.relation index.table)).isSome then some (c.make st) else none
    | .createHypertable table column =>
        if (c.holds (.extension "timescaledb")).isSome ∧ (c.holds (.relation table)).isSome then
          if c.indexed table column then some (c.make st)
          else some ((c.make st).make (.createIndex (table ++ "_" ++ column ++ "_idx")
            ⟨table, [(column, true)]⟩))
        else none
    | .addRetention table _ =>
        if (c.holds (.hypertable table)).isSome then some (c.make st) else none

/-- A server whose template is empty. -/
def server : Postgres Catalog := ⟨[], execute, holds⟩

theorem holds_make (c : Catalog) (st : Ddl) (o : DbObject) :
    (c.make st).holds o = (c.holds o).or (if st.object = o then some st else none) := by
  unfold make
  split
  · next hsome =>
      split
      · next heq =>
          obtain ⟨x, hx⟩ := Option.isSome_iff_exists.mp (heq ▸ hsome)
          rw [hx, Option.some_or]
      · exact (Option.or_none).symm
  · rw [holds, List.find?_append]
    by_cases heq : st.object = o <;> simp [holds, heq]

/-- One statement, with an index or without. -/
theorem execute_cases {c c' : Catalog} {st : Ddl} (h : c.execute st = some c') :
    (c' = c ∧ (c.holds st.object).isSome) ∨ c' = c.make st ∨
      ∃ st', st'.object ∈ st.brings ∧ c' = (c.make st).make st' := by
  unfold execute at h
  split at h
  · next hsome =>
      cases h
      exact .inl ⟨rfl, hsome⟩
  · refine .inr ?_
    cases st with
    | createExtension name =>
        cases h
        exact .inl rfl
    | createTable name table =>
        dsimp only at h
        split at h <;> cases h
        · exact .inl rfl
        · exact .inr ⟨_, List.mem_singleton_self _, rfl⟩
    | createIndex name index =>
        dsimp only at h
        split at h <;> cases h
        exact .inl rfl
    | createHypertable table column =>
        dsimp only at h
        split at h
        · split at h <;> cases h
          · exact .inl rfl
          · exact .inr ⟨_, List.mem_singleton_self _, rfl⟩
        · cases h
    | addRetention table days =>
        dsimp only at h
        split at h <;> cases h
        exact .inl rfl

theorem documented_server : server.Documented where
  fresh _ _ := rfl
  ifNotExists :=
    { makes := by
        intro c st c' h
        show c'.holds st.object = (c.holds st.object).or (some st)
        rcases execute_cases h with ⟨rfl, hsome⟩ | rfl | ⟨st', -, rfl⟩
        · obtain ⟨x, hx⟩ := Option.isSome_iff_exists.mp hsome
          rw [hx, Option.some_or]
        · rw [holds_make, if_pos rfl]
        · rw [holds_make, holds_make, if_pos rfl, Option.or_assoc, Option.some_or]
      frame := by
        intro c st c' o h hne hbrings
        show c'.holds o = c.holds o
        rcases execute_cases h with ⟨rfl, -⟩ | rfl | ⟨st', hst', rfl⟩
        · rfl
        · rw [holds_make, if_neg (Ne.symm hne), Option.or_none]
        · have hne' : st'.object ≠ o := fun heq => hbrings (heq ▸ hst')
          rw [holds_make, holds_make, if_neg (Ne.symm hne), if_neg hne', Option.or_none,
            Option.or_none] }

end Catalog

/-- An attempt that is interrupted after two hypertables, and one with another
`log_retention_days` that completes. -/
def interruptedOnce : List DatabaseServer.Event :=
  .begins "plant" 30 :: List.replicate 34 .proceeds ++
    .interrupted :: .begins "plant" 90 :: List.replicate 61 .proceeds

theorem execute_interruptedOnce :
    (execute (DatabaseServer.step Catalog.server) (.start ∅) interruptedOnce).isSome = true := by
  decide

theorem initialize_converges_interruptedOnce :
    let run := executed (DatabaseServer.step Catalog.server) (.start ∅) interruptedOnce
      execute_interruptedOnce
    ∃ db, run.2.databases.get? "plant" = some db ∧
      (Catalog.holds db (.relation "tags_logger_timestamp_idx")).isSome ∧
      Catalog.holds db (.hypertable "tags") = some (.createHypertable "tags" "logger_timestamp") ∧
      Catalog.holds db (.retention "cpu_usage") = some (.addRetention "cpu_usage" 30) ∧
      Catalog.holds db (.retention "services") = some (.addRetention "services" 90) := by
  intro run
  have hnone : (∅ : Dict String Catalog).get? "plant" = none := rfl
  obtain ⟨hany, hcompleted⟩ :=
    initialize_converges Catalog.documented_server hnone (Run.executed execute_interruptedOnce)
  obtain ⟨db, hdb, -, -, hhypertables⟩ := hcompleted (by decide)
  have hretention := (hany db hdb).1
  refine ⟨db, hdb, ?_, (hhypertables ("tags", "logger_timestamp") (by decide)).1, ?_, ?_⟩
  · have hindex : ((run.2.databases.get? "plant").bind fun db =>
        Catalog.holds db (.relation "tags_logger_timestamp_idx")).isSome := by
      decide
    rw [hdb] at hindex
    exact hindex
  · exact (hretention "cpu_usage").trans (by decide)
  · exact (hretention "services").trans (by decide)

end KepServerLogger.Ingestor
