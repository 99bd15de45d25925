import KepServerLogger.Lib.ConnStrings
import KepServerLogger.Proofs.WireRoundTrip

/-!
# What the connection strings say

Both strings are written without quotes, so each says what was given exactly
if no value in it has a character that libpq gives a meaning to. The port has
none: it is a number. The name "postgres" has none either, and the other four
values are up to the configuration.
-/

namespace KepServerLogger.Lib.ProjectDatabase

open KepServerLogger.Py KepServerLogger.Conninfo

namespace Params

variable {d : Params} {dbname text : String}

theorem connString_eq_write (d : Params) : d.connString = write (d.connectsTo d.db_name) := by
  rw [← String.toList_inj]
  simp [connString, connectsTo, write]

theorem maintenanceConnString_eq_write (h : d.maintenanceConnString = .ok text) :
    text = write (d.connectsTo "postgres") := by
  unfold maintenanceConnString at h
  split at h
  · cases h
  · cases h
    rw [← String.toList_inj]
    simp [connectsTo, write]

theorem portText_ne (d : Params) : d.portText ≠ "" := fun h => by
  have hnil := congrArg String.toList h
  rw [portText, String.toList_ofList] at hnil
  exact intStr_ne_nil d.port hnil

theorem isBlank_of_isDigit {c : Char} (h : c.isDigit = true) : isBlank c = false := by
  have hspace : c ≠ ' ' := ne_of_isDigit h (by decide)
  have hle : ¬c ≤ '\r' := fun hle => by
    have hzero : '0' ≤ c := by
      rw [Char.isDigit, Bool.and_eq_true, decide_eq_true_eq] at h
      exact h.1
    exact absurd (Char.le_trans hzero hle) (by decide)
  simp [isBlank, hspace, hle]

theorem plain_portText (d : Params) : Plain d.portText.toList := by
  have hchars : ∀ c ∈ d.portText.toList, c = '-' ∨ c.isDigit := by
    rw [portText, String.toList_ofList, intStr]
    split
    · exact List.forall_mem_cons.mpr ⟨.inl rfl, fun c hc => .inr (isDigit_toDigits c hc)⟩
    · exact fun c hc => .inr (isDigit_toDigits c hc)
  have hne : ∀ x : Char, x ≠ '-' → x.isDigit = false → x ∉ d.portText.toList := by
    intro x hminus hdigit hx
    rcases hchars x hx with h | h
    · exact hminus h
    · exact ne_of_isDigit h hdigit rfl
  refine ⟨fun c hc => ?_, hne _ (by decide) (by decide), hne _ (by decide) (by decide),
    fun h => hne _ (by decide) (by decide) (List.mem_of_head? h)⟩
  rcases hchars c hc with rfl | h
  · rfl
  · exact isBlank_of_isDigit h

/-- What the configuration accepts. -/
structure Given (d : Params) : Prop where
  host_ne : d.host ≠ ""
  db_name_ne : d.db_name ≠ ""
  user_ne : d.user ≠ ""
  password_ne : d.password ≠ ""

theorem Given.writable (h : d.Given) (hdbname : dbname ≠ "") :
    ∀ p ∈ d.connectsTo dbname, Writable p := by
  have hnames : ∀ k ∈ (d.connectsTo dbname).map Prod.fst, Keyword k.toList := by
    rw [show (d.connectsTo dbname).map Prod.fst = ["host", "port", "dbname", "user", "password"]
      from rfl]
    decide
  have hvalues : ∀ v ∈ (d.connectsTo dbname).map Prod.snd, v ≠ "" := by
    simp only [connectsTo, List.map_cons, List.map_nil, List.forall_mem_cons]
    exact ⟨h.host_ne, d.portText_ne, hdbname, h.user_ne, h.password_ne, List.forall_mem_nil _⟩
  exact fun p hp => ⟨hnames _ (List.mem_map_of_mem hp), hvalues _ (List.mem_map_of_mem hp)⟩

theorem readsBack_connectsTo_iff (h : d.Given) (hdbname : dbname ≠ "") :
    Conninfo.ReadsBack (write (d.connectsTo dbname)) (d.connectsTo dbname) ↔
      Plain d.host.toList ∧ Plain dbname.toList ∧ Plain d.user.toList ∧
        Plain d.password.toList := by
  rw [readsBack_write_iff (h.writable hdbname) (by simp [connectsTo])]
  simp only [connectsTo, List.forall_mem_cons]
  have hport := d.plain_portText
  have hnil : ∀ p ∈ ([] : List (String × String)), Plain p.2.toList := List.forall_mem_nil _
  tauto

theorem connString_readsBack_iff (h : d.Given) :
    Conninfo.ReadsBack d.connString (d.connectsTo d.db_name) ↔
      Plain d.host.toList ∧ Plain d.db_name.toList ∧ Plain d.user.toList ∧
        Plain d.password.toList := by
  rw [connString_eq_write]
  exact readsBack_connectsTo_iff h h.db_name_ne

theorem maintenanceConnString_readsBack_iff (h : d.Given)
    (htext : d.maintenanceConnString = .ok text) :
    Conninfo.ReadsBack text (d.connectsTo "postgres") ↔
      Plain d.host.toList ∧ Plain d.user.toList ∧ Plain d.password.toList := by
  rw [maintenanceConnString_eq_write htext, readsBack_connectsTo_iff h (by decide)]
  have hpostgres : Plain "postgres".toList := by decide
  tauto

end Params

/-- No value that was given breaks a connection string, or sets another of its
parameters, exactly if none has white space, a backslash or a NUL in it or
begins with a single quote. -/
theorem connStrings_readBack_iff (d : Params) (hhost : d.host ≠ "") (hdb_name : d.db_name ≠ "")
    (huser : d.user ≠ "") (hpassword : d.password ≠ "") :
    d.ReadsBack ↔
      Plain d.host.toList ∧ Plain d.db_name.toList ∧ Plain d.user.toList ∧
        Plain d.password.toList := by
  have hgiven : d.Given := ⟨hhost, hdb_name, huser, hpassword⟩
  rw [Params.ReadsBack, Params.connString_readsBack_iff hgiven]
  constructor
  · exact fun h => h.1
  · intro h
    exact ⟨h, fun text htext => (Params.maintenanceConnString_readsBack_iff hgiven htext).mpr
      ⟨h.1, h.2.2⟩⟩

/-- An equals sign, and a quote that is not the first character, mean nothing. -/
def quoteInside : Params := ⟨"10.0.0.5", 5432, "plant", "logger", "it's=me"⟩

theorem connStrings_readBack_quoteInside : quoteInside.ReadsBack :=
  (connStrings_readBack_iff quoteInside (by decide) (by decide) (by decide) (by decide)).mpr
    (by decide)

/-- A password with a space in it, and an equals sign after that. -/
def spacedPassword : Params := ⟨"10.0.0.5", 5432, "plant", "logger", "p host=other"⟩

/-- The password is cut off, and the connection goes to another server. -/
theorem spacedPassword_overrides_host :
    spacedPassword.Given ∧
      (parse spacedPassword.connString).map Dict.items =
        some [("host", "other"), ("port", "5432"), ("dbname", "plant"), ("user", "logger"),
          ("password", "p")] ∧
      ¬spacedPassword.ReadsBack := by
  have hread : (parse spacedPassword.connString).map Dict.items =
      some [("host", "other"), ("port", "5432"), ("dbname", "plant"), ("user", "logger"),
        ("password", "p")] := by decide
  refine ⟨⟨by decide, by decide, by decide, by decide⟩, hread, ?_⟩
  rintro ⟨⟨d, hd, hperm⟩, -⟩
  rw [hd] at hread
  rw [Option.some.inj hread] at hperm
  revert hperm
  decide

end KepServerLogger.Lib.ProjectDatabase
