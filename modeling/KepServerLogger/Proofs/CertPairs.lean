import KepServerLogger.Base.Past
import KepServerLogger.Utils.Certgen

/-!
# Whether key and certificate belong together

A run that writes the certificate generates it for the key that is in the key
file. A run that writes neither goes by what it finds, and what it asks of the
certificate is not asked of the key. So the pair that it returns with is one
exactly if what it found was one. A run that is stopped after it has written a
new key beside an old certificate leaves what the next will take for a pair.
-/

namespace KepServerLogger.Utils.CertFiles

open KepServerLogger.Py

variable {Key Cert PublicKey Bytes : Type*} {lib : CertLibrary Key Cert PublicKey Bytes}
  {s s' s₀ : CertFiles Key Cert Bytes} {e : Event Key} {attempt : Attempt Key}
  {stage : Stage Key Cert} {tr : List (CertFiles Key Cert Bytes × Event Key)}

/-- The certificate is about the public key of the private key. -/
def Paired (lib : CertLibrary Key Cert PublicKey Bytes) (s : CertFiles Key Cert Bytes) : Prop :=
  ∃ key ∈ s.keyAt lib, ∃ cert ∈ s.certAt lib, lib.certified cert = lib.publicKey key

/-- There are a key and a certificate that this run will find valid, and the
certificate is about another key. -/
def Stray (lib : CertLibrary Key Cert PublicKey Bytes) (s : CertFiles Key Cert Bytes)
    (attempt : Attempt Key) : Prop :=
  ∃ key ∈ s.keyAt lib, ∃ cert ∈ s.certAt lib,
    lib.checkCertificate cert attempt.app_uri attempt.host_name = false ∧
      lib.certified cert ≠ lib.publicKey key

/-- What a run was called with, and the files that it found. -/
def callAt : CertFiles Key Cert Bytes × Event Key → Option (CertFiles Key Cert Bytes × Attempt Key)
  | (s, .calls attempt) => some (s, attempt)
  | _ => none

/-- No file has been written. -/
def Untouched (s₀ s : CertFiles Key Cert Bytes) : Prop := s.key = s₀.key ∧ s.cert = s₀.cert

/-- Where a run stands that found these files. -/
def Follows (lib : CertLibrary Key Cert PublicKey Bytes) (s₀ s : CertFiles Key Cert Bytes)
    (attempt : Attempt Key) : Stage Key Cert → Prop
  | .keyExists | .loadKey => Untouched s₀ s
  | .certMissing key | .loadCert key => Untouched s₀ s ∧ s.keyAt lib = some key
  | .certExists key generate_cert =>
      Untouched s₀ s ∧ s.keyAt lib = some key ∧ generate_cert = s.cert.isNone
  | .openKey _ | .writeKey _ => ¬ Stray lib s₀ attempt
  | .openCert cert | .writeCert cert =>
      ¬ Stray lib s₀ attempt ∧ ∃ key ∈ s.keyAt lib, lib.certified cert = lib.publicKey key
  | .done true => ¬ Stray lib s₀ attempt ∧ Paired lib s
  | .done false =>
      Untouched s₀ s ∧ ∃ key ∈ s.keyAt lib, ∃ cert ∈ s.certAt lib,
        lib.checkCertificate cert attempt.app_uri attempt.host_name = false
  | .failed _ => True

/-! ## What a run has found -/

theorem Untouched.keyAt_eq (h : Untouched s₀ s) : s.keyAt lib = s₀.keyAt lib := by
  unfold keyAt
  rw [h.1]

theorem Untouched.certAt_eq (h : Untouched s₀ s) : s.certAt lib = s₀.certAt lib := by
  unfold certAt
  rw [h.2]

theorem not_stray_of_keyAt (h : s.keyAt lib = none) : ¬ Stray lib s attempt := by
  rintro ⟨key, hkey, -⟩
  rw [h] at hkey
  cases hkey

theorem not_stray_of_certAt (h : s.certAt lib = none) : ¬ Stray lib s attempt := by
  rintro ⟨key, hkey, cert, hcert, -⟩
  rw [h] at hcert
  cases hcert

/-- A certificate that has to be replaced. -/
theorem not_stray_of_check {cert : Cert} (h : s.certAt lib = some cert)
    (hcheck : lib.checkCertificate cert attempt.app_uri attempt.host_name = true) :
    ¬ Stray lib s attempt := by
  rintro ⟨key, -, cert', hcert, hvalid, -⟩
  obtain rfl : cert = cert' := Option.some.inj (h.symm.trans hcert)
  rw [hcheck] at hvalid
  cases hvalid

/-- A run that writes nothing returns with what it has found. -/
theorem paired_iff_of_untouched (h : Untouched s₀ s)
    (hvalid : ∃ key ∈ s.keyAt lib, ∃ cert ∈ s.certAt lib,
      lib.checkCertificate cert attempt.app_uri attempt.host_name = false) :
    Paired lib s ↔ ¬ Stray lib s₀ attempt := by
  obtain ⟨key, hkey, cert, hcert, hcheck⟩ := hvalid
  unfold Paired Stray
  rw [← h.keyAt_eq, ← h.certAt_eq, Option.mem_def.mp hkey, Option.mem_def.mp hcert]
  simp [hcheck]

/-! ## One file operation -/

theorem keyAt_of_load {bytes : Bytes} {key : Key} (hkey : s.key = some bytes)
    (hload : lib.loadPrivateKey bytes = .ok key) : s.keyAt lib = some key := by
  unfold keyAt
  rw [hkey, Option.bind_some, hload]
  rfl

theorem certAt_of_load {bytes : Bytes} {cert : Cert} (hcert : s.cert = some bytes)
    (hload : lib.loadCertificate bytes = .ok cert) : s.certAt lib = some cert := by
  unfold certAt
  rw [hcert, Option.bind_some, hload]
  rfl

/-- What is true of the files does not depend on the run. -/
theorem Follows.withRun (h : Follows lib s₀ s attempt stage)
    (run : Option (Attempt Key × Stage Key Cert)) :
    Follows lib s₀ { s with run } attempt stage := by
  cases stage with
  | done generated => cases generated <;> exact h
  | _ => exact h

/-- A decision to generate leads to a certificate for the key. -/
theorem Follows.generate (hlib : lib.Lawful) {key : Key} (hkey : s.keyAt lib = some key)
    (hstray : ¬ Stray lib s₀ attempt) : Follows lib s₀ s attempt (decided lib attempt key true) :=
  ⟨hstray, key, hkey, hlib.certified_generated _ _ _ _⟩

theorem Follows.operate (hlib : lib.Lawful) (h : Follows lib s₀ s attempt stage)
    (hs : operate lib s attempt stage = some s') :
    ∃ stage', s'.run = some (attempt, stage') ∧ Follows lib s₀ s' attempt stage' := by
  cases stage with
  | keyExists =>
      cases hs
      refine ⟨_, rfl, Follows.withRun ?_ _⟩
      split
      · exact h
      · next hkey =>
          refine not_stray_of_keyAt ?_
          rw [← Untouched.keyAt_eq h]
          unfold keyAt
          rw [Option.not_isSome_iff_eq_none.mp hkey]
          rfl
  | loadKey =>
      cases hs
      refine ⟨_, rfl, Follows.withRun ?_ _⟩
      split
      · trivial
      · next bytes hkey =>
          split
          · next key hload => exact ⟨h, keyAt_of_load hkey hload⟩
          · trivial
  | certMissing key =>
      cases hs
      exact ⟨_, rfl, h.1, h.2, rfl⟩
  | certExists key generate_cert =>
      cases hs
      obtain ⟨huntouched, hkey, rfl⟩ := h
      refine ⟨_, rfl, Follows.withRun ?_ _⟩
      split
      · exact ⟨huntouched, hkey⟩
      · next hcert =>
          rw [Option.not_isSome_iff_eq_none] at hcert
          rw [hcert, Option.isNone_none]
          refine Follows.generate hlib hkey (not_stray_of_certAt ?_)
          rw [← huntouched.certAt_eq]
          unfold certAt
          rw [hcert]
          rfl
  | loadCert key =>
      cases hs
      obtain ⟨huntouched, hkey⟩ := h
      refine ⟨_, rfl, Follows.withRun ?_ _⟩
      split
      · trivial
      · next bytes hcert =>
          split
          · next cert hload =>
              have hcertAt := certAt_of_load hcert hload
              cases hcheck : lib.checkCertificate cert attempt.app_uri attempt.host_name with
              | true =>
                  refine Follows.generate hlib hkey (not_stray_of_check ?_ hcheck)
                  rw [← huntouched.certAt_eq]
                  exact hcertAt
              | false => exact ⟨huntouched, key, hkey, cert, hcertAt, hcheck⟩
          · trivial
  | openKey key =>
      cases hs
      exact ⟨_, rfl, h⟩
  | writeKey key =>
      cases hs
      exact ⟨_, rfl, .generate hlib (keyAt_of_load rfl (hlib.load_dump key)) h⟩
  | openCert cert =>
      cases hs
      exact ⟨_, rfl, h⟩
  | writeCert cert =>
      cases hs
      obtain ⟨hstray, key, hkey, hcertified⟩ := h
      exact ⟨_, rfl, hstray, key, hkey, cert,
        certAt_of_load rfl (hlib.load_publicBytes cert), hcertified⟩
  | done generated => cases hs
  | failed e => cases hs

/-! ## Whole histories -/

/-- What a run is that is under way. -/
def Attempted (lib : CertLibrary Key Cert PublicKey Bytes)
    (past : List (CertFiles Key Cert Bytes × Event Key)) (s : CertFiles Key Cert Bytes) : Prop :=
  ∀ attempt stage, s.run = some (attempt, stage) →
    ∃ s₀, lastValue callAt past = some (s₀, attempt) ∧ Follows lib s₀ s attempt stage

theorem Attempted.step (hlib : lib.Lawful) (h : Attempted lib tr s)
    (hs : step lib s e = some s') : Attempted lib (tr ++ [(s, e)]) s' := by
  intro attempt stage hrun'
  unfold CertFiles.step at hs
  cases e with
  | calls attempt' =>
      dsimp only at hs
      split at hs
      · cases hs
        cases hrun'
        exact ⟨s, by rw [lastValue_snoc]; rfl, rfl, rfl⟩
      · cases hs
  | operates =>
      dsimp only at hs
      split at hs
      · next attempt' stage' hrun =>
          obtain ⟨s₀, hlast, hfollows⟩ := h attempt' stage' hrun
          obtain ⟨stage'', hrun'', hfollows'⟩ := hfollows.operate hlib hs
          obtain ⟨rfl, rfl⟩ := Prod.mk.inj (Option.some.inj (hrun''.symm.trans hrun'))
          exact ⟨s₀, (lastValue_snoc_of_none rfl).trans hlast, hfollows'⟩
      · cases hs
  | interrupted | returns | raises =>
      dsimp only at hs
      split at hs
      · cases hs
        cases hrun'
      · cases hs

theorem attempted (hlib : lib.Lawful) {key cert : Option Bytes}
    (h : Run (step lib) (start key cert) tr s) : Attempted lib tr s := by
  induction h with
  | nil =>
      intro attempt stage hrun
      cases hrun
  | snoc _ hs ih => exact ih.step hlib hs

/-- In every history of runs, whatever the files are at first and wherever
runs are interrupted, each run that returns does so with a pair exactly if
none of those that return has found a stray certificate. -/
theorem returns_paired_iff (hlib : lib.Lawful) {key cert : Option Bytes}
    (h : Run (step lib) (start key cert) tr s) :
    (∀ p ∈ tr, p.2 = .returns → Paired lib p.1) ↔
      EachWithPast (fun past p => p.2 = .returns →
        ∀ found ∈ lastValue callAt past, ¬ Stray lib found.1 found.2) tr := by
  have hreturn : ∀ past q rest, tr = past ++ (q, .returns) :: rest →
      ∃ found, lastValue callAt past = some found ∧
        (Paired lib q ↔ ¬ Stray lib found.1 found.2) := by
    intro past q rest heq
    rw [heq] at h
    obtain ⟨q', hpast, hs, -⟩ := h.split
    unfold step at hs
    dsimp only at hs
    split at hs
    · next attempt generated hrun =>
        obtain ⟨s₀, hlast, hfollows⟩ := attempted hlib hpast attempt _ hrun
        refine ⟨(s₀, attempt), hlast, ?_⟩
        cases generated with
        | true => exact iff_of_true hfollows.2 hfollows.1
        | false => exact paired_iff_of_untouched hfollows.1 hfollows.2
    · cases hs
  constructor
  · intro hpaired past p rest heq hp found hfound
    obtain ⟨q, e⟩ := p
    obtain rfl : e = .returns := hp
    obtain ⟨found', hlast, hiff⟩ := hreturn past q rest heq
    obtain rfl : found' = found := Option.some.inj (hlast.symm.trans hfound)
    refine hiff.mp (hpaired (q, .returns) ?_ rfl)
    rw [heq]
    exact List.mem_append_right _ List.mem_cons_self
  · intro hfine p hp hreturns
    obtain ⟨past, rest, heq⟩ := List.append_of_mem hp
    obtain ⟨q, e⟩ := p
    obtain rfl : e = .returns := hreturns
    obtain ⟨found, hlast, hiff⟩ := hreturn past q rest heq
    exact hiff.mpr (hfine past _ rest heq rfl found hlast)

/-- Keys with numbers, and a certificate is the number of its key. All of them
are valid. -/
def numbered : CertLibrary Nat Nat Nat (Option Nat) where
  loadPrivateKey bytes := bytes.elim (.error ⟨.valueError, "no key in the file"⟩) .ok
  dumpPrivateKeyAsPem := some
  loadCertificate bytes := bytes.elim (.error ⟨.valueError, "no certificate in the file"⟩) .ok
  publicBytes := some
  checkCertificate _ _ _ := false
  generateCertificate key _ _ _ := key
  publicKey key := key
  certified cert := cert
  empty := none

theorem lawful_numbered : numbered.Lawful :=
  ⟨fun _ => rfl, fun _ => rfl, fun _ _ _ _ => rfl⟩

/-- The key is missing. A run writes a new one and is stopped; the next finds
the old certificate valid. -/
def stoppedBetweenFiles : List (Event Nat) :=
  [.calls ⟨"urn:bridge", "gateway", 2, 0⟩, .operates, .operates, .operates, .interrupted,
    .calls ⟨"urn:bridge", "gateway", 3, 1⟩, .operates, .operates, .operates, .operates, .operates,
    .returns]

theorem execute_stoppedBetweenFiles :
    (execute (step numbered) (start none (some (some 1))) stoppedBetweenFiles).isSome = true := by
  decide

/-- It returns with the new key and a certificate of the old one. -/
theorem stoppedBetweenFiles_not_paired :
    let run := executed (step numbered) (start none (some (some 1))) stoppedBetweenFiles
      execute_stoppedBetweenFiles
    Run (step numbered) (start none (some (some 1))) run.1 run.2 ∧
      ¬ ∀ p ∈ run.1, p.2 = .returns → Paired numbered p.1 := by
  refine ⟨Run.executed execute_stoppedBetweenFiles, fun h => ?_⟩
  obtain ⟨key, hkey, cert, hcert, hcertified⟩ :=
    h (List.getLast _ (by decide)) (List.getLast_mem _) rfl
  cases hkey
  cases hcert
  cases hcertified

theorem returns_paired_stoppedBetweenFiles :
    let run := executed (step numbered) (start none (some (some 1))) stoppedBetweenFiles
      execute_stoppedBetweenFiles
    (∀ p ∈ run.1, p.2 = .returns → Paired numbered p.1) ↔
      EachWithPast (fun past p => p.2 = .returns →
        ∀ found ∈ lastValue callAt past, ¬ Stray numbered found.1 found.2) run.1 :=
  returns_paired_iff lawful_numbered (Run.executed execute_stoppedBetweenFiles)

end KepServerLogger.Utils.CertFiles
