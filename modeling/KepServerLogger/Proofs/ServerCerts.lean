import KepServerLogger.Proofs.CertPairs
import KepServerLogger.Utils.ServerCerts

/-!
# Whether each server is left with a pair

Where no two servers share a file, the call for one server leaves the files of
the others alone. So what a call finds is what was there when the run began,
and what it leaves stays until the run returns; a run that returns has left
each server with a pair exactly if it found no stray certificate there. No run
ever writes a key file that exists.
-/

namespace KepServerLogger.Utils.CertHost

open KepServerLogger.Py CertFiles

variable {Key Cert PublicKey Bytes : Type*} {lib : CertLibrary Key Cert PublicKey Bytes}
  {servers : List ServerCert} {s s' s₀ : CertHost Key Cert Bytes} {e : Event Key}
  {files : String → Option Bytes} {server other : ServerCert} {attempt : Attempt Key}
  {stage : Stage Key Cert} {left : CertFiles Key Cert Bytes}
  {tr : List (CertHost Key Cert Bytes × Event Key)}

/-- The two servers have four files. -/
structure Apart (a b : ServerCert) : Prop where
  key_key : a.key_path ≠ b.key_path
  key_cert : a.key_path ≠ b.cert_path
  cert_key : a.cert_path ≠ b.key_path
  cert_cert : a.cert_path ≠ b.cert_path

theorem Apart.symm (h : Apart server other) : Apart other server :=
  ⟨h.key_key.symm, h.cert_key.symm, h.key_cert.symm, h.cert_cert.symm⟩

/-- No two files of the configuration are one. -/
structure Separate (servers : List ServerCert) : Prop where
  apart : servers.Pairwise Apart
  own : ∀ server ∈ servers, server.key_path ≠ server.cert_path

/-- There is a certificate that a run would find valid beside another key. -/
def Strays (lib : CertLibrary Key Cert PublicKey Bytes) (s : CertFiles Key Cert Bytes)
    (app_uri host_name : String) : Prop :=
  ∃ key ∈ s.keyAt lib, ∃ cert ∈ s.certAt lib,
    lib.checkCertificate cert app_uri host_name = false ∧ lib.certified cert ≠ lib.publicKey key

/-- What the last run was called with, and the files that it found. -/
def begunAt : CertHost Key Cert Bytes × Event Key →
    Option (CertHost Key Cert Bytes × String × String)
  | (s, .begins app_uri host_name) => some (s, app_uri, host_name)
  | _ => none

/-! ## Whose files an operation is about -/

theorem view_write (hown : server.key_path ≠ server.cert_path)
    (hs : operate lib (s.view server) attempt stage = some left)
    (loop : Option (CertLoop Key Cert)) :
    view ⟨write s.files server stage left, loop⟩ server = { left with run := none } := by
  cases stage <;> cases hs <;>
    simp [write, view, CertFiles.start, Function.update_of_ne hown, Function.update_of_ne hown.symm]

theorem view_write_of_apart (h : Apart server other) (loop : Option (CertLoop Key Cert)) :
    view ⟨write s.files server stage left, loop⟩ other = s.view other := by
  cases stage <;>
    simp [write, view, Function.update_of_ne h.key_key.symm, Function.update_of_ne h.key_cert.symm,
      Function.update_of_ne h.cert_key.symm, Function.update_of_ne h.cert_cert.symm]

/-! ## One run -/

/-- The server is as the run is to leave it. -/
def Left (lib : CertLibrary Key Cert PublicKey Bytes) (s₀ s : CertHost Key Cert Bytes)
    (app_uri host_name : String) (server : ServerCert) : Prop :=
  Paired lib (s.view server) ↔ ¬ Strays lib (s₀.view server) app_uri host_name

/-- Where a run stands that found these files. -/
structure Progress (lib : CertLibrary Key Cert PublicKey Bytes) (servers : List ServerCert)
    (s₀ s : CertHost Key Cert Bytes) (loop : CertLoop Key Cert) : Prop where
  servers_eq : servers =
    loop.logged.map Prod.fst ++ ((loop.call.map Prod.fst).toList ++ loop.rest)
  logged : ∀ p ∈ loop.logged, Left lib s₀ s loop.app_uri loop.host_name p.1
  call : ∀ c ∈ loop.call, c.2.1.app_uri = loop.app_uri ∧ c.2.1.host_name = loop.host_name ∧
    Follows lib (s₀.view c.1) (s.view c.1) c.2.1 c.2.2
  rest : ∀ server ∈ loop.rest, s.view server = s₀.view server

theorem left_of_follows {app_uri host_name : String} {generated : Bool}
    (huri : attempt.app_uri = app_uri) (hhost : attempt.host_name = host_name)
    (h : Follows lib (s₀.view server) (s.view server) attempt (.done generated)) :
    Left lib s₀ s app_uri host_name server := by
  have hstray : Strays lib (s₀.view server) app_uri host_name ↔
      Stray lib (s₀.view server) attempt := by
    rw [← huri, ← hhost]
    exact Iff.rfl
  rw [Left, hstray]
  cases generated with
  | true => exact iff_of_true h.2 h.1
  | false => exact paired_iff_of_untouched h.1 h.2

/-- The server of the call that is under way shares no file with the others. -/
theorem Progress.apart {loop : CertLoop Key Cert} (h : Progress lib servers s₀ s loop)
    (hsep : Separate servers) {c : ServerCert × Attempt Key × Stage Key Cert}
    (hcall : loop.call = some c) :
    c.1.key_path ≠ c.1.cert_path ∧ (∀ p ∈ loop.logged, Apart c.1 p.1) ∧
      ∀ other ∈ loop.rest, Apart c.1 other := by
  have heq := h.servers_eq
  rw [hcall] at heq
  have hmem : c.1 ∈ servers := by
    rw [heq]
    exact List.mem_append_right _ List.mem_cons_self
  have hpairwise := hsep.apart
  rw [heq, List.pairwise_append] at hpairwise
  refine ⟨hsep.own c.1 hmem, fun p hp => ?_, (List.pairwise_cons.mp hpairwise.2.1).1⟩
  exact (hpairwise.2.2 p.1 (List.mem_map_of_mem hp) c.1 List.mem_cons_self).symm

/-- What has become of the run that is under way. -/
def Begun (lib : CertLibrary Key Cert PublicKey Bytes) (servers : List ServerCert)
    (past : List (CertHost Key Cert Bytes × Event Key)) (s : CertHost Key Cert Bytes) : Prop :=
  ∀ loop, s.loop = some loop →
    ∃ s₀, lastValue begunAt past = some (s₀, loop.app_uri, loop.host_name) ∧
      Progress lib servers s₀ s loop

theorem Begun.step (hlib : lib.Lawful) (hsep : Separate servers) (h : Begun lib servers tr s)
    (hs : step lib servers s e = some s') : Begun lib servers (tr ++ [(s, e)]) s' := by
  intro loop' hloop'
  unfold CertHost.step at hs
  cases e with
  | begins app_uri host_name =>
      dsimp only at hs
      split at hs
      · cases hs
        cases hloop'
        exact ⟨s, by rw [lastValue_snoc]; rfl, rfl, by simp, by simp, fun _ _ => rfl⟩
      · cases hs
  | calls new_key serial =>
      dsimp only at hs
      split at hs
      · next app_uri host_name logged server rest hloop =>
          cases hs
          cases hloop'
          obtain ⟨s₀, hlast, hprogress⟩ := h _ hloop
          refine ⟨s₀, (lastValue_snoc_of_none rfl).trans hlast, ?_⟩
          obtain ⟨huntouched, hrest⟩ := List.forall_mem_cons.mp hprogress.rest
          refine ⟨hprogress.servers_eq, hprogress.logged, ?_, hrest⟩
          intro c hc
          obtain rfl := Option.some.inj hc
          refine ⟨rfl, rfl, ?_⟩
          show Untouched (s₀.view server) (s.view server)
          rw [huntouched]
          exact ⟨rfl, rfl⟩
      · cases hs
  | operates =>
      dsimp only at hs
      split at hs
      · next app_uri host_name logged server attempt stage rest hloop =>
          split at hs
          · next left hleft =>
              cases hs
              cases hloop'
              obtain ⟨s₀, hlast, hprogress⟩ := h _ hloop
              refine ⟨s₀, (lastValue_snoc_of_none rfl).trans hlast, ?_⟩
              obtain ⟨hown, hlogged, hrest⟩ := hprogress.apart hsep rfl
              obtain ⟨huri, hhost, hfollows⟩ := hprogress.call _ rfl
              obtain ⟨stage', hrun, hfollows'⟩ := hfollows.operate hlib hleft
              rw [hrun]
              refine ⟨hprogress.servers_eq, fun p hp => ?_, fun c hc => ?_, fun other hother => ?_⟩
              · unfold Left
                rw [view_write_of_apart (hlogged p hp)]
                exact hprogress.logged p hp
              · obtain rfl := Option.some.inj hc
                refine ⟨huri, hhost, ?_⟩
                rw [view_write hown hleft]
                exact hfollows'.withRun none
              · rw [view_write_of_apart (hrest other hother)]
                exact hprogress.rest other hother
          · cases hs
      · cases hs
  | continues =>
      dsimp only at hs
      split at hs
      · next app_uri host_name logged server attempt generated rest hloop =>
          cases hs
          cases hloop'
          obtain ⟨s₀, hlast, hprogress⟩ := h _ hloop
          refine ⟨s₀, (lastValue_snoc_of_none rfl).trans hlast, ?_⟩
          obtain ⟨huri, hhost, hfollows⟩ := hprogress.call _ rfl
          refine ⟨?_, ?_, fun _ hnone => absurd hnone (Option.not_mem_none _), hprogress.rest⟩
          · rw [hprogress.servers_eq]
            simp
          · rw [List.forall_mem_append, List.forall_mem_singleton]
            exact ⟨hprogress.logged, left_of_follows huri hhost hfollows⟩
      · cases hs
  | raises | interrupted | returns =>
      dsimp only at hs
      split at hs
      · cases hs
        cases hloop'
      · cases hs

theorem begun (hlib : lib.Lawful) (hsep : Separate servers)
    (h : Run (step lib servers) (start files) tr s) : Begun lib servers tr s := by
  induction h with
  | nil =>
      intro loop hloop
      cases hloop
  | snoc _ hs ih => exact ih.step hlib hsep hs

/-- In every history of runs, whatever the files are at first and wherever
runs are stopped, a run that returns leaves a server with a pair exactly if it
found no stray certificate there when it began. -/
theorem returns_left (hlib : lib.Lawful) (hsep : Separate servers)
    (h : Run (step lib servers) (start files) tr s) :
    EachWithPast (fun past p => p.2 = .returns →
      ∃ found app_uri host_name, lastValue begunAt past = some (found, app_uri, host_name) ∧
        ∀ server ∈ servers, (Paired lib (p.1.view server) ↔
          ¬ Strays lib (found.view server) app_uri host_name)) tr := by
  intro past p rest heq hp
  obtain ⟨q, e⟩ := p
  obtain rfl : e = .returns := hp
  rw [heq] at h
  obtain ⟨q', hpast, hs, -⟩ := h.split
  unfold step at hs
  dsimp only at hs
  split at hs
  · next app_uri host_name logged hloop =>
      obtain ⟨s₀, hlast, hprogress⟩ := begun hlib hsep hpast _ hloop
      refine ⟨s₀, app_uri, host_name, hlast, fun server hserver => ?_⟩
      rw [hprogress.servers_eq] at hserver
      obtain ⟨p, hp, rfl⟩ := List.mem_map.mp (by simpa using hserver : server ∈ logged.map Prod.fst)
      exact hprogress.logged p hp
  · cases hs

def plantA : ServerCert := ⟨"plant_a", "certs/plant_a_cert.pem", "certs/plant_a_key.pem"⟩

def plantB : ServerCert := ⟨"plant_b", "certs/plant_b_cert.pem", "certs/plant_b_key.pem"⟩

theorem separate_plants : Separate [plantA, plantB] where
  apart := by
    refine List.pairwise_pair.mpr ⟨?_, ?_, ?_, ?_⟩ <;> decide
  own := by decide

/-- The first plant has no files; the second has a key beside the certificate
of another. -/
def plantFiles : String → Option (Option Nat)
  | "certs/plant_b_key.pem" => some (some 2)
  | "certs/plant_b_cert.pem" => some (some 1)
  | _ => none

/-- A run is stopped after the key of the first plant; the next one returns. -/
def twoPlants : List (Event Nat) :=
  [.begins "urn:bridge" "gateway", .calls 5 0, .operates, .operates, .operates, .interrupted,
    .begins "urn:bridge" "gateway", .calls 6 1, .operates, .operates, .operates, .operates,
    .operates, .operates, .continues,
    .calls 7 2, .operates, .operates, .operates, .operates, .operates, .continues, .returns]

theorem execute_twoPlants :
    (execute (step numbered [plantA, plantB]) (start plantFiles) twoPlants).isSome = true := by
  decide

theorem returns_left_twoPlants :
    let run := executed (step numbered [plantA, plantB]) (start plantFiles) twoPlants
      execute_twoPlants
    EachWithPast (fun past p => p.2 = .returns →
      ∃ found app_uri host_name, lastValue begunAt past = some (found, app_uri, host_name) ∧
        ∀ server ∈ [plantA, plantB], (Paired numbered (p.1.view server) ↔
          ¬ Strays numbered (found.view server) app_uri host_name)) run.1 :=
  returns_left lawful_numbered separate_plants (Run.executed execute_twoPlants)

/-! ## The files that are there -/

/-- The next operation is on the key file. -/
def WritesKey : Stage Key Cert → Prop
  | .openKey _ | .writeKey _ => True
  | _ => False

theorem not_writesKey_decided (attempt : Attempt Key) (key : Key) (generate_cert : Bool) :
    ¬ WritesKey (decided lib attempt key generate_cert) := by
  unfold decided
  split <;> exact id

theorem attempt_of_operate {v : CertFiles Key Cert Bytes} {attempt' : Attempt Key}
    {stage' : Stage Key Cert} (hs : operate lib v attempt stage = some left)
    (hrun : left.run = some (attempt', stage')) : attempt' = attempt := by
  cases stage <;> cases hs <;> cases hrun <;> rfl

/-- A key file is written only where there is none. -/
theorem writesKey_of_operate {v : CertFiles Key Cert Bytes} {stage' : Stage Key Cert}
    (hs : operate lib v attempt stage = some left) (hrun : left.run = some (attempt, stage'))
    (h : WritesKey stage') : WritesKey stage ∨ v.key = none := by
  cases stage with
  | openKey key | writeKey key => exact .inl trivial
  | keyExists =>
      cases hs
      cases hrun
      split at h
      · cases h
      · next hkey => exact .inr (Option.not_isSome_iff_eq_none.mp hkey)
  | loadKey | certMissing key | certExists key generate_cert | loadCert key | openCert cert
    | writeCert cert =>
      cases hs
      cases hrun
      repeat' split at h
      all_goals first | cases h | exact absurd h (not_writesKey_decided _ _ _)
  | done generated | failed e => cases hs

theorem write_of_ne {path : String} (hkey : WritesKey stage → path ≠ server.key_path)
    (hcert : ¬ WritesKey stage → path ≠ server.cert_path) :
    write files server stage left path = files path := by
  cases stage with
  | openKey key | writeKey key => exact Function.update_of_ne (hkey trivial) _ _
  | openCert cert | writeCert cert => exact Function.update_of_ne (hcert id) _ _
  | _ => rfl

theorem Separate.key_ne_cert (hsep : Separate servers) {a b : ServerCert} (ha : a ∈ servers)
    (hb : b ∈ servers) : a.key_path ≠ b.cert_path := by
  have hforward : servers.Pairwise fun a b => a.key_path ≠ b.cert_path :=
    hsep.apart.imp fun h => h.key_cert
  have hbackward : servers.Pairwise (flip fun a b => a.key_path ≠ b.cert_path) :=
    hsep.apart.imp fun h => h.cert_key.symm
  exact List.Pairwise.forall_of_forall_of_flip hsep.own hforward hbackward ha hb

/-- A run serves the servers of the configuration. -/
def Serves (servers : List ServerCert) (s : CertHost Key Cert Bytes) : Prop :=
  ∀ loop, s.loop = some loop →
    ∀ server ∈ (loop.call.map Prod.fst).toList ++ loop.rest, server ∈ servers

theorem serves (h : Run (step lib servers) (start files) tr s) : Serves servers s := by
  refine h.invariant (fun loop hloop => by cases hloop) fun s e s' ih hs => ?_
  intro loop' hloop'
  unfold step at hs
  cases e with
  | begins app_uri host_name =>
      dsimp only at hs
      split at hs
      · cases hs
        cases hloop'
        exact fun server hserver => hserver
      · cases hs
  | calls new_key serial =>
      dsimp only at hs
      split at hs
      · next hloop =>
          cases hs
          cases hloop'
          exact fun server hserver => ih _ hloop server hserver
      · cases hs
  | operates =>
      dsimp only at hs
      split at hs
      · next hloop =>
          split at hs
          · next left hleft =>
              cases hs
              cases hloop'
              intro server hserver
              refine ih _ hloop server ?_
              cases hrun : left.run <;> rw [hrun] at hserver
              · exact List.mem_cons_of_mem _ hserver
              · exact hserver
          · cases hs
      · cases hs
  | continues =>
      dsimp only at hs
      split at hs
      · next hloop =>
          cases hs
          cases hloop'
          exact fun server hserver => ih _ hloop server (List.mem_cons_of_mem _ hserver)
      · cases hs
  | raises | interrupted | returns =>
      dsimp only at hs
      split at hs
      · cases hs
        cases hloop'
      · cases hs

/-- The call that is under way is about to write the key of the server. -/
def WritingKey (server : ServerCert) (s : CertHost Key Cert Bytes) : Prop :=
  ∃ loop c, s.loop = some loop ∧ loop.call = some c ∧ c.1.key_path = server.key_path ∧
    WritesKey c.2.2

/-- The key of a server is in its file, and no call is about to write it. -/
structure HasKey (server : ServerCert) (content : Bytes) (s : CertHost Key Cert Bytes) : Prop where
  file : s.files server.key_path = some content
  idle : ¬ WritingKey server s

/-- A step that is no file operation. -/
theorem HasKey.same {content : Bytes} (h : HasKey server content s) (hfiles : s'.files = s.files)
    (hidle : ∀ loop c, s'.loop = some loop → loop.call = some c → ¬ WritesKey c.2.2) :
    HasKey server content s' :=
  ⟨hfiles ▸ h.file, fun ⟨loop, c, hloop, hcall, _, hwrites⟩ => hidle loop c hloop hcall hwrites⟩

theorem HasKey.step {content : Bytes} (hsep : Separate servers) (hserves : Serves servers s)
    (hserver : server ∈ servers) (h : HasKey server content s)
    (hs : step lib servers s e = some s') : HasKey server content s' := by
  unfold CertHost.step at hs
  cases e with
  | begins | continues =>
      dsimp only at hs
      split at hs
      · cases hs
        refine h.same rfl fun loop c hloop hcall => ?_
        cases hloop
        cases hcall
      · cases hs
  | raises | interrupted | returns =>
      dsimp only at hs
      split at hs
      · cases hs
        exact h.same rfl fun loop c hloop => by cases hloop
      · cases hs
  | calls new_key serial =>
      dsimp only at hs
      split at hs
      · cases hs
        refine h.same rfl fun loop c hloop hcall => ?_
        cases hloop
        cases hcall
        exact id
      · cases hs
  | operates =>
      dsimp only at hs
      split at hs
      · next app_uri host_name logged other attempt stage rest hloop =>
          split at hs
          · next left hleft =>
              cases hs
              have hother : other ∈ servers := hserves _ hloop other List.mem_cons_self
              have hidle : other.key_path = server.key_path → ¬ WritesKey stage :=
                fun heq hwrites => h.idle ⟨_, _, hloop, rfl, heq, hwrites⟩
              refine ⟨?_, ?_⟩
              · rw [← h.file]
                exact write_of_ne (fun hwrites heq => hidle heq.symm hwrites)
                  fun _ => hsep.key_ne_cert hserver hother
              · rintro ⟨loop, c, hloop', hcall, heq, hwrites⟩
                cases hloop'
                obtain ⟨⟨attempt', stage'⟩, hrun, rfl⟩ := Option.map_eq_some_iff.mp hcall
                obtain rfl := attempt_of_operate hleft hrun
                rcases writesKey_of_operate hleft hrun hwrites with hwrites | hnone
                · exact hidle heq hwrites
                · have hnone : s.files other.key_path = none := hnone
                  have hfile := h.file
                  rw [← heq, hnone] at hfile
                  cases hfile
          · cases hs
      · cases hs

/-- Wherever in a history the key of a server is in its file and not about to be
written, it is there from then on. -/
theorem key_kept (hsep : Separate servers) {t : CertHost Key Cert Bytes}
    {pre post : List (CertHost Key Cert Bytes × Event Key)}
    (h : Run (step lib servers) (start files) pre t) (h' : Run (step lib servers) t post s)
    (hserver : server ∈ servers) (hsome : (t.files server.key_path).isSome)
    (hidle : ¬ WritingKey server t) : s.files server.key_path = t.files server.key_path := by
  obtain ⟨content, hcontent⟩ := Option.isSome_iff_exists.mp hsome
  have hkept : HasKey server content s := by
    clear hsome
    induction h' with
    | nil => exact ⟨hcontent, hidle⟩
    | snoc hpost hs ih => exact ih.step hsep (serves (h.append hpost)) hserver hs
  rw [hkept.file, hcontent]

/-- A step touches no file but those of the servers. -/
theorem files_of_others (hserves : Serves servers s) (hs : step lib servers s e = some s')
    {path : String}
    (hpath : ∀ server ∈ servers, path ≠ server.key_path ∧ path ≠ server.cert_path) :
    s'.files path = s.files path := by
  unfold CertHost.step at hs
  cases e with
  | begins | continues | raises | interrupted | returns | calls =>
      dsimp only at hs
      split at hs
      · cases hs
        rfl
      · cases hs
  | operates =>
      dsimp only at hs
      split at hs
      · next app_uri host_name logged other attempt stage rest hloop =>
          split at hs
          · cases hs
            have hother := hpath other (hserves _ hloop other List.mem_cons_self)
            exact write_of_ne (fun _ => hother.1) fun _ => hother.2
          · cases hs
      · cases hs

/-- Whatever runs are made and wherever they are stopped: a key file that is
there, from before or because a run has written it, stays as it is, and so does
every file that is none of the servers'. -/
theorem files_kept (hsep : Separate servers)
    (h : Run (step lib servers) (start files) tr s) :
    (∀ server ∈ servers, (files server.key_path).isSome →
      s.files server.key_path = files server.key_path) ∧
    (∀ p ∈ tr, ∀ server ∈ servers, (p.1.files server.key_path).isSome →
      ¬ WritingKey server p.1 → s.files server.key_path = p.1.files server.key_path) ∧
    ∀ path, (∀ server ∈ servers, path ≠ server.key_path ∧ path ≠ server.cert_path) →
      s.files path = files path := by
  refine ⟨fun server hserver hsome => ?_, fun p hp server hserver hsome hidle => ?_,
    fun path hpath => ?_⟩
  · refine key_kept hsep .nil h hserver hsome ?_
    rintro ⟨loop, c, hloop, -⟩
    cases hloop
  · obtain ⟨pre, post, rfl⟩ := List.append_of_mem hp
    obtain ⟨t', hpre, hs, hpost⟩ := h.split
    have hrest : Run (step lib servers) p.1 ([p] ++ post) s := (Run.nil.snoc hs).append hpost
    exact key_kept hsep hpre hrest hserver hsome hidle
  · induction h with
    | nil => rfl
    | snoc hrun hs ih => rw [files_of_others (serves hrun) hs hpath, ih]

theorem files_kept_twoPlants :
    let run := executed (step numbered [plantA, plantB]) (start plantFiles) twoPlants
      execute_twoPlants
    (∀ server ∈ [plantA, plantB], (plantFiles server.key_path).isSome →
      run.2.files server.key_path = plantFiles server.key_path) ∧
    (∀ p ∈ run.1, ∀ server ∈ [plantA, plantB], (p.1.files server.key_path).isSome →
      ¬ WritingKey server p.1 → run.2.files server.key_path = p.1.files server.key_path) ∧
    ∀ path, (∀ server ∈ [plantA, plantB], path ≠ server.key_path ∧ path ≠ server.cert_path) →
      run.2.files path = plantFiles path :=
  files_kept separate_plants (Run.executed execute_twoPlants)

end KepServerLogger.Utils.CertHost
