import KepServerLogger.Base.Run
import KepServerLogger.Py.Value

/-!
# Certificates (utils/certgen/src/certgen.py)

`ensure_certificate` keeps a private key and a certificate in two files. It
looks at what is there and writes the one or both that it finds missing or not
valid. It may be stopped after any of its file operations, and the next run
goes by what it finds then.

Reading, writing, checking and generating keys and certificates is done by
libraries, which are a parameter here. Writing a file is two operations, since
the file is empty once it has been opened.
-/

namespace KepServerLogger.Utils

open KepServerLogger.Py

/-- What is used of asyncua and cryptography. -/
structure CertLibrary (Key Cert PublicKey Bytes : Type*) where
  loadPrivateKey : Bytes → Except Exc Key
  dumpPrivateKeyAsPem : Key → Bytes
  loadCertificate : Bytes → Except Exc Cert
  /-- `cert.public_bytes(encoding=Encoding.PEM)` -/
  publicBytes : Cert → Bytes
  /-- `check_certificate(cert, app_uri, host_name)`: whether a new one is needed. -/
  checkCertificate : Cert → String → String → Bool
  /-- `generate_self_signed_app_certificate` of a key, an application URI and a
  host name; no two are the same. -/
  generateCertificate : Key → String → String → Nat → Cert
  publicKey : Key → PublicKey
  /-- The key that a certificate is about. -/
  certified : Cert → PublicKey
  /-- A file that has been opened to be written. -/
  empty : Bytes

variable {Key Cert PublicKey Bytes : Type*}

/-- What is written can be read again, and a certificate is about the key that
it was generated for. It is PEM that is written, and asyncua tells the format
by the path: this is for paths that end in `.pem`, as the defaults do. -/
structure CertLibrary.Lawful (lib : CertLibrary Key Cert PublicKey Bytes) : Prop where
  load_dump : ∀ key, lib.loadPrivateKey (lib.dumpPrivateKeyAsPem key) = .ok key
  load_publicBytes : ∀ cert, lib.loadCertificate (lib.publicBytes cert) = .ok cert
  certified_generated : ∀ key app_uri host_name serial,
    lib.certified (lib.generateCertificate key app_uri host_name serial) = lib.publicKey key

/-- A call of `ensure_certificate`, with what it will generate if it does. -/
structure Attempt (Key : Type*) where
  app_uri : String
  host_name : String
  new_key : Key
  serial : Nat

/-- The next file operation of a run. -/
inductive Stage (Key Cert : Type*) where
  /-- `if key_path.exists()` -/
  | keyExists
  /-- `await load_private_key(key_path)` -/
  | loadKey
  /-- `generate_cert = not cert_path.exists()` -/
  | certMissing (key : Key)
  /-- `if cert_path.exists()` -/
  | certExists (key : Key) (generate_cert : Bool)
  /-- `await load_certificate(cert_path)` -/
  | loadCert (key : Key)
  | openKey (key : Key)
  | writeKey (key : Key)
  | openCert (cert : Cert)
  | writeCert (cert : Cert)
  | done (generated : Bool)
  | failed (e : Exc)

/-- The two files, and the run that is under way. -/
structure CertFiles (Key Cert Bytes : Type*) where
  key : Option Bytes
  cert : Option Bytes
  run : Option (Attempt Key × Stage Key Cert)

namespace CertFiles

inductive Event (Key : Type*) where
  | calls (attempt : Attempt Key)
  /-- The run does its next file operation. -/
  | operates
  | interrupted
  | returns
  | raises

def start (key cert : Option Bytes) : CertFiles Key Cert Bytes := ⟨key, cert, none⟩

variable (lib : CertLibrary Key Cert PublicKey Bytes)

def fileNotFound : Exc := ⟨.other, "No such file or directory"⟩

/-- `if not generate_cert: return False`, and the certificate that is written
otherwise. -/
def decided (attempt : Attempt Key) (key : Key) (generate_cert : Bool) : Stage Key Cert :=
  if generate_cert then
    .openCert (lib.generateCertificate key attempt.app_uri attempt.host_name attempt.serial)
  else .done false

/-- One file operation, and what is computed until the next. -/
def operate (s : CertFiles Key Cert Bytes) (attempt : Attempt Key) :
    Stage Key Cert → Option (CertFiles Key Cert Bytes)
  | .keyExists =>
      some { s with
        run := some (attempt, if s.key.isSome then .loadKey else .openKey attempt.new_key) }
  | .loadKey =>
      some { s with
        run := some (attempt,
          match s.key with
          | none => .failed fileNotFound
          | some bytes =>
              match lib.loadPrivateKey bytes with
              | .ok key => .certMissing key
              | .error e => .failed e) }
  | .certMissing key => some { s with run := some (attempt, .certExists key s.cert.isNone) }
  | .certExists key generate_cert =>
      some { s with
        run := some (attempt,
          if s.cert.isSome then .loadCert key else decided lib attempt key generate_cert) }
  | .loadCert key =>
      some { s with
        run := some (attempt,
          match s.cert with
          | none => .failed fileNotFound
          | some bytes =>
              match lib.loadCertificate bytes with
              | .ok cert =>
                  decided lib attempt key
                    (lib.checkCertificate cert attempt.app_uri attempt.host_name)
              | .error e => .failed e) }
  | .openKey key => some { s with key := some lib.empty, run := some (attempt, .writeKey key) }
  | .writeKey key =>
      some { s with
        key := some (lib.dumpPrivateKeyAsPem key)
        run := some (attempt, decided lib attempt key true) }
  | .openCert cert => some { s with cert := some lib.empty, run := some (attempt, .writeCert cert) }
  | .writeCert cert =>
      some { s with cert := some (lib.publicBytes cert), run := some (attempt, .done true) }
  | .done _ => none
  | .failed _ => none

def step (s : CertFiles Key Cert Bytes) : Event Key → Option (CertFiles Key Cert Bytes)
  | .calls attempt =>
      match s.run with
      | none => some { s with run := some (attempt, .keyExists) }
      | some _ => none
  | .operates =>
      match s.run with
      | some (attempt, stage) => operate lib s attempt stage
      | none => none
  | .interrupted =>
      match s.run with
      | some _ => some { s with run := none }
      | none => none
  | .returns =>
      match s.run with
      | some (_, .done _) => some { s with run := none }
      | _ => none
  | .raises =>
      match s.run with
      | some (_, .failed _) => some { s with run := none }
      | _ => none

/-- The key that can be read from the key file. -/
def keyAt (s : CertFiles Key Cert Bytes) : Option Key :=
  s.key.bind fun bytes => (lib.loadPrivateKey bytes).toOption

def certAt (s : CertFiles Key Cert Bytes) : Option Cert :=
  s.cert.bind fun bytes => (lib.loadCertificate bytes).toOption

end CertFiles

end KepServerLogger.Utils
