import Mathlib.Logic.Function.Basic
import KepServerLogger.Utils.Certgen

/-!
# The certificates of all servers (utils/certgen/src/generate_server_certs.py)

The ingestor's container runs this each time it starts: one call of
`ensure_certificate` for each server of servers.json, in their order, all with
the same application URI and host name. Any of these calls may raise, which
ends the run, and the container may be stopped after any file operation.

The files are those of the whole machine, by their paths. A call sees the two
of its server.
-/

namespace KepServerLogger.Utils

open KepServerLogger.Py

variable {Key Cert PublicKey Bytes : Type*}

/-- `ServerConfig`, as far as it is read here. -/
structure ServerCert where
  name : String
  cert_path : String
  key_path : String
  deriving DecidableEq

/-- A run of `main` that is in its loop. -/
structure CertLoop (Key Cert : Type*) where
  app_uri : String
  host_name : String
  /-- The servers that are done, and what `ensure_certificate` returned. -/
  logged : List (ServerCert × Bool)
  /-- The call that is under way. -/
  call : Option (ServerCert × Attempt Key × Stage Key Cert)
  rest : List ServerCert

/-- The machine. -/
structure CertHost (Key Cert Bytes : Type*) where
  files : String → Option Bytes
  loop : Option (CertLoop Key Cert)

namespace CertHost

inductive Event (Key : Type*) where
  /-- `main`, with its application URI and host name. -/
  | begins (app_uri host_name : String)
  /-- `ensure_certificate` for the next server. -/
  | calls (new_key : Key) (serial : Nat)
  | operates
  /-- `ensure_certificate` has returned. -/
  | continues
  /-- `ensure_certificate` has raised. -/
  | raises
  | interrupted
  | returns

def start (files : String → Option Bytes) : CertHost Key Cert Bytes := ⟨files, none⟩

/-- The two files of a server. -/
def view (s : CertHost Key Cert Bytes) (server : ServerCert) : CertFiles Key Cert Bytes :=
  .start (s.files server.key_path) (s.files server.cert_path)

/-- What a file operation has left in the file that it is about. -/
def write (files : String → Option Bytes) (server : ServerCert) (stage : Stage Key Cert)
    (left : CertFiles Key Cert Bytes) : String → Option Bytes :=
  match stage with
  | .openKey _ | .writeKey _ => Function.update files server.key_path left.key
  | .openCert _ | .writeCert _ => Function.update files server.cert_path left.cert
  | _ => files

variable (lib : CertLibrary Key Cert PublicKey Bytes) (servers : List ServerCert)

def step (s : CertHost Key Cert Bytes) : Event Key → Option (CertHost Key Cert Bytes)
  | .begins app_uri host_name =>
      match s.loop with
      | none => some { s with loop := some ⟨app_uri, host_name, [], none, servers⟩ }
      | some _ => none
  | .calls new_key serial =>
      match s.loop with
      | some ⟨app_uri, host_name, logged, none, server :: rest⟩ =>
          let attempt := ⟨app_uri, host_name, new_key, serial⟩
          some { s with
            loop := some ⟨app_uri, host_name, logged, some (server, attempt, .keyExists), rest⟩ }
      | _ => none
  | .operates =>
      match s.loop with
      | some ⟨app_uri, host_name, logged, some (server, attempt, stage), rest⟩ =>
          match CertFiles.operate lib (s.view server) attempt stage with
          | some left =>
              some {
                files := write s.files server stage left
                loop := some ⟨app_uri, host_name, logged,
                  left.run.map fun run => (server, run), rest⟩ }
          | none => none
      | _ => none
  | .continues =>
      match s.loop with
      | some ⟨app_uri, host_name, logged, some (server, _, .done generated), rest⟩ =>
          some { s with
            loop := some ⟨app_uri, host_name, logged ++ [(server, generated)], none, rest⟩ }
      | _ => none
  | .raises =>
      match s.loop with
      | some ⟨_, _, _, some (_, _, .failed _), _⟩ => some { s with loop := none }
      | _ => none
  | .interrupted =>
      match s.loop with
      | some _ => some { s with loop := none }
      | none => none
  | .returns =>
      match s.loop with
      | some ⟨_, _, _, none, []⟩ => some { s with loop := none }
      | _ => none

end CertHost

end KepServerLogger.Utils
