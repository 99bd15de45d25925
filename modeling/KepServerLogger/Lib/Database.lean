import KepServerLogger.Base.Run
import KepServerLogger.Py.Value

/-!
# One connection, several threads (lib/database.py)

`ProjectDatabase` keeps one psycopg connection that the event loop and the
writer threads share. The connection has no transaction of its own for each
caller: the first statement anybody executes opens the transaction, and the
next commit by anybody ends it. What keeps callers apart is `transaction()`,
which holds a re-entrant lock from before the first statement to after the
commit or the rollback.

The machine below is that code at the granularity at which threads can
interleave: taking and releasing the lock, one statement, a commit, a
rollback. A statement is the list of the rows it writes, so that one that
raises half way can have written some of them. The server decides whether a
statement or a commit raises; once the link is broken, or the connection
closed, everything on it raises.
-/

namespace KepServerLogger.Lib

open KepServerLogger.Py

/-! ## Identifiers -/

def isIdentifierStart (c : Char) : Bool :=
  ('A' ≤ c && c ≤ 'Z') || ('a' ≤ c && c ≤ 'z') || c = '_'

def isIdentifierChar (c : Char) : Bool := isIdentifierStart c || ('0' ≤ c && c ≤ '9')

/-- `_IDENTIFIER_RE.match(identifier)`. The pattern ends in `$`, which also
matches before a line break that ends the string. -/
def identifierRe : List Char → Bool
  | [] => false
  | c :: cs =>
      let rest := cs.dropWhile isIdentifierChar
      isIdentifierStart c && (rest = [] || rest = ['\n'])

def validateIdentifier (identifier : String) : Except Exc Unit :=
  if identifierRe identifier.toList then .ok ()
  else .error ⟨.valueError, "Unsafe SQL identifier: " ++ identifier⟩

/-! ## The machine -/

namespace ProjectDatabase

def notConnected : Exc := ⟨.runtimeError, "Database not connected. Call connect() first."⟩

/-- What psycopg raises on a connection that is closed or has lost its link. -/
def connectionLost : Exc := ⟨.databaseError, "the connection is closed"⟩

/-- Where a call stands, with the locals it still needs. -/
inductive Stage (ω : Type*) where
  /-- About to build its statements. -/
  | build
  /-- At `with self._lock`. -/
  | acquire (statements : List (List ω))
  /-- At `conn = self.connection`. -/
  | enter (statements : List (List ω))
  /-- In the body, or at the commit when no statement is left. -/
  | execute (remaining : List (List ω))
  | rollback (e : Exc)
  /-- Leaving `with self._lock`. -/
  | release (result : Except Exc Unit)

/-- The stages inside `with self._lock`. -/
def Stage.holdsLock {ω : Type*} : Stage ω → Bool
  | .build | .acquire _ => false
  | .enter _ | .execute _ | .rollback _ | .release _ => true

structure Call (ρ ω : Type*) where
  op : Nat
  request : ρ
  stage : Stage ω

structure Finished (ρ : Type*) where
  op : Nat
  request : ρ
  result : Except Exc Unit

/-- One commit: the operation that issued it and the rows of the transaction
it ended, each with the operation that wrote it. -/
structure Commit (ω : Type*) where
  op : Nat
  entries : List (Nat × ω)

end ProjectDatabase

open ProjectDatabase

/-- `τ` names the threads, `ρ` the requests and `ω` the rows they write. -/
structure ProjectDatabase (τ ρ ω : Type*) where
  /-- `self._conn is not None` -/
  attached : Bool
  /-- The connection is open and its link is not broken. -/
  usable : Bool
  /-- The rows of the open transaction. -/
  txn : List (Nat × ω)
  /-- The thread that holds `self._lock` and how many times. -/
  lock : Option (τ × Nat)
  calls : τ → Option (Call ρ ω)
  next : Nat
  committed : List (Commit ω)
  finished : List (Finished ρ)

namespace ProjectDatabase

inductive Event (τ ρ : Type*) where
  | call (th : τ) (request : ρ)
  | build (th : τ)
  | acquire (th : τ)
  | enter (th : τ)
  /-- One statement; `some (n, e)` when it raises `e` having written `n` rows. -/
  | execute (th : τ) (failure : Option (Nat × Exc))
  | commit (th : τ) (failure : Option Exc)
  | rollback (th : τ)
  | release (th : τ)
  | linkBreaks
  /-- `close()`, called without the lock. -/
  | close

variable {τ ρ ω : Type*} [DecidableEq τ]

/-- Connected, and nobody has called anything. -/
def start : ProjectDatabase τ ρ ω where
  attached := true
  usable := true
  txn := []
  lock := none
  calls := fun _ => none
  next := 0
  committed := []
  finished := []

def setCall (s : ProjectDatabase τ ρ ω) (th : τ) (c : Option (Call ρ ω)) :
    ProjectDatabase τ ρ ω :=
  { s with calls := Function.update s.calls th c }

def goTo (s : ProjectDatabase τ ρ ω) (th : τ) (c : Call ρ ω) (stage : Stage ω) :
    ProjectDatabase τ ρ ω :=
  s.setCall th (some { c with stage })

def finish (s : ProjectDatabase τ ρ ω) (th : τ) (c : Call ρ ω)
    (result : Except Exc Unit) : ProjectDatabase τ ρ ω :=
  { s.setCall th none with finished := s.finished ++ [⟨c.op, c.request, result⟩] }

/-- `RLock.acquire`; `none` while another thread holds the lock. -/
def lockAcquire (th : τ) : Option (τ × Nat) → Option (τ × Nat)
  | none => some (th, 1)
  | some (owner, n) => if owner = th then some (owner, n + 1) else none

/-- `RLock.release` by the owner. -/
def lockRelease : Option (τ × Nat) → Option (τ × Nat)
  | some (owner, n + 2) => some (owner, n + 1)
  | _ => none

def tag (op : Nat) (rows : List ω) : List (Nat × ω) := rows.map (op, ·)

/-- `self.connection.cursor().executemany(...)` -/
def runStatement (s : ProjectDatabase τ ρ ω) (th : τ) (c : Call ρ ω) (statement : List ω)
    (remaining : List (List ω)) (failure : Option (Nat × Exc)) : ProjectDatabase τ ρ ω :=
  if !s.attached then s.goTo th c (.rollback notConnected)
  else if !s.usable then s.goTo th c (.rollback connectionLost)
  else
    match failure with
    | none =>
        { s.goTo th c (.execute remaining) with txn := s.txn ++ tag c.op statement }
    | some (n, e) =>
        { s.goTo th c (.rollback e) with txn := s.txn ++ tag c.op (statement.take n) }

/-- `conn.commit()` -/
def runCommit (s : ProjectDatabase τ ρ ω) (th : τ) (c : Call ρ ω)
    (failure : Option Exc) : ProjectDatabase τ ρ ω :=
  if !s.usable then s.goTo th c (.rollback connectionLost)
  else
    match failure with
    | none =>
        { s.goTo th c (.release (.ok ())) with
          txn := []
          committed := s.committed ++ [⟨c.op, s.txn⟩] }
    | some e => s.goTo th c (.rollback e)

/-- `conn.rollback()`; where it raises, its own exception replaces the first. -/
def runRollback (s : ProjectDatabase τ ρ ω) (th : τ) (c : Call ρ ω) (e : Exc) :
    ProjectDatabase τ ρ ω :=
  if s.usable then { s.goTo th c (.release (.error e)) with txn := [] }
  else s.goTo th c (.release (.error connectionLost))

/-- `plan` builds the statements of a request; a request without statements
returns before the transaction. -/
def step (plan : ρ → Except Exc (List (List ω))) (s : ProjectDatabase τ ρ ω) :
    Event τ ρ → Option (ProjectDatabase τ ρ ω)
  | .call th request =>
      match s.calls th with
      | none => some { s.setCall th (some ⟨s.next, request, .build⟩) with next := s.next + 1 }
      | some _ => none
  | .build th =>
      match s.calls th with
      | some ⟨op, request, .build⟩ =>
          match plan request with
          | .error e => some (s.finish th ⟨op, request, .build⟩ (.error e))
          | .ok [] => some (s.finish th ⟨op, request, .build⟩ (.ok ()))
          | .ok statements => some (s.goTo th ⟨op, request, .build⟩ (.acquire statements))
      | _ => none
  | .acquire th =>
      match s.calls th with
      | some ⟨op, request, .acquire statements⟩ =>
          match lockAcquire th s.lock with
          | some lock =>
              some { s.goTo th ⟨op, request, .acquire statements⟩ (.enter statements) with
                lock := some lock }
          | none => none
      | _ => none
  | .enter th =>
      match s.calls th with
      | some ⟨op, request, .enter statements⟩ =>
          some (s.goTo th ⟨op, request, .enter statements⟩
            (if s.attached then .execute statements else .release (.error notConnected)))
      | _ => none
  | .execute th failure =>
      match s.calls th with
      | some ⟨op, request, .execute (statement :: remaining)⟩ =>
          some (s.runStatement th ⟨op, request, .execute (statement :: remaining)⟩ statement
            remaining failure)
      | _ => none
  | .commit th failure =>
      match s.calls th with
      | some ⟨op, request, .execute []⟩ =>
          some (s.runCommit th ⟨op, request, .execute []⟩ failure)
      | _ => none
  | .rollback th =>
      match s.calls th with
      | some ⟨op, request, .rollback e⟩ =>
          some (s.runRollback th ⟨op, request, .rollback e⟩ e)
      | _ => none
  | .release th =>
      match s.calls th with
      | some ⟨op, request, .release result⟩ =>
          some { s.finish th ⟨op, request, .release result⟩ result with
            lock := lockRelease s.lock }
      | _ => none
  | .linkBreaks => some { s with usable := false, txn := [] }
  | .close => some { s with attached := false, usable := false, txn := [] }

/-- The committed rows that an operation wrote, in whichever commits. -/
def rowsOf (op : Nat) (committed : List (Commit ω)) : List ω :=
  ((committed.flatMap Commit.entries).filter (·.1 = op)).map Prod.snd

end ProjectDatabase

end KepServerLogger.Lib
