import KepServerLogger.Ingestor.Db

/-!
# The database server

What the program relies on of PostgreSQL and psycopg. The server takes the
rows of the schema; a text with U+0000 in it is the one value it can never
store, and a statement that has one is refused. What else a server might
refuse is left open, so it is a parameter here.

An operation that has statements needs the connection, and writes in one
transaction: it returns if the server takes all of its rows, and raises as
soon as one of them is refused.
-/

namespace KepServerLogger.Ingestor

open KepServerLogger.Py KepServerLogger.Lib

def hasNul : PyValue → Bool
  | .str s => s.toList.contains '\x00'
  | _ => false

def Storable (row : Row) : Prop := ∀ p ∈ row.items, hasNul p.2 = false

instance (row : Row) : Decidable (Storable row) :=
  inferInstanceAs (Decidable (∀ p ∈ row.items, hasNul p.2 = false))

def BatchStorable (batch : Batch) : Prop := ∀ table, ∀ row ∈ batch.rows table, Storable row

/-- The write gives every column of its table a value, in some order. -/
def Write.OfSchema (w : Write) : Prop :=
  w.values.length = w.columns.length ∧
    ∃ columns, schema.get? w.table = some columns ∧ w.columns.Perm columns

/-- Every row of the schema is taken unless a text in it has U+0000. -/
structure RefusesOnlyNul (accepts : Write → Bool) : Prop where
  nul : ∀ w, (∃ v ∈ w.values, hasNul v = true) → accepts w = false
  others : ∀ w : Write, w.OfSchema → (∀ v ∈ w.values, hasNul v = false) → accepts w = true

/-- A server that looks at nothing but the texts. -/
def acceptsNoNul (w : Write) : Bool := w.values.all fun v => !hasNul v

theorem refusesOnlyNul_acceptsNoNul : RefusesOnlyNul acceptsNoNul where
  nul w := by
    rintro ⟨v, hv, hnul⟩
    rw [acceptsNoNul, List.all_eq_false]
    exact ⟨v, hv, by simp [hnul]⟩
  others w _ h := by
    rw [acceptsNoNul, List.all_eq_true]
    exact fun v hv => by simp [h v hv]

/-- Whether an operation returns, given whether the connection can be used. -/
def Request.returns (accepts : Write → Bool) (available : Bool) (request : Request) : Bool :=
  match request.statements with
  | .error _ => false
  -- `if not statements: return`, before the transaction.
  | .ok [] => true
  | .ok statements => available && (statements.flatMap Statement.writes).all accepts

end KepServerLogger.Ingestor
