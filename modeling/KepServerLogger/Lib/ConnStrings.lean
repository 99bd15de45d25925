import KepServerLogger.Base.Conninfo
import KepServerLogger.Lib.Database
import KepServerLogger.Py.Text

/-!
# How the database is reached (lib/database.py)

`ProjectDatabase` writes what it was given into a connection string, twice:
once for the database itself, and before that for the server's own "postgres"
database, from which a missing one is created. psycopg hands the string to
libpq.
-/

namespace KepServerLogger.Lib.ProjectDatabase

open KepServerLogger.Py

/-- What `ProjectDatabase` is given to connect with. The port comes from a
configuration in which it is an `int`. -/
structure Params where
  host : String
  port : Int
  db_name : String
  user : String
  password : String

namespace Params

/-- `str(port)` -/
def portText (d : Params) : String := String.ofList (intStr d.port)

/-- The connection string of `connect`. -/
def connString (d : Params) : String :=
  "host=" ++ d.host ++ " port=" ++ d.portText ++ " dbname=" ++ d.db_name ++
    " user=" ++ d.user ++ " password=" ++ d.password

/-- `ensure_database_exists`, up to its connection string. -/
def maintenanceConnString (d : Params) : Except Exc String :=
  match validateIdentifier d.db_name with
  | .error e => .error e
  | .ok () => .ok ("host=" ++ d.host ++ " port=" ++ d.portText ++ " dbname=postgres" ++
      " user=" ++ d.user ++ " password=" ++ d.password)

/-- What a connection to a database is meant to be opened with. -/
def connectsTo (d : Params) (dbname : String) : List (String × String) :=
  [("host", d.host), ("port", d.portText), ("dbname", dbname), ("user", d.user),
    ("password", d.password)]

/-- Whatever connection string is built says what was given, and nothing else. -/
def ReadsBack (d : Params) : Prop :=
  Conninfo.ReadsBack d.connString (d.connectsTo d.db_name) ∧
    ∀ text, d.maintenanceConnString = .ok text →
      Conninfo.ReadsBack text (d.connectsTo "postgres")

end Params

end KepServerLogger.Lib.ProjectDatabase
