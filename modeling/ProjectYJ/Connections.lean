import ProjectYJ.SessionTables

/-!
# Connections

An object of the session pool serves one connection after another, and the UIDs it gets come from a 32-bit counter that
repeats. To speak of one connection whatever becomes of its object and of its UID, the session tables are followed here
together with the connection each object serves: the number of UIDs that were given out before its own. No field of the
program holds it.
-/

namespace ProjectYJ

/-- The session tables; the connection each object serves, from `SetSessionUID` until the deleter gets the object; and the
connections whose session `OnDisconnected` has taken out of the `SessionManager`, and those `CloseSession` has completed for,
latest first. -/
structure Connections where
  tables : SessionTables
  conn : Nat → Option Nat
  removed : List Nat
  closed : List Nat

namespace Connections

/-- Before the first connection. -/
def init (poolSize : Nat) : Connections where
  tables := SessionTables.init poolSize
  conn := fun _ => none
  removed := []
  closed := []

/-- A step of the session tables that led to these tables, with what it does to the connections. -/
def after (s : Connections) (tables : SessionTables) : TablesStep → Connections
  | .setSessionUID session =>
    { s with tables := tables, conn := Function.update s.conn session (some s.tables.created) }
  | .removeSession thread =>
    match s.tables.hand thread with
    | .got session => { s with tables := tables, removed := (s.conn session).toList ++ s.removed }
    | _ => { s with tables := tables }
  | .releaseSession thread =>
    match s.tables.hand thread with
    | .removed session => { s with tables := tables, closed := (s.conn session).toList ++ s.closed }
    | _ => { s with tables := tables }
  | .recycle session => { s with tables := tables, conn := Function.update s.conn session none }
  | _ => { s with tables := tables }

end Connections

/-- The step function: that of the session tables. -/
def connStep (numThreads : Nat) (s : Connections) (l : TablesStep) : Option Connections :=
  (tablesStep numThreads s.tables l).map fun tables => s.after tables l

end ProjectYJ
