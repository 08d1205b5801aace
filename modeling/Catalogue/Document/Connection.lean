import Catalogue.Failure

/-!
The client of a document store: held from the first connection, or from the start when one is
injected, until it is closed. What the store's driver does is up to the driver.
-/

namespace Catalogue.Document

inductive Client where
  | injected
  | created (number : Nat)
  deriving DecidableEq, Repr

/-- The driver of a store, as far as a connection calls it. Every call may raise a fault. -/
structure Driver where
  /-- Creates a client, each time a new one. -/
  create : Except Fault Unit
  /-- Looks up a collection of a client by the names of its database and its own. -/
  collection (client : Client) (database name : String) : Except Fault Unit
  close (client : Client) : Except Fault Unit

/-- A driver that serves every call. -/
def Driver.serving : Driver where
  create := .ok ()
  collection _ _ _ := .ok ()
  close _ := .ok ()

structure Connection where
  database : String
  client : Option Client := none
  created : Nat := 0
  /-- The clients closed so far, in order. -/
  closed : List Client := []

namespace Connection

def start (database : String) (injected : Bool) : Connection :=
  { database, client := if injected then some .injected else none }

/-- The held client; without one, a new one is created and held. -/
def connect (driver : Driver) (c : Connection) : Connection × Outcome Client :=
  match c.client with
  | some client => (c, .ok client)
  | none =>
    match driver.create with
    | .ok () =>
      let client := Client.created c.created
      ({ c with client := some client, created := c.created + 1 }, .ok client)
    | .error fault => (c, .error (.fault fault))

def held (c : Connection) : Outcome Client :=
  match c.client with
  | some client => .ok client
  | none => .error .notConnected

/-- The database and name of a collection, which needs a held client. -/
def collection (driver : Driver) (c : Connection) (name : String) : Outcome (String × String) := do
  let client ← c.held
  (driver.collection client c.database name).mapError .fault
  return (c.database, name)

/-- The held client is closed, and forgotten once it is. -/
def close (driver : Driver) (c : Connection) : Connection × Outcome Unit :=
  match c.client with
  | some client =>
    match driver.close client with
    | .ok () => ({ c with client := none, closed := c.closed ++ [client] }, .ok ())
    | .error fault => (c, .error (.fault fault))
  | none => (c, .ok ())

/-- Does the held client answer a ping? Whatever fault the ping raises counts as no. -/
def checkHealth (ping : Client → Except Fault Unit) (c : Connection) : Outcome Bool :=
  match c.client with
  | some client =>
    match ping client with
    | .ok () => .ok true
    | .error _ => .ok false
  | none => .ok false

end Connection

end Catalogue.Document
