import Roster.Sql.Schema
import Roster.Store.Program

/-! # Opening a store

A store is opened on a valid configuration and an accepted connection, by making the tables that are missing.
-/

namespace Roster.Store

/-- Where the connection comes from, and the message of the database if it refuses it: the store dials on its own,
or it is given a pool that dials with the first statement. -/
inductive Link where
  | dialled (refusal : Option String)
  | pooled (refusal : Option String)
deriving Repr, DecidableEq

/-- Takes up the connection.  A refusal is an error of the connection when the store dials on its own, and an error
of the first statement, which never runs, when a pool dials. -/
def connect : Link → Program Unit
  | .dialled none | .pooled none => pure ()
  | .dialled (some message) => .fail (.connection (.refused message))
  | .pooled (some message) => .fail (.sql (.refused message))

/-- Runs statements without slots, one after the other. -/
def executeAll : List Sql → Program Unit
  | [] => pure ()
  | sql :: rest => do
    let _ ← Program.execute ⟨sql, []⟩
    executeAll rest

def setUp (config : Config) (link : Link) : Program Unit := do
  Program.ofExcept .validation config.check
  connect link
  executeAll (Sql.schema config)

def dropTables (config : Config) : Program Unit :=
  executeAll (Sql.dropSchema config)

end Roster.Store
