import DepotClient.Session.Profile
import DepotClient.Session.Connection

/-! # The connections of a session

A connection serves one command at a time, so every thread has its own. A `Pool` knows which
connection belongs to which thread, makes connections when they are first asked for, and keeps the
shared properties of all of them up to date.

Each operation is one step from pool to pool. A command is two steps, its begin and its
end, between which any others may lie. Connections are numbered in the order in which they are
made, and stay known by their numbers after their release. -/

namespace DepotClient

/-- The way in which a connection is made. -/
inductive Route
  /-- Without a look at the server's fingerprint. -/
  | plain
  /-- With a check of the server's fingerprint. -/
  | trusted (trust : Trust)
deriving DecidableEq

/-- The connections of a session, and what they share. -/
structure Pool where
  /-- How connections are made. -/
  profile : Profile
  /-- The properties shared by all connections. -/
  properties : Properties := .unset
  /-- Every connection ever made, by its number. -/
  connections : List Connection := []
  /-- The number of the connection of each thread that has one. -/
  bindings : List (ThreadId × Nat) := []
  /-- Every attempt to make a connection, first one first. -/
  attempts : List Route := []
deriving DecidableEq

namespace Pool

/-- A pool without connections, if the configuration can be used. -/
def new (profile : Profile) : Except Failure Pool := do
  profile.check
  return { profile }

/-! ## Queries -/

/-- The number of the connection that belongs to a thread. -/
def bound? (p : Pool) (thread : ThreadId) : Option Nat := p.bindings.lookup thread

/-- Holds if the connection with the given number belongs to a thread. -/
def isBound (p : Pool) (n : Nat) : Bool := p.bindings.any fun binding => binding.2 = n

/-- The number of threads with a connection. -/
def size (p : Pool) : Nat := p.bindings.length

/-- Holds if the connection with the given number is in use. -/
def isBusy (p : Pool) (n : Nat) : Bool := (p.connections[n]?.map Connection.busy).getD false

/-- Holds if the connection with the given number has been released. -/
def isReleased (p : Pool) (n : Nat) : Bool :=
  (p.connections[n]?.map Connection.released).getD false

/-- The way in which connections are made: with a check if anything is given to check against. -/
def route (p : Pool) : Route :=
  match p.profile.effectiveTrust? with
  | some trust => .trusted trust
  | none => .plain

/-! ## Making connections -/

/-- Gives a thread its connection. If it has none, one attempt is made to make one; when that
fails nothing but the attempt remains. -/
def acquire (p : Pool) (thread : ThreadId) (make : Route → Except Failure Unit) :
    Except Failure Nat × Pool :=
  match p.bound? thread with
  | some n => (.ok n, p)
  | none =>
    let attempts := p.attempts ++ [p.route]
    match make p.route with
    | .error e => (.error e, { p with attempts })
    | .ok () =>
      (.ok p.connections.length,
        { p with
          attempts
          connections := p.connections ++ [.create thread p.properties]
          bindings := (thread, p.connections.length) :: p.bindings })

/-! ## Properties -/

/-- Gives a property a new value, for all connections that belong to a thread and for all that
will be made. -/
def set (p : Pool) (setting : Setting) : Pool :=
  let properties := p.properties.set setting
  { p with
    properties
    connections := p.connections.mapIdx fun n c =>
      if p.isBound n then c.update properties else c }

/-! ## Use of a connection -/

/-- The pool with one connection changed. -/
def modify (p : Pool) (n : Nat) (f : Connection → Connection) : Pool :=
  { p with connections := p.connections.modify n f }

/-- Puts a connection into use. A command on a connection that has been released is refused
without a call. -/
def begin (p : Pool) (n : Nat) (use : Use) : Except ServerErrors Pool :=
  match use with
  | .command _ _ =>
    if p.isReleased n then .error releasedErrors
    else .ok (p.modify n (·.begin p.properties use))
  | .direct => .ok (p.modify n (·.begin p.properties use))

/-- Takes a connection out of use. -/
def finish (p : Pool) (n : Nat) : Pool := p.modify n (·.finish p.properties)

/-- Takes a connection out of a use that broke off. -/
def abort (p : Pool) (n : Nat) : Pool := p.modify n Connection.abort

/-! ## Release -/

/-- Releases every connection that belongs to a thread; no thread has a connection any more. -/
def releaseAll (p : Pool) : Pool :=
  { p with
    connections := p.connections.mapIdx fun n c => if p.isBound n then c.release else c
    bindings := [] }

end Pool

end DepotClient
