import DepotClient.Record.Basic
import DepotClient.Session.Failure
import DepotClient.Session.Properties

/-! # Connections as a session sees them

A `Connection` is known by what it has been told: every call made on it is kept, in order. Beside
that stand the properties that it was given last, whether it is in use, whether properties have
changed since it went into use, and whether it has been released.

* **`Connection.create`** — binds a new connection to a thread and gives it what is set;
* **`Connection.refresh`** — gives it what has changed, unless it has been released;
* **`Connection.begin`**, **`finish`**, **`abort`** — put it into use and take it out again;
* **`Connection.update`** — tells it of new properties, at once or when it is next free. -/

namespace DepotClient

/-- The identity of a thread. -/
structure ThreadId where
  /-- The number of the thread. -/
  number : Nat
deriving DecidableEq

/-- What a connection is used for. -/
inductive Use
  /-- Running a command. -/
  | command (name : String) (args : List String)
  /-- Access to the connection itself. -/
  | direct
deriving DecidableEq

/-- A call on a connection. -/
inductive Call
  /-- The thread to which the connection is bound. -/
  | owner (thread : ThreadId)
  /-- A new value for a property. -/
  | set (setting : Setting)
  /-- A use. -/
  | use (use : Use)
  /-- The release of the connection. -/
  | release
deriving DecidableEq

/-- What a command answers: records, or errors. -/
abbrev Output := Except ServerErrors (List Record)

/-- A connection. -/
structure Connection where
  /-- The calls made on it, first one first. -/
  calls : List Call
  /-- The properties that it was given last. -/
  applied : Properties
  /-- It is in use. -/
  busy : Bool := false
  /-- Properties have changed since it went into use. -/
  stale : Bool := false
  /-- It has been released. -/
  released : Bool := false
deriving DecidableEq

namespace Connection

/-- A new connection of a thread. It is told of its owner and then of each property that is set. -/
def create (thread : ThreadId) (p : Properties) : Connection where
  calls := .owner thread :: (Properties.changes .unset p).map .set
  applied := p

/-- The connection after it has been given each property that differs from what it was given last.
One that has been released is left alone. -/
def refresh (c : Connection) (p : Properties) : Connection :=
  if c.released then c
  else { c with calls := c.calls ++ (c.applied.changes p).map .set, applied := p }

/-- The connection as it goes into use, with its properties up to date. -/
def begin (c : Connection) (p : Properties) (use : Use) : Connection :=
  let c := refresh { c with stale := false } p
  { c with calls := c.calls ++ [.use use], busy := true }

/-- The connection as it comes out of use. Changes that were put off are made now. -/
def finish (c : Connection) (p : Properties) : Connection :=
  if c.stale then refresh { c with busy := false, stale := false } p else { c with busy := false }

/-- The connection as it comes out of a use that broke off. Changes that were put off stay so. -/
def abort (c : Connection) : Connection := { c with busy := false }

/-- The connection after the properties have changed. If it is in use the change is put off. -/
def update (c : Connection) (p : Properties) : Connection :=
  if c.busy then { c with stale := true } else refresh { c with stale := false } p

/-- The connection after its release. -/
def release (c : Connection) : Connection :=
  if c.released then c else { c with calls := c.calls ++ [.release], released := true }

@[simp] theorem refresh_of_released {c : Connection} (h : c.released = true) (p : Properties) :
    c.refresh p = c := by
  simp [refresh, h]

/-- A connection with the current properties has nothing to be told. -/
@[simp] theorem refresh_applied (c : Connection) : c.refresh c.applied = c := by
  simp [refresh]

@[simp] theorem released_release (c : Connection) : c.release.released = true := by
  unfold release; split <;> simp_all

/-! ## What an operation leaves alone -/

@[simp] theorem released_refresh (c : Connection) (p : Properties) :
    (c.refresh p).released = c.released := by
  unfold refresh; split <;> rfl

@[simp] theorem busy_refresh (c : Connection) (p : Properties) :
    (c.refresh p).busy = c.busy := by
  unfold refresh; split <;> rfl

@[simp] theorem stale_refresh (c : Connection) (p : Properties) :
    (c.refresh p).stale = c.stale := by
  unfold refresh; split <;> rfl

/-- A connection that is in service has the properties with which it was refreshed. -/
theorem applied_refresh {c : Connection} (h : c.released = false) (p : Properties) :
    (c.refresh p).applied = p := by
  simp [refresh, h]

/-- A connection that is in service goes into use with the properties that it is given. -/
theorem applied_begin {c : Connection} (h : c.released = false) (p : Properties) (use : Use) :
    (c.begin p use).applied = p := by
  simp [begin, applied_refresh (c := { c with stale := false }) h]

@[simp] theorem released_begin (c : Connection) (p : Properties) (use : Use) :
    (c.begin p use).released = c.released := by
  simp [begin]

@[simp] theorem released_finish (c : Connection) (p : Properties) :
    (c.finish p).released = c.released := by
  unfold finish; split <;> simp

@[simp] theorem busy_finish (c : Connection) (p : Properties) : (c.finish p).busy = false := by
  unfold finish; split <;> simp

@[simp] theorem released_update (c : Connection) (p : Properties) :
    (c.update p).released = c.released := by
  unfold update; split <;> simp

@[simp] theorem busy_update (c : Connection) (p : Properties) :
    (c.update p).busy = c.busy := by
  unfold update; split <;> simp

@[simp] theorem busy_release (c : Connection) : c.release.busy = c.busy := by
  unfold release; split <;> rfl

/-! ## The calls of an operation -/

/-- A refresh makes nothing but settings. -/
theorem exists_calls_refresh (c : Connection) (p : Properties) :
    ∃ settings : List Setting, (c.refresh p).calls = c.calls ++ settings.map .set := by
  unfold refresh
  split
  · exact ⟨[], by simp⟩
  · exact ⟨c.applied.changes p, rfl⟩

/-- The use itself is the last call of its begin. -/
theorem exists_calls_begin (c : Connection) (p : Properties) (use : Use) :
    ∃ settings : List Setting,
      (c.begin p use).calls = c.calls ++ (settings.map .set ++ [.use use]) := by
  obtain ⟨settings, h⟩ := exists_calls_refresh { c with stale := false } p
  exact ⟨settings, by simp [begin, h]⟩

theorem exists_calls_finish (c : Connection) (p : Properties) :
    ∃ settings : List Setting, (c.finish p).calls = c.calls ++ settings.map .set := by
  unfold finish
  split
  · exact exists_calls_refresh { c with busy := false, stale := false } p
  · exact ⟨[], by simp⟩

/-- A release makes at most the call that it is. -/
theorem exists_calls_release (c : Connection) :
    ∃ calls : List Call,
      (∀ call ∈ calls, call = .release) ∧ c.release.calls = c.calls ++ calls := by
  unfold release
  split
  · exact ⟨[], by simp, by simp⟩
  · exact ⟨[.release], by simp, rfl⟩

theorem exists_calls_update (c : Connection) (p : Properties) :
    ∃ settings : List Setting, (c.update p).calls = c.calls ++ settings.map .set := by
  unfold update
  split
  · exact ⟨[], by simp⟩
  · exact exists_calls_refresh { c with stale := false } p

/-- A connection that has been released is told nothing when it goes into use. -/
theorem calls_begin_of_released {c : Connection} (hr : c.released = true) (p : Properties)
    (use : Use) : (c.begin p use).calls = c.calls ++ [.use use] := by
  simp [begin, refresh, hr]

/-- A connection that has been released is told nothing at the end of a use. -/
theorem calls_finish_of_released {c : Connection} (hr : c.released = true) (p : Properties) :
    (c.finish p).calls = c.calls := by
  unfold finish
  split
  · rw [refresh_of_released (c := { c with busy := false, stale := false }) hr]
  · rfl

/-- A connection that has been released is told nothing when properties change. -/
theorem calls_update_of_released {c : Connection} (hr : c.released = true) (p : Properties) :
    (c.update p).calls = c.calls := by
  unfold update
  split
  · rfl
  · rw [refresh_of_released (c := { c with stale := false }) hr]

end Connection

/-! ## Answers -/

/-- The errors with which a command on a released connection is answered. -/
def releasedErrors : ServerErrors := .single ⟨0, .fatal, "connection has been disposed"⟩

namespace Output

/-- What is read from the records of a command, or its failure. -/
def decoded {α : Type} (command : String) (read : List Record → α) (output : Output) :
    Except Failure α :=
  (output.map read).mapError (.commandFailed command)

/-- The command that a probe of a server runs. -/
def probeCommand : String := "dirs"

/-- Its arguments. -/
def probeArgs : List String := ["//*"]

/-- Success if the server answers, be it with the error that a probe expects. -/
def probed (output : Output) : Except Failure Unit :=
  match output with
  | .ok _ => .ok ()
  | .error errors => errors.toleratingProbe.mapError (.commandFailed probeCommand)

end Output

end DepotClient
