import DepotClient.Proofs.Session.Steps

/-! # Shared properties reach every connection

A shared property may be set while connections are in use. Then it waits: the connection is
marked, and is told when its use ends. The invariant of a single connection is
`Standing.Current`: it belongs to a thread just as long as it is not released, and while it does
it has been given the shared properties, or else is in use and marked.

* **`Standing.Step.current`** — whatever a step does to a connection keeps this;
* **`Pool.propagation_never_lost`** — so no property is ever lost, in any order of the steps and
  however deep uses lie within one another. -/

namespace DepotClient

namespace Standing

/-- The connection has been given what is shared, or will be told at the end of its use. -/
structure Current (s : Standing) : Prop where
  /-- A connection belongs to a thread until it is released. -/
  released_eq : s.connection.released = !s.bound
  /-- It has the shared properties, or is in use and marked. -/
  applied_or_stale : s.bound = true →
    s.connection.applied = s.shared ∨ s.connection.busy = true ∧ s.connection.stale = true

/-- A connection that belongs to a thread is in service. -/
theorem Current.released_of_bound {s : Standing} (h : s.Current) (hb : s.bound = true) :
    s.connection.released = false := by
  rw [h.released_eq, hb]; rfl

/-- A new connection has been given what is shared. -/
theorem current_fresh (thread : ThreadId) (shared : Properties) :
    (fresh thread shared).Current where
  released_eq := rfl
  applied_or_stale _ := .inl rfl

/-- **At the end of a use nothing is outstanding.** If the mark is set the connection is refreshed
now; if it is not, no property has changed since the connection was given them. -/
theorem Current.applied_finish {s : Standing} (h : s.Current) (hb : s.bound = true) :
    (s.connection.finish s.shared).applied = s.shared := by
  unfold Connection.finish
  split
  · exact Connection.applied_refresh (c := { s.connection with busy := false, stale := false })
      (h.released_of_bound hb) _
  · rename_i hs
    -- it is not marked, so it has the shared properties by the invariant
    obtain happ | ⟨-, hstale⟩ := h.applied_or_stale hb
    · exact happ
    · exact absurd hstale hs

/-- A connection in use is marked by a change, and one that is not is given it. -/
theorem applied_update {c : Connection} (h : c.released = false) (p : Properties) :
    (c.update p).applied = p ∨ (c.update p).busy = true ∧ (c.update p).stale = true := by
  unfold Connection.update
  split
  · rename_i hb
    exact .inr ⟨hb, rfl⟩
  · exact .inl (Connection.applied_refresh (c := { c with stale := false }) h p)

/-- **Whatever a step does to a connection keeps it current.** -/
theorem Step.current {s t : Standing} (h : s.Step t) (hs : s.Current) : t.Current := by
  cases h with
  | rest => exact hs
  | update shared c setting =>
    have hr : c.released = false := hs.released_of_bound rfl
    exact ⟨by simpa using hr, fun _ => applied_update hr _⟩
  | pass shared c setting => exact ⟨hs.released_eq, fun hb => nomatch hb⟩
  | begin shared bound c use =>
    refine ⟨by simpa using hs.released_eq, fun hb => .inl ?_⟩
    exact Connection.applied_begin (hs.released_of_bound hb) shared use
  | finish shared bound c =>
    exact ⟨by simpa using hs.released_eq, fun hb => .inl (hs.applied_finish hb)⟩
  | release shared c => exact ⟨by simp, fun hb => nomatch hb⟩

end Standing

namespace Pool

/-- Every connection of a reachable pool is current. -/
theorem Reachable.current {profile : Profile} {p : Pool} (h : Reachable profile p) {n : Nat}
    {s : Standing} (hs : p.standing? n = some s) : s.Current :=
  h.standing_invariant Standing.current_fresh (fun _ _ step => step.current) hs

theorem Reachable.connection_current {profile : Profile} {p : Pool} (h : Reachable profile p)
    {n : Nat} {c : Connection} (hc : p.connections[n]? = some c) :
    Standing.Current ⟨p.properties, p.isBound n, c⟩ :=
  h.current (standing?_eq_some.mpr ⟨c, hc, rfl⟩)

/-- **No change of a property is ever lost.** In every reachable pool:

* a connection that belongs to a thread is one that has been made, and of those that have been
  made each belongs to a thread and is in service, or is released and belongs to none;
* a connection that belongs to a thread has been given the shared properties, or else is in use
  and marked.

And of every step from there:

* no connection is forgotten;
* if it runs a command on a connection, that is the last call on it, and by then the
  connection has been given the shared properties;
* if it ends the use of a connection that belongs to a thread, the connection has the shared
  properties again. -/
theorem propagation_never_lost {profile : Profile} {p : Pool} (hp : Reachable profile p) :
    (∀ n, p.isBound n = true → n < p.connections.length) ∧
    (∀ n c, p.connections[n]? = some c →
      (p.isBound n = true ∧ c.released = false ∨ p.isBound n = false ∧ c.released = true) ∧
      (p.isBound n = true →
        c.applied = p.properties ∨ c.busy = true ∧ c.stale = true)) ∧
    ∀ a q, Step p a q →
      p.connections.length ≤ q.connections.length ∧
      (∀ n name args, Call.use (.command name args) ∈ p.newCalls q n →
        ∃ c, q.connections[n]? = some c ∧
          c.calls.getLast? = some (.use (.command name args)) ∧
          c.applied = q.properties ∧ q.properties = p.properties) ∧
      (∀ n, a = .finish n → q.isBound n = true →
        ∃ c, q.connections[n]? = some c ∧ c.busy = false ∧ c.applied = q.properties) := by
  refine ⟨fun n hn => hp.lt_of_isBound hn, ?_, fun a q hstep => ⟨hstep.length_le, ?_, ?_⟩⟩
  · intro n c hc
    have hs : Standing.Current ⟨p.properties, p.isBound n, c⟩ :=
      hp.current (standing?_eq_some.mpr ⟨c, hc, rfl⟩)
    refine ⟨?_, hs.applied_or_stale⟩
    have hr : c.released = !p.isBound n := hs.released_eq
    cases hb : p.isBound n with
    | true => exact .inl ⟨rfl, by rw [hr, hb]; rfl⟩
    | false => exact .inr ⟨rfl, by rw [hr, hb]; rfl⟩
  · intro n name args hcall
    obtain ⟨s, hs, hdirect, hq⟩ := hstep.begin_of_use hcall
    obtain ⟨c, hc, heq⟩ := standing?_eq_some.mp hq
    obtain ⟨d, hd, rfl⟩ := standing?_eq_some.mp hs
    obtain ⟨hprops, -, rfl⟩ := Standing.mk.inj heq
    -- a released connection would have refused the command
    have hr : d.released = false := by
      cases hr : d.released with
      | false => rfl
      | true => cases hdirect hr
    obtain ⟨settings, hcalls⟩ := d.exists_calls_begin p.properties (.command name args)
    refine ⟨_, hc, ?_, ?_, hprops⟩
    · rw [hcalls, ← List.append_assoc, List.getLast?_concat]
    · rw [hprops]; exact Connection.applied_begin hr _ _
  · rintro n rfl hb
    cases hstep with
    | finish busy =>
      obtain ⟨c, hc⟩ : ∃ c, p.connections[n]? = some c := by
        cases hc : p.connections[n]? with
        | some c => exact ⟨c, rfl⟩
        | none => simp [isBusy, hc] at busy
      have hs : Standing.Current ⟨p.properties, p.isBound n, c⟩ :=
        hp.current (standing?_eq_some.mpr ⟨c, hc, rfl⟩)
      refine ⟨c.finish p.properties, ?_, by simp, hs.applied_finish hb⟩
      rw [Pool.finish, getElem?_modify, hc]
      simp

/-- Two threads with a connection each. The first runs a command; in its midst the second accesses
its connection, and in the midst of that a property is set; another one is set after that. -/
def amidstNestedUses : Pool :=
  let start : Pool := { profile := { address := "p:1666" } }
  let two := ((start.acquire ⟨0⟩ fun _ => .ok ()).2.acquire ⟨1⟩ fun _ => .ok ()).2
  let outer := two.modify 0 (·.begin two.properties (.command "sync" ["//..."]))
  let inner := outer.modify 1 (·.begin outer.properties .direct)
  ((inner.set (.programName "tool")).finish 1).set (.programVersion "2")

/-- The end of the outer use brings both changes to its connection. -/
theorem propagation_amidst_nested_uses :
    Reachable { address := "p:1666" } amidstNestedUses ∧
    amidstNestedUses.isBound 0 = true ∧ amidstNestedUses.isBusy 0 = true ∧
    amidstNestedUses.connections[0]?.map Connection.applied = some .unset ∧
    amidstNestedUses.properties = { programName := "tool", programVersion := "2" } ∧
    ∃ c, (amidstNestedUses.finish 0).connections[0]? = some c ∧ c.busy = false ∧
      c.applied = (amidstNestedUses.finish 0).properties := by
  have hnew : Reachable { address := "p:1666" } { profile := { address := "p:1666" } } :=
    ⟨_, _, rfl, .nil⟩
  have htwo := (hnew.step (.acquire ⟨0⟩ fun _ => .ok ())).step (.acquire ⟨1⟩ fun _ => .ok ())
  have houter := htwo.step (.begin (by decide) rfl
    (rfl : Pool.begin _ 0 (.command "sync" ["//..."]) = .ok _))
  have hinner := houter.step (.begin (by decide) rfl (rfl : Pool.begin _ 1 .direct = .ok _))
  have hr : Reachable { address := "p:1666" } amidstNestedUses :=
    ((hinner.step (.set (.programName "tool"))).step (.finish (n := 1) rfl)).step
      (.set (.programVersion "2"))
  have hfinish : Step amidstNestedUses (.finish 0) (amidstNestedUses.finish 0) := .finish rfl
  refine ⟨hr, rfl, rfl, rfl, rfl, ?_⟩
  exact ((propagation_never_lost hr).2.2 _ _ hfinish).2.2 0 rfl rfl

end Pool

end DepotClient
