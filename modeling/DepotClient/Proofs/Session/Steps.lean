import DepotClient.Session.Pool

/-! # The steps of a pool

A pool lives through actions of its threads in any order: `Pool.Step` says which action can happen
when, and what comes of it. A use of a connection is two steps, its begin and its end, so that
other actions, uses of other connections among them, lie between the two at any depth. A use that
breaks off has no end and is no part of this; it leaves its connection to `Pool.abort`.

A step touches each connection on its own. A `Standing` is one connection with what the
pool knows about it, and `Standing.Step` lists the ways in which a step can change it, so that
what holds of every connection is proved connection by connection:

* **`Pool.Step.standing`** — a step of the pool is a step of each of its connections;
* **`Pool.Step.standing_new`** — and whatever connection it adds is a new one, bound;
* **`Pool.Reachable.standing_invariant`** — what holds of new connections and is kept by these
  steps holds of every connection in every reachable pool. -/

namespace DepotClient

namespace Pool

/-! ## Actions -/

/-- What can happen to a pool. -/
inductive Action
  /-- A thread asks for its connection; `make` tells what an attempt to make one comes to. -/
  | acquire (thread : ThreadId) (make : Route → Except Failure Unit)
  /-- A shared property is given a value. -/
  | set (setting : Setting)
  /-- A connection goes into use. -/
  | begin (n : Nat) (use : Use)
  /-- A connection comes out of use. -/
  | finish (n : Nat)
  /-- All connections that belong to threads are released. -/
  | releaseAll

/-- **One step of a pool.** Only a connection that has been made can be used, and it has one use at
a time. The release waits for every connection that belongs to a thread. -/
inductive Step (p : Pool) : Action → Pool → Prop
  /-- A thread asks for its connection. -/
  | acquire (thread : ThreadId) (make : Route → Except Failure Unit) :
      Step p (.acquire thread make) (p.acquire thread make).2
  /-- A shared property is given a value. -/
  | set (setting : Setting) : Step p (.set setting) (p.set setting)
  /-- A connection goes into use. -/
  | begin {n : Nat} {use : Use} {q : Pool} (made : n < p.connections.length)
      (idle : p.isBusy n = false) (begun : p.begin n use = .ok q) : Step p (.begin n use) q
  /-- A use is refused. -/
  | refuse {n : Nat} {use : Use} {e : ServerErrors} (made : n < p.connections.length)
      (idle : p.isBusy n = false) (refused : p.begin n use = .error e) : Step p (.begin n use) p
  /-- A connection comes out of use. -/
  | finish {n : Nat} (busy : p.isBusy n = true) : Step p (.finish n) (p.finish n)
  /-- All connections that belong to threads are released. -/
  | releaseAll (idle : ∀ n, p.isBound n = true → p.isBusy n = false) :
      Step p .releaseAll p.releaseAll

/-- A run: actions taken one after the other. -/
inductive Run (p : Pool) : List Action → Pool → Prop
  /-- Nothing has happened yet. -/
  | nil : Run p [] p
  /-- One more step. -/
  | snoc {actions : List Action} {q r : Pool} {a : Action} (run : Run p actions q)
      (step : Step q a r) : Run p (actions ++ [a]) r

/-- The pools that come of a new one by a run. -/
def Reachable (profile : Profile) (p : Pool) : Prop :=
  ∃ start actions, new profile = .ok start ∧ Run start actions p

/-- What every step of some kind keeps is kept by a run of such steps. -/
theorem Run.invariant_of {P : Action → Prop} {I : Pool → Prop}
    (keep : ∀ p a q, P a → Step p a q → I p → I q) {p q : Pool} {actions : List Action}
    (h : Run p actions q) (hactions : ∀ a ∈ actions, P a) (hp : I p) : I q := by
  induction h with
  | nil => exact hp
  | snoc _ step ih =>
    rw [List.forall_mem_append, List.forall_mem_singleton] at hactions
    exact keep _ _ _ hactions.2 step (ih hactions.1)

/-- What every step keeps is kept by a run. -/
theorem Run.invariant {I : Pool → Prop} (keep : ∀ p a q, Step p a q → I p → I q) {p q : Pool}
    {actions : List Action} (h : Run p actions q) (hp : I p) : I q :=
  h.invariant_of (P := fun _ => True) (fun p a q _ => keep p a q) (fun _ _ => trivial) hp

/-- A new pool has no connections. -/
theorem eq_of_new {profile : Profile} {p : Pool} (h : new profile = .ok p) :
    p = { profile := profile } := by
  unfold new at h
  cases hc : profile.check with
  | error e => rw [hc] at h; cases h
  | ok u => rw [hc] at h; cases h; rfl

/-- **Induction over runs.** What holds of a pool without connections and is kept by every step
holds of every reachable pool. -/
theorem Reachable.invariant {profile : Profile} {I : Pool → Prop} (base : I { profile := profile })
    (keep : ∀ p a q, Step p a q → I p → I q) {p : Pool} (h : Reachable profile p) : I p := by
  obtain ⟨start, actions, hnew, hrun⟩ := h
  rw [eq_of_new hnew] at hrun
  exact hrun.invariant keep base

/-- A step from a reachable pool leads to a reachable pool. -/
theorem Reachable.step {profile : Profile} {p q : Pool} {a : Action} (h : Reachable profile p)
    (hstep : Step p a q) : Reachable profile q := by
  obtain ⟨start, actions, hnew, hrun⟩ := h
  exact ⟨start, actions ++ [a], hnew, hrun.snoc hstep⟩

/-- A run from a reachable pool leads to a reachable pool. -/
theorem Reachable.run {profile : Profile} {p q : Pool} {actions : List Action}
    (h : Reachable profile p) (hrun : Run p actions q) : Reachable profile q :=
  hrun.invariant (fun _ _ _ hstep hp => hp.step hstep) h

/-- The calls that have been made on the connection with the given number. -/
def callsOf (p : Pool) (n : Nat) : List Call := (p.connections[n]?.map Connection.calls).getD []

/-- The calls that are made on a connection on the way from one pool to another. -/
def newCalls (p q : Pool) (n : Nat) : List Call := (q.callsOf n).drop (p.callsOf n).length

/-! ## What an operation does to one connection -/

/-- Only a thread without a connection changes the pool's connections by asking for one. -/
theorem acquire_cases (p : Pool) (thread : ThreadId) (make : Route → Except Failure Unit) :
    ((p.acquire thread make).2.connections = p.connections ∧
      (p.acquire thread make).2.bindings = p.bindings ∧
      (p.acquire thread make).2.properties = p.properties) ∨
    ((p.acquire thread make).2.connections = p.connections ++ [.create thread p.properties] ∧
      (p.acquire thread make).2.bindings = (thread, p.connections.length) :: p.bindings ∧
      (p.acquire thread make).2.properties = p.properties) := by
  unfold acquire
  cases p.bound? thread with
  | some n => exact .inl ⟨rfl, rfl, rfl⟩
  | none =>
    cases make p.route with
    | error e => exact .inl ⟨rfl, rfl, rfl⟩
    | ok _ => exact .inr ⟨rfl, rfl, rfl⟩

/-- A use that is not refused changes one connection. -/
theorem begin_eq_ok {p q : Pool} {n : Nat} {use : Use} (h : p.begin n use = .ok q) :
    q = p.modify n (·.begin p.properties use) := by
  unfold begin at h
  cases use with
  | direct => cases h; rfl
  | command name args =>
    cases hr : p.isReleased n with
    | false => simp only [hr] at h; cases h; rfl
    | true => simp only [hr] at h; cases h

theorem isBusy_eq_true_iff {p : Pool} {n : Nat} :
    p.isBusy n = true ↔ ∃ c, p.connections[n]? = some c ∧ c.busy = true := by
  unfold isBusy
  cases p.connections[n]? <;> simp

theorem isReleased_eq_true_iff {p : Pool} {n : Nat} :
    p.isReleased n = true ↔ ∃ c, p.connections[n]? = some c ∧ c.released = true := by
  unfold isReleased
  cases p.connections[n]? <;> simp

theorem getElem?_modify (p : Pool) (n m : Nat) (f : Connection → Connection) :
    (p.modify n f).connections[m]? =
      p.connections[m]?.map fun c => if n = m then f c else c := by
  simp [modify, List.getElem?_modify]

theorem getElem?_set (p : Pool) (setting : Setting) (m : Nat) :
    (p.set setting).connections[m]? = p.connections[m]?.map fun c =>
      if p.isBound m then c.update (p.properties.set setting) else c := by
  simp [set, List.getElem?_mapIdx]

theorem getElem?_releaseAll (p : Pool) (m : Nat) :
    p.releaseAll.connections[m]? =
      p.connections[m]?.map fun c => if p.isBound m then c.release else c := by
  simp [releaseAll, List.getElem?_mapIdx]

end Pool

/-! ## One connection at a time -/

/-- A connection with what its pool knows about it. -/
structure Standing where
  /-- The properties that the pool shares. -/
  shared : Properties
  /-- The connection belongs to a thread. -/
  bound : Bool
  /-- The connection. -/
  connection : Connection

namespace Standing

/-- A connection that has just been made for a thread. -/
def fresh (thread : ThreadId) (shared : Properties) : Standing :=
  ⟨shared, true, .create thread shared⟩

/-- **What a step can do to a connection.** -/
inductive Step : Standing → Standing → Prop
  /-- The step is about something else. -/
  | rest (s : Standing) : Step s s
  /-- A shared property changes, and the connection is told. -/
  | update (shared : Properties) (c : Connection) (setting : Setting) :
      Step ⟨shared, true, c⟩ ⟨shared.set setting, true, c.update (shared.set setting)⟩
  /-- A shared property changes, and the connection is not concerned. -/
  | pass (shared : Properties) (c : Connection) (setting : Setting) :
      Step ⟨shared, false, c⟩ ⟨shared.set setting, false, c⟩
  /-- The connection goes into use. -/
  | begin (shared : Properties) (bound : Bool) (c : Connection) (use : Use)
      (idle : c.busy = false) (allowed : c.released = true → use = .direct) :
      Step ⟨shared, bound, c⟩ ⟨shared, bound, c.begin shared use⟩
  /-- The connection comes out of use. -/
  | finish (shared : Properties) (bound : Bool) (c : Connection) (busy : c.busy = true) :
      Step ⟨shared, bound, c⟩ ⟨shared, bound, c.finish shared⟩
  /-- The connection is released. -/
  | release (shared : Properties) (c : Connection) (idle : c.busy = false) :
      Step ⟨shared, true, c⟩ ⟨shared, false, c.release⟩

/-- **Only the begin of a use makes the call of that use.** -/
theorem Step.begin_of_use {s t : Standing} (h : s.Step t) {use : Use}
    (hu : Call.use use ∈ t.connection.calls.drop s.connection.calls.length) :
    (s.connection.released = true → use = .direct) ∧
      t = { s with connection := s.connection.begin s.shared use } := by
  cases h with
  | rest => simp at hu
  | update shared c setting =>
    obtain ⟨settings, hc⟩ := c.exists_calls_update (shared.set setting)
    simp [hc] at hu
  | pass => simp at hu
  | begin shared bound c used idle allowed =>
    obtain ⟨settings, hc⟩ := c.exists_calls_begin shared used
    obtain rfl : use = used := by simpa [hc] using hu
    exact ⟨allowed, rfl⟩
  | finish shared bound c =>
    obtain ⟨settings, hc⟩ := c.exists_calls_finish shared
    simp [hc] at hu
  | release shared c =>
    obtain ⟨calls, hcalls, hc⟩ := c.exists_calls_release
    rw [hc, List.drop_left] at hu
    cases hcalls _ hu

end Standing

namespace Pool

/-- The connection with the given number, with what the pool knows about it. -/
def standing? (p : Pool) (n : Nat) : Option Standing :=
  p.connections[n]?.map fun c => ⟨p.properties, p.isBound n, c⟩

theorem standing?_eq_some {p : Pool} {n : Nat} {s : Standing} :
    p.standing? n = some s ↔ ∃ c, p.connections[n]? = some c ∧ ⟨p.properties, p.isBound n, c⟩ = s :=
  Option.map_eq_some_iff

/-- A change of one connection is seen there and nowhere else. -/
theorem standing?_modify {p : Pool} {n m : Nat} {c : Connection} (f : Connection → Connection)
    (h : p.connections[m]? = some c) :
    (p.modify n f).standing? m =
      some ⟨p.properties, p.isBound m, if n = m then f c else c⟩ := by
  rw [standing?, getElem?_modify, h]
  rfl

/-- **A step of the pool is a step of each of its connections.** -/
theorem Step.standing {p q : Pool} {a : Action} (h : Step p a q) {n : Nat} {s : Standing}
    (hs : p.standing? n = some s) : ∃ t, q.standing? n = some t ∧ s.Step t := by
  obtain ⟨c, hc, rfl⟩ := standing?_eq_some.mp hs
  cases h with
  | acquire thread make =>
    refine ⟨_, ?_, .rest _⟩
    obtain ⟨hcs, hb, hp⟩ | ⟨hcs, hb, hp⟩ := p.acquire_cases thread make
    · simp [standing?, isBound, hcs, hb, hp, hc]
    · -- the number of a new connection is not that of an old one
      have hn : n < p.connections.length := (List.getElem?_eq_some_iff.mp hc).1
      simp [standing?, isBound, hcs, hb, hp, List.getElem?_append_left hn, hc, Nat.ne_of_gt hn]
  | set setting =>
    refine ⟨_, standing?_eq_some.mpr ⟨_, by rw [getElem?_set, hc]; rfl, rfl⟩, ?_⟩
    change Standing.Step _ ⟨p.properties.set setting, p.isBound n, _⟩
    cases hb : p.isBound n with
    | true => exact .update _ _ _
    | false => exact .pass _ _ _
  | begin made idle begun =>
    rename_i m use
    rw [begin_eq_ok begun, standing?_modify _ hc]
    refine ⟨_, rfl, ?_⟩
    split
    · rename_i hm
      subst hm
      have hbusy : c.busy = false := by simpa [isBusy, hc] using idle
      refine .begin _ _ _ _ hbusy fun hr => ?_
      have hreleased : p.isReleased m = true := by simp [isReleased, hc, hr]
      cases use with
      | direct => rfl
      | command name args => simp [Pool.begin, hreleased] at begun
    · -- another connection goes into use
      exact .rest _
  | refuse => exact ⟨_, hs, .rest _⟩
  | finish busy =>
    rename_i m
    rw [Pool.finish, standing?_modify _ hc]
    refine ⟨_, rfl, ?_⟩
    split
    · rename_i hm
      subst hm
      exact .finish _ _ _ (by simpa [isBusy, hc] using busy)
    · exact .rest _
  | releaseAll idle =>
    refine ⟨_, standing?_eq_some.mpr ⟨_, by rw [getElem?_releaseAll, hc]; rfl, rfl⟩, ?_⟩
    change Standing.Step _ ⟨p.properties, false, _⟩
    cases hb : p.isBound n with
    | true => exact .release _ _ (by simpa [isBusy, hc] using idle n hb)
    | false => exact .rest _

/-- **What a step adds is new**: a connection that was not there before has just been made for a
thread, and belongs to it. -/
theorem Step.standing_new {p q : Pool} {a : Action} (h : Step p a q) {n : Nat} {t : Standing}
    (hp : p.standing? n = none) (ht : q.standing? n = some t) :
    ∃ thread, t = .fresh thread q.properties ∧ q.properties = p.properties ∧
      n = p.connections.length ∧ q.bindings = (thread, n) :: p.bindings := by
  have hlen : p.connections.length ≤ n := by simpa [standing?] using hp
  obtain ⟨c, hc, rfl⟩ := standing?_eq_some.mp ht
  cases h with
  | acquire thread make =>
    obtain ⟨hcs, -, -⟩ | ⟨hcs, hb, hprops⟩ := p.acquire_cases thread make
    · rw [hcs, List.getElem?_eq_none hlen] at hc
      cases hc
    · rw [hcs, List.getElem?_append_right hlen, List.getElem?_singleton] at hc
      obtain ⟨hn, rfl⟩ : n = p.connections.length ∧ Connection.create thread p.properties = c := by
        split at hc
        · exact ⟨by omega, Option.some.inj hc⟩
        · cases hc
      refine ⟨thread, ?_, hprops, hn, by rw [hb, hn]⟩
      simp [Standing.fresh, isBound, hb, hprops, hn]
  | set => rw [getElem?_set, List.getElem?_eq_none hlen] at hc; cases hc
  | begin _ _ begun =>
    rw [begin_eq_ok begun, getElem?_modify, List.getElem?_eq_none hlen] at hc; cases hc
  | refuse => rw [List.getElem?_eq_none hlen] at hc; cases hc
  | finish => rw [Pool.finish, getElem?_modify, List.getElem?_eq_none hlen] at hc; cases hc
  | releaseAll => rw [getElem?_releaseAll, List.getElem?_eq_none hlen] at hc; cases hc

/-- **Induction over the life of a connection.** What holds of every new connection and is kept by
whatever a step can do to one holds of every connection in every reachable pool. -/
theorem Reachable.standing_invariant {profile : Profile} {I : Standing → Prop}
    (base : ∀ thread shared, I (.fresh thread shared)) (keep : ∀ s t, s.Step t → I s → I t)
    {p : Pool} (h : Reachable profile p) {n : Nat} {s : Standing} (hs : p.standing? n = some s) :
    I s := by
  refine h.invariant (I := fun p => ∀ n s, p.standing? n = some s → I s) ?_ ?_ n s hs
  · intro n s hs
    simp [standing?] at hs
  · intro p a q hstep ih n t ht
    -- the connection has just been made, or was there before the step
    cases hp : p.standing? n with
    | none =>
      obtain ⟨thread, rfl, -⟩ := hstep.standing_new hp ht
      exact base _ _
    | some s =>
      obtain ⟨t', ht', hst⟩ := hstep.standing hp
      obtain rfl : t = t' := Option.some.inj (ht.symm.trans ht')
      exact keep s t hst (ih n s hp)

/-- What holds of every connection that is made, and is kept by whatever a step can do to one, holds
of every connection there is. -/
theorem Reachable.connection_invariant {profile : Profile} {I : Connection → Prop}
    (base : ∀ thread shared, I (.create thread shared))
    (keep : ∀ s t : Standing, s.Step t → I s.connection → I t.connection) {p : Pool}
    (h : Reachable profile p) {n : Nat} {c : Connection} (hc : p.connections[n]? = some c) : I c :=
  h.standing_invariant (I := fun s => I s.connection) base keep (standing?_eq_some.mpr ⟨c, hc, rfl⟩)

theorem callsOf_eq_of_standing? {p : Pool} {n : Nat} {s : Standing} (h : p.standing? n = some s) :
    p.callsOf n = s.connection.calls := by
  obtain ⟨c, hc, rfl⟩ := standing?_eq_some.mp h
  simp [callsOf, hc]

/-- A step that calls for a use is the begin of that use on a connection that was there before. -/
theorem Step.begin_of_use {p q : Pool} {a : Action} (h : Step p a q) {n : Nat} {use : Use}
    (hu : Call.use use ∈ p.newCalls q n) :
    ∃ s, p.standing? n = some s ∧ (s.connection.released = true → use = .direct) ∧
      q.standing? n = some { s with connection := s.connection.begin s.shared use } := by
  cases hs : p.standing? n with
  | some s =>
    obtain ⟨t, ht, hst⟩ := h.standing hs
    rw [newCalls, callsOf_eq_of_standing? hs, callsOf_eq_of_standing? ht] at hu
    obtain ⟨hr, rfl⟩ := hst.begin_of_use hu
    exact ⟨s, rfl, hr, ht⟩
  | none =>
    have hu : Call.use use ∈ q.callsOf n := List.mem_of_mem_drop hu
    cases ht : q.standing? n with
    | none =>
      have hq : q.connections[n]? = none := by simpa [standing?] using ht
      simp [callsOf, hq] at hu
    | some t =>
      -- a connection that has just been made has been told its owner and its settings
      obtain ⟨thread, rfl, -⟩ := h.standing_new hs ht
      rw [callsOf_eq_of_standing? ht] at hu
      simp [Standing.fresh, Connection.create] at hu

/-! ## Numbers of connections -/

/-- No connection is ever forgotten. -/
theorem Step.length_le {p q : Pool} {a : Action} (h : Step p a q) :
    p.connections.length ≤ q.connections.length := by
  refine Nat.le_of_not_lt fun hlt => ?_
  obtain ⟨c, hc⟩ : ∃ c, p.connections[q.connections.length]? = some c :=
    ⟨_, List.getElem?_eq_getElem hlt⟩
  obtain ⟨t, ht, -⟩ := h.standing (standing?_eq_some.mpr ⟨c, hc, rfl⟩)
  simp [standing?] at ht

/-- A connection that belongs to a thread has been made. -/
theorem Reachable.lt_of_isBound {profile : Profile} {p : Pool} (h : Reachable profile p) {n : Nat}
    (hn : p.isBound n = true) : n < p.connections.length := by
  -- the number in a binding was the number of connections when the binding was made
  suffices hall : ∀ binding ∈ p.bindings, binding.2 < p.connections.length by
    obtain ⟨binding, hb, hbn⟩ := List.any_eq_true.mp hn
    exact of_decide_eq_true hbn ▸ hall binding hb
  refine h.invariant (I := fun p => ∀ binding ∈ p.bindings, binding.2 < p.connections.length)
    (by simp) ?_
  intro p a q hstep ih
  have hle := hstep.length_le
  have old : ∀ binding ∈ p.bindings, binding.2 < q.connections.length :=
    fun binding hb => Nat.lt_of_lt_of_le (ih binding hb) hle
  cases hstep with
  | acquire thread make =>
    obtain ⟨-, hb, -⟩ | ⟨hcs, hb, -⟩ := p.acquire_cases thread make
    · rw [hb]; exact old
    · rw [hb]
      exact List.forall_mem_cons.mpr ⟨by simp [hcs], old⟩
  | begin _ _ begun => rw [begin_eq_ok begun] at old ⊢; exact old
  | set | refuse | finish => exact old
  | releaseAll => intro binding hb; cases hb

end Pool

end DepotClient
