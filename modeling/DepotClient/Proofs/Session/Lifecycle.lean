import DepotClient.Proofs.Session.Bindings
import DepotClient.Proofs.Session.Propagation

/-! # The life of a connection

The calls on a connection tell its whole life. The first one binds it to its thread, and no other
does so. It is released once, and from then on nothing is called but what is done by direct access.
A step only ever adds to the calls, so each part is a matter of what a step may add.

* **`Standing.Step.exists_calls`**, **`exists_calls_of_released`** — what a step adds to the calls
  of a connection in service, and of one that has been released;
* **`Connection.Ordered`** — the order of the calls that comes of this;
* **`Pool.Retired`** — what is left of a connection after its release;
* **`Pool.bound_once_and_released_once`** — the life of all connections over a whole run. -/

namespace DepotClient

namespace Connection

/-! ## The calls on one connection -/

/-- The order of the calls on a connection, as far as its owner and its release go. -/
structure Ordered (c : Connection) : Prop where
  /-- The first call binds it to a thread, and no other call does. -/
  owner_first : ∃ thread rest, c.calls = .owner thread :: rest ∧ ∀ other, .owner other ∉ rest
  /-- While it is in service it has not been released. -/
  release_not_mem : c.released = false → .release ∉ c.calls
  /-- After its one release nothing is called but what direct access does. -/
  release_last : c.released = true →
    ∃ before k, c.calls = before ++ .release :: List.replicate k (.use .direct) ∧ .release ∉ before

/-- A connection is released at most once, and has been if it is not in service. -/
theorem Ordered.count_release {c : Connection} (h : c.Ordered) :
    c.calls.count .release = if c.released then 1 else 0 := by
  cases hr : c.released with
  | false => rw [List.count_eq_zero.mpr (h.release_not_mem hr)]; rfl
  | true =>
    obtain ⟨before, k, hcalls, hbefore⟩ := h.release_last hr
    have hafter : .release ∉ List.replicate k (Call.use .direct) :=
      fun hmem => nomatch List.eq_of_mem_replicate hmem
    rw [hcalls, List.count_append, List.count_cons_self, List.count_eq_zero.mpr hbefore,
      List.count_eq_zero.mpr hafter]
    rfl

/-- What does not name an owner may be added behind. -/
theorem Ordered.owner_first_append {c : Connection} (h : c.Ordered) {more : List Call}
    (hmore : ∀ other, .owner other ∉ more) :
    ∃ thread rest, c.calls ++ more = .owner thread :: rest ∧ ∀ other, .owner other ∉ rest := by
  obtain ⟨thread, rest, hcalls, hrest⟩ := h.owner_first
  refine ⟨thread, rest ++ more, by rw [hcalls, List.cons_append], fun other => ?_⟩
  rw [List.mem_append]
  exact not_or.mpr ⟨hrest other, hmore other⟩

theorem ordered_create (thread : ThreadId) (p : Properties) : (create thread p).Ordered where
  owner_first := ⟨thread, _, rfl, by simp⟩
  release_not_mem _ := by simp [create]
  release_last hr := nomatch hr

end Connection

namespace Standing

/-- **A connection in service is told its properties, is used, or is released** in one call. -/
theorem Step.exists_calls {s t : Standing} (h : s.Step t) (hr : s.connection.released = false) :
    ∃ more, t.connection.calls = s.connection.calls ++ more ∧ (∀ thread, .owner thread ∉ more) ∧
      if t.connection.released then more = [.release] else .release ∉ more := by
  cases h with
  | rest => exact ⟨[], by simp, by simp, by simp [hr]⟩
  | update shared c setting =>
    obtain ⟨settings, hcalls⟩ := c.exists_calls_update (shared.set setting)
    have hreleased : c.released = false := hr
    exact ⟨_, hcalls, by simp, by simp [hreleased]⟩
  | pass shared c =>
    have hreleased : c.released = false := hr
    exact ⟨[], by simp, by simp, by simp [hreleased]⟩
  | begin shared bound c use =>
    obtain ⟨settings, hcalls⟩ := c.exists_calls_begin shared use
    have hreleased : c.released = false := hr
    exact ⟨_, hcalls, by simp, by simp [hreleased]⟩
  | finish shared bound c =>
    obtain ⟨settings, hcalls⟩ := c.exists_calls_finish shared
    have hreleased : c.released = false := hr
    exact ⟨_, hcalls, by simp, by simp [hreleased]⟩
  | release shared c =>
    have hreleased : c.released = false := hr
    exact ⟨[.release], by simp [Connection.release, hreleased], by simp, by simp⟩

/-- **A connection that has been released stays so**, and is accessed directly at most. -/
theorem Step.exists_calls_of_released {s t : Standing} (h : s.Step t)
    (hr : s.connection.released = true) :
    t.connection.released = true ∧
      ∃ k, t.connection.calls = s.connection.calls ++ List.replicate k (.use .direct) := by
  cases h with
  | rest => exact ⟨hr, 0, by simp⟩
  | update shared c setting =>
    exact ⟨by simpa using hr, 0, by simp [Connection.calls_update_of_released hr]⟩
  | pass => exact ⟨hr, 0, by simp⟩
  | begin shared bound c use idle allowed =>
    obtain rfl := allowed hr
    exact ⟨by simpa using hr, 1, Connection.calls_begin_of_released hr shared .direct⟩
  | finish shared bound c =>
    exact ⟨by simpa using hr, 0, by simp [Connection.calls_finish_of_released hr]⟩
  | release shared c =>
    have hreleased : c.released = true := hr
    exact ⟨by simp, 0, by simp [Connection.release, hreleased]⟩

/-- Whatever a step does to a connection, its calls stay in order. -/
theorem Step.ordered {s t : Standing} (h : s.Step t) (hs : s.connection.Ordered) :
    t.connection.Ordered := by
  cases hr : s.connection.released with
  | false =>
    obtain ⟨more, hcalls, howner, hmore⟩ := h.exists_calls hr
    have hbefore : .release ∉ s.connection.calls := hs.release_not_mem hr
    refine { owner_first := ?_, release_not_mem := fun ht => ?_, release_last := fun ht => ?_ }
    · rw [hcalls]
      exact hs.owner_first_append howner
    · rw [if_neg (by simp [ht])] at hmore
      rw [hcalls, List.mem_append]
      exact not_or.mpr ⟨hbefore, hmore⟩
    · -- the release is the step itself
      rw [if_pos ht] at hmore
      exact ⟨s.connection.calls, 0, by rw [hcalls, hmore]; rfl, hbefore⟩
  | true =>
    obtain ⟨hreleased, k, hcalls⟩ := h.exists_calls_of_released hr
    refine { owner_first := ?_, release_not_mem := fun ht => ?_, release_last := fun _ => ?_ }
    · rw [hcalls]
      exact hs.owner_first_append fun other hmem => nomatch List.eq_of_mem_replicate hmem
    · rw [hreleased] at ht
      cases ht
    · obtain ⟨before, j, hbefore, hnot⟩ := hs.release_last hr
      refine ⟨before, j + k, ?_, hnot⟩
      rw [hcalls, hbefore, List.append_assoc, List.cons_append, List.replicate_append_replicate]

/-- Calls are never taken back. -/
theorem Step.calls_prefix {s t : Standing} (h : s.Step t) :
    s.connection.calls <+: t.connection.calls := by
  cases hr : s.connection.released with
  | false =>
    obtain ⟨more, hcalls, -⟩ := h.exists_calls hr
    exact ⟨more, hcalls.symm⟩
  | true =>
    obtain ⟨-, k, hcalls⟩ := h.exists_calls_of_released hr
    exact ⟨_, hcalls.symm⟩

end Standing

namespace Pool

variable {profile : Profile} {start p q : Pool} {thread owner : ThreadId} {n : Nat} {a : Action}
  {c : Connection} {actions : List Action}

/-! ## Owner and release -/

/-- The calls on every connection are in order. -/
theorem Reachable.ordered (hp : Reachable profile p) (hc : p.connections[n]? = some c) :
    c.Ordered :=
  hp.connection_invariant Connection.ordered_create (fun _ _ step => step.ordered) hc

/-- The first call on a connection stays the first. -/
theorem Step.head?_callsOf (h : Step p a q) {call : Call}
    (hcall : (p.callsOf n).head? = some call) : (q.callsOf n).head? = some call := by
  cases hs : p.standing? n with
  | none =>
    have hnone : p.connections[n]? = none := by simpa [standing?] using hs
    simp [callsOf, hnone] at hcall
  | some s =>
    obtain ⟨t, ht, hst⟩ := h.standing hs
    obtain ⟨more, hmore⟩ := hst.calls_prefix
    rw [callsOf_eq_of_standing? hs] at hcall
    rw [callsOf_eq_of_standing? ht, ← hmore, List.head?_append, hcall]
    rfl

/-- The connection of a thread has been bound to this thread. -/
theorem Reachable.head?_callsOf (hp : Reachable profile p) (hn : p.bound? thread = some n) :
    (p.callsOf n).head? = some (.owner thread) := by
  obtain ⟨start, actions, hnew, hrun⟩ := hp
  induction hrun with
  | nil =>
    rw [eq_of_new hnew] at hn
    cases hn
  | @snoc before p q a run step ih =>
    cases hb : p.bound? thread with
    | some m =>
      -- the connection was the thread's before the step
      have ha : a ≠ .releaseAll := by
        rintro rfl
        cases step
        cases hn
      obtain rfl : m = n := Option.some.inj ((step.bound?_eq_some ha hb).symm.trans hn)
      exact step.head?_callsOf (ih hb)
    | none =>
      -- it has just been made
      obtain ⟨make, rfl, rfl, hmake⟩ := step.exists_acquire hb hn
      obtain ⟨e, hacquire⟩ | hacquire := acquire_of_unbound hb make
      · rw [hacquire] at hmake
        cases hmake
      · rw [hacquire] at hmake ⊢
        obtain rfl : p.connections.length = n := Except.ok.inj hmake
        simp [callsOf, Connection.create]

/-- **A connection belongs to the thread of its first call until it is released**, and to no other
thread at any time. -/
theorem Reachable.bound?_eq_some_iff_owner (hp : Reachable profile p)
    (hc : p.connections[n]? = some c) (howner : c.calls.head? = some (.owner owner)) :
    p.bound? thread = some n ↔ thread = owner ∧ c.released = false := by
  have hcurrent := hp.connection_current hc
  have hthread : ∀ {t}, p.bound? t = some n → t = owner := by
    intro t ht
    have hhead := hp.head?_callsOf ht
    rw [callsOf, hc, Option.map_some, Option.getD_some, howner] at hhead
    exact (Call.owner.inj (Option.some.inj hhead)).symm
  constructor
  · intro h
    exact ⟨hthread h, hcurrent.released_of_bound (hp.isBound_iff.mpr ⟨thread, h⟩)⟩
  · rintro ⟨rfl, hr⟩
    have hbound : p.isBound n = true := by
      have hreleased := hcurrent.released_eq
      simpa [hr] using hreleased
    obtain ⟨t, ht⟩ := hp.isBound_iff.mp hbound
    rwa [hthread ht] at ht

/-! ## After the release -/

/-- What is left of a connection that has been released. -/
structure Retired (p : Pool) (n : Nat) : Prop where
  /-- It has been released. -/
  isReleased : p.isReleased n = true
  /-- It belongs to no thread. -/
  bound?_ne (thread : ThreadId) : p.bound? thread ≠ some n
  /-- A thread that asks for its connection is given another. -/
  acquire_ne (thread : ThreadId) (make : Route → Except Failure Unit) :
    (p.acquire thread make).1 ≠ .ok n
  /-- A command is answered with one error, which is fatal. -/
  begin_command (name : String) (args : List String) :
    p.begin n (.command name args) = .error (.single ⟨0, .fatal, "connection has been disposed"⟩)
  /-- Nothing comes of that. -/
  step_command {name : String} {args : List String} {q : Pool} :
    Step p (.begin n (.command name args)) q → q = p

/-- A connection that has been released stays so, and is accessed directly at most. -/
theorem Run.isReleased (h : Run p actions q) (hr : p.isReleased n = true) :
    q.isReleased n = true ∧
      ∃ k, q.callsOf n = p.callsOf n ++ List.replicate k (.use .direct) := by
  refine h.invariant (I := fun q => q.isReleased n = true ∧
    ∃ k, q.callsOf n = p.callsOf n ++ List.replicate k (.use .direct)) ?_ ⟨hr, 0, by simp⟩
  rintro q a r step ⟨hq, k, hcalls⟩
  obtain ⟨c, hc, hreleased⟩ := isReleased_eq_true_iff.mp hq
  have hs : q.standing? n = some ⟨q.properties, q.isBound n, c⟩ :=
    standing?_eq_some.mpr ⟨c, hc, rfl⟩
  obtain ⟨t, ht, hst⟩ := step.standing hs
  obtain ⟨htreleased, j, hmore⟩ := hst.exists_calls_of_released hreleased
  refine ⟨?_, k + j, ?_⟩
  · obtain ⟨d, hd, rfl⟩ := standing?_eq_some.mp ht
    exact isReleased_eq_true_iff.mpr ⟨d, hd, htreleased⟩
  · rw [callsOf_eq_of_standing? ht, hmore, ← callsOf_eq_of_standing? hs, hcalls, List.append_assoc,
      List.replicate_append_replicate]

/-- A connection that has been released belongs to no thread. -/
theorem Reachable.bound?_ne (hp : Reachable profile p) (hr : p.isReleased n = true)
    (thread : ThreadId) : p.bound? thread ≠ some n := by
  intro hbound
  obtain ⟨c, hc, hreleased⟩ := isReleased_eq_true_iff.mp hr
  have hcurrent := hp.connection_current hc
  have hservice : c.released = false :=
    hcurrent.released_of_bound (hp.isBound_iff.mpr ⟨thread, hbound⟩)
  rw [hreleased] at hservice
  cases hservice

/-- **Nothing is left of a connection that has been released.** -/
theorem Reachable.retired (hp : Reachable profile p) (hr : p.isReleased n = true) :
    p.Retired n where
  isReleased := hr
  bound?_ne := hp.bound?_ne hr
  acquire_ne thread make := by
    intro hacquire
    -- the thread would have this connection afterwards
    have hstep : Step p (.acquire thread make) (p.acquire thread make).2 := .acquire thread make
    have hreleased := ((Run.nil.snoc hstep).isReleased hr).1
    exact (hp.step hstep).bound?_ne hreleased thread (bound?_of_acquire hacquire)
  begin_command name args := by simp [Pool.begin, hr, releasedErrors]
  step_command step := by
    cases step with
    | begin _ _ begun => simp [Pool.begin, hr] at begun
    | refuse => rfl

/-! ## Whole runs -/

/-- Holds of what can still be done when a pool is gone and its connections are kept. -/
def Action.isUse : Action → Bool
  | .begin _ _ | .finish _ => true
  | _ => false

/-- **When a pool is gone every connection has been released, and once.** -/
theorem Reachable.count_release_eq_one (hp : Reachable profile p) {q r : Pool}
    (hrelease : Step p .releaseAll q) (hrun : Run q actions r)
    (hactions : ∀ a ∈ actions, a.isUse = true) (hc : r.connections[n]? = some c) :
    c.calls.count .release = 1 := by
  have hr : Reachable profile r := (hp.step hrelease).run hrun
  have hbindings : r.bindings = [] := by
    refine hrun.invariant_of (P := fun a => a.isUse = true) (I := fun p => p.bindings = []) ?_
      hactions ?_
    · intro p a q ha step hp
      cases step with
      | begin _ _ begun => rw [begin_eq_ok begun]; exact hp
      | refuse | finish => exact hp
      | acquire | set | releaseAll => cases ha
    · cases hrelease
      rfl
  -- a connection of no thread has been released
  have hreleased : c.released = true := by
    have heq : c.released = !r.isBound n := (hr.connection_current hc).released_eq
    rw [heq, isBound, hbindings]
    rfl
  rw [(hr.ordered hc).count_release, hreleased]
  rfl

/-- **Every connection is bound once and released once.** After every run from a new pool:

* no connection belongs to two threads;
* a thread that has been given a connection is given the same one again as long as all connections
  have not been released, and no attempt is made then; the attempts that there are come from threads
  that have none when they ask;
* as many threads have a connection as were given one since the last release;
* the first call on a connection, and no other, binds it to a thread; this one has it until it is
  released, and no other has it at any time;
* a connection is released at most once, and then nothing is called but what direct access does;
* when the pool is released for the last time, every connection has been released once, and nothing
  that is done with the connections after that releases one again;
* whatever happens after the release of a connection, a command on it is answered with one fatal
  error, from which nothing comes; it belongs to no thread, and no thread is given it again, be it
  the one that had it before. -/
theorem bound_once_and_released_once (hnew : new profile = .ok start)
    (hrun : Run start actions p) :
    (∀ (thread other : ThreadId) (n : Nat),
      p.bound? thread = some n → p.bound? other = some n → thread = other) ∧
    (∀ thread make n later q again, (p.acquire thread make).1 = .ok n →
      Run (p.acquire thread make).2 later q → .releaseAll ∉ later →
      q.acquire thread again = (.ok n, q)) ∧
    (∀ a q, Step p a q → q.attempts = p.attempts ++ p.newAttempts a) ∧
    (∃ threads : List ThreadId, threads.Nodup ∧
      (∀ thread, thread ∈ threads ↔ AcquiredSinceRelease start actions p thread) ∧
      p.size = threads.length) ∧
    (∀ (n : Nat) (c : Connection), p.connections[n]? = some c →
      (∃ owner rest, c.calls = .owner owner :: rest ∧ (∀ other, .owner other ∉ rest) ∧
        ∀ thread, p.bound? thread = some n ↔ thread = owner ∧ c.released = false) ∧
      c.calls.count .release = (if c.released then 1 else 0) ∧
      (c.released = true →
        ∃ before k, c.calls = before ++ .release :: List.replicate k (.use .direct))) ∧
    (∀ later q r (n : Nat) (c : Connection), Step p .releaseAll q → Run q later r →
      (∀ a ∈ later, a.isUse = true) → r.connections[n]? = some c →
      c.calls.count .release = 1) ∧
    ∀ n later q, p.isReleased n = true → Run p later q →
      q.Retired n ∧ ∃ k, q.callsOf n = p.callsOf n ++ List.replicate k (.use .direct) := by
  have hp : Reachable profile p := ⟨start, actions, hnew, hrun⟩
  refine ⟨fun _ _ _ h hother => hp.bound?_inj h hother,
    fun _ _ _ _ _ again hn hlater hrelease => hlater.acquire_again hrelease hn again,
    fun _ _ step => step.attempts_eq, hrun.size_eq_length hnew, ?_,
    fun _ _ _ _ _ hrelease hlater huse hc => hp.count_release_eq_one hrelease hlater huse hc, ?_⟩
  · intro n c hc
    have hordered := hp.ordered hc
    obtain ⟨owner, rest, hcalls, hrest⟩ := hordered.owner_first
    have howner : c.calls.head? = some (.owner owner) := by rw [hcalls]; rfl
    refine ⟨⟨owner, rest, hcalls, hrest, fun _ => hp.bound?_eq_some_iff_owner hc howner⟩,
      hordered.count_release, fun hr => ?_⟩
    obtain ⟨before, k, heq, -⟩ := hordered.release_last hr
    exact ⟨before, k, heq⟩
  · intro n later q hr hlater
    obtain ⟨hq, hcalls⟩ := hlater.isReleased hr
    exact ⟨(hp.run hlater).retired hq, hcalls⟩

/-- Two threads with a connection each. -/
def twoThreads : Pool :=
  let start : Pool := { profile := { address := "p:1666" } }
  ((start.acquire ⟨0⟩ fun _ => .ok ()).2.acquire ⟨1⟩ fun _ => .ok ()).2

/-- All connections are released, and the first thread asks again. -/
def afterReturn : Pool := (twoThreads.releaseAll.acquire ⟨0⟩ fun _ => .ok ()).2

/-- The first connection is not given out again, and a command on it is refused. -/
theorem retired_after_return :
    afterReturn.bound? ⟨0⟩ = some 2 ∧ afterReturn.isReleased 0 = true ∧ afterReturn.Retired 0 := by
  have hnew : new { address := "p:1666" } = .ok { profile := { address := "p:1666" } } := rfl
  have htwo : Run { profile := { address := "p:1666" } } _ twoThreads :=
    (Run.nil.snoc (.acquire ⟨0⟩ fun _ => .ok ())).snoc (.acquire ⟨1⟩ fun _ => .ok ())
  have hidle : ∀ n, twoThreads.isBound n = true → twoThreads.isBusy n = false := by
    rintro (_ | _ | n) _ <;> rfl
  have hrun : Run { profile := { address := "p:1666" } } _ afterReturn :=
    (htwo.snoc (.releaseAll hidle)).snoc (.acquire ⟨0⟩ fun _ => .ok ())
  have hretired := (bound_once_and_released_once hnew hrun).2.2.2.2.2.2 0 [] afterReturn rfl .nil
  exact ⟨rfl, rfl, hretired.1⟩

end Pool

end DepotClient
