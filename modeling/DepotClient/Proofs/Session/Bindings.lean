import Mathlib.Data.List.Nodup
import DepotClient.Proofs.Session.Steps

/-! # Threads and their connections

A thread keeps the connection that it was given until all connections are released, and no other
thread is given the same one. An attempt to make a connection is made only for a thread that has
none. So the threads that have one are those that were given one since the last release.

* **`Pool.Reachable.bound?_inj`** — a connection belongs to one thread at most;
* **`Pool.Run.acquire_again`** — asking again gives the same connection, without an attempt;
* **`Pool.Run.acquiredSinceRelease_iff`** — which threads have one is told by the run alone. -/

namespace DepotClient

/-- In a list that holds no key twice, what stands beside a key is what is looked up under it. -/
theorem mem_iff_lookup_eq_some {α β : Type} [BEq α] [LawfulBEq α] {pairs : List (α × β)}
    (h : (pairs.map Prod.fst).Nodup) {key : α} {value : β} :
    (key, value) ∈ pairs ↔ pairs.lookup key = some value := by
  induction pairs with
  | nil => simp
  | cons pair pairs ih =>
    obtain ⟨k, v⟩ := pair
    obtain ⟨hk, hpairs⟩ := List.nodup_cons.mp h
    rw [List.lookup_cons, List.mem_cons, Prod.mk.injEq]
    by_cases hkey : key = k
    · -- the key does not stand in the rest of the list
      have hrest : (key, value) ∉ pairs := fun hmem =>
        hk (hkey ▸ List.mem_map.mpr ⟨_, hmem, rfl⟩)
      simp [hkey, hkey ▸ hrest, eq_comm]
    · have hbeq : (key == k) = false := beq_eq_false_iff_ne.mpr hkey
      simp [hbeq, hkey, ih hpairs]

namespace Pool

variable {profile : Profile} {start p q : Pool} {thread : ThreadId} {n : Nat} {a : Action}
  {actions : List Action} {make : Route → Except Failure Unit}

/-! ## What asking for a connection comes to -/

/-- A thread that has a connection is given it, and nothing changes. -/
theorem acquire_of_bound (h : p.bound? thread = some n) (make : Route → Except Failure Unit) :
    p.acquire thread make = (.ok n, p) := by
  simp only [acquire, h]

/-- A thread that has none is given a new one, or the attempt fails and nothing but it remains. -/
theorem acquire_of_unbound (h : p.bound? thread = none) (make : Route → Except Failure Unit) :
    (∃ e, p.acquire thread make = (.error e, { p with attempts := p.attempts ++ [p.route] })) ∨
      p.acquire thread make = (.ok p.connections.length,
        { p with
          attempts := p.attempts ++ [p.route]
          connections := p.connections ++ [.create thread p.properties]
          bindings := (thread, p.connections.length) :: p.bindings }) := by
  simp only [acquire, h]
  cases make p.route with
  | error e => exact .inl ⟨e, rfl⟩
  | ok _ => exact .inr rfl

/-- A thread that has been given a connection has it. -/
theorem bound?_of_acquire (h : (p.acquire thread make).1 = .ok n) :
    (p.acquire thread make).2.bound? thread = some n := by
  cases hb : p.bound? thread with
  | some m =>
    rw [acquire_of_bound hb] at h ⊢
    rw [hb, Except.ok.inj h]
  | none =>
    obtain ⟨e, hacquire⟩ | hacquire := acquire_of_unbound hb make
    · rw [hacquire] at h
      cases h
    · rw [hacquire] at h ⊢
      rw [← Except.ok.inj h]
      exact List.lookup_cons_self

/-! ## The attempts to make a connection -/

/-- The attempts that an action brings: one, if it is a thread's that has no connection. -/
def newAttempts (p : Pool) : Action → List Route
  | .acquire thread _ => if p.bound? thread = none then [p.route] else []
  | _ => []

theorem Step.attempts_eq (h : Step p a q) : q.attempts = p.attempts ++ p.newAttempts a := by
  cases h with
  | acquire thread make =>
    cases hb : p.bound? thread with
    | some n => simp [acquire_of_bound hb, newAttempts, hb]
    | none =>
      obtain ⟨e, hacquire⟩ | hacquire := acquire_of_unbound hb make <;>
        simp [hacquire, newAttempts, hb]
  | begin _ _ begun => rw [begin_eq_ok begun]; exact (List.append_nil _).symm
  | set | refuse | finish | releaseAll => exact (List.append_nil _).symm

/-! ## Bindings are one-to-one -/

/-- No thread has two connections, and no connection two threads. -/
theorem Reachable.nodup_bindings (hp : Reachable profile p) :
    (p.bindings.map Prod.fst).Nodup ∧ (p.bindings.map Prod.snd).Nodup := by
  obtain ⟨start, actions, hnew, hrun⟩ := hp
  induction hrun with
  | nil => rw [eq_of_new hnew]; exact ⟨.nil, .nil⟩
  | @snoc before q r a run step ih =>
    cases step with
    | acquire thread make =>
      cases hb : q.bound? thread with
      | some n => rw [acquire_of_bound hb]; exact ih
      | none =>
        obtain ⟨e, hacquire⟩ | hacquire := acquire_of_unbound hb make
        · rw [hacquire]; exact ih
        · rw [hacquire]
          refine ⟨List.nodup_cons.mpr ⟨fun hmem => ?_, ih.1⟩,
            List.nodup_cons.mpr ⟨fun hmem => ?_, ih.2⟩⟩
          · -- the thread had no connection
            obtain ⟨binding, hbinding, rfl⟩ := List.mem_map.mp hmem
            have hne := List.lookup_eq_none_iff.mp hb binding hbinding
            simp at hne
          · -- the number was no number of a connection
            obtain ⟨binding, hbinding, hnumber⟩ := List.mem_map.mp hmem
            have hq : Reachable profile q := ⟨start, before, hnew, run⟩
            have hbound : q.isBound q.connections.length = true :=
              List.any_eq_true.mpr ⟨binding, hbinding, decide_eq_true hnumber⟩
            exact Nat.lt_irrefl _ (hq.lt_of_isBound hbound)
    | begin _ _ begun => rw [begin_eq_ok begun]; exact ih
    | set | refuse | finish => exact ih
    | releaseAll => exact ⟨.nil, .nil⟩

theorem Reachable.bound?_eq_some_iff (hp : Reachable profile p) :
    p.bound? thread = some n ↔ (thread, n) ∈ p.bindings :=
  (mem_iff_lookup_eq_some hp.nodup_bindings.1).symm

/-- **A connection belongs to one thread at most.** -/
theorem Reachable.bound?_inj (hp : Reachable profile p) {other : ThreadId}
    (h : p.bound? thread = some n) (hother : p.bound? other = some n) : thread = other := by
  have hpair : (thread, n) = (other, n) :=
    List.inj_on_of_nodup_map hp.nodup_bindings.2 (hp.bound?_eq_some_iff.mp h)
      (hp.bound?_eq_some_iff.mp hother) rfl
  exact congrArg Prod.fst hpair

/-- A connection that belongs to a thread is the connection of some thread. -/
theorem Reachable.isBound_iff (hp : Reachable profile p) :
    p.isBound n = true ↔ ∃ thread, p.bound? thread = some n := by
  rw [isBound, List.any_eq_true]
  constructor
  · rintro ⟨⟨thread, m⟩, hmem, hn⟩
    obtain rfl : m = n := of_decide_eq_true hn
    exact ⟨thread, hp.bound?_eq_some_iff.mpr hmem⟩
  · rintro ⟨thread, h⟩
    exact ⟨(thread, n), hp.bound?_eq_some_iff.mp h, decide_eq_true rfl⟩

/-! ## Between two releases -/

/-- Whatever happens, a thread keeps its connection until the release. -/
theorem Step.bound?_eq_some (h : Step p a q) (ha : a ≠ .releaseAll)
    (hn : p.bound? thread = some n) : q.bound? thread = some n := by
  cases h with
  | acquire other make =>
    cases hb : p.bound? other with
    | some m => rw [acquire_of_bound hb]; exact hn
    | none =>
      obtain ⟨e, hacquire⟩ | hacquire := acquire_of_unbound hb make
      · rw [hacquire]; exact hn
      · -- the new binding is that of another thread
        have hne : thread ≠ other := fun heq => by rw [heq, hb] at hn; cases hn
        rw [hacquire, bound?, List.lookup_cons, beq_false_of_ne hne]
        exact hn
  | begin _ _ begun => rw [begin_eq_ok begun]; exact hn
  | set | refuse | finish => exact hn
  | releaseAll => exact absurd rfl ha

theorem Run.bound?_eq_some (h : Run p actions q) (hactions : .releaseAll ∉ actions)
    (hn : p.bound? thread = some n) : q.bound? thread = some n :=
  h.invariant_of (P := (· ≠ .releaseAll)) (I := fun p => p.bound? thread = some n)
    (fun _ _ _ ha step hn => step.bound?_eq_some ha hn)
    (fun _ ha heq => hactions (heq ▸ ha)) hn

/-- **Asking again gives the same connection**, without an attempt to make one. -/
theorem Run.acquire_again (h : Run (p.acquire thread make).2 actions q)
    (hactions : .releaseAll ∉ actions) (hn : (p.acquire thread make).1 = .ok n)
    (again : Route → Except Failure Unit) : q.acquire thread again = (.ok n, q) :=
  acquire_of_bound (h.bound?_eq_some hactions (bound?_of_acquire hn)) again

/-! ## Since the last release -/

/-- A thread comes to have a connection only by asking for it. -/
theorem Step.exists_acquire (h : Step p a q) (hp : p.bound? thread = none)
    (hq : q.bound? thread = some n) :
    ∃ make, a = .acquire thread make ∧ q = (p.acquire thread make).2 ∧
      (p.acquire thread make).1 = .ok n := by
  cases h with
  | acquire other make =>
    by_cases hother : other = thread
    · subst hother
      obtain ⟨e, hacquire⟩ | hacquire := acquire_of_unbound hp make
      · rw [hacquire] at hq
        cases hp.symm.trans hq
      · rw [hacquire, bound?, List.lookup_cons_self] at hq
        refine ⟨make, rfl, rfl, ?_⟩
        rw [hacquire, Option.some.inj hq]
    · -- what another thread is given is not this thread's
      have hsame : (p.acquire other make).2.bound? thread = p.bound? thread := by
        obtain ⟨-, hb, -⟩ | ⟨-, hb, -⟩ := p.acquire_cases other make
        · rw [bound?, hb, bound?]
        · rw [bound?, hb, List.lookup_cons, beq_false_of_ne (Ne.symm hother), bound?]
      rw [hsame, hp] at hq
      cases hq
  | begin _ _ begun => rw [begin_eq_ok begun] at hq; cases hp.symm.trans hq
  | set | refuse | finish => cases hp.symm.trans hq
  | releaseAll => cases hq

/-- Holds if a thread has asked for its connection in a run and was given one, and all connections
have not been released since. -/
def AcquiredSinceRelease (start : Pool) (actions : List Action) (p : Pool) (thread : ThreadId) :
    Prop :=
  ∃ before q make n after, actions = before ++ .acquire thread make :: after ∧
    Run start before q ∧ (q.acquire thread make).1 = .ok n ∧
    Run (q.acquire thread make).2 after p ∧ .releaseAll ∉ after

theorem AcquiredSinceRelease.snoc (h : AcquiredSinceRelease start actions p thread)
    (step : Step p a q) (ha : a ≠ .releaseAll) :
    AcquiredSinceRelease start (actions ++ [a]) q thread := by
  obtain ⟨before, r, make, n, after, rfl, hbefore, hn, hafter, hrelease⟩ := h
  refine ⟨before, r, make, n, after ++ [a], by simp, hbefore, hn, hafter.snoc step, ?_⟩
  rw [List.mem_append, List.mem_singleton]
  exact not_or.mpr ⟨hrelease, Ne.symm ha⟩

/-- **The threads with a connection are those that were given one since the last release.** -/
theorem Run.acquiredSinceRelease_iff (h : Run start actions p) (hstart : start.bindings = []) :
    AcquiredSinceRelease start actions p thread ↔ ∃ n, p.bound? thread = some n := by
  constructor
  · rintro ⟨before, q, make, n, after, -, -, hn, hafter, hrelease⟩
    exact ⟨n, hafter.bound?_eq_some hrelease (bound?_of_acquire hn)⟩
  · intro hbound
    induction h with
    | nil =>
      obtain ⟨n, hn⟩ := hbound
      rw [bound?, hstart] at hn
      cases hn
    | @snoc actions q r a run step ih =>
      obtain ⟨n, hn⟩ := hbound
      cases hq : q.bound? thread with
      | some m =>
        refine (ih ⟨m, hq⟩).snoc step fun ha => ?_
        -- after a release no thread has a connection
        subst ha
        cases step
        cases hn
      | none =>
        obtain ⟨make, rfl, rfl, hmake⟩ := step.exists_acquire hq hn
        exact ⟨actions, q, make, n, [], rfl, run, hmake, .nil, List.not_mem_nil⟩

/-- As many threads have a connection as were given one since the last release, however often each
of them asked. -/
theorem Run.size_eq_length (hnew : new profile = .ok start) (h : Run start actions p) :
    ∃ threads : List ThreadId, threads.Nodup ∧
      (∀ thread, thread ∈ threads ↔ AcquiredSinceRelease start actions p thread) ∧
      p.size = threads.length := by
  have hp : Reachable profile p := ⟨start, actions, hnew, h⟩
  have hstart : start.bindings = [] := by rw [eq_of_new hnew]
  refine ⟨p.bindings.map Prod.fst, hp.nodup_bindings.1, fun thread => ?_, ?_⟩
  · rw [h.acquiredSinceRelease_iff hstart, List.mem_map]
    constructor
    · rintro ⟨⟨_, n⟩, hmem, rfl⟩
      exact ⟨n, hp.bound?_eq_some_iff.mpr hmem⟩
    · rintro ⟨n, hn⟩
      exact ⟨(thread, n), hp.bound?_eq_some_iff.mp hn, rfl⟩
  · rw [List.length_map, size]

end Pool

end DepotClient
