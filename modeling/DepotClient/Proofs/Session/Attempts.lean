import DepotClient.Proofs.Session.Bindings

/-! # Attempts to make a connection

A thread without a connection is given one by an attempt to make it. The attempt goes one of two
ways, told by the configuration alone: with a check if there is something to check against, be it a
flag or a fingerprint, and without one if both are empty or the configuration has no trust settings
at all. An attempt is all or nothing, whatever else goes on in the pool:

* **`Pool.acquire_of_error`** — one that fails hands on its failure and leaves only its trace;
* **`Pool.acquire_of_ok`** — one that succeeds adds one connection and one binding;
* **`Pool.Run.bound?_eq_none`** — a thread all of whose attempts fail has no connection, so that it
  makes another attempt each time it asks;
* **`Pool.Reachable.eq_route_of_mem_attempts`** — all attempts ever made go the configured way. -/

namespace DepotClient

/-! ## The configured way -/

theorem Trust.isEmpty_eq_false_iff (t : Trust) :
    t.isEmpty = false ↔ t.flag ≠ "" ∨ t.fingerprint ≠ "" := by
  rw [isEmpty, decide_eq_false_iff_not]
  exact Decidable.not_and_iff_or_not

namespace Profile

variable {c : Profile} {t : Trust}

theorem effectiveTrust?_eq_some_iff :
    c.effectiveTrust? = some t ↔ c.trust = some t ∧ (t.flag ≠ "" ∨ t.fingerprint ≠ "") := by
  rw [effectiveTrust?, Option.filter_eq_some_iff, Bool.not_eq_true', Trust.isEmpty_eq_false_iff]

/-- No trust settings, and trust settings both parts of which are empty, count alike. -/
theorem effectiveTrust?_eq_none_iff :
    c.effectiveTrust? = none ↔ ∀ t, c.trust = some t → t.flag = "" ∧ t.fingerprint = "" := by
  rw [Option.eq_none_iff_forall_ne_some]
  refine forall_congr' fun t => ?_
  rw [Ne, effectiveTrust?_eq_some_iff, not_and, not_or, not_not, not_not]

/-- Settings that are put in count just if they give something. -/
theorem effectiveTrust?_withTrust (c : Profile) (t : Trust) :
    (c.withTrust t).effectiveTrust? =
      if t.flag = "" ∧ t.fingerprint = "" then none else some t := by
  by_cases ht : t.flag = "" ∧ t.fingerprint = ""
  · have hempty : t.isEmpty = true := decide_eq_true ht
    simp [withTrust, effectiveTrust?, hempty, ht]
  · have hempty : t.isEmpty = false := decide_eq_false ht
    rw [if_neg ht]
    simp [withTrust, effectiveTrust?, hempty]

end Profile

namespace Pool

variable {profile : Profile} {p q : Pool} {thread : ThreadId} {a : Action} {actions : List Action}
  {make : Route → Except Failure Unit}

theorem route_eq_trusted_iff {t : Trust} :
    p.route = .trusted t ↔ p.profile.effectiveTrust? = some t := by
  unfold route
  cases p.profile.effectiveTrust? <;> simp

theorem route_eq_plain_iff : p.route = .plain ↔ p.profile.effectiveTrust? = none := by
  unfold route
  cases p.profile.effectiveTrust? <;> simp

/-- The configuration stays as it is. -/
theorem Step.profile_eq (h : Step p a q) : q.profile = p.profile := by
  cases h with
  | acquire thread make =>
    unfold Pool.acquire
    cases p.bound? thread with
    | some n => rfl
    | none => cases make p.route <;> rfl
  | begin _ _ begun => rw [begin_eq_ok begun]; rfl
  | set | refuse | finish | releaseAll => rfl

theorem Step.route_eq (h : Step p a q) : q.route = p.route := by
  rw [route, route, h.profile_eq]

theorem Run.route_eq (h : Run p actions q) : q.route = p.route :=
  h.invariant (I := fun r => r.route = p.route) (fun _ _ _ step hr => step.route_eq.trans hr) rfl

theorem Reachable.profile_eq (hp : Reachable profile p) : p.profile = profile :=
  hp.invariant (I := fun p => p.profile = profile) rfl fun _ _ _ step hq => step.profile_eq.trans hq

/-- **Every attempt ever made goes the configured way.** -/
theorem Reachable.eq_route_of_mem_attempts (hp : Reachable profile p) {route : Route}
    (h : route ∈ p.attempts) : route = p.route := by
  refine hp.invariant (I := fun p => ∀ route ∈ p.attempts, route = p.route) (by simp) ?_ route h
  intro p a q step ih route hroute
  rw [step.attempts_eq, List.mem_append] at hroute
  rw [step.route_eq]
  obtain hold | hnew := hroute
  · exact ih route hold
  · -- the only new attempt that a step can bring is made by a thread that asks
    cases a with
    | acquire thread make =>
      rw [newAttempts] at hnew
      split at hnew
      · exact List.mem_singleton.mp hnew
      · cases hnew
    | set | begin | finish | releaseAll => cases hnew

/-! ## All or nothing -/

/-- **A failed attempt** hands on its failure and leaves nothing but its trace. -/
theorem acquire_of_error {e : Failure} (h : p.bound? thread = none)
    (hmake : make p.route = .error e) :
    p.acquire thread make = (.error e, { p with attempts := p.attempts ++ [p.route] }) := by
  simp only [acquire, h, hmake]

/-- **A successful attempt** adds one new connection and its binding. -/
theorem acquire_of_ok (h : p.bound? thread = none) (hmake : make p.route = .ok ()) :
    p.acquire thread make = (.ok p.connections.length,
      { p with
        attempts := p.attempts ++ [p.route]
        connections := p.connections ++ [.create thread p.properties]
        bindings := (thread, p.connections.length) :: p.bindings }) := by
  simp only [acquire, h, hmake]

/-- Whether it fails or succeeds, it is one attempt. -/
theorem attempts_acquire (h : p.bound? thread = none) (make : Route → Except Failure Unit) :
    (p.acquire thread make).2.attempts = p.attempts ++ [p.route] := by
  cases hmake : make p.route with
  | error e => rw [acquire_of_error h hmake]
  | ok _ => rw [acquire_of_ok h hmake]

/-- A thread whose attempts fail still has no connection after any step. -/
theorem Step.bound?_eq_none (h : Step p a q)
    (ha : ∀ make, a = .acquire thread make → ∃ e, make p.route = .error e)
    (hn : p.bound? thread = none) : q.bound? thread = none := by
  cases hq : q.bound? thread with
  | none => rfl
  | some n =>
    -- it can only have come to its connection by asking for it
    obtain ⟨make, rfl, -, hok⟩ := h.exists_acquire hn hq
    obtain ⟨e, he⟩ := ha make rfl
    rw [acquire_of_error hn he] at hok
    cases hok

/-- **A thread all of whose attempts fail has no connection**, whatever else happens. -/
theorem Run.bound?_eq_none (h : Run p actions q)
    (hactions : ∀ make, .acquire thread make ∈ actions → ∃ e, make p.route = .error e)
    (hn : p.bound? thread = none) : q.bound? thread = none := by
  have hinvariant : q.route = p.route ∧ q.bound? thread = none := by
    refine h.invariant_of
      (P := fun a => ∀ make, a = .acquire thread make → ∃ e, make p.route = .error e)
      (I := fun r => r.route = p.route ∧ r.bound? thread = none) ?_ ?_ ⟨rfl, hn⟩
    · rintro r a s ha step ⟨hroute, hr⟩
      refine ⟨step.route_eq.trans hroute, step.bound?_eq_none ?_ hr⟩
      rw [hroute]
      exact ha
    · rintro a ha make rfl
      exact hactions make ha
  exact hinvariant.2

/-- **An attempt changes nothing or gives one thread its connection.** In every reachable pool, be
connections in use or not, a thread without a connection that asks for one brings about one attempt:

* it is made with a check if the configuration gives a flag or a fingerprint, and without one if it
  gives neither, whether its trust settings are empty, were dropped, or were never there; all
  attempts before were made the same way;
* if it fails, that failure is the answer and all else is as it was, and as long as the thread's
  attempts fail it makes another one each time it asks, the same way;
* if it succeeds, a new connection with the shared properties is added behind the others and bound
  to the thread, and no other thread is given or loses a connection. -/
theorem acquire_all_or_nothing (hp : Reachable profile p) (hthread : p.bound? thread = none)
    (make : Route → Except Failure Unit) :
    (p.acquire thread make).2.attempts = p.attempts ++ [p.route] ∧
    (∀ route ∈ p.attempts, route = p.route) ∧
    (∀ t, p.route = .trusted t ↔ profile.trust = some t ∧ (t.flag ≠ "" ∨ t.fingerprint ≠ "")) ∧
    (p.route = .plain ↔ ∀ t, profile.trust = some t → t.flag = "" ∧ t.fingerprint = "") ∧
    (∀ c t, profile = Profile.withTrust c t →
      p.route = if t.flag = "" ∧ t.fingerprint = "" then .plain else .trusted t) ∧
    (∀ e, make p.route = .error e →
      p.acquire thread make = (.error e, { p with attempts := p.attempts ++ [p.route] }) ∧
      ∀ later q, Run (p.acquire thread make).2 later q →
        (∀ again, .acquire thread again ∈ later → ∃ e, again p.route = .error e) →
        ∀ again, (q.acquire thread again).2.attempts = q.attempts ++ [p.route]) ∧
    (make p.route = .ok () →
      p.acquire thread make = (.ok p.connections.length,
        { p with
          attempts := p.attempts ++ [p.route]
          connections := p.connections ++ [.create thread p.properties]
          bindings := (thread, p.connections.length) :: p.bindings }) ∧
      (p.acquire thread make).2.bound? thread = some p.connections.length ∧
      ∀ other, other ≠ thread → (p.acquire thread make).2.bound? other = p.bound? other) := by
  have hprofile := hp.profile_eq
  refine ⟨attempts_acquire hthread make, fun _ => hp.eq_route_of_mem_attempts, fun t => ?_, ?_, ?_,
    fun e he => ?_, fun hok => ?_⟩
  · rw [route_eq_trusted_iff, hprofile, Profile.effectiveTrust?_eq_some_iff]
  · rw [route_eq_plain_iff, hprofile, Profile.effectiveTrust?_eq_none_iff]
  · rintro c t rfl
    rw [route, hprofile, Profile.effectiveTrust?_withTrust]
    by_cases ht : t.flag = "" ∧ t.fingerprint = ""
    · rw [if_pos ht, if_pos ht]
    · rw [if_neg ht, if_neg ht]
  · have hfailed := acquire_of_error hthread he
    refine ⟨hfailed, fun later q hlater hfails again => ?_⟩
    rw [hfailed] at hlater
    -- no attempt in between gave the thread a connection
    have hq : q.bound? thread = none := hlater.bound?_eq_none hfails hthread
    rw [attempts_acquire hq, hlater.route_eq]
    rfl
  · have hmade := acquire_of_ok hthread hok
    refine ⟨hmade, ?_, fun other hother => ?_⟩
    · exact bound?_of_acquire (congrArg Prod.fst hmade)
    · rw [hmade, bound?, List.lookup_cons, beq_false_of_ne hother, bound?]

/-- The first thread runs a command. The configuration asks for a check of the fingerprint. -/
def amidstCommand : Pool :=
  let start : Pool :=
    { profile := { address := "p:1666", trust := some ⟨"", "AB:CD"⟩ } }
  let one := (start.acquire ⟨0⟩ fun _ => .ok ()).2
  one.modify 0 (·.begin one.properties (.command "sync" []))

/-- What comes of an attempt at a server whose fingerprint is another one. -/
def refuseTrusted : Route → Except Failure Unit
  | .plain => .ok ()
  | .trusted _ => .error (.notTrusted "p:1666")

/-- In the midst of the command the second thread is refused a connection, twice. -/
theorem acquire_all_or_nothing_amidst_command :
    Reachable { address := "p:1666", trust := some ⟨"", "AB:CD"⟩ } amidstCommand ∧
    amidstCommand.isBusy 0 = true ∧ amidstCommand.bound? ⟨1⟩ = none ∧
    amidstCommand.route = .trusted ⟨"", "AB:CD"⟩ ∧
    (amidstCommand.acquire ⟨1⟩ refuseTrusted).1 = .error (.notTrusted "p:1666") ∧
    ((amidstCommand.acquire ⟨1⟩ refuseTrusted).2.acquire ⟨1⟩ refuseTrusted).2.attempts =
      amidstCommand.attempts ++ [amidstCommand.route, amidstCommand.route] := by
  have hnew : Reachable { address := "p:1666", trust := some ⟨"", "AB:CD"⟩ }
      { profile := { address := "p:1666", trust := some ⟨"", "AB:CD"⟩ } } := ⟨_, _, rfl, .nil⟩
  have hp : Reachable _ amidstCommand :=
    (hnew.step (.acquire ⟨0⟩ fun _ => .ok ())).step
      (.begin (by decide) rfl (rfl : Pool.begin _ 0 (.command "sync" []) = .ok _))
  have hthread : amidstCommand.bound? ⟨1⟩ = none := rfl
  obtain ⟨hfirst, -, htrusted, -, -, hfails, -⟩ := acquire_all_or_nothing hp hthread refuseTrusted
  have hroute : amidstCommand.route = .trusted ⟨"", "AB:CD"⟩ :=
    (htrusted _).mpr ⟨rfl, .inr (by decide)⟩
  obtain ⟨hanswer, hagain⟩ := hfails (.notTrusted "p:1666") (by rw [hroute]; rfl)
  refine ⟨hp, rfl, hthread, hroute, congrArg Prod.fst hanswer, ?_⟩
  rw [hagain [] _ .nil (by simp), hfirst, List.append_assoc]
  rfl

end Pool

end DepotClient
