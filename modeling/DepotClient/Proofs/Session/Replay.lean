import Mathlib.Data.List.Chain
import DepotClient.Proofs.Session.Propagation

/-! # What a connection has been told

A new connection is told of the properties that are set, and later of those that change. What it was
given last is kept apart from the calls themselves. Here the two are tied together: the settings
among the calls, made one after the other in a session in which nothing is set, give just the
properties that it was given last.

* **`Connection.Faithful`** — the invariant: the settings replay to what was given last, and none of
  them repeats the value that its property had before;
* **`Standing.Step.exists_of_busy`** — nothing but the mark of a connection changes while it is in
  use;
* **`Pool.told_just_what_changes`** — so a setting is told at once or at the end of a use, and only
  if it makes a difference. -/

namespace DepotClient

/-! ## Properties one by one -/

/-- One of the shared properties. -/
inductive Property
  /-- The name of the program. -/
  | programName
  /-- The version of the program. -/
  | programVersion
  /-- The character set. -/
  | characterSet
  /-- The time that a command may take. -/
  | commandTimeout
deriving DecidableEq

/-- The property that a setting gives a value. -/
def Setting.property : Setting → Property
  | .programName _ => .programName
  | .programVersion _ => .programVersion
  | .characterSet _ => .characterSet
  | .commandTimeout _ => .commandTimeout

namespace Properties

/-- The setting of a property to the value that it has. -/
def current (p : Properties) : Property → Setting
  | .programName => .programName p.programName
  | .programVersion => .programVersion p.programVersion
  | .characterSet => .characterSet p.characterSet
  | .commandTimeout => .commandTimeout p.commandTimeout

/-- A setting changes its own property and no other. -/
theorem current_set (p : Properties) (setting : Setting) (k : Property) :
    (p.set setting).current k = if setting.property = k then setting else p.current k := by
  cases setting <;> cases k <;> rfl

/-- Of the changes from one state to another at most one is about a given property. -/
theorem filter_changes (old new : Properties) (k : Property) :
    (changes old new).filter (fun s => s.property = k) =
      if new.current k = old.current k then [] else [new.current k] := by
  -- a change is kept just where it is about this property
  have hfilter : ∀ (same : Prop) [Decidable same] (setting : Setting),
      (if same then [] else [setting]).filter (fun s => s.property = k) =
        if same ∨ setting.property ≠ k then [] else [setting] := by
    intro same _ setting
    by_cases hsame : same
    · simp [hsame]
    · by_cases hk : setting.property = k <;> simp [hsame, hk]
  simp only [changes, List.filter_append, hfilter]
  cases k <;> simp [current, Setting.property]

/-- Setting a property to the value that it has changes nothing. -/
@[simp] theorem set_current (p : Properties) (k : Property) : p.set (p.current k) = p := by
  cases k <;> rfl

/-- A setting makes one change, or none if the property has its value. -/
theorem changes_set (p : Properties) (setting : Setting) :
    p.changes (p.set setting) = if setting = p.current setting.property then [] else [setting] := by
  by_cases h : setting = p.current setting.property
  · rw [if_pos h, h, set_current, changes_self]
  · rw [if_neg h]
    cases setting <;> simp_all [changes, set, current, Setting.property]

/-- The value of a property after some settings is that of the last of them which is about it. -/
theorem getLast?_cons_filter (p : Properties) (settings : List Setting) (k : Property) :
    (p.current k :: settings.filter fun s => s.property = k).getLast? =
      some ((settings.foldl set p).current k) := by
  induction settings generalizing p with
  | nil => rfl
  | cons setting settings ih =>
    rw [List.foldl_cons, ← ih, current_set]
    by_cases hk : setting.property = k
    · rw [if_pos hk, List.filter_cons_of_pos (by simpa using hk), List.getLast?_cons_cons]
    · rw [if_neg hk, List.filter_cons_of_neg (by simpa using hk)]

end Properties

namespace Call

/-- The setting that a call makes, if it makes one. -/
def setting? : Call → Option Setting
  | .set setting => some setting
  | _ => none

/-- The settings among some calls. -/
def settings (calls : List Call) : List Setting := calls.filterMap setting?

/-- What some calls tell of one property. -/
def told (k : Property) (calls : List Call) : List Setting :=
  (settings calls).filter fun s => s.property = k

@[simp] theorem settings_append (calls more : List Call) :
    settings (calls ++ more) = settings calls ++ settings more :=
  List.filterMap_append

@[simp] theorem settings_map_set (xs : List Setting) : settings (xs.map .set) = xs := by
  rw [settings, List.filterMap_map]
  exact List.filterMap_some

@[simp] theorem settings_use (use : Use) : settings [.use use] = [] := rfl

@[simp] theorem settings_release : settings [.release] = [] := rfl

@[simp] theorem told_append (k : Property) (calls more : List Call) :
    told k (calls ++ more) = told k calls ++ told k more := by
  simp [told]

/-- What the changes from one state to another tell of a property is its value, if it differs. -/
theorem told_changes (old new : Properties) (k : Property) :
    told k ((old.changes new).map .set) =
      if new.current k = old.current k then [] else [new.current k] := by
  rw [told, settings_map_set, Properties.filter_changes]

end Call

/-! ## One connection -/

namespace Connection

/-- What a connection was given last is what it has been told, and of no property has it been told
twice the same. -/
structure Faithful (c : Connection) : Prop where
  /-- The settings lead from the session in which nothing is set to what was given last. -/
  foldl_settings : (Call.settings c.calls).foldl Properties.set .unset = c.applied
  /-- No setting of a property has the value of the one before it, nor the first that of a property
  which is not set. -/
  isChain_told (k : Property) :
    (Properties.unset.current k :: Call.told k c.calls).IsChain (· ≠ ·)

/-- Only the settings among the calls count, and what was given last. -/
theorem Faithful.of_settings_eq {c d : Connection} (h : c.Faithful)
    (hsettings : Call.settings d.calls = Call.settings c.calls) (happlied : d.applied = c.applied) :
    d.Faithful where
  foldl_settings := by rw [hsettings, happlied]; exact h.foldl_settings
  isChain_told k := by rw [Call.told, hsettings]; exact h.isChain_told k

/-- **A refresh tells what has changed, so nothing is told twice.** -/
theorem Faithful.refresh {c : Connection} (h : c.Faithful) (p : Properties) :
    (c.refresh p).Faithful := by
  unfold Connection.refresh
  split
  · exact h
  · refine ⟨?_, fun k => ?_⟩
    · simp only [Call.settings_append, Call.settings_map_set, List.foldl_append, h.foldl_settings,
        Properties.foldl_set_changes]
    · rw [Call.told_append, Call.told_changes, ← List.cons_append]
      -- what was told last of this property is the value that it was given last
      have hlast : (Properties.unset.current k :: Call.told k c.calls).getLast? =
          some (c.applied.current k) := by
        rw [Call.told, Properties.getLast?_cons_filter, h.foldl_settings]
      by_cases hsame : p.current k = c.applied.current k
      · rw [if_pos hsame, List.append_nil]
        exact h.isChain_told k
      · rw [if_neg hsame]
        refine (h.isChain_told k).append (List.isChain_singleton _) fun x hx y hy => ?_
        rw [hlast] at hx
        obtain rfl := Option.some.inj hx
        obtain rfl := Option.some.inj hy
        exact Ne.symm hsame

/-- A new connection is one that knows its owner alone and then is refreshed. -/
theorem create_eq_refresh (thread : ThreadId) (p : Properties) :
    create thread p = refresh { calls := [.owner thread], applied := .unset } p := rfl

theorem faithful_create (thread : ThreadId) (p : Properties) : (create thread p).Faithful := by
  rw [create_eq_refresh]
  exact Faithful.refresh ⟨rfl, fun k => List.isChain_singleton _⟩ p

theorem Faithful.begin {c : Connection} (h : c.Faithful) (p : Properties) (use : Use) :
    (c.begin p use).Faithful := by
  have hrefresh : (Connection.refresh { c with stale := false } p).Faithful :=
    (h.of_settings_eq (d := { c with stale := false }) rfl rfl).refresh p
  exact hrefresh.of_settings_eq (by simp [Connection.begin]) rfl

theorem Faithful.finish {c : Connection} (h : c.Faithful) (p : Properties) :
    (c.finish p).Faithful := by
  unfold Connection.finish
  split
  · exact (h.of_settings_eq (d := { c with busy := false, stale := false }) rfl rfl).refresh p
  · exact h.of_settings_eq rfl rfl

theorem Faithful.update {c : Connection} (h : c.Faithful) (p : Properties) :
    (c.update p).Faithful := by
  unfold Connection.update
  split
  · exact h.of_settings_eq rfl rfl
  · exact (h.of_settings_eq (d := { c with stale := false }) rfl rfl).refresh p

theorem Faithful.release {c : Connection} (h : c.Faithful) : c.release.Faithful := by
  unfold Connection.release
  split
  · exact h
  · exact h.of_settings_eq (by simp) rfl

/-- A connection in service that is not in use is told of new properties at once. -/
theorem calls_update_of_idle {c : Connection} (hr : c.released = false) (hb : c.busy = false)
    (p : Properties) : (c.update p).calls = c.calls ++ (c.applied.changes p).map .set := by
  simp [update, refresh, hr, hb]

end Connection

namespace Standing

/-- Whatever a step does to a connection, it stays faithful. -/
theorem Step.faithful {s t : Standing} (h : s.Step t) (hs : s.connection.Faithful) :
    t.connection.Faithful := by
  cases h with
  | rest => exact hs
  | update => exact hs.update _
  | pass => exact hs
  | begin => exact hs.begin _ _
  | finish => exact hs.finish _
  | release => exact hs.release

/-- **While a connection is in use nothing but its mark changes.** -/
theorem Step.exists_of_busy {s t : Standing} (h : s.Step t) (hs : s.connection.busy = true)
    (ht : t.connection.busy = true) :
    ∃ stale, t = { s with shared := t.shared, connection := { s.connection with stale } } := by
  cases h with
  | rest => exact ⟨s.connection.stale, rfl⟩
  | update shared c setting =>
    have hbusy : c.busy = true := hs
    exact ⟨true, by simp [Connection.update, hbusy]⟩
  | pass shared c setting => exact ⟨c.stale, rfl⟩
  | begin shared bound c use idle => rw [idle] at hs; cases hs
  | finish shared bound c => rw [Connection.busy_finish] at ht; cases ht
  | release shared c idle => rw [idle] at hs; cases hs

/-- A connection that belongs to a thread is told at the end of its use what has changed since it
was given properties last. -/
theorem Current.calls_finish {s : Standing} (h : s.Current) (hb : s.bound = true) :
    (s.connection.finish s.shared).calls =
      s.connection.calls ++ (s.connection.applied.changes s.shared).map .set := by
  unfold Connection.finish
  split
  · simp [Connection.refresh, h.released_of_bound hb]
  · rename_i hstale
    -- without the mark there is nothing to be told
    obtain happlied | ⟨-, hmarked⟩ := h.applied_or_stale hb
    · simp [happlied]
    · exact absurd hmarked hstale

end Standing

namespace Pool

/-- Only its finish takes a connection out of use. -/
theorem Step.isBusy {p q : Pool} {a : Action} {n : Nat} (h : Step p a q) (ha : a ≠ .finish n)
    (hn : p.isBusy n = true) : q.isBusy n = true := by
  obtain ⟨c, hc, hbusy⟩ := isBusy_eq_true_iff.mp hn
  rw [isBusy_eq_true_iff]
  cases h with
  | acquire thread make =>
    obtain ⟨hcs, -⟩ | ⟨hcs, -⟩ := p.acquire_cases thread make
    · exact ⟨c, by rw [hcs, hc], hbusy⟩
    · have hlt : n < p.connections.length := (List.getElem?_eq_some_iff.mp hc).1
      exact ⟨c, by rw [hcs, List.getElem?_append_left hlt, hc], hbusy⟩
  | set setting =>
    refine ⟨_, by rw [getElem?_set, hc, Option.map_some], ?_⟩
    split
    · rw [Connection.busy_update, hbusy]
    · exact hbusy
  | begin _ _ begun =>
    refine ⟨_, by rw [begin_eq_ok begun, getElem?_modify, hc, Option.map_some], ?_⟩
    split
    · rfl
    · exact hbusy
  | refuse => exact ⟨c, hc, hbusy⟩
  | @finish m _ =>
    -- it is another connection that comes out of use
    have hm : m ≠ n := fun hm => ha (by rw [hm])
    exact ⟨c, by rw [Pool.finish, getElem?_modify, hc, Option.map_some, if_neg hm], hbusy⟩
  | releaseAll =>
    refine ⟨_, by rw [getElem?_releaseAll, hc, Option.map_some], ?_⟩
    split
    · rw [Connection.busy_release, hbusy]
    · exact hbusy

/-- **During a use nothing but the mark of its connection changes**, whatever else happens. -/
theorem Run.exists_of_busy {p q : Pool} {actions : List Action} {n : Nat} {s : Standing}
    (h : Run p actions q) (hactions : .finish n ∉ actions) (hs : p.standing? n = some s)
    (hbusy : s.connection.busy = true) :
    ∃ stale, q.standing? n =
      some { s with shared := q.properties, connection := { s.connection with stale } } := by
  refine h.invariant_of (P := (· ≠ .finish n)) (I := fun q => ∃ stale, q.standing? n =
    some { s with shared := q.properties, connection := { s.connection with stale } }) ?_
    (fun a ha hfinish => hactions (hfinish ▸ ha)) ?_
  · rintro q a r ha step ⟨stale, hq⟩
    obtain ⟨t, ht, hstep⟩ := step.standing hq
    have hqbusy : q.isBusy n = true := by
      obtain ⟨c, hc, heq⟩ := standing?_eq_some.mp hq
      obtain ⟨-, -, rfl⟩ := Standing.mk.inj heq
      exact isBusy_eq_true_iff.mpr ⟨_, hc, hbusy⟩
    -- the step is not the finish of this connection, so it is still in use
    obtain ⟨c, hc, hcbusy⟩ := isBusy_eq_true_iff.mp (step.isBusy ha hqbusy)
    obtain ⟨d, hd, rfl⟩ := standing?_eq_some.mp ht
    obtain rfl : c = d := Option.some.inj (hc.symm.trans hd)
    obtain ⟨stale', heq⟩ := hstep.exists_of_busy hbusy hcbusy
    exact ⟨stale', by rw [ht, heq]⟩
  · obtain ⟨c, -, rfl⟩ := standing?_eq_some.mp hs
    exact ⟨c.stale, hs⟩

variable {profile : Profile} {p q r t : Pool} {n : Nat}

/-- Every connection of a reachable pool is faithful. -/
theorem Reachable.faithful (hp : Reachable profile p) {c : Connection}
    (hc : p.connections[n]? = some c) : c.Faithful :=
  hp.connection_invariant Connection.faithful_create (fun _ _ step => step.faithful) hc

/-- **A setting reaches an idle connection at once**, in one call, if it makes a difference. -/
theorem Reachable.callsOf_set (hp : Reachable profile p) (hn : p.isBound n = true)
    (hidle : p.isBusy n = false) (setting : Setting) :
    (p.set setting).callsOf n = p.callsOf n ++
      if setting = p.properties.current setting.property then [] else [.set setting] := by
  obtain ⟨c, hc⟩ : ∃ c, p.connections[n]? = some c :=
    ⟨_, List.getElem?_eq_getElem (hp.lt_of_isBound hn)⟩
  have hs := hp.connection_current hc
  have hbusy : c.busy = false := by simpa [isBusy, hc] using hidle
  have happlied : c.applied = p.properties := by
    obtain happlied | ⟨hmarked, -⟩ := hs.applied_or_stale hn
    · exact happlied
    · rw [hbusy] at hmarked
      cases hmarked
  have hcalls := Connection.calls_update_of_idle (hs.released_of_bound hn) hbusy
    (p.properties.set setting)
  rw [happlied, Properties.changes_set] at hcalls
  rw [callsOf, callsOf, getElem?_set, hc, hn]
  simp only [if_true, Option.map_some, Option.getD_some, hcalls]
  split <;> rfl

/-- **Settings that come during a use are told at its end**, and only those that make a difference
to what was set at its begin. A connection that has been released is told nothing. -/
theorem Reachable.callsOf_finish (hp : Reachable profile p) {use : Use}
    (hbegin : Step p (.begin n use) q) (hbusy : q.isBusy n = true) {actions : List Action}
    (hrun : Run q actions r) (hactions : .finish n ∉ actions) (hfinish : Step r (.finish n) t) :
    r.callsOf n = q.callsOf n ∧
      t.callsOf n = r.callsOf n ++
        if p.isBound n = true then (p.properties.changes r.properties).map .set else [] := by
  have hr : Reachable profile r := (hp.step hbegin).run hrun
  cases hbegin with
  | refuse made idle => rw [idle] at hbusy; cases hbusy
  | begin made idle begun =>
    obtain ⟨c, hc⟩ : ∃ c, p.connections[n]? = some c := ⟨_, List.getElem?_eq_getElem made⟩
    have hq : q.standing? n = some ⟨p.properties, p.isBound n, c.begin p.properties use⟩ := by
      rw [begin_eq_ok begun, standing?_modify _ hc, if_pos rfl]
    obtain ⟨stale, hrn⟩ := hrun.exists_of_busy hactions hq rfl
    have hcurrent := hr.current hrn
    have hcalls : r.callsOf n = q.callsOf n := by
      rw [callsOf_eq_of_standing? hrn, callsOf_eq_of_standing? hq]
    refine ⟨hcalls, ?_⟩
    cases hfinish with
    | finish =>
      obtain ⟨d, hd, heq⟩ := standing?_eq_some.mp hrn
      obtain ⟨-, -, rfl⟩ := Standing.mk.inj heq
      have ht := standing?_modify (p := r) (n := n) (·.finish r.properties) hd
      rw [if_pos rfl] at ht
      rw [callsOf_eq_of_standing? hrn, Pool.finish, callsOf_eq_of_standing? ht]
      cases hn : p.isBound n with
      | true =>
        -- it was given at the begin what was set then
        have hreleased : c.released = false := by
          rw [← Connection.released_begin c p.properties use]
          exact hcurrent.released_of_bound hn
        have happlied := Connection.applied_begin hreleased p.properties use
        rw [hcurrent.calls_finish hn, happlied]
        rfl
      | false =>
        have hreleased := hcurrent.released_eq
        rw [hn] at hreleased
        rw [Connection.calls_finish_of_released hreleased]
        simp

/-- **A connection is told just what changes.** In every reachable pool, of every connection that
has been made:

* the settings among its calls lead to the properties that it was given last, and no setting of a
  property repeats the value before it, be that the value of a property that is not set;
* if it belongs to a thread and is idle, a setting is one call, that setting, if it differs from the
  value that is shared, and none if it does not;
* if it goes into use and other actions follow up to the end of the use, it is told nothing before
  the end; at the end, if it belongs to a thread, of each property at most once, and just of those
  whose shared value is not that of the begin. -/
theorem told_just_what_changes (hp : Reachable profile p) :
    (∀ (n : Nat) (c : Connection), p.connections[n]? = some c →
      (Call.settings c.calls).foldl Properties.set .unset = c.applied ∧
      ∀ k, (Properties.unset.current k :: Call.told k c.calls).IsChain (· ≠ ·)) ∧
    (∀ n setting, p.isBound n = true → p.isBusy n = false →
      (p.set setting).callsOf n = p.callsOf n ++
        if setting = p.properties.current setting.property then [] else [.set setting]) ∧
    ∀ n use q actions r t, Step p (.begin n use) q → q.isBusy n = true → Run q actions r →
      .finish n ∉ actions → Step r (.finish n) t →
      r.callsOf n = q.callsOf n ∧
      (∃ settings : List Setting, t.callsOf n = r.callsOf n ++ settings.map .set) ∧
      ∀ k, Call.told k (t.callsOf n) = Call.told k (r.callsOf n) ++
        if p.isBound n = true ∧ r.properties.current k ≠ p.properties.current k then
          [r.properties.current k]
        else [] := by
  refine ⟨fun n c hc => ⟨(hp.faithful hc).foldl_settings, (hp.faithful hc).isChain_told⟩,
    fun n setting hn hidle => hp.callsOf_set hn hidle setting, ?_⟩
  intro n use q actions r t hbegin hbusy hrun hactions hfinish
  obtain ⟨hduring, hend⟩ := hp.callsOf_finish hbegin hbusy hrun hactions hfinish
  rw [hend]
  cases hn : p.isBound n with
  | true =>
    refine ⟨hduring, ⟨p.properties.changes r.properties, by simp⟩, fun k => ?_⟩
    rw [if_pos rfl, Call.told_append, Call.told_changes]
    by_cases hk : r.properties.current k = p.properties.current k
    · simp [hk]
    · simp [hk]
  | false => exact ⟨hduring, ⟨[], by simp⟩, fun k => by simp⟩

/-- A session with one connection, which has been told the name of the program. -/
def beforeUse : Pool :=
  let start : Pool := { profile := { address := "p:1666" } }
  (start.acquire ⟨0⟩ fun _ => .ok ()).2.set (.programName "tool")

/-- The connection runs a command. In its midst the name is changed and changed back, and a
character set is chosen. -/
def amidstUse : Pool :=
  let inUse := beforeUse.modify 0 (·.begin beforeUse.properties (.command "sync" ["//..."]))
  ((inUse.set (.programName "other")).set (.characterSet "utf8")).set (.programName "tool")

/-- At the end of the command the connection is told of the character set and not of the name. -/
theorem told_after_change_undone :
    Reachable { address := "p:1666" } beforeUse ∧
    Call.told .programName ((amidstUse.finish 0).callsOf 0) =
      Call.told .programName (amidstUse.callsOf 0) ∧
    Call.told .characterSet ((amidstUse.finish 0).callsOf 0) =
      Call.told .characterSet (amidstUse.callsOf 0) ++ [.characterSet "utf8"] := by
  have hnew : Reachable { address := "p:1666" } { profile := { address := "p:1666" } } :=
    ⟨_, _, rfl, .nil⟩
  have hp : Reachable { address := "p:1666" } beforeUse :=
    (hnew.step (.acquire ⟨0⟩ fun _ => .ok ())).step (.set (.programName "tool"))
  have hrun := ((Run.nil (p := beforeUse.modify 0
    (·.begin beforeUse.properties (.command "sync" ["//..."])))).snoc
      (.set (.programName "other"))).snoc (.set (.characterSet "utf8")) |>.snoc
      (.set (.programName "tool"))
  have hend := (told_just_what_changes hp).2.2 0 (.command "sync" ["//..."]) _ _ amidstUse
    (amidstUse.finish 0) (.begin (by decide) rfl rfl) rfl hrun (by simp) (.finish rfl)
  exact ⟨hp, (hend.2.2 .programName).trans (List.append_nil _), hend.2.2 .characterSet⟩

end Pool

end DepotClient
