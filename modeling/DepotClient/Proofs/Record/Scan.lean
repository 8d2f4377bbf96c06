import DepotClient.Proofs.Record.Family

/-! # Families one value at a time

A family is read as a whole or by a `FamilyScan`, one value at each step. A scan sets no bound on
its steps; that it comes to an end at all, and where, is a matter of the record: the keys of a
family are all different, so one of the first indices must be missing (`Record.exists_endsAt`).

* **`FamilyScan.Yields`** — what a scan yields until a step comes up empty, however many steps it
  takes;
* **`FamilyScan.step_after`**, **`FamilyScan.take_start`** — where a scan stands after so many
  steps, and what each of them yields;
* **`Record.ReadOut`**, **`Record.family_readOut`** — all ways to read a family give the values
  in front of its first missing index, and nothing behind that index has an influence. -/

namespace DepotClient

/-! ## Reading to the end -/

namespace FamilyScan

/-- Relates a position in a family to the values that are read from there on until a step comes up
empty. The number of steps is not bounded in advance. -/
inductive Yields (r : Record) : FamilyScan → List String → Prop
  /-- A step that comes up empty ends the reading. -/
  | done {scan : FamilyScan} (h : (scan.step r).1 = none) : Yields r scan []
  /-- A step that finds a value is followed by others. -/
  | value {scan : FamilyScan} {value : String} {values : List String}
    (h : (scan.step r).1 = some value) (hrest : Yields r (scan.step r).2 values) :
    Yields r scan (value :: values)

variable {r : Record} {name : String} {n : Nat}

/-- From one position there is one way to read on. -/
theorem Yields.eq {scan : FamilyScan} {values others : List String} (h : Yields r scan values)
    (hothers : Yields r scan others) : values = others := by
  -- the first step is the same for both, so it cannot come up empty for one of them alone
  induction h generalizing others with
  | done h =>
    cases hothers with
    | done => rfl
    | value hvalue =>
      rw [h] at hvalue
      cases hvalue
  | value h _ ih =>
    cases hothers with
    | done hnone =>
      rw [h] at hnone
      cases hnone
    | value hvalue hrest =>
      rw [h] at hvalue
      obtain rfl := Option.some.inj hvalue
      rw [ih hrest]

theorem step_of_none {i : Nat} (h : r.get? (familyKey name i) = none) :
    (⟨name, i, false⟩ : FamilyScan).step r = (none, ⟨name, i, true⟩) := by
  simp [step, h]

theorem step_of_some {i : Nat} {value : String} (h : r.get? (familyKey name i) = some value) :
    (⟨name, i, false⟩ : FamilyScan).step r = (some value, ⟨name, i + 1, false⟩) := by
  simp [step, h]

/-- The search with a bound finds what a scan without one yields, if the bound lasts to the end of
the family. The induction is on the bound, as in the search. -/
theorem yields_familyFrom (h : r.EndsAt name n) (bound i : Nat) (hi : i ≤ n)
    (hbound : n ≤ i + bound) : Yields r ⟨name, i, false⟩ (r.familyFrom name bound i) := by
  induction bound generalizing i with
  | zero =>
    -- the bound is used up at the end and not before
    obtain rfl : i = n := Nat.le_antisymm hi hbound
    exact .done (by rw [step_of_none h.missing])
  | succ bound ih =>
    rw [Record.familyFrom]
    cases hget : r.get? (familyKey name i) with
    | none => exact .done (by rw [step_of_none hget])
    | some value =>
      have hlt : i < n := h.lt_of_get? hi hget
      have hstep := step_of_some hget
      refine .value (by rw [hstep]) ?_
      rw [hstep]
      exact ih (i + 1) hlt (by omega)

/-- **A scan comes to an end**, and has then yielded the family. -/
theorem yields_family (r : Record) (name : String) : Yields r (start name) (r.family name) := by
  obtain ⟨n, h⟩ := r.exists_endsAt name
  have hbound : n ≤ 0 + r.size := by
    rw [Nat.zero_add]
    exact h.le_size
  exact yields_familyFrom h r.size 0 (Nat.zero_le n) hbound

/-! ## Step by step -/

/-- The position of a scan after `m` steps in a family that ends at `n`: it goes on with the index
until it has met the end, and then stays there. -/
def after (name : String) (n m : Nat) : FamilyScan := ⟨name, min m n, decide (n < m)⟩

theorem after_of_le {m : Nat} (h : m ≤ n) : after name n m = ⟨name, m, false⟩ := by
  simp [after, h]

theorem after_of_lt {m : Nat} (h : n < m) : after name n m = ⟨name, n, true⟩ := by
  simp [after, Nat.min_eq_right (Nat.le_of_lt h), h]

/-- **One step of a scan** yields the value at its index in front of the end, and nothing from the
end on. -/
theorem step_after (h : r.EndsAt name n) (m : Nat) :
    (after name n m).step r =
      (if m < n then r.get? (familyKey name m) else none, after name n (m + 1)) := by
  obtain hlt | rfl | hgt := Nat.lt_trichotomy m n
  · obtain ⟨value, hvalue⟩ := h.exists_get? hlt
    rw [after_of_le (Nat.le_of_lt hlt), after_of_le hlt, step_of_some hvalue, if_pos hlt, hvalue]
  · -- this step meets the end
    rw [after_of_le (Nat.le_refl m), after_of_lt (Nat.lt_succ_self m), step_of_none h.missing,
      if_neg (Nat.lt_irrefl m)]
  · -- and those behind it stay there
    rw [after_of_lt hgt, after_of_lt (Nat.lt_succ_of_lt hgt), step_of_finished r rfl,
      if_neg (Nat.lt_asymm hgt)]

/-- What so many further steps yield, from wherever a scan stands. -/
theorem take_after (h : r.EndsAt name n) (k m : Nat) :
    take r k (after name n m) =
      (List.range' m k).map fun i => if i < n then r.get? (familyKey name i) else none := by
  induction k generalizing m with
  | zero => rfl
  | succ k ih => rw [take, step_after h, ih, List.range'_succ, List.map_cons]

/-- **The steps of a scan** yield the values in front of the end, one by one, and then nothing, as
often as it is asked. -/
theorem take_start (h : r.EndsAt name n) (k : Nat) :
    take r k (start name) =
      (List.range k).map fun i => if i < n then r.get? (familyKey name i) else none := by
  have hstart : start name = after name n 0 := (after_of_le (Nat.zero_le n)).symm
  rw [hstart, take_after h, List.range_eq_range']

/-- A missing index ends a scan for good, and a zero in front makes a key of no family. -/
example : take (.ofList [("Paths1", "b"), ("Paths3", "d"), ("Paths02", "c"), ("Paths0", "a")]) 5
    (start "Paths") = [some "a", some "b", none, none, none] := by
  decide

end FamilyScan

/-! ## All ways to read a family -/

namespace Record

variable {r : Record} {name : String} {n : Nat}

/-- The family holds what stands in front of its end. -/
theorem EndsAt.map_some_family_eq (h : r.EndsAt name n) :
    (r.family name).map some = (List.range n).map fun i => r.get? (familyKey name i) := by
  rw [h.family_eq, List.map_map]
  refine List.map_congr_left fun i hi => ?_
  obtain ⟨value, hvalue⟩ := h.exists_get? (List.mem_range.mp hi)
  rw [Function.comp_apply, get, hvalue, Option.getD_some]

/-- The values of a family, as they are found in all ways to read it. -/
structure ReadOut (r : Record) (name : String) (n : Nat) (values : List String) : Prop
    extends r.EndsAt name n where
  /-- No family is longer than the record has keys. -/
  le_size : n ≤ r.size
  /-- The values are those in front of the end, in the order of their indices. -/
  map_some_eq : values.map some = (List.range n).map fun i => r.get? (familyKey name i)
  /-- A scan ends, and has then yielded the values. -/
  yields_iff : ∀ others, FamilyScan.Yields r (.start name) others ↔ others = values
  /-- Each step of a scan yields the value at its index, and nothing from the end on. -/
  take_eq : ∀ k, FamilyScan.take r k (.start name) =
    (List.range k).map fun i => if i < n then r.get? (familyKey name i) else none
  /-- What stands behind the end, or under keys of another form, has no influence. -/
  eq_of_agree : ∀ s : Record, (∀ i ≤ n, s.get? (familyKey name i) = r.get? (familyKey name i)) →
    s.family name = values ∧
      ∀ k, FamilyScan.take s k (.start name) = FamilyScan.take r k (.start name)

theorem EndsAt.readOut (h : r.EndsAt name n) : r.ReadOut name n (r.family name) where
  toEndsAt := h
  le_size := h.le_size
  map_some_eq := h.map_some_family_eq
  yields_iff others := by
    constructor
    · intro hothers
      exact hothers.eq (FamilyScan.yields_family r name)
    · rintro rfl
      exact FamilyScan.yields_family r name
  take_eq := FamilyScan.take_start h
  eq_of_agree s hagree := by
    -- the other record ends at the same index, so both are read out by the same keys
    have hs : s.EndsAt name n := h.of_agree hagree
    constructor
    · refine (List.map_inj_right fun _ _ => Option.some.inj).mp ?_
      rw [hs.map_some_family_eq, h.map_some_family_eq]
      exact List.map_congr_left fun i hi => hagree i (Nat.le_of_lt (List.mem_range.mp hi))
    · intro k
      rw [FamilyScan.take_start hs, FamilyScan.take_start h]
      refine List.map_congr_left fun i _ => ?_
      split
      · rename_i hi
        exact hagree i (Nat.le_of_lt hi)
      · rfl

/-- **Every family is read out up to its first missing index**, whether it is read as a whole,
counted or scanned, and an inner family likewise. -/
theorem family_readOut (r : Record) (name : String) :
    (∃ n, r.ReadOut name n (r.family name) ∧ r.familyLength name = n) ∧
      ∀ outer, ∃ n, r.ReadOut (innerFamilyName name outer) n (r.innerFamily name outer) := by
  constructor
  · obtain ⟨n, h⟩ := r.exists_endsAt name
    exact ⟨n, h.readOut, h.familyLength_eq⟩
  · intro outer
    obtain ⟨n, h⟩ := r.exists_endsAt (innerFamilyName name outer)
    exact ⟨n, h.readOut⟩

end Record

end DepotClient
