import Mathlib.Data.List.Nodup
import DepotClient.Record.Family

/-! # How far a family reaches

A family is read up to its first missing index, and no family is longer than its record has keys,
so the bound on the search is never what ends it. What a record made from a list of fields holds is
told by that list alone, in whatever order it stands, as long as it gives each key one value.

* **`Record.EndsAt`**, **`Record.exists_endsAt`** — the first missing index of a family; there is
  always one, since a record has a key of its own for every index (`Record.le_size_of_contains`);
* **`Record.EndsAt.family_eq`** — a family is read in full up to its end;
* **`Record.family_congr`**, **`familyLength_congr`** — what is read depends on the family's own keys
  alone, and how much of it on which of them are there;
* **`Record.mem_of_get?_ofList`**, **`get?_ofList_of_mem`** — what is found in a list of fields;
* **`Record.family_ofList`**, **`get?_ofList_of_perm`** — fields put in among others are found again;
* **`keyText_inj`** — keys made of different names or indices are different. -/

namespace DepotClient

/-! ## The end of a family -/

namespace Record

variable {r : Record} {name : String} {n : Nat}

theorem mem_keys_of_contains {key : String} (h : r.contains key = true) : key ∈ r.fields.keys := by
  rw [Std.ExtTreeMap.mem_keys, Std.ExtTreeMap.mem_iff_isSome_getElem?]
  exact h

/-- A record with a key is not empty. -/
theorem isEmpty_eq_false_of_contains {key : String} (h : r.contains key = true) :
    r.isEmpty = false := by
  have hpos : 0 < r.size := by
    rw [size, ← Std.ExtTreeMap.length_keys]
    exact List.length_pos_of_mem (mem_keys_of_contains h)
  rw [isEmpty, decide_eq_false_iff_not]
  exact Nat.ne_of_gt hpos

/-- A record has a key of its own for every index of a family. -/
theorem le_size_of_contains (h : ∀ i < n, r.contains (familyKey name i) = true) : n ≤ r.size := by
  have hnodup : ((List.range n).map (familyKey name)).Nodup :=
    List.Pairwise.map _ (fun i j hij he => hij (familyKey_inj.mp he)) List.nodup_range
  have hsubset : (List.range n).map (familyKey name) ⊆ r.fields.keys := by
    intro key hkey
    obtain ⟨i, hi, rfl⟩ := List.mem_map.mp hkey
    exact mem_keys_of_contains (h i (List.mem_range.mp hi))
  -- so many different keys stand in no smaller record
  have hle := hnodup.length_le_of_subset hsubset
  rwa [List.length_map, List.length_range, Std.ExtTreeMap.length_keys] at hle

/-- Holds of the first missing index of a family. -/
structure EndsAt (r : Record) (name : String) (n : Nat) : Prop where
  /-- The indices in front of it are all there. -/
  present : ∀ i < n, r.contains (familyKey name i) = true
  /-- It is missing itself. -/
  missing : r.get? (familyKey name n) = none

/-- **Every family ends.** -/
theorem exists_endsAt (r : Record) (name : String) : ∃ n, r.EndsAt name n := by
  -- up to any bound the indices are all there, or the first missing one has been met
  have hsearch : ∀ bound, (∀ i < bound, r.contains (familyKey name i) = true) ∨
      ∃ n, r.EndsAt name n := by
    intro bound
    induction bound with
    | zero => exact .inl fun i hi => absurd hi (Nat.not_lt_zero i)
    | succ bound ih =>
      obtain hall | hend := ih
      · cases hget : r.get? (familyKey name bound) with
        | none => exact .inr ⟨bound, hall, hget⟩
        | some value =>
          refine .inl fun i hi => ?_
          obtain hlt | rfl := Nat.lt_succ_iff_lt_or_eq.mp hi
          · exact hall i hlt
          · rw [contains, hget]
            rfl
      · exact .inr hend
  -- and they cannot all be there up to one more than the record has keys
  refine (hsearch (r.size + 1)).resolve_left fun hall => ?_
  have hle := le_size_of_contains hall
  omega

namespace EndsAt

theorem le_size (h : r.EndsAt name n) : n ≤ r.size := le_size_of_contains h.present

theorem exists_get? (h : r.EndsAt name n) {i : Nat} (hi : i < n) :
    ∃ value, r.get? (familyKey name i) = some value :=
  Option.isSome_iff_exists.mp (h.present i hi)

/-- An index up to the end that is there lies in front of it. -/
theorem lt_of_get? (h : r.EndsAt name n) {i : Nat} {value : String} (hi : i ≤ n)
    (hvalue : r.get? (familyKey name i) = some value) : i < n := by
  refine Nat.lt_of_le_of_ne hi ?_
  rintro rfl
  rw [h.missing] at hvalue
  cases hvalue

/-- The search goes on while indices are there and stops at the first that is not. The induction is
on the bound, which lasts at least to the end. -/
theorem familyFrom_eq (h : r.EndsAt name n) (bound i : Nat) (hi : i ≤ n) (hbound : n ≤ i + bound) :
    r.familyFrom name bound i = (List.range' i (n - i)).map fun j => r.get (familyKey name j) := by
  induction bound generalizing i with
  | zero =>
    have hn : n - i = 0 := by omega
    rw [hn]
    rfl
  | succ bound ih =>
    rw [familyFrom]
    obtain rfl | hlt := Nat.eq_or_lt_of_le hi
    · -- this is the end
      rw [h.missing, Nat.sub_self]
      rfl
    · obtain ⟨value, hvalue⟩ := h.exists_get? hlt
      have hn : n - i = (n - (i + 1)) + 1 := by omega
      rw [hvalue, hn, List.range'_succ, List.map_cons]
      simp only [get, hvalue, Option.getD_some, List.cons.injEq, true_and]
      exact ih (i + 1) hlt (by omega)

/-- **A family is read in full** up to its end. -/
theorem family_eq (h : r.EndsAt name n) :
    r.family name = (List.range n).map fun i => r.get (familyKey name i) := by
  have hsize : n ≤ 0 + r.size := by rw [Nat.zero_add]; exact h.le_size
  rw [family, h.familyFrom_eq r.size 0 (Nat.zero_le n) hsize, List.range_eq_range', Nat.sub_zero]

theorem familyLength_eq (h : r.EndsAt name n) : r.familyLength name = n := by
  rw [familyLength, h.family_eq, List.length_map, List.length_range]

/-- A record that agrees up to the end has its end there too. -/
theorem of_agree {s : Record} (h : r.EndsAt name n)
    (hagree : ∀ i ≤ n, s.get? (familyKey name i) = r.get? (familyKey name i)) :
    s.EndsAt name n where
  present i hi := by
    rw [contains, hagree i (Nat.le_of_lt hi)]
    exact h.present i hi
  missing := by
    rw [hagree n (Nat.le_refl n)]
    exact h.missing

end EndsAt

/-- **A family holds the values that stand under its keys**, index by index, with nothing behind
them. -/
theorem family_eq_of_get? {values : List String}
    (h : ∀ i, r.get? (familyKey name i) = values[i]?) : r.family name = values := by
  have hend : r.EndsAt name values.length := by
    constructor
    · intro i hi
      rw [contains, h i, List.getElem?_eq_getElem hi]
      rfl
    · rw [h, List.getElem?_eq_none (Nat.le_refl _)]
  rw [hend.family_eq]
  refine List.ext_getElem (by simp) fun i _ hi => ?_
  simp [get, h i, List.getElem?_eq_getElem hi]

/-- A family sees nothing of a record but the values under its own keys. -/
theorem family_congr {s : Record}
    (h : ∀ i, r.get? (familyKey name i) = s.get? (familyKey name i)) :
    r.family name = s.family name := by
  obtain ⟨n, hr⟩ := r.exists_endsAt name
  have hs : s.EndsAt name n := hr.of_agree fun i _ => (h i).symm
  rw [hr.family_eq, hs.family_eq]
  exact List.map_congr_left fun i _ => by rw [get, get, h i]

/-- How long a family is depends only on which of its keys are there. -/
theorem familyLength_congr {s : Record}
    (h : ∀ i, r.contains (familyKey name i) = s.contains (familyKey name i)) :
    r.familyLength name = s.familyLength name := by
  obtain ⟨n, hr⟩ := r.exists_endsAt name
  have hs : s.EndsAt name n := by
    constructor
    · intro i hi
      rw [← h i]
      exact hr.present i hi
    · rw [← contains_eq_false_iff, ← h n, contains_eq_false_iff]
      exact hr.missing
  rw [hr.familyLength_eq, hs.familyLength_eq]

/-- A family stays as long as it is if what is written stands under a key that was there before, or
under none of its own. -/
theorem familyLength_insert {key : String} (value : String)
    (h : r.contains key = true ∨ ∀ i, key ≠ familyKey name i) :
    (r.insert key value).familyLength name = r.familyLength name := by
  refine familyLength_congr fun i => ?_
  rw [contains, contains, get?_insert]
  split
  · rename_i hkey
    obtain hcontains | hne := h
    · exact (hkey ▸ hcontains).symm
    · exact absurd hkey (hne i)
  · rfl

/-! ## Records made from lists of fields -/

/-- What is found was there before or is one of the fields put in. -/
theorem get?_foldl_insert {fields : List (String × String)} {key value : String}
    (h : (fields.foldl (fun r field => r.insert field.1 field.2) r).get? key = some value) :
    (key, value) ∈ fields ∨ r.get? key = some value := by
  induction fields generalizing r with
  | nil => exact .inr h
  | cons field fields ih =>
    obtain hmem | hget := ih h
    · exact .inl (List.mem_cons_of_mem _ hmem)
    · rw [get?_insert] at hget
      split at hget
      · rename_i hkey
        obtain rfl := Option.some.inj hget
        exact .inl (hkey ▸ List.mem_cons_self)
      · exact .inr hget

/-- A key stays when fields are put in. -/
theorem contains_foldl_insert {fields : List (String × String)} {key : String}
    (h : key ∈ fields.map Prod.fst ∨ r.contains key = true) :
    (fields.foldl (fun r field => r.insert field.1 field.2) r).contains key = true := by
  induction fields generalizing r with
  | nil => exact h.resolve_left List.not_mem_nil
  | cons field fields ih =>
    refine ih ?_
    by_cases hkey : field.1 = key
    · right
      rw [contains, get?_insert, if_pos hkey]
      rfl
    · obtain hmem | hr := h
      · exact .inl ((List.mem_cons.mp hmem).resolve_left (Ne.symm hkey))
      · right
        rw [contains, get?_insert_of_ne r field.2 hkey]
        exact hr

/-- What is found in a record made from a list of fields is one of them. -/
theorem mem_of_get?_ofList {fields : List (String × String)} {key value : String}
    (h : (ofList fields).get? key = some value) : (key, value) ∈ fields := by
  obtain hmem | hempty := get?_foldl_insert h
  · exact hmem
  · rw [get?_empty] at hempty
    cases hempty

/-- **A field that is in the list is found**, if the list gives its key no other value. -/
theorem get?_ofList_of_mem {fields : List (String × String)} {key value : String}
    (h : (key, value) ∈ fields) (hunique : ∀ v, (key, v) ∈ fields → v = value) :
    (ofList fields).get? key = some value := by
  have hcontains : (ofList fields).contains key = true :=
    contains_foldl_insert (.inl (List.mem_map.mpr ⟨_, h, rfl⟩))
  obtain ⟨v, hv⟩ := Option.isSome_iff_exists.mp hcontains
  rw [hv, hunique v (mem_of_get?_ofList hv)]

/-- What is found under a key is told by the fields that have it. -/
theorem get?_ofList_eq {fields : List (String × String)} {key : String} {value? : Option String}
    (h : ∀ v, (key, v) ∈ fields ↔ value? = some v) : (ofList fields).get? key = value? := by
  cases value? with
  | none =>
    cases hget : (ofList fields).get? key with
    | none => rfl
    | some v => cases (h v).mp (mem_of_get?_ofList hget)
  | some value =>
    exact get?_ofList_of_mem ((h value).mpr rfl) fun v hv => (Option.some.inj ((h v).mp hv)).symm

end Record

/-- The fields of a family with the given values. An index may have none. -/
def familyFields (name : String) (values : List (Option String)) : List (String × String) :=
  (values.mapIdx fun i value? => value?.toList.map fun value => (familyKey name i, value)).flatten

theorem mem_familyFields {name : String} {values : List (Option String)} {key value : String} :
    (key, value) ∈ familyFields name values ↔
      ∃ i, familyKey name i = key ∧ values[i]? = some (some value) := by
  simp only [familyFields, List.mem_flatten, List.mem_mapIdx]
  constructor
  · rintro ⟨part, ⟨i, hi, rfl⟩, hmem⟩
    obtain ⟨v, hv, heq⟩ := List.mem_map.mp hmem
    obtain ⟨rfl, rfl⟩ := Prod.mk.inj heq
    exact ⟨i, rfl, by rw [List.getElem?_eq_getElem hi, Option.mem_toList.mp hv]⟩
  · rintro ⟨i, rfl, hvalue⟩
    obtain ⟨hi, heq⟩ := List.getElem?_eq_some_iff.mp hvalue
    exact ⟨_, ⟨i, hi, rfl⟩, by simp [heq]⟩

namespace Record

/-- **A family that is put into a record is read back**, in whatever order its fields are put in and
whatever other fields there are, as long as none has a key of the family. -/
theorem family_ofList {name : String} {values : List String} {fields others : List (String × String)}
    (hothers : ∀ field ∈ others, ∀ i, field.1 ≠ familyKey name i)
    (hfields : fields.Perm (familyFields name (values.map some) ++ others)) :
    (ofList fields).family name = values := by
  refine family_eq_of_get? fun i => get?_ofList_eq fun value => ?_
  rw [hfields.mem_iff, List.mem_append, mem_familyFields]
  constructor
  · rintro (⟨j, hkey, hvalue⟩ | hother)
    · obtain rfl := familyKey_inj.mp hkey
      simpa using hvalue
    · exact absurd rfl (hothers _ hother i)
  · intro hvalue
    exact .inl ⟨i, rfl, by simp [hvalue]⟩

/-- Fields with different keys give each key one value. -/
theorem value_eq_of_nodup {fields : List (String × String)} (hnodup : (fields.map Prod.fst).Nodup)
    {key v w : String} (hv : (key, v) ∈ fields) (hw : (key, w) ∈ fields) : v = w :=
  (Prod.mk.inj (List.inj_on_of_nodup_map hnodup hv hw rfl)).2

/-- **Single fields that are put into a record are found in it**, in whatever order they are put in
and whatever other fields there are, as long as no two of them have one key. -/
theorem get?_ofList_of_perm {own fields others : List (String × String)}
    (hnodup : (own.map Prod.fst).Nodup) (hothers : ∀ field ∈ others, field.1 ∉ own.map Prod.fst)
    (hfields : fields.Perm (own ++ others)) {key value : String} (h : (key, value) ∈ own) :
    (ofList fields).get? key = some value := by
  refine get?_ofList_of_mem (hfields.mem_iff.mpr (List.mem_append_left _ h)) fun v hv => ?_
  obtain hown | hother := List.mem_append.mp (hfields.mem_iff.mp hv)
  · exact value_eq_of_nodup hnodup hown h
  · exact absurd (List.mem_map.mpr ⟨_, h, rfl⟩) (hothers (key, v) hother)

end Record

/-! ## Keys of different fields -/

/-- A text is cut in one way only between a run of characters of one kind and what is not begun by
such a character. -/
theorem append_inj_of_run {p : Char → Bool} {front front' rest rest' : List Char}
    (hfront : ∀ c ∈ front, p c = true) (hfront' : ∀ c ∈ front', p c = true)
    (hrest : ∀ c ∈ rest.head?, p c = false) (hrest' : ∀ c ∈ rest'.head?, p c = false)
    (h : front ++ rest = front' ++ rest') : front = front' ∧ rest = rest' := by
  have hrun : ∀ front rest : List Char, (∀ c ∈ front, p c = true) →
      (∀ c ∈ rest.head?, p c = false) → (front ++ rest).takeWhile p = front := by
    intro front rest hfront hrest
    rw [List.takeWhile_append_of_pos hfront]
    cases rest with
    | nil => simp
    | cons c rest => simp [hrest c rfl]
  have heq : front = front' := by
    rw [← hrun front rest hfront hrest, h, hrun front' rest' hfront' hrest']
  exact ⟨heq, List.append_cancel_left (heq ▸ h)⟩

/-- Holds if no digit stands in a name, so that an index behind it can be told from it. -/
def IsFieldName (name : String) : Prop := ∀ c ∈ name.toList, c.isDigit = false

instance (name : String) : Decidable (IsFieldName name) :=
  List.decidableBAll (fun c : Char => c.isDigit = false) name.toList

/-- A key of a family, which ends with a digit, is no name of a field. -/
theorem familyKey_ne_of_isFieldName {key : String} (h : IsFieldName key) (name : String) (i : Nat) :
    familyKey name i ≠ key := by
  rintro rfl
  cases hdigits : Numeral.digits i with
  | nil => exact Numeral.digits_ne_nil i hdigits
  | cons c cs =>
    have hmem : c ∈ (familyKey name i).toList := by
      rw [familyKey, String.toList_append, toList_indexText, hdigits]
      exact List.mem_append_right _ List.mem_cons_self
    have hdigit : c.isDigit = true :=
      Numeral.isDigit_of_mem_digits (hdigits ▸ List.mem_cons_self)
    rw [h c hmem] at hdigit
    cases hdigit

/-- The key of a field with one index or with two. -/
def keyText (name : String) (outer : Nat) : Option Nat → String
  | none => familyKey name outer
  | some inner => familyKey (innerFamilyName name outer) inner

/-- The second index, with the sign in front of it. -/
def innerText : Option Nat → List Char
  | none => []
  | some inner => indexSeparator :: Numeral.digits inner

theorem toList_keyText (name : String) (outer : Nat) (inner : Option Nat) :
    (keyText name outer inner).toList =
      name.toList ++ (Numeral.digits outer ++ innerText inner) := by
  cases inner <;> simp [keyText, innerText, familyKey, innerFamilyName]

/-- Behind the name of a field comes a digit. -/
theorem isDigit_head?_digits_append (n : Nat) (rest : List Char) :
    ∃ c cs, Numeral.digits n ++ rest = c :: cs ∧ c.isDigit = true := by
  cases h : Numeral.digits n with
  | nil => exact absurd h (Numeral.digits_ne_nil n)
  | cons c cs =>
    exact ⟨c, cs ++ rest, rfl, Numeral.isDigit_of_mem_digits (h ▸ List.mem_cons_self)⟩

theorem innerText_inj {inner inner' : Option Nat} (h : innerText inner = innerText inner') :
    inner = inner' := by
  cases inner <;> cases inner' <;> simp_all [innerText]

/-- **Keys made of different names or indices are different.** The name ends at the first digit and
the first index at the first character that is none. -/
theorem keyText_inj {name name' : String} (hname : IsFieldName name) (hname' : IsFieldName name')
    {outer outer' : Nat} {inner inner' : Option Nat}
    (h : keyText name outer inner = keyText name' outer' inner') :
    name = name' ∧ outer = outer' ∧ inner = inner' := by
  have hkeys := congrArg String.toList h
  rw [toList_keyText, toList_keyText] at hkeys
  -- what follows a name begins with a digit, so the name ends there
  have hindex : ∀ n rest, ∀ c ∈ (Numeral.digits n ++ rest).head?, (!c.isDigit) = false := by
    intro n rest c hc
    obtain ⟨d, cs, hcs, hd⟩ := isDigit_head?_digits_append n rest
    rw [hcs] at hc
    obtain rfl : d = c := Option.some.inj hc
    rw [hd]
    rfl
  obtain ⟨hnames, hindices⟩ := append_inj_of_run (p := fun c => !c.isDigit)
    (fun c hc => by rw [hname c hc]; rfl) (fun c hc => by rw [hname' c hc]; rfl)
    (hindex _ _) (hindex _ _) hkeys
  -- what follows an outer index begins with the separator, or there is nothing
  have hinner : ∀ inner, ∀ c ∈ (innerText inner).head?, c.isDigit = false := by
    rintro (_ | inner) c hc
    · cases hc
    · obtain rfl : indexSeparator = c := Option.some.inj hc
      decide
  obtain ⟨houter, hinners⟩ := append_inj_of_run
    (fun c hc => Numeral.isDigit_of_mem_digits hc) (fun c hc => Numeral.isDigit_of_mem_digits hc)
    (hinner _) (hinner _) hindices
  exact ⟨String.toList_inj.mp hnames, Numeral.digits_inj.mp houter, innerText_inj hinners⟩

end DepotClient
