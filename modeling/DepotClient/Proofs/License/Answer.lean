import DepotClient.License.Basic
import DepotClient.Proofs.Record.Family
import DepotClient.Proofs.Record.Schema

/-! # What an answer says about the license

An answer mixes two kinds of records, those of network interfaces and those of the license itself,
and it may hold empty ones. The license that is put together from it, record by record, depends on
the two kinds apart, and on nothing else: not on how they are mixed, nor on the empty records.

* **`License.gathered`** — the license in terms of the two kinds of records, part by part;
* **`License.Part`** — a part of a license with what one record gives to it;
* **`License.ofRecords?_eq_gathered`** — every answer with a record gives the gathered license. -/

namespace DepotClient

namespace License

open Schema

/-! ## Two kinds of records -/

/-- Holds of a record that is neither empty nor about an interface. -/
def isMerged (r : Record) : Bool := !r.isEmpty && !r.contains "interface"

/-- The records of an answer that are about interfaces. -/
def interfaceRecords (records : List Record) : List Record :=
  records.filter fun r => r.contains "interface"

/-- The records of an answer that are about the license itself. -/
def licenseRecords (records : List Record) : List Record := records.filter isMerged

/-- The list of capabilities of the last record that has one. -/
def lastCapabilities (records : List Record) : List String :=
  ((Record.lastHolder? ["ExtraCapabilities0"] records).map
    fun r => r.family "ExtraCapabilities").getD []

/-- The license gathered from two lists of records. Each part comes from one record as a whole: the
last one that has a key of it. Where a part has two keys, the first counts. -/
def gathered (ofInterfaces ofLicense : List Record) : License where
  license := lastReading [("License", id)] "" ofLicense
  licenseExpires := lastReading
    [("licenseExpires", longValue), ("License-Expires", fun v => longValue (leadingWord v))] 0
    ofLicense
  supportExpires := lastReading
    [("supportExpires", longValue), ("Support-Expires", fun v => longValue (leadingWord v))] 0
    ofLicense
  customer := lastReading [("Customer", id)] "" ofLicense
  application := lastReading [("Application", id)] "" ofLicense
  ipAddress := lastReading [("IPaddress", id)] "" ofLicense
  platform := lastReading [("Platform", id)] "" ofLicense
  clients := lastReading [("Clients", id)] "" ofLicense
  users := lastReading [("Users", intValue)] 0 ofLicense
  extraCapabilities := lastCapabilities ofLicense
  isLicensed := lastReading [("isLicensed", flagValue)] false ofLicense
  userCount := lastReading [("userCount", id)] "" ofLicense
  userLimit := lastReading [("userLimit", id)] "" ofLicense
  clientCount := lastReading [("clientCount", id)] "" ofLicense
  clientLimit := lastReading [("clientLimit", id)] "" ofLicense
  fileCount := lastReading [("fileCount", id)] "" ofLicense
  fileLimit := lastReading [("fileLimit", id)] "" ofLicense
  repoCount := lastReading [("repoCount", id)] "" ofLicense
  repoLimit := lastReading [("repoLimit", id)] "" ofLicense
  licenseTimeRemaining := lastReading [("licenseTimeRemaining", longValue)] 0 ofLicense
  interfaces := ofInterfaces.map NetworkInterface.decode
  expires := .unset
  raw := ofLicense.getLast?.getD ∅

/-! ## One part -/

variable {β : Type} {part : License → β} {read : Record → Option β}

/-- Relates a part of a license to what a record gives to it. Interfaces give nothing to it. -/
structure Part (part : License → β) (read : Record → Option β) : Prop where
  /-- A merged record sets the part if it gives something to it. -/
  part_merge : ∀ l r, part (merge l r) = (read r).getD (part l)
  /-- An interface leaves the part alone. -/
  part_interfaces : ∀ (l : License) interfaces, part { l with interfaces } = part l

/-- **A part after one record of an answer.** -/
theorem Part.part_addRecord (h : Part part read) (l : License) (r : Record) :
    part (addRecord l r) = (if isMerged r then read r else none).getD (part l) := by
  unfold addRecord isMerged
  cases r.isEmpty with
  | true => rfl
  | false =>
    cases r.contains "interface" with
    | true => exact h.part_interfaces l _
    | false => exact h.part_merge l r

/-- **A part after a whole answer** has what the last record about the license that gives something
to it gives. -/
theorem Part.part_foldl (h : Part part read) (records : List Record) (l : License) :
    part (records.foldl addRecord l) =
      ((licenseRecords records).findSomeRev? read).getD (part l) := by
  rw [licenseRecords, findSomeRev?_filter]
  exact DepotClient.part_foldl h.part_addRecord l records

/-- A part that the schema of licenses sets, and nothing else. -/
theorem part_of_reads {sources : List (String × (String → β))}
    (h : Reads part schema sources.reverse)
    (hrest : ∀ (l : License) extraCapabilities interfaces raw,
      part { l with extraCapabilities, interfaces, raw } = part l) :
    Part part (reading? sources) where
  part_merge l r := by
    have hschema := h.part_apply r l
    rw [List.reverse_reverse] at hschema
    rw [← hschema]
    exact hrest (schema.apply r "" l) _ _ _
  part_interfaces l _ := hrest l _ _ _

/-- **A single value after a whole answer** is that of the last record about the license that has
one of its keys. -/
theorem eq_lastReading {sources : List (String × (String → β))}
    (h : Reads part schema sources.reverse)
    (hrest : ∀ (l : License) extraCapabilities interfaces raw,
      part { l with extraCapabilities, interfaces, raw } = part l) (records : List Record) :
    part (records.foldl addRecord {}) =
      lastReading sources (part {}) (licenseRecords records) := by
  rw [(part_of_reads h hrest).part_foldl, getD_findSomeRev?_reading?]

/-! ## Capabilities, interfaces, and the record itself -/

/-- The capabilities of a record, if it has any. -/
def capabilities? (r : Record) : Option (List String) :=
  if r.contains "ExtraCapabilities0" then some (r.family "ExtraCapabilities") else none

/-- A record has capabilities if it has the first one. -/
theorem mergeCapabilities_eq (known : List String) (r : Record) :
    mergeCapabilities known r = (capabilities? r).getD known := by
  have hkey : familyKey "ExtraCapabilities" 0 = "ExtraCapabilities0" := by decide
  obtain ⟨n, hend⟩ := r.exists_endsAt "ExtraCapabilities"
  unfold mergeCapabilities capabilities?
  cases n with
  | zero =>
    have hmissing := hend.missing
    rw [hkey] at hmissing
    rw [hend.family_eq, Record.contains, hmissing]
    rfl
  | succ n =>
    have hfirst := hend.present 0 (Nat.succ_pos n)
    rw [hkey] at hfirst
    have hne : r.family "ExtraCapabilities" ≠ [] := by
      rw [hend.family_eq]
      simp
    rw [if_pos hfirst, Option.getD_some]
    split
    · rename_i hnil
      exact absurd hnil hne
    · rfl

/-- A record has capabilities exactly if it has their first key. -/
theorem isSome_capabilities? (r : Record) :
    (capabilities? r).isSome = ["ExtraCapabilities0"].any r.contains := by
  rw [capabilities?, List.any_cons, List.any_nil, Bool.or_false]
  cases r.contains "ExtraCapabilities0" <;> rfl

theorem part_extraCapabilities : Part extraCapabilities capabilities? where
  part_merge l r := mergeCapabilities_eq l.extraCapabilities r
  part_interfaces _ _ := rfl

/-- **The capabilities after a whole answer** are the list of one record, never a mixed one. -/
theorem extraCapabilities_foldl (records : List Record) :
    (records.foldl addRecord {}).extraCapabilities = lastCapabilities (licenseRecords records) := by
  rw [part_extraCapabilities.part_foldl, findSomeRev?_eq_bind_findRev? isSome_capabilities?,
    lastCapabilities, Record.lastHolder?]
  cases hlast : (licenseRecords records).findRev? fun r => ["ExtraCapabilities0"].any r.contains with
  | none => rfl
  | some r =>
    have hfirst : r.contains "ExtraCapabilities0" = true := by
      rw [List.findRev?_eq_find?_reverse] at hlast
      simpa using List.find?_some hlast
    rw [Option.bind_some, capabilities?, if_pos hfirst]
    rfl

theorem part_raw : Part raw some where
  part_merge _ _ := rfl
  part_interfaces _ _ := rfl

/-- **The record that a license keeps** is the last one about it. -/
theorem raw_foldl (records : List Record) :
    (records.foldl addRecord {}).raw = (licenseRecords records).getLast?.getD ∅ := by
  rw [part_raw.part_foldl, List.findSomeRev?_eq_findSome?_reverse, List.getLast?_eq_head?_reverse]
  cases (licenseRecords records).reverse <;> rfl

/-- A record about the license says nothing about interfaces. -/
theorem interfaces_merge (l : License) (r : Record) : (merge l r).interfaces = l.interfaces := by
  have h : Reads interfaces schema [] := by
    repeat' first
      | exact .nil
      | refine .other (fun _ _ => by with_reducible rfl) ?_
  exact h.part_apply r l

/-- **The interfaces after an answer** are those known before and those that its records describe,
in the order of the answer. -/
theorem interfaces_foldl (records : List Record) (l : License) :
    (records.foldl addRecord l).interfaces =
      l.interfaces ++ (interfaceRecords records).map NetworkInterface.decode := by
  induction records generalizing l with
  | nil => exact (List.append_nil l.interfaces).symm
  | cons r records ih =>
    rw [List.foldl_cons, ih, interfaceRecords, interfaceRecords, List.filter_cons]
    cases hinterface : r.contains "interface" with
    | true =>
      have hadd : (addRecord l r).interfaces = l.interfaces ++ [NetworkInterface.decode r] := by
        rw [addRecord, Record.isEmpty_eq_false_of_contains hinterface, hinterface]
        rfl
      rw [hadd, if_pos rfl, List.map_cons, List.append_assoc]
      rfl
    | false =>
      have hadd : (addRecord l r).interfaces = l.interfaces := by
        rw [addRecord, hinterface]
        cases r.isEmpty with
        | true => rfl
        | false => exact interfaces_merge l r
      rw [hadd, if_neg Bool.false_ne_true]

/-! ## The whole license -/

/-- **The license after an answer is the gathered one.** The parts with keys of their own all follow
from what the schema does with them; the others have a lemma each. -/
theorem foldl_addRecord (records : List Record) :
    records.foldl addRecord {} = gathered (interfaceRecords records) (licenseRecords records) := by
  ext1
  case extraCapabilities => exact extraCapabilities_foldl records
  case interfaces => exact interfaces_foldl records {}
  case raw => exact raw_foldl records
  -- no entry of the schema sets the day of expiry
  case' expires => refine Eq.trans ?_ (lastReading_nil Timestamp.unset (licenseRecords records))
  all_goals
    refine eq_lastReading ?_ (fun _ _ _ _ => rfl) records
    -- along the schema, each entry either sets the part or leaves it alone
    repeat' first
      | exact .nil
      | refine .other (fun _ _ => by with_reducible rfl) ?_
      | refine .own (fun _ _ => by dsimp only [id]) ?_

/-- **An answer gives the license that is gathered from its two kinds of records**, and it gives
none exactly if it has no record at all. Answers that mix the same records of both kinds in another
way, or that hold other empty records among them, give the same license. -/
theorem ofRecords?_eq_gathered (records : List Record) :
    (ofRecords? records = none ↔ records = []) ∧
      (records ≠ [] →
        ofRecords? records = some (gathered (interfaceRecords records) (licenseRecords records))) ∧
      ∀ others, records ≠ [] → others ≠ [] → interfaceRecords others = interfaceRecords records →
        licenseRecords others = licenseRecords records →
        ofRecords? others = ofRecords? records := by
  have hgathered : ∀ answer : List Record, answer ≠ [] →
      ofRecords? answer = some (gathered (interfaceRecords answer) (licenseRecords answer)) := by
    intro answer hne
    rw [ofRecords?, if_neg hne, foldl_addRecord]
  refine ⟨⟨?_, ?_⟩, hgathered records, ?_⟩
  · intro hnone
    by_contra hne
    rw [hgathered records hne] at hnone
    exact Option.some_ne_none _ hnone
  · intro hnil
    rw [hnil]
    rfl
  · intro others hne hothers hinterfaces hlicense
    rw [hgathered others hothers, hgathered records hne, hinterfaces, hlicense]

/-- An answer in which the use of the license comes with an expiry of its own, in both spellings,
and with a shorter list of capabilities. One interface has a key of the license. -/
theorem ofRecords?_of_mixed_answer :
    let spec := Record.ofList
      [("License", "ABCD-EFGH"), ("License-Expires", "1767139200 (2025/12/31)"),
        ("Support-Expires", "1767139200 (2025/12/31)"), ("Users", "250"),
        ("ExtraCapabilities0", "graph"), ("ExtraCapabilities1", "swarm")]
    let usage := Record.ofList
      [("isLicensed", "yes"), ("userCount", "12"), ("License-Expires", "7 days"),
        ("licenseExpires", "1767139201"), ("ExtraCapabilities0", "fips")]
    let eth := Record.ofList [("interface", "eth0"), ("License", "none")]
    let lo := Record.ofList [("interface", "lo"), ("ipv4Address", "127.0.0.1")]
    ofRecords? [eth, spec, ∅, usage, lo] =
        some
          { license := "ABCD-EFGH", licenseExpires := 1767139201, supportExpires := 1767139200
            users := 250, extraCapabilities := ["fips"], isLicensed := true, userCount := "12"
            interfaces := [{ interface := "eth0" },
              { interface := "lo", ipv4Address := "127.0.0.1" }]
            raw := usage } ∧
      ofRecords? [spec, eth, lo, ∅, ∅, usage] = ofRecords? [eth, spec, ∅, usage, lo] := by
  intro spec usage eth lo
  obtain ⟨-, hgathered, hmixed⟩ := ofRecords?_eq_gathered [eth, spec, ∅, usage, lo]
  have hne : [eth, spec, ∅, usage, lo] ≠ [] := List.cons_ne_nil _ _
  refine ⟨(hgathered hne).trans (by decide +kernel), ?_⟩
  exact hmixed [spec, eth, lo, ∅, ∅, usage] hne (List.cons_ne_nil _ _) (by decide +kernel)
    (by decide +kernel)

end License

end DepotClient
