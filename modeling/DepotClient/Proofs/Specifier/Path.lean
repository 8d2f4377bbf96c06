import Mathlib.Data.List.TakeWhile
import DepotClient.Proofs.Specifier.Range

/-! # Paths and the specifiers behind them

A path ends at the first sign of a specifier, and all that follows is read as one. The choice
between a range and a single specifier is made where a path is cut, and again where a text is read
on its own; it is the same choice.

* **`Specifier.cutPath_append`** — behind a text without a sign, what begins with one is read as a
  specifier on its own is (`Specifier.toOption_ofText`);
* **`Specifier.exists_signed_rest`** — every path is such a text with such a rest behind it, or has
  no sign;
* **`Specifier.signed_text`** — the text of every specifier begins with a sign;
* **`Specifier.cutPath_exact`** — so a path is cut as far behind as it can be, and a specifier that
  is read back from its text is found behind any path. -/

namespace DepotClient.Specifier

/-- Holds if no sign of a specifier stands in a text. -/
def SignFree (text : String) : Prop := ∀ c ∈ text.toList, isSign c = false

instance (text : String) : Decidable (SignFree text) :=
  List.decidableBAll (fun c : Char => isSign c = false) text.toList

/-- Holds if a text begins with a sign of a specifier. -/
def Signed (text : String) : Prop := ∃ sign cs, text.toList = sign :: cs ∧ isSign sign = true

/-! ## Cutting -/

/-- A specifier is read from the text behind a path, if it can be. -/
theorem toOption_ofText (spec : String) :
    (ofText spec).toOption =
      if ',' ∈ spec.toList then some (rangeOfChars spec.toList) else ofChars? spec.toList := by
  rw [ofText]
  split
  · rfl
  · rw [parse?]
    cases ofChars? spec.toList <;> rfl

/-- A path without a sign is cut at its end. -/
theorem cutPath_of_signFree {path : String} (h : SignFree path) : cutPath path = (path, none) := by
  have hdrop : path.toList.dropWhile (!isSign ·) = [] := by
    rw [List.dropWhile_eq_nil_iff]
    intro c hc
    rw [h c hc]
    rfl
  rw [cutPath, hdrop]

/-- **A path is cut at its first sign**, and what begins there is read as on its own. -/
theorem cutPath_append {proper rest : String} (hproper : SignFree proper) (hsigned : Signed rest) :
    cutPath (proper ++ rest) = (proper, (ofText rest).toOption) := by
  obtain ⟨sign, cs, hrest, hsign⟩ := hsigned
  have hrun : ∀ c ∈ proper.toList, (!isSign c) = true := fun c hc => by rw [hproper c hc]; rfl
  have hstop : (!isSign sign) = false := by rw [hsign]; rfl
  have hdrop : (proper ++ rest).toList.dropWhile (!isSign ·) = sign :: cs := by
    rw [String.toList_append, hrest, List.dropWhile_append_of_pos hrun,
      List.dropWhile_cons_of_neg (by simp [hstop])]
  have htake : (proper ++ rest).toList.takeWhile (!isSign ·) = proper.toList := by
    rw [String.toList_append, hrest, List.takeWhile_append_of_pos hrun,
      List.takeWhile_cons_of_neg (by simp [hstop]), List.append_nil]
  rw [cutPath, hdrop, htake, toOption_ofText, hrest, String.ofList_toList]

/-- Every path has no sign, or is a text without one and a rest that begins with one. -/
theorem exists_signed_rest (path : String) :
    SignFree path ∨ ∃ proper rest, path = proper ++ rest ∧ SignFree proper ∧ Signed rest := by
  have hparts := List.takeWhile_append_dropWhile (p := (!isSign ·)) (l := path.toList)
  have hrun : ∀ c ∈ path.toList.takeWhile (!isSign ·), isSign c = false := by
    intro c hc
    simpa using List.mem_takeWhile_imp hc
  cases hdrop : path.toList.dropWhile (!isSign ·) with
  | nil =>
    left
    rw [hdrop, List.append_nil] at hparts
    rw [SignFree, ← hparts]
    exact hrun
  | cons sign cs =>
    right
    rw [hdrop] at hparts
    have hsign : isSign sign = true := by
      have hhead := List.head?_dropWhile_not (!isSign ·) path.toList
      rw [hdrop] at hhead
      simpa using hhead
    refine ⟨String.ofList (path.toList.takeWhile (!isSign ·)), String.ofList (sign :: cs), ?_, ?_,
      sign, cs, String.toList_ofList, hsign⟩
    · rw [← String.toList_inj, String.toList_append, String.toList_ofList, String.toList_ofList]
      exact hparts.symm
    · rw [SignFree, String.toList_ofList]
      exact hrun

/-- What begins a path and has no sign does not reach beyond the first one. -/
theorem SignFree.exists_append {front back proper rest : String} (hfront : SignFree front)
    (hsigned : Signed rest) (h : proper ++ rest = front ++ back) :
    ∃ more, proper = front ++ more := by
  obtain ⟨sign, cs, hrest, hsign⟩ := hsigned
  have hlists : proper.toList ++ rest.toList = front.toList ++ back.toList := by
    rw [← String.toList_append, h, String.toList_append]
  obtain ⟨more, hmore, hback⟩ | ⟨more, hmore, -⟩ := List.append_eq_append_iff.mp hlists
  · -- what `front` has beyond `proper` would begin with the sign
    cases more with
    | nil =>
      refine ⟨"", ?_⟩
      rw [String.append_empty, ← String.toList_inj, hmore, List.append_nil]
    | cons c more =>
      rw [hrest] at hback
      obtain rfl : sign = c := (List.cons.inj hback).1
      have hmem : sign ∈ front.toList := by
        rw [hmore]
        exact List.mem_append_right _ List.mem_cons_self
      rw [hfront sign hmem] at hsign
      cases hsign
  · refine ⟨String.ofList more, ?_⟩
    rw [← String.toList_inj, hmore, String.toList_append, String.toList_ofList]

/-! ## Specifiers behind a path -/

/-- The text of every specifier begins with a sign. -/
theorem signed_text (v : Specifier) : Signed v.text := by
  induction v with
  | head | synced | noRevision | revision | action => exact ⟨'#', _, toList_text _, rfl⟩
  | date | changelist | shelved | label => exact ⟨'@', _, toList_text _, rfl⟩
  | range l u ihl _ =>
    -- a range begins with its lower bound
    obtain ⟨sign, cs, hl, hsign⟩ := ihl
    refine ⟨sign, cs ++ ',' :: u.chars, ?_, hsign⟩
    rw [toList_text, chars_range, ← toList_text, hl, List.cons_append]

/-- A specifier that is read back from its text alone is found behind any path. -/
theorem cutPath_append_text {proper : String} (hproper : SignFree proper) {v : Specifier}
    (h : (ofText v.text).toOption = some v) : cutPath (proper ++ v.text) = (proper, some v) := by
  rw [cutPath_append hproper v.signed_text, h]

/-- **A path is cut exactly.** What is cut off is the longest beginning without a sign, with the
specifier that the rest is read as on its own, if there is any; and behind any path without a sign,
a range of revisions is found, and so is a specifier without a comma that is read back from its
text. -/
theorem cutPath_exact :
    (∀ path : String, ∃ proper rest : String, path = proper ++ rest ∧ SignFree proper ∧
      (∀ front back : String, path = front ++ back → SignFree front →
        ∃ more, proper = front ++ more) ∧
      cutPath path = (proper, if rest = "" then none else (ofText rest).toOption)) ∧
    ∀ (proper : String) (v : Specifier), SignFree proper →
      ((∃ l u, v = revisionsBetween l u) ∨ (',' ∉ v.text.toList ∧ parse? v.text = some v)) →
      cutPath (proper ++ v.text) = (proper, some v) := by
  constructor
  · intro path
    obtain hpath | ⟨proper, rest, rfl, hproper, hrest⟩ := exists_signed_rest path
    · refine ⟨path, "", String.append_empty.symm, hpath, fun front back h _ => ⟨back, h⟩, ?_⟩
      rw [cutPath_of_signFree hpath, if_pos rfl]
    · have hne : rest ≠ "" := by
        rintro rfl
        obtain ⟨sign, cs, hnil, -⟩ := hrest
        cases hnil
      refine ⟨proper, rest, rfl, hproper, fun front back h hfront =>
        hfront.exists_append hrest h, ?_⟩
      rw [cutPath_append hproper hrest, if_neg hne]
  · rintro proper v hproper (⟨l, u, rfl⟩ | ⟨hcomma, hparse⟩)
    · refine cutPath_append_text hproper ?_
      rw [ofText_text_revisionsBetween]
      rfl
    · refine cutPath_append_text hproper ?_
      rw [toOption_ofText, if_neg hcomma]
      exact hparse

/-- A label with a sign in its name and a range, both behind a path with a comma. -/
theorem cutPath_of_comma_in_path :
    (SignFree "//depot/a,b.c" ∧ ',' ∉ (label "rel@1").text.toList ∧
      parse? (label "rel@1").text = some (label "rel@1")) ∧
    cutPath ("//depot/a,b.c" ++ (label "rel@1").text) = ("//depot/a,b.c", some (label "rel@1")) ∧
    cutPath ("//depot/a,b.c" ++ (revisionsBetween 5 2).text) =
      ("//depot/a,b.c", some (range (revision 2) (revision 5))) := by
  have hproper : SignFree "//depot/a,b.c" := by decide
  have hcomma : ',' ∉ (label "rel@1").text.toList := by decide
  have hparse : parse? (label "rel@1").text = some (label "rel@1") := rfl
  have hfound := cutPath_exact.2 "//depot/a,b.c"
  exact ⟨⟨hproper, hcomma, hparse⟩, hfound _ hproper (.inr ⟨hcomma, hparse⟩),
    hfound _ hproper (.inl ⟨5, 2, rfl⟩)⟩

end DepotClient.Specifier
