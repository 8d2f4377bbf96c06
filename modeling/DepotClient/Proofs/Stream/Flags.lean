import Mathlib.Data.List.Basic
import DepotClient.Stream.Flags

/-! # Options are a set of words

The options of a stream depend on the words of their text alone. A word is what stands between
blanks, of any kind, or an end of the text (`Text.HasWord`): no part of a longer word counts, and
neither the order of the words, nor their number, nor other words matter. Each of the five
options is switched on by one word, and no word switches an option off.

* **`Text.mem_words_iff`** — the words of a text are those that stand in it;
* **`StreamFlags.switchedOnBy_parse`** — just the words in a text switch its options on;
* **`StreamFlags.parse_exact`** — so options are joined as their texts are. -/

namespace DepotClient

namespace Text

/-! ## The words in a text -/

variable {α : Type} {p : α → Bool} {as piece : List α}

/-- A stretch without a separator that has a separator or an end of the list on either side is a
piece. -/
theorem mem_cut_of_eq_append {before after : List α} (hpiece : ∀ a ∈ piece, p a = false)
    (hbefore : ∀ a ∈ before.getLast?, p a = true) (hafter : ∀ a ∈ after.head?, p a = true) :
    piece ∈ cut p (before ++ (piece ++ after)) := by
  have hfirst : piece ∈ cut p (piece ++ after) := by
    cases after with
    | nil => rw [List.append_nil, cut_eq_singleton hpiece]; exact List.mem_singleton_self piece
    | cons a after => rw [cut_append_cons (hafter a rfl), cut_eq_singleton hpiece]; simp
  obtain rfl | ⟨front, a, rfl⟩ := List.eq_nil_or_concat' before
  · exact hfirst
  · have ha : p a = true := hbefore a (by simp)
    rw [List.append_assoc, List.singleton_append, cut_append_cons ha]
    exact List.mem_append_right _ hfirst

/-- Every piece is such a stretch. The induction is on the length of the list: the first separator
ends the first piece, and the others are those of the list behind it. -/
theorem exists_append_of_mem_cut (h : piece ∈ cut p as) :
    (∀ a ∈ piece, p a = false) ∧ ∃ before after, as = before ++ (piece ++ after) ∧
      (∀ a ∈ before.getLast?, p a = true) ∧ ∀ a ∈ after.head?, p a = true := by
  induction hlen : as.length using Nat.strongRecOn generalizing as with
  | ind n ih =>
    cases hfind : as.find? p with
    | none =>
      have hnone : ∀ a ∈ as, p a = false := by simpa using hfind
      rw [cut_eq_singleton hnone] at h
      obtain rfl := List.mem_singleton.mp h
      exact ⟨hnone, [], [], by simp, by simp, by simp⟩
    | some sep =>
      obtain ⟨hsep, first, rest, rfl, hfirst⟩ := List.find?_eq_some_iff_append.mp hfind
      have hplain : ∀ a ∈ first, p a = false := fun a ha => by simpa using hfirst a ha
      rw [cut_append_cons hsep, cut_eq_singleton hplain, List.singleton_append] at h
      obtain rfl | hmem := List.mem_cons.mp h
      · exact ⟨hplain, [], sep :: rest, rfl, by simp, by simpa using hsep⟩
      · have hshorter : rest.length < n := by
          rw [← hlen, List.length_append, List.length_cons]
          omega
        obtain ⟨hpiece, before, after, rfl, hbefore, hafter⟩ := ih _ hshorter hmem rfl
        refine ⟨hpiece, first ++ sep :: before, after, by simp, ?_, hafter⟩
        intro a ha
        rw [List.getLast?_append, List.getLast?_cons, Option.some_or] at ha
        obtain rfl := Option.some.inj ha
        cases hlast : before.getLast? with
        | none => exact hsep
        | some b => exact hbefore b hlast

/-- Holds if a word stands in a text: there is something of it, no blank is in it, and it has a blank
or an end of the text on either side. -/
def HasWord (text word : String) : Prop :=
  word ≠ "" ∧ (∀ c ∈ word.toList, isBlank c = false) ∧
    ∃ before after, text.toList = before ++ (word.toList ++ after) ∧
      (∀ c ∈ before.getLast?, isBlank c = true) ∧ ∀ c ∈ after.head?, isBlank c = true

/-- **The words of a text are those that stand in it.** -/
theorem mem_words_iff {text word : String} :
    word.toList ∈ words text.toList ↔ HasWord text word := by
  have hne : word.toList ≠ [] ↔ word ≠ "" := by
    simp
  rw [words, List.mem_filter, decide_eq_true_iff, hne]
  constructor
  · rintro ⟨hmem, hword⟩
    exact ⟨hword, exists_append_of_mem_cut hmem⟩
  · rintro ⟨hword, hplain, before, after, htext, hbefore, hafter⟩
    rw [htext]
    exact ⟨mem_cut_of_eq_append hplain hbefore hafter, hword⟩

instance (text word : String) : Decidable (HasWord text word) :=
  decidable_of_iff _ mem_words_iff

end Text

namespace StreamFlags

/-! ## Options and words -/

/-- The words that switch an option on. -/
def switches : List String := ["ownersubmit", "locked", "notoparent", "nofromparent", "mergeany"]

/-- Each option is on just if its word is among the given ones. -/
structure SwitchedOnBy (o : StreamFlags) (has : String → Prop) : Prop where
  /-- Only the owner may submit. -/
  ownerSubmit_iff : o.ownerSubmit = true ↔ has "ownersubmit"
  /-- The stream's definition is locked. -/
  locked_iff : o.locked = true ↔ has "locked"
  /-- Changes may not flow to the parent. -/
  noToParent_iff : o.noToParent = true ↔ has "notoparent"
  /-- Changes may not flow from the parent. -/
  noFromParent_iff : o.noFromParent = true ↔ has "nofromparent"
  /-- Changes may be merged in any direction. -/
  mergeAny_iff : o.mergeAny = true ↔ has "mergeany"

/-- **Just the words in a text switch its options on.** -/
theorem switchedOnBy_parse (text : String) : SwitchedOnBy (parse text) (Text.HasWord text) := by
  have hword : ∀ word : String, (Text.words text.toList).contains word.toList = true ↔
      Text.HasWord text word := fun word =>
    List.contains_iff_mem.trans Text.mem_words_iff
  exact ⟨hword _, hword _, hword _, hword _, hword _⟩

/-- Options that the same words switch on are the same. -/
theorem SwitchedOnBy.eq_iff {o o' : StreamFlags} {has has' : String → Prop}
    (h : SwitchedOnBy o has) (h' : SwitchedOnBy o' has') :
    o = o' ↔ ∀ word ∈ switches, has word ↔ has' word := by
  constructor
  · rintro rfl word hword
    simp only [switches, List.mem_cons, List.not_mem_nil, or_false] at hword
    obtain rfl | rfl | rfl | rfl | rfl := hword
    · exact h.ownerSubmit_iff.symm.trans h'.ownerSubmit_iff
    · exact h.locked_iff.symm.trans h'.locked_iff
    · exact h.noToParent_iff.symm.trans h'.noToParent_iff
    · exact h.noFromParent_iff.symm.trans h'.noFromParent_iff
    · exact h.mergeAny_iff.symm.trans h'.mergeAny_iff
  · intro hsame
    have hownerSubmit := (hsame "ownersubmit" (by decide)).trans h'.ownerSubmit_iff.symm
    have hlocked := (hsame "locked" (by decide)).trans h'.locked_iff.symm
    have hnoToParent := (hsame "notoparent" (by decide)).trans h'.noToParent_iff.symm
    have hnoFromParent := (hsame "nofromparent" (by decide)).trans h'.noFromParent_iff.symm
    have hmergeAny := (hsame "mergeany" (by decide)).trans h'.mergeAny_iff.symm
    cases o
    cases o'
    rw [mk.injEq]
    exact ⟨Bool.eq_iff_iff.mpr (h.ownerSubmit_iff.trans hownerSubmit),
      Bool.eq_iff_iff.mpr (h.locked_iff.trans hlocked),
      Bool.eq_iff_iff.mpr (h.noToParent_iff.trans hnoToParent),
      Bool.eq_iff_iff.mpr (h.noFromParent_iff.trans hnoFromParent),
      Bool.eq_iff_iff.mpr (h.mergeAny_iff.trans hmergeAny)⟩

/-- The options of two texts with blanks between them are those of either. -/
theorem parse_append_gap {gap : String} (hne : gap ≠ "")
    (hgap : ∀ c ∈ gap.toList, Text.isBlank c = true) (a b : String) :
    parse (a ++ gap ++ b) = parse a ∪ parse b := by
  have hgapne : gap.toList ≠ [] := fun hnil => hne (String.toList_eq_nil_iff.mp hnil)
  rw [parse, String.toList_append, String.toList_append, List.append_assoc,
    Text.words_append_gap hgapne hgap, ofWords_append]
  rfl

/-- **Options are read exactly.** Each is on just if its word stands in the text. So the options of two
texts with blanks between them, of whatever kind, are those that either text switches on; two texts
show the same options just if the same of the five words stand in both; and options are read back from
the text in which they are written. -/
theorem parse_exact :
    (∀ text : String, SwitchedOnBy (parse text) (Text.HasWord text)) ∧
    (∀ a gap b : String, gap ≠ "" → (∀ c ∈ gap.toList, Text.isBlank c = true) →
      parse (a ++ gap ++ b) = parse a ∪ parse b) ∧
    (∀ a b : String, parse a = parse b ↔
      ∀ word ∈ switches, Text.HasWord a word ↔ Text.HasWord b word) ∧
    ∀ a : String, parse (toString (parse a)) = parse a :=
  ⟨switchedOnBy_parse, fun a _ b hne hgap => parse_append_gap hne hgap a b,
    fun a b => (switchedOnBy_parse a).eq_iff (switchedOnBy_parse b), fun a => parse_text (parse a)⟩

/-- Contradictory words with a blank of another script between them: a word switches its option on
whatever comes behind it, and a part of a longer word does not. -/
theorem parse_of_contradictory_words :
    ("\u2003" ≠ "" ∧ ∀ c ∈ "\u2003".toList, Text.isBlank c = true) ∧
      parse ("locked fromparent" ++ "\u2003" ++ "unlocked nofromparents mergeany") =
        { locked := true, mergeAny := true } := by
  have hgap : ∀ c ∈ "\u2003".toList, Text.isBlank c = true := List.all_eq_true.mp (by decide)
  have hunion := parse_exact.2.1 "locked fromparent" "\u2003" "unlocked nofromparents mergeany"
    (by decide) hgap
  exact ⟨⟨by decide, hgap⟩, hunion.trans (by decide)⟩

end StreamFlags

end DepotClient
