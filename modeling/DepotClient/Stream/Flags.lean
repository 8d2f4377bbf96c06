import DepotClient.Text.Words

/-! # Options of a stream

Five choices, each written as one of two words. Reading looks only for the five words that differ
from the default, so words may come in any order, be repeated, be missing or be unknown; writing
shows all five choices. -/

namespace DepotClient

/-- The options of a stream. -/
structure StreamFlags where
  /-- Only the owner may submit. -/
  ownerSubmit : Bool := false
  /-- The stream's definition is locked. -/
  locked : Bool := false
  /-- Changes may not flow to the parent. -/
  noToParent : Bool := false
  /-- Changes may not flow from the parent. -/
  noFromParent : Bool := false
  /-- Changes may be merged in any direction. -/
  mergeAny : Bool := false
deriving DecidableEq

namespace StreamFlags

instance : Inhabited StreamFlags := ⟨{}⟩

/-- The options switched on by a list of words. -/
def ofWords (words : List (List Char)) : StreamFlags where
  ownerSubmit := words.contains "ownersubmit".toList
  locked := words.contains "locked".toList
  noToParent := words.contains "notoparent".toList
  noFromParent := words.contains "nofromparent".toList
  mergeAny := words.contains "mergeany".toList

/-- Reads the words of an options field. -/
def parse (value : String) : StreamFlags := ofWords (Text.words value.toList)

/-- The five words that show the options. -/
def words (o : StreamFlags) : List String :=
  [if o.ownerSubmit then "ownersubmit" else "allsubmit",
    if o.locked then "locked" else "unlocked",
    if o.noToParent then "notoparent" else "toparent",
    if o.noFromParent then "nofromparent" else "fromparent",
    if o.mergeAny then "mergeany" else "mergedown"]

/-- The text of an options field. -/
def text (o : StreamFlags) : String := String.intercalate " " o.words

instance : ToString StreamFlags := ⟨text⟩

/-- The options that either of two choices switches on. -/
def union (a b : StreamFlags) : StreamFlags where
  ownerSubmit := a.ownerSubmit || b.ownerSubmit
  locked := a.locked || b.locked
  noToParent := a.noToParent || b.noToParent
  noFromParent := a.noFromParent || b.noFromParent
  mergeAny := a.mergeAny || b.mergeAny

instance : Union StreamFlags := ⟨union⟩

/-- The words of two lists together switch on what either list does. -/
theorem ofWords_append (xs ys : List (List Char)) :
    ofWords (xs ++ ys) = ofWords xs ∪ ofWords ys := by
  simp [ofWords, Union.union, union]

/-- A word is found just if it is one of the words that show the options. -/
theorem contains_words (o : StreamFlags) (word : String) :
    (o.words.map String.toList).contains word.toList = decide (word ∈ o.words) := by
  rw [Bool.eq_iff_iff, List.contains_iff_mem, decide_eq_true_iff, List.mem_map]
  constructor
  · rintro ⟨w, hw, heq⟩
    exact String.toList_inj.mp heq ▸ hw
  · exact fun h => ⟨word, h, rfl⟩

/-- The words that show some options switch on just these options. -/
theorem ofWords_words (o : StreamFlags) : ofWords (o.words.map String.toList) = o := by
  -- every word shows one choice, and no other choice has this word
  have hword : ∀ (choice : Bool) (word on off : String),
      word = (if choice then on else off) ↔ if choice then word = on else word = off := by
    intro choice word on off
    cases choice <;> rfl
  rw [ofWords, contains_words, contains_words, contains_words, contains_words, contains_words]
  simp [words, hword]

/-- **Options are read back from their text.** -/
@[simp] theorem parse_text (o : StreamFlags) : parse o.text = o := by
  have hword : ∀ w : String, w ≠ "" → (w.toList.all fun c => Text.isBlank c = false) = true →
      w ≠ "" ∧ ∀ c ∈ w.toList, Text.isBlank c = false :=
    fun w hne hplain => ⟨hne, fun c hc => of_decide_eq_true (List.all_eq_true.mp hplain c hc)⟩
  have hwords : ∀ w ∈ o.words, w ≠ "" ∧ ∀ c ∈ w.toList, Text.isBlank c = false := by
    intro w hw
    simp only [words, List.mem_cons, List.not_mem_nil, or_false] at hw
    obtain rfl | rfl | rfl | rfl | rfl := hw <;> split <;> exact hword _ (by decide) (by decide)
  rw [parse, text, Text.words_intercalate hwords, ofWords_words]

end StreamFlags

end DepotClient
