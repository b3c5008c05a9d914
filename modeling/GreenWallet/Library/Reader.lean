import Mathlib.Data.List.Pairwise

/-!
# Reading items off the front of a buffer

A reader looks at a buffer that grows at its end. It finds an item at the front, or that
more has to come, or that nothing can come of it. A code says which words stand for which
values; a reader reads it if it waits on every proper beginning of a word and finds the
word whatever follows.
-/
namespace GreenWallet.Library

/-- What reading a buffer from its front comes to. -/
inductive Reading (V : Type*) where
  | more
  | malformed
  | item (value : V) (length : ℕ)
deriving DecidableEq

structure Reader (β V : Type*) where
  read : List β → Reading V
  progress : ∀ {bs : List β} {v : V} {n : ℕ}, read bs = .item v n → 0 < n ∧ n ≤ bs.length

namespace Reader
variable {β V : Type*} {R : Reader β V} {code : List β → V → Prop}
variable {bs word rest : List β} {v : V} {n : ℕ}

structure Reads (R : Reader β V) (code : List β → V → Prop) : Prop where
  more_of_prefix : ∀ {bs word : List β} {v : V}, code word v → bs <+: word → bs ≠ word →
    R.read bs = .more
  item_of_word : ∀ {word : List β} {v : V} (rest : List β), code word v →
    R.read (word ++ rest) = .item v word.length

/-- Besides, whatever is found is a word of the code. -/
structure ReadsOnly (R : Reader β V) (code : List β → V → Prop) : Prop extends R.Reads code where
  word_of_item : ∀ {bs : List β} {v : V} {n : ℕ}, R.read bs = .item v n → code (bs.take n) v

theorem Reads.word_pos (h : R.Reads code) (hword : code word v) : 0 < word.length :=
  (R.progress (h.item_of_word [] hword)).1

theorem Reads.word_ne_nil (h : R.Reads code) (hword : code word v) : word ≠ [] :=
  List.length_pos_iff.mp (h.word_pos hword)

/-- Of a stream that starts with a word, a beginning either ends inside the word or has it. -/
theorem append_eq_word_append {front back : List β} (h : front ++ back = word ++ rest) :
    (front <+: word ∧ front ≠ word) ∨ ∃ front', front = word ++ front' ∧ front' ++ back = rest := by
  obtain ⟨middle, hword, -⟩ | ⟨middle, hfront, hrest⟩ := List.append_eq_append_iff.mp h
  · cases middle with
    | nil =>
        rw [List.append_nil] at hword
        rw [hword] at h ⊢
        exact .inr ⟨[], (List.append_nil front).symm, List.append_cancel_left h⟩
    | cons b middle =>
        refine .inl ⟨⟨b :: middle, hword.symm⟩, ?_⟩
        intro heq
        rw [heq] at hword
        exact absurd (List.self_eq_append_right.mp hword) (List.cons_ne_nil b middle)
  · exact .inr ⟨middle, hfront, hrest.symm⟩

/-- An item that is found stays found when more comes. -/
theorem ReadsOnly.item_append (h : R.ReadsOnly code) (hread : R.read bs = .item v n)
    (more : List β) : R.read (bs ++ more) = .item v n := by
  have hlength : (bs.take n).length = n := List.length_take_of_le (R.progress hread).2
  have hword := h.item_of_word (bs.drop n ++ more) (h.word_of_item hread)
  rwa [← List.append_assoc, List.take_append_drop, hlength] at hword

/-- What was not found in the beginning is longer than the beginning. -/
theorem ReadsOnly.length_lt_of_item (h : R.ReadsOnly code)
    (hread : ∀ v n, R.read bs ≠ .item v n) {more : List β}
    (hitem : R.read (bs ++ more) = .item v n) : bs.length < n := by
  by_contra hshort
  have hle : n ≤ bs.length := Nat.le_of_not_lt hshort
  have hword := h.word_of_item hitem
  rw [List.take_append_of_le_length hle] at hword
  have hfound := h.item_of_word (bs.drop n) hword
  rw [List.take_append_drop] at hfound
  exact hread _ _ hfound

/-! ## Codes with finitely many words -/

/-- No word is empty, and none begins another one. -/
def PrefixFree (table : List (List β × V)) : Prop :=
  (∀ entry ∈ table, entry.1 ≠ []) ∧
    table.Pairwise fun entry other => ¬ entry.1 <+: other.1 ∧ ¬ other.1 <+: entry.1

theorem PrefixFree.eq_of_prefix {table : List (List β × V)} (h : PrefixFree table)
    {entry other : List β × V} (hentry : entry ∈ table) (hother : other ∈ table)
    (hbegin : entry.1 <+: other.1) : entry = other := by
  have hsymm : Std.Symm fun entry other : List β × V =>
      ¬ entry.1 <+: other.1 ∧ ¬ other.1 <+: entry.1 := ⟨fun _ _ hpair => hpair.symm⟩
  by_contra hne
  exact (h.2.forall hentry hother hne).1 hbegin

variable [DecidableEq β]

instance (table : List (List β × V)) : Decidable (PrefixFree table) :=
  inferInstanceAs (Decidable (_ ∧ _))

def readTable (table : List (List β × V)) (bs : List β) : Reading V :=
  match table.find? fun entry => entry.1.isPrefixOf bs with
  | some entry => .item entry.2 entry.1.length
  | none => if table.any fun entry => bs.isPrefixOf entry.1 then .more else .malformed

theorem find?_prefix {table : List (List β × V)} {entry : List β × V}
    (hfind : (table.find? fun entry => entry.1.isPrefixOf bs) = some entry) :
    entry ∈ table ∧ entry.1 <+: bs := by
  have hbegins := List.find?_some (p := fun entry : List β × V => entry.1.isPrefixOf bs) hfind
  exact ⟨List.mem_of_find?_eq_some hfind, List.isPrefixOf_iff_prefix.mp hbegins⟩

theorem readTable_eq_item {table : List (List β × V)} (hread : readTable table bs = .item v n) :
    ∃ entry ∈ table, entry.1 <+: bs ∧ entry.2 = v ∧ entry.1.length = n := by
  unfold readTable at hread
  split at hread
  · next entry hfind =>
      injection hread with hvalue hlength
      obtain ⟨hmem, hbegin⟩ := find?_prefix hfind
      exact ⟨entry, hmem, hbegin, hvalue, hlength⟩
  · split at hread <;> cases hread

def ofTable (table : List (List β × V)) (h : PrefixFree table) : Reader β V where
  read := readTable table
  progress hread := by
    obtain ⟨entry, hmem, hbegin, -, rfl⟩ := readTable_eq_item hread
    exact ⟨List.length_pos_iff.mpr (h.1 entry hmem), hbegin.length_le⟩

theorem readsOnly_ofTable {table : List (List β × V)} (h : PrefixFree table) :
    (ofTable table h).ReadsOnly fun word v => (word, v) ∈ table := by
  refine ⟨⟨?_, ?_⟩, ?_⟩
  · intro bs word v hword hbegin hne
    have hnone : (table.find? fun entry => entry.1.isPrefixOf bs) = none := by
      rw [List.find?_eq_none]
      intro entry hentry hbegins
      have hbegins := List.isPrefixOf_iff_prefix.mp hbegins
      have heq := h.eq_of_prefix hentry hword (hbegins.trans hbegin)
      rw [heq] at hbegins
      exact hne (hbegin.eq_of_length_le hbegins.length_le)
    have hany : (table.any fun entry => bs.isPrefixOf entry.1) = true :=
      List.any_eq_true.mpr ⟨_, hword, List.isPrefixOf_iff_prefix.mpr hbegin⟩
    simp only [ofTable, readTable, hnone, hany, if_true]
  · intro word v rest hword
    obtain ⟨entry, hfind⟩ : ∃ entry,
        (table.find? fun entry => entry.1.isPrefixOf (word ++ rest)) = some entry := by
      rw [← Option.isSome_iff_exists, List.find?_isSome]
      exact ⟨_, hword, List.isPrefixOf_iff_prefix.mpr (List.prefix_append word rest)⟩
    obtain ⟨hmem, hbegins⟩ := find?_prefix hfind
    have hentry : entry = (word, v) := by
      rcases List.prefix_or_prefix_of_prefix hbegins (List.prefix_append word rest) with hle | hle
      · exact h.eq_of_prefix hmem hword hle
      · exact (h.eq_of_prefix hword hmem hle).symm
    simp only [ofTable, readTable, hfind, hentry]
  · intro bs v n hread
    obtain ⟨entry, hmem, hbegin, rfl, rfl⟩ := readTable_eq_item hread
    rwa [← List.prefix_iff_eq_take.mp hbegin]

end Reader
end GreenWallet.Library
