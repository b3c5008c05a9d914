import GreenWallet.Controllers.Mnemonic

/-!
# What the mnemonic editor shows

Whatever has been called, the flags of the editor are those of its words, and a pasted
phrase stands there word by word. A word is never a phrase itself, so a paste is never
taken for the text that a word has already.
-/
namespace GreenWallet.Controllers
open GreenWallet.Library

variable {l : Wally}

theorem setTexts_text (texts : List String) (words : List (Word l))
    (h : texts.length ≤ words.length) :
    ((setTexts texts words).take texts.length).map Word.text = texts := by
  induction texts generalizing words with
  | nil => rfl
  | cons text texts ih =>
      cases words with
      | nil => simp at h
      | cons word words =>
          simp only [List.length_cons, Nat.add_le_add_iff_right] at h
          simp [setTexts, ih words h]

/-- A word has a pasted text, or is left as it was. -/
theorem mem_setTexts {texts : List String} {words : List (Word l)} {word : Word l}
    (h : word ∈ setTexts texts words) : word.text ∈ texts ∨ word ∈ words := by
  induction texts generalizing words with
  | nil => exact .inr h
  | cons text texts ih =>
      cases words with
      | nil => exact .inr h
      | cons first words =>
          rw [setTexts, List.mem_cons] at h
          rcases h with hfirst | hrest
          · simp [hfirst]
          · rcases ih hrest with htext | hword
            · exact .inl (List.mem_cons_of_mem text htext)
            · exact .inr (List.mem_cons_of_mem first hword)

theorem enableWords_map {α : Type} (f : Word l → α)
    (hf : ∀ enabled word, f (Word.setEnabled enabled word) = f word) (enabled : Bool) (n : ℕ)
    (words : List (Word l)) : (enableWords enabled n words).map f = words.map f := by
  induction n generalizing enabled words with
  | zero => rfl
  | succ n ih =>
      cases words with
      | nil => rfl
      | cons word words => simp [enableWords, ih, hf]

/-- A word of the phrase is enabled when those before it are valid. -/
theorem getElem?_enableWords {n i : ℕ} (hi : i < n) (enabled : Bool) (words : List (Word l)) :
    (enableWords enabled n words)[i]? =
      words[i]?.map (Word.setEnabled (enabled && (words.take i).all Word.valid)) := by
  induction n generalizing i enabled words with
  | zero => omega
  | succ n ih =>
      cases words with
      | nil => rfl
      | cons word words =>
          cases i with
          | zero => simp [enableWords]
          | succ i => simp [enableWords, ih (Nat.lt_of_succ_lt_succ hi), Bool.and_assoc]

namespace MnemonicEditor

theorem judge_words (e : MnemonicEditor l) : e.judge.words = e.words := by
  simp only [judge]
  split_ifs <;> rfl

theorem judge_size (e : MnemonicEditor l) : e.judge.size = e.size := by
  simp only [judge]
  split_ifs <;> rfl

theorem judge_passphrase (e : MnemonicEditor l) : e.judge.passphrase = e.passphrase := by
  simp only [judge]
  split_ifs <;> rfl

@[simp] theorem update_size (e : MnemonicEditor l) : e.update.size = e.size := judge_size _

theorem update_texts (e : MnemonicEditor l) :
    e.update.words.map Word.text = e.words.map Word.text := by
  rw [update, judge_words]
  exact enableWords_map Word.text Word.setEnabled_text _ _ _

/-- The phrase is complete, and libwally takes it. -/
def Accepted (e : MnemonicEditor l) : Prop :=
  e.complete = true ∧ l.validate (" ".intercalate e.mnemonic) = true ∧
    l.toSeed (" ".intercalate e.mnemonic) e.seedPassphrase = true

/-- The flags are those of the words. -/
structure Settled (e : MnemonicEditor l) : Prop where
  valid : e.valid = true ↔ e.Accepted
  enabled : ∀ (i : ℕ) (word : Word l), e.words[i]? = some word → i < e.size.count →
    (word.enabled = true ↔ ∀ before ∈ e.words.take i, before.valid = true)

theorem accepted_judge (e : MnemonicEditor l) : e.judge.Accepted ↔ e.Accepted := by
  simp only [Accepted, complete, mnemonic, seedPassphrase, judge_words, judge_size,
    judge_passphrase]

theorem judge_valid (e : MnemonicEditor l) : e.judge.valid = true ↔ e.Accepted := by
  simp only [judge, Accepted]
  split_ifs with hcomplete hvalidate hseed
  · simp [hcomplete, hvalidate, hseed]
  · simp [hseed]
  · simp [hvalidate]
  · simp [hcomplete]

theorem validBefore_iff (words : List (Word l)) (i : ℕ) :
    (∀ before ∈ words.take i, before.valid = true) ↔
      ∀ flag ∈ (words.map Word.valid).take i, flag = true := by
  rw [← List.map_take, List.forall_mem_map]

/-- Whatever it finds, `update` settles it. -/
theorem settled_update (e : MnemonicEditor l) : e.update.Settled := by
  constructor
  · exact (judge_valid e.enable).trans (accepted_judge e.enable).symm
  · intro i word hword hi
    have hvalid : e.update.words.map Word.valid = e.words.map Word.valid := by
      rw [update, judge_words]
      exact enableWords_map Word.valid Word.setEnabled_valid _ _ _
    rw [validBefore_iff, hvalid, ← validBefore_iff, ← List.all_eq_true]
    rw [update_size] at hi
    have henabled : e.update.words[i]? =
        e.words[i]?.map (Word.setEnabled ((e.words.take i).all Word.valid)) := by
      rw [update, judge_words]
      exact getElem?_enableWords hi true e.words
    rw [henabled, Option.map_eq_some_iff] at hword
    obtain ⟨old, _, rfl⟩ := hword
    rfl

theorem settled_initial (l : Wally) : (initial l).Settled := by
  constructor
  · have hcomplete : (initial l).complete = false := rfl
    have hvalid : (initial l).valid = false := rfl
    rw [Accepted, hcomplete, hvalid]
    simp
  · intro i word hword hi
    cases i with
    | zero =>
        have hzero : word = (Word.empty l).setEnabled true := by
          simpa [initial] using hword.symm
        simp [hzero, Word.setEnabled]
    | succ i =>
        have hempty : word = Word.empty l := by
          simp only [initial, List.getElem?_cons_succ] at hword
          exact List.eq_of_mem_replicate (List.mem_of_getElem? hword)
        have hfirst : (Word.empty l).setEnabled true ∈ (initial l).words.take (i + 1) := by
          simp [initial]
        rw [hempty]
        constructor
        · intro h
          exact (Bool.false_ne_true h).elim
        · intro h
          exact h _ hfirst

theorem settled_setPassphrase {e : MnemonicEditor l} (h : e.Settled) (passphrase : String) :
    (e.setPassphrase passphrase).Settled := by
  rw [setPassphrase]
  split_ifs
  · exact h
  · exact settled_update _

theorem settled_setMnemonicSize {e : MnemonicEditor l} (h : e.Settled) (size : MnemonicSize) :
    (e.setMnemonicSize size).Settled := by
  rw [setMnemonicSize]
  split_ifs
  · exact h
  · exact settled_update _

/-- A call returns at once, or it ends in `update`. -/
theorem settled_call {e : MnemonicEditor l} (h : e.Settled) (c : EditorCall) :
    (e.call c).Settled := by
  cases c with
  | wordUpdate i text =>
      simp only [call, wordUpdate]
      split_ifs
      · exact h
      · exact settled_update _
  | updateMnemonic mnemonic =>
      simp only [call, updateMnemonic]
      split_ifs
      · exact settled_update _
      · exact h
  | setMnemonicSize size => exact settled_setMnemonicSize h size
  | setPassphrase passphrase => exact settled_setPassphrase h passphrase
  | clear => exact settled_update _

/-- No word is a phrase. -/
def Single (text : String) : Prop := MnemonicSize.ofCount? (splitText text).length = none

theorem single_of_mem {text token : String} (h : token ∈ splitText text) : Single token := by
  obtain ⟨t, ht, rfl⟩ := List.mem_map.mp h
  have hone : (splitText (String.ofList t)).length = 1 := by
    rw [splitText, String.toList_ofList, tokens_of_mem_tokens ht]
    rfl
  rw [Single, hone]
  rfl

theorem single_empty : Single "" := by
  have hone : (splitText "").length = 1 := by decide
  rw [Single, hone]
  rfl

def Singles (e : MnemonicEditor l) : Prop := ∀ text ∈ e.words.map Word.text, Single text

theorem singles_update {e : MnemonicEditor l} (h : e.Singles) : e.update.Singles := by
  rw [Singles, update_texts]
  exact h

theorem singles_setPassphrase {e : MnemonicEditor l} (h : e.Singles) (passphrase : String) :
    (e.setPassphrase passphrase).Singles := by
  rw [setPassphrase]
  split_ifs
  · exact h
  · exact singles_update h

theorem singles_clear (e : MnemonicEditor l) : e.clear.Singles := by
  apply singles_update
  apply singles_setPassphrase
  intro text htext
  simp only [setAll, List.map_map, List.mem_map, Function.comp_apply, Word.setText_text] at htext
  obtain ⟨_, _, rfl⟩ := htext
  exact single_empty

theorem singles_setMnemonicSize {e : MnemonicEditor l} (h : e.Singles) (size : MnemonicSize) :
    (e.setMnemonicSize size).Singles := by
  rw [setMnemonicSize]
  split_ifs
  · exact h
  · exact singles_clear _

theorem singles_pasteWords {e : MnemonicEditor l} (h : e.Singles) (text : String) :
    (e.pasteWords (splitText text)).Singles := by
  intro token htoken
  obtain ⟨word, hword, rfl⟩ := List.mem_map.mp htoken
  rcases mem_setTexts hword with hpasted | hkept
  · exact single_of_mem hpasted
  · exact h _ (List.mem_map_of_mem hkept)

theorem singles_typeWord {e : MnemonicEditor l} (h : e.Singles) (i : Fin 27) {text : String}
    (htext : Single text) : (e.typeWord i text).Singles := by
  intro token htoken
  obtain ⟨word, hword, rfl⟩ := List.mem_map.mp htoken
  obtain ⟨j, hj⟩ := List.mem_iff_getElem?.mp hword
  rw [typeWord, List.getElem?_modify, Option.map_eq_map, Option.map_eq_some_iff] at hj
  obtain ⟨old, hold, rfl⟩ := hj
  split_ifs
  · rw [Word.setText_text]
    exact htext
  · exact h _ (List.mem_map_of_mem (List.mem_of_getElem? hold))

theorem singles_enterText {e : MnemonicEditor l} (h : e.Singles) (i : Fin 27) (text : String) :
    (e.enterText i text).Singles := by
  rw [enterText]
  cases hsize : MnemonicSize.ofCount? (splitText text).length with
  | none => exact singles_typeWord h i hsize
  | some size => exact singles_pasteWords (singles_setMnemonicSize h size) text

theorem singles_updateAt {e : MnemonicEditor l} (h : e.Singles) (i : Fin 27) (text : String) :
    (e.updateAt i text).1.Singles := by
  apply singles_update
  rw [updateWord]
  split_ifs
  · exact h
  · exact singles_enterText h i text

theorem singles_call {e : MnemonicEditor l} (h : e.Singles) (c : EditorCall) :
    (e.call c).Singles := by
  cases c with
  | wordUpdate i text =>
      simp only [call, wordUpdate]
      split_ifs
      · exact h
      · exact singles_updateAt h i text
  | updateMnemonic mnemonic =>
      simp only [call, updateMnemonic]
      split_ifs
      · exact singles_updateAt h 0 mnemonic
      · exact h
  | setMnemonicSize size => exact singles_setMnemonicSize h size
  | setPassphrase passphrase => exact singles_setPassphrase h passphrase
  | clear => exact singles_clear e

theorem singles_initial (l : Wally) : (initial l).Singles := by
  intro text htext
  have hempty : text = "" := by
    simpa [initial, Word.empty, Word.setEnabled] using htext
  rw [hempty]
  exact single_empty

/-- Every run keeps the flags and never has a phrase for a word. -/
theorem settled_after (l : Wally) (calls : List EditorCall) :
    (after l calls).Settled ∧ (after l calls).Singles := by
  have hrun : ∀ e : MnemonicEditor l, e.Settled ∧ e.Singles →
      (calls.foldl call e).Settled ∧ (calls.foldl call e).Singles := by
    induction calls with
    | nil => exact fun e h => h
    | cons c calls ih =>
        intro e h
        exact ih (e.call c) ⟨settled_call h.1 c, singles_call h.2 c⟩
  exact hrun (initial l) ⟨settled_initial l, singles_initial l⟩

theorem ofCount?_isSome {count : ℕ} :
    (MnemonicSize.ofCount? count).isSome ↔ count = 12 ∨ count = 24 ∨ count = 27 := by
  rw [MnemonicSize.ofCount?]
  split_ifs with h <;> simp [h]

theorem count_of_ofCount? {count : ℕ} {size : MnemonicSize}
    (h : MnemonicSize.ofCount? count = some size) : size.count = count := by
  rw [MnemonicSize.ofCount?] at h
  split_ifs at h
  rw [← Option.some.inj h]

theorem setPassphrase_size (passphrase : String) (e : MnemonicEditor l) :
    (e.setPassphrase passphrase).size = e.size := by
  rw [setPassphrase]
  split_ifs
  · rfl
  · exact update_size _

theorem setMnemonicSize_size (size : MnemonicSize) (e : MnemonicEditor l) :
    (e.setMnemonicSize size).size = size := by
  rw [setMnemonicSize]
  split_ifs with h
  · exact h
  · rw [clear, update_size, setPassphrase_size]
    rfl

theorem mnemonic_update (e : MnemonicEditor l) : e.update.mnemonic = e.mnemonic := by
  rw [mnemonic, mnemonic, List.map_take, List.map_take, update_texts, update_size]

theorem mnemonic_pasteWords (e : MnemonicEditor l) (texts : List String)
    (h : texts.length = e.size.count) : (e.pasteWords texts).mnemonic = texts := by
  have hlength : texts.length ≤ e.words.length := by
    have hcount := e.size.count_mem
    rw [e.length_words]
    omega
  have htexts := setTexts_text texts e.words hlength
  rw [h] at htexts
  exact htexts

/-- A phrase that is pasted into a word of the phrase takes its place. -/
theorem mnemonic_updateAt {e : MnemonicEditor l} {i : Fin 27} (hi : i < e.size.count)
    {text : String} (h : (MnemonicSize.ofCount? (splitText text).length).isSome) :
    (e.updateAt i text).1.size.count = (splitText text).length ∧
      (e.updateAt i text).1.mnemonic = splitText text := by
  obtain ⟨size, hsize⟩ := Option.isSome_iff_exists.mp h
  have hcount := count_of_ofCount? hsize
  have henter : (e.updateAt i text).1 =
      ((e.setMnemonicSize size).pasteWords (splitText text)).update := by
    rw [updateAt, updateWord, if_neg (by omega), enterText, hsize]
    rfl
  have hlength : (splitText text).length = (e.setMnemonicSize size).size.count := by
    rw [setMnemonicSize_size, hcount]
  rw [henter, update_size, mnemonic_update]
  exact ⟨hlength.symm, mnemonic_pasteWords _ _ hlength⟩

/-- The text is pasted by `update`, or into a word of the phrase. -/
def Pastes (e : MnemonicEditor l) (text : String) (c : EditorCall) : Prop :=
  c = .updateMnemonic text ∨ ∃ i : Fin 27, i < e.size.count ∧ c = .wordUpdate i text

theorem mnemonic_pastes {e : MnemonicEditor l} (h : e.Singles) {text : String} {c : EditorCall}
    (hc : e.Pastes text c) (htext : (MnemonicSize.ofCount? (splitText text).length).isSome) :
    (e.call c).size.count = (splitText text).length ∧ (e.call c).mnemonic = splitText text := by
  rcases hc with rfl | ⟨i, hi, rfl⟩
  · have hzero : ((0 : Fin 27) : ℕ) < e.size.count := by
      have hcount := e.size.count_mem
      simp only [Fin.val_zero]
      omega
    rw [call, updateMnemonic, if_pos htext]
    exact mnemonic_updateAt hzero htext
  · have hother : e.wordText i ≠ text := by
      intro hsame
      have hsingle := h (e.wordText i) (List.mem_map_of_mem (List.get_mem _ _))
      rw [hsame] at hsingle
      rw [hsingle] at htext
      exact absurd htext (by decide)
    rw [call, wordUpdate, if_neg hother]
    exact mnemonic_updateAt hi htext

/-- After every run the phrase is valid when its words are in the list and libwally takes
it, a word is enabled when those before it are in the list, and a phrase that is pasted
next replaces the one that is there. -/
theorem after_settled (l : Wally) (calls : List EditorCall) :
    ((after l calls).valid = true ↔
      (∀ text ∈ (after l calls).mnemonic, text ∈ l.wordlist) ∧
      l.validate (" ".intercalate (after l calls).mnemonic) = true ∧
      l.toSeed (" ".intercalate (after l calls).mnemonic) (after l calls).seedPassphrase = true) ∧
    (∀ (i : ℕ) (word : Word l), (after l calls).words[i]? = some word →
      i < (after l calls).size.count →
      (word.enabled = true ↔ ∀ before ∈ (after l calls).words.take i, before.text ∈ l.wordlist)) ∧
    ∀ (text : String) (c : EditorCall), (after l calls).Pastes text c →
      (splitText text).length = 12 ∨ (splitText text).length = 24 ∨
        (splitText text).length = 27 →
      (after l (calls ++ [c])).size.count = (splitText text).length ∧
      (after l (calls ++ [c])).mnemonic = splitText text := by
  obtain ⟨hsettled, hsingles⟩ := settled_after l calls
  have hcomplete : (after l calls).complete = true ↔
      ∀ text ∈ (after l calls).mnemonic, text ∈ l.wordlist := by
    rw [complete, mnemonic, List.all_eq_true, List.forall_mem_map]
    exact forall₂_congr fun word _ => word.valid_iff
  refine ⟨?_, ?_, ?_⟩
  · rw [hsettled.valid, Accepted, hcomplete]
  · intro i word hword hi
    rw [hsettled.enabled i word hword hi]
    exact forall₂_congr fun before _ => before.valid_iff
  · intro text c hc htext
    rw [after, List.foldl_append, List.foldl_cons, List.foldl_nil]
    exact mnemonic_pastes hsingles hc (ofCount?_isSome.mpr htext)

end MnemonicEditor
end GreenWallet.Controllers
