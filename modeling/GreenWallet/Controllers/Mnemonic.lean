import GreenWallet.Library.Tokens

/-!
# The mnemonic editor

The editor has 27 words, of which the first 12, 24 or 27 make up the phrase. Typing a
word, pasting a phrase, resizing and clearing end in `update`, which derives the flags
of the words and of the phrase. Signals only notify, and are left out.
-/
namespace GreenWallet.Controllers
open GreenWallet.Library

/-- What the editor takes from libwally. -/
structure Wally where
  wordlist : List String
  /-- `bip39_mnemonic_validate` returns `WALLY_OK`. -/
  validate : String → Bool
  /-- `bip39_mnemonic_to_seed` returns `WALLY_OK`. -/
  toSeed : String → Option String → Bool
  /-- BIP39 has no empty word. -/
  empty_notMem : "" ∉ wordlist

/-- `\s` of a `QRegularExpression` without Unicode properties. -/
def isSeparator (c : Char) : Bool := c = ' ' || (9 ≤ c.toNat && c.toNat ≤ 13)

/-- `QChar::isSpace`. -/
def isBlank (c : Char) : Bool :=
  isSeparator c || [0x85, 0xa0, 0x1680, 0x2028, 0x2029, 0x202f, 0x205f, 0x3000].contains c.toNat ||
    (0x2000 ≤ c.toNat && c.toNat ≤ 0x200a)

/-- `text.trimmed().split(QRegularExpression("\\s+"))`. -/
def splitText (text : String) : List String :=
  (tokens isBlank isSeparator text.toList).map String.ofList

structure MnemonicSize where
  count : ℕ
  count_mem : count = 12 ∨ count = 24 ∨ count = 27
deriving DecidableEq

/-- The size that a number of pasted words stands for. -/
def MnemonicSize.ofCount? (count : ℕ) : Option MnemonicSize :=
  if h : count = 12 ∨ count = 24 ∨ count = 27 then some ⟨count, h⟩ else none

variable {l : Wally}

structure Word (l : Wally) where
  text : String
  valid : Bool
  enabled : Bool
  suggestions : List String
  valid_iff : valid = true ↔ text ∈ l.wordlist

namespace Word

def empty (l : Wally) : Word l where
  text := ""
  valid := false
  enabled := false
  suggestions := []
  valid_iff := by simp [l.empty_notMem]

def setText (text : String) (word : Word l) : Word l :=
  if word.text = text then word
  else
    { text := text
      valid := decide (text ∈ l.wordlist)
      enabled := word.enabled
      suggestions := if 1 < text.length then
          l.wordlist.filter fun word => text.toList <+: word.toList
        else []
      valid_iff := decide_eq_true_iff }

def setEnabled (enabled : Bool) (word : Word l) : Word l := { word with enabled := enabled }

@[simp] theorem setText_text (text : String) (word : Word l) : (word.setText text).text = text := by
  by_cases h : word.text = text
  · rw [setText, if_pos h, h]
  · rw [setText, if_neg h]

@[simp] theorem setEnabled_text (enabled : Bool) (word : Word l) :
    (word.setEnabled enabled).text = word.text := rfl

@[simp] theorem setEnabled_valid (enabled : Bool) (word : Word l) :
    (word.setEnabled enabled).valid = word.valid := rfl

end Word

/-- The loop of `updateWord` over the pasted words. -/
def setTexts : List String → List (Word l) → List (Word l)
  | text :: texts, word :: words => word.setText text :: setTexts texts words
  | _, words => words

/-- The loop of `update` over the first words, with its flag. -/
def enableWords : Bool → ℕ → List (Word l) → List (Word l)
  | enabled, n + 1, word :: words =>
      word.setEnabled enabled :: enableWords (enabled && word.valid) n words
  | _, _, words => words

@[simp] theorem length_setTexts (texts : List String) (words : List (Word l)) :
    (setTexts texts words).length = words.length := by
  induction texts generalizing words with
  | nil => rfl
  | cons text texts ih =>
      cases words with
      | nil => rfl
      | cons word words => simp [setTexts, ih]

@[simp] theorem length_enableWords (enabled : Bool) (n : ℕ) (words : List (Word l)) :
    (enableWords enabled n words).length = words.length := by
  induction n generalizing enabled words with
  | zero => rfl
  | succ n ih =>
      cases words with
      | nil => rfl
      | cons word words => simp [enableWords, ih]

structure MnemonicEditor (l : Wally) where
  words : List (Word l)
  length_words : words.length = 27
  size : MnemonicSize
  valid : Bool := false
  passphrase : String := ""
  /-- `errors()["mnemonic"]`. -/
  error : Option String := none

namespace MnemonicEditor

/-- The editor as constructed. -/
def initial (l : Wally) : MnemonicEditor l where
  words := (Word.empty l).setEnabled true :: List.replicate 26 (Word.empty l)
  length_words := by simp
  size := ⟨12, by decide⟩

def wordText (e : MnemonicEditor l) (i : Fin 27) : String :=
  (e.words.get (i.cast e.length_words.symm)).text

def mnemonic (e : MnemonicEditor l) : List String := (e.words.take e.size.count).map Word.text

/-- Every word of the phrase is valid. -/
def complete (e : MnemonicEditor l) : Bool := (e.words.take e.size.count).all Word.valid

/-- The passphrase counts for the longest phrases only. -/
def seedPassphrase (e : MnemonicEditor l) : Option String :=
  if e.size.count = 27 then some e.passphrase else none

/-- The end of `update`, from where the errors are cleared. -/
def judge (e : MnemonicEditor l) : MnemonicEditor l :=
  if e.complete then
    if l.validate (" ".intercalate e.mnemonic) then
      if l.toSeed (" ".intercalate e.mnemonic) e.seedPassphrase then
        { e with valid := true, error := none }
      else { e with valid := false, error := some "invalid" }
    else { e with valid := false, error := some "invalid" }
  else { e with valid := false, error := some "incomplete" }

def enable (e : MnemonicEditor l) : MnemonicEditor l :=
  { e with
    words := enableWords true e.size.count e.words
    length_words := by simp [e.length_words] }

/-- `MnemonicEditorController::update()`. -/
def update (e : MnemonicEditor l) : MnemonicEditor l := e.enable.judge

def setPassphrase (passphrase : String) (e : MnemonicEditor l) : MnemonicEditor l :=
  if e.passphrase = passphrase then e else { e with passphrase := passphrase }.update

def setAll (text : String) (e : MnemonicEditor l) : MnemonicEditor l :=
  { e with
    words := e.words.map (Word.setText text)
    length_words := by simp [e.length_words] }

def clear (e : MnemonicEditor l) : MnemonicEditor l := ((e.setAll "").setPassphrase "").update

def setMnemonicSize (size : MnemonicSize) (e : MnemonicEditor l) : MnemonicEditor l :=
  if e.size = size then e else { e with size := size }.clear

def pasteWords (texts : List String) (e : MnemonicEditor l) : MnemonicEditor l :=
  { e with
    words := setTexts texts e.words
    length_words := by simp [e.length_words] }

def typeWord (i : Fin 27) (text : String) (e : MnemonicEditor l) : MnemonicEditor l :=
  { e with
    words := e.words.modify i (Word.setText text)
    length_words := by simp [e.length_words] }

/-- The words that `updateWord` leaves, when it has not returned at once. -/
def enterText (i : Fin 27) (text : String) (e : MnemonicEditor l) : MnemonicEditor l :=
  (MnemonicSize.ofCount? (splitText text).length).elim (e.typeWord i text) fun size =>
    (e.setMnemonicSize size).pasteWords (splitText text)

/-- The editor, and the text that the word shows then. -/
def updateWord (i : Fin 27) (text : String) (e : MnemonicEditor l) : MnemonicEditor l × String :=
  if e.size.count ≤ i then (e, text)
  else (e.enterText i text, (e.enterText i text).wordText i)

/-- `MnemonicEditorController::update(int, const QString&)`. -/
def updateAt (i : Fin 27) (text : String) (e : MnemonicEditor l) : MnemonicEditor l × String :=
  ((e.updateWord i text).1.update, (e.updateWord i text).2)

/-- `MnemonicEditorController::update(const QString&)`. -/
def updateMnemonic (mnemonic : String) (e : MnemonicEditor l) : MnemonicEditor l :=
  if (MnemonicSize.ofCount? (splitText mnemonic).length).isSome then (e.updateAt 0 mnemonic).1
  else e

/-- `Word::update`. -/
def wordUpdate (i : Fin 27) (text : String) (e : MnemonicEditor l) : MnemonicEditor l × String :=
  if e.wordText i = text then (e, e.wordText i) else e.updateAt i text

end MnemonicEditor

/-- What is called from outside. -/
inductive EditorCall where
  | wordUpdate (i : Fin 27) (text : String)
  | updateMnemonic (mnemonic : String)
  | setMnemonicSize (size : MnemonicSize)
  | setPassphrase (passphrase : String)
  | clear

namespace MnemonicEditor

def call (e : MnemonicEditor l) : EditorCall → MnemonicEditor l
  | .wordUpdate i text => (e.wordUpdate i text).1
  | .updateMnemonic mnemonic => e.updateMnemonic mnemonic
  | .setMnemonicSize size => e.setMnemonicSize size
  | .setPassphrase passphrase => e.setPassphrase passphrase
  | .clear => e.clear

/-- The editor after a sequence of calls. -/
def after (l : Wally) (calls : List EditorCall) : MnemonicEditor l := calls.foldl call (initial l)

end MnemonicEditor
end GreenWallet.Controllers
