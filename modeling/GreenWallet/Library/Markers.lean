import Mathlib.Data.List.Basic
import Mathlib.Data.Nat.Basic

/-!
# Numbered markers in a text

`%1`, `%12` and `%L1` are markers. An argument takes the place of every marker of the
lowest number there is, so a text that is put in with markers of its own takes part in
the next replacement.
-/
namespace GreenWallet.Library

/-- What depends on the platform: the decimal digits of all scripts, and how a locale
writes a number. -/
structure QLocale where
  digit : Char → Option ℕ
  number : ℕ → List Char
  digit_ascii : ∀ c : Char, c.toNat < 128 →
    digit c = if c.isDigit then some (c.toNat - 48) else none
  number_head : ∀ n, (number n).head?.any fun c => c ≠ '%'

/-- A text is read as characters that stand for themselves and markers. -/
inductive Piece where
  | plain (c : Char)
  | marker (localized : Bool) (number : ℕ) (text : List Char)
deriving DecidableEq, Repr

namespace Piece

def text : Piece → List Char
  | plain c => [c]
  | marker _ _ text => text

def number? : Piece → Option ℕ
  | plain _ => none
  | marker _ number _ => some number

/-- What stands in the place of a piece when the markers of one number are replaced. -/
def fill (n : ℕ) (arg localized : List Char) : Piece → List Char
  | plain c => [c]
  | marker l number text => if number = n then (if l then localized else arg) else text

theorem fill_of_ne {n : ℕ} {p : Piece} (h : p.number? ≠ some n) (arg localized : List Char) :
    p.fill n arg localized = p.text := by
  cases p with
  | plain c => rfl
  | marker l number text =>
      apply if_neg
      intro hn
      exact h (congrArg some hn)

end Piece

namespace QLocale
variable (l : QLocale)

def secondDigit (d : ℕ) (c : Char) : List Char → ℕ × List Char
  | [] => (d, [c])
  | c' :: _ => (l.digit c').elim (d, [c]) fun e => (10 * d + e, [c, c'])

/-- One digit, or two. -/
def readNumber : List Char → Option (ℕ × List Char)
  | [] => none
  | c :: cs => (l.digit c).map fun d => l.secondDigit d c cs

/-- What follows a `%`. -/
def readEscape : List Char → Option Piece
  | [] => none
  | c :: cs =>
      if c = 'L' then (l.readNumber cs).map fun r => .marker true r.1 ('%' :: 'L' :: r.2)
      else (l.readNumber (c :: cs)).map fun r => .marker false r.1 ('%' :: r.2)

/-- The marker that a text begins with. -/
def readMarker : List Char → Option Piece
  | [] => none
  | c :: cs => if c = '%' then l.readEscape cs else none

/-- The pieces of a text, the first `skip` characters of which have been read. -/
def piecesFrom : ℕ → List Char → List Piece
  | _, [] => []
  | skip + 1, _ :: cs => piecesFrom skip cs
  | 0, c :: cs =>
      (l.readMarker (c :: cs)).elim (.plain c :: piecesFrom 0 cs) fun m =>
        m :: piecesFrom (m.text.length - 1) cs

def pieces (s : List Char) : List Piece := l.piecesFrom 0 s

/-- The numbers of the markers of a text. -/
def markers (s : List Char) : List ℕ := (l.pieces s).filterMap Piece.number?

/-- `QString::arg`. Without a marker the text is left as it is. -/
def arg (s value localized : List Char) : List Char :=
  (l.markers s).min?.elim s fun n => (l.pieces s).flatMap (Piece.fill n value localized)

section Reading
variable {l}

theorem readNumber_prefix {s : List Char} {r : ℕ × List Char} (h : l.readNumber s = some r) :
    r.2 <+: s := by
  cases s with
  | nil => simp [readNumber] at h
  | cons c cs =>
      simp only [readNumber, Option.map_eq_some_iff] at h
      obtain ⟨d, _, rfl⟩ := h
      cases cs with
      | nil => exact List.prefix_refl _
      | cons c' cs =>
          cases hd : l.digit c' with
          | none => simp [secondDigit, hd]
          | some e => simp [secondDigit, hd]

/-- A marker is a part of the text and begins with `%`. -/
theorem readMarker_eq_some {s : List Char} {m : Piece} (h : l.readMarker s = some m) :
    m.text <+: s ∧ (∃ cs, m.text = '%' :: cs) ∧ m.number?.isSome := by
  cases s with
  | nil => simp [readMarker] at h
  | cons c cs =>
      simp only [readMarker] at h
      split_ifs at h with hc
      subst hc
      cases cs with
      | nil => simp [readEscape] at h
      | cons c cs =>
          simp only [readEscape] at h
          split_ifs at h with hL
          · subst hL
            rw [Option.map_eq_some_iff] at h
            obtain ⟨r, hr, rfl⟩ := h
            have hprefix := readNumber_prefix hr
            simp [Piece.text, Piece.number?, hprefix]
          · rw [Option.map_eq_some_iff] at h
            obtain ⟨r, hr, rfl⟩ := h
            have hprefix := readNumber_prefix hr
            simp [Piece.text, Piece.number?, hprefix]

end Reading

/-- The pieces spell the text. -/
theorem flatMap_text_piecesFrom (k : ℕ) (s : List Char) :
    (l.piecesFrom k s).flatMap Piece.text = s.drop k := by
  induction s generalizing k with
  | nil => simp [piecesFrom]
  | cons c cs ih =>
      cases k with
      | succ k => simp [piecesFrom, ih]
      | zero =>
          cases hm : l.readMarker (c :: cs) with
          | none => simp [piecesFrom, hm, ih, Piece.text]
          | some m =>
              obtain ⟨⟨rest, hrest⟩, ⟨ms, hms⟩, _⟩ := readMarker_eq_some hm
              have hdrop : (ms ++ rest).drop ms.length = rest := by simp
              rw [hms, List.cons_append, List.cons.injEq] at hrest
              simp only [piecesFrom, hm, Option.elim_some, List.flatMap_cons, ih, hms,
                List.length_cons, Nat.add_sub_cancel, List.drop_zero]
              rw [← hrest.1, ← hrest.2, hdrop, List.cons_append]

theorem flatMap_text_pieces (s : List Char) : (l.pieces s).flatMap Piece.text = s :=
  l.flatMap_text_piecesFrom 0 s

section Blank

theorem digit_blank : l.digit ' ' = none := l.digit_ascii ' ' (by decide)

theorem readNumber_blank (s t : List Char) : l.readNumber (s ++ ' ' :: t) = l.readNumber s := by
  cases s with
  | nil => simp [readNumber, l.digit_blank]
  | cons c cs =>
      cases cs with
      | nil => simp [readNumber, secondDigit, l.digit_blank]
      | cons c' cs => rfl

theorem readMarker_blank (c : Char) (s t : List Char) :
    l.readMarker (c :: (s ++ ' ' :: t)) = l.readMarker (c :: s) := by
  have hescape : l.readEscape (s ++ ' ' :: t) = l.readEscape s := by
    cases s with
    | nil => simp [readEscape, readNumber, l.digit_blank]
    | cons c' s =>
        simp only [readEscape, List.cons_append]
        rw [readNumber_blank, ← List.cons_append, readNumber_blank]
  simp only [readMarker, hescape]

/-- No marker reaches over a blank. -/
theorem piecesFrom_blank (k : ℕ) (s t : List Char) (hk : k ≤ s.length) :
    l.piecesFrom k (s ++ ' ' :: t) = l.piecesFrom k s ++ l.pieces (' ' :: t) := by
  induction s generalizing k with
  | nil =>
      have h0 : k = 0 := by simpa using hk
      subst h0
      rfl
  | cons c cs ih =>
      cases k with
      | succ k =>
          rw [List.length_cons] at hk
          exact ih k (by omega)
      | zero =>
          rw [List.cons_append]
          simp only [piecesFrom, readMarker_blank]
          cases hm : l.readMarker (c :: cs) with
          | none => simp [ih 0 (Nat.zero_le _)]
          | some m =>
              have hlength := (readMarker_eq_some hm).1.length_le
              rw [List.length_cons] at hlength
              simp [ih (m.text.length - 1) (by omega)]

theorem pieces_blank (s t : List Char) :
    l.pieces (s ++ ' ' :: t) = l.pieces s ++ l.pieces (' ' :: t) :=
  l.piecesFrom_blank 0 s t (Nat.zero_le _)

end Blank

section Replacing
variable {l}

theorem flatMap_fill_of_ne {n : ℕ} {s : List Char} (h : n ∉ l.markers s)
    (value localized : List Char) :
    (l.pieces s).flatMap (Piece.fill n value localized) = s := by
  have hfill : ∀ p ∈ l.pieces s, Piece.fill n value localized p = p.text := by
    intro p hp
    apply Piece.fill_of_ne
    intro hn
    exact h (List.mem_filterMap.mpr ⟨p, hp, hn⟩)
  rw [List.flatMap_congr hfill, flatMap_text_pieces]

/-- Every piece is a character or begins with `%`. -/
theorem text_of_mem_pieces {s : List Char} {p : Piece} (hp : p ∈ l.pieces s)
    (hmarker : p.number?.isSome) : ∃ cs, p.text = '%' :: cs := by
  have hall : ∀ (k : ℕ) (s : List Char), ∀ p ∈ l.piecesFrom k s, p.number?.isSome →
      ∃ cs, p.text = '%' :: cs := by
    intro k s
    induction s generalizing k with
    | nil => simp [piecesFrom]
    | cons c cs ih =>
        intro p hp hmarker
        cases k with
        | succ k => exact ih k p hp hmarker
        | zero =>
            cases hm : l.readMarker (c :: cs) with
            | none =>
                simp only [piecesFrom, hm, Option.elim_none, List.mem_cons] at hp
                rcases hp with hfirst | hrest
                · simp [hfirst, Piece.number?] at hmarker
                · exact ih 0 p hrest hmarker
            | some m =>
                simp only [piecesFrom, hm, Option.elim_some, List.mem_cons] at hp
                rcases hp with hfirst | hrest
                · rw [hfirst]
                  exact (readMarker_eq_some hm).2.1
                · exact ih _ p hrest hmarker
  exact hall 0 s p hp hmarker

theorem head_fill_of_eq {n : ℕ} {p : Piece} {value localized : List Char}
    (hp : p.number? = some n) (hvalue : value.head?.any fun c => c ≠ '%')
    (hlocalized : localized.head?.any fun c => c ≠ '%') :
    (p.fill n value localized).head?.any fun c => c ≠ '%' := by
  cases p with
  | plain c => simp [Piece.number?] at hp
  | marker local? number text =>
      have hn : number = n := by simpa [Piece.number?] using hp
      rw [Piece.fill, if_pos hn]
      cases local? with
      | true => exact hlocalized
      | false => exact hvalue

/-- Where a marker was, the replaced text goes another way: it no longer begins with
the text it was made from. -/
theorem not_prefix_fill {n : ℕ} {s value localized : List Char} (h : n ∈ l.markers s)
    (hvalue : value.head?.any fun c => c ≠ '%')
    (hlocalized : localized.head?.any fun c => c ≠ '%') (t : List Char) :
    ¬ s <+: (l.pieces s).flatMap (Piece.fill n value localized) ++ t := by
  have hall : ∀ ps : List Piece, (∀ p ∈ ps, p.number?.isSome → ∃ cs, p.text = '%' :: cs) →
      n ∈ ps.filterMap Piece.number? →
      ¬ ps.flatMap Piece.text <+: ps.flatMap (Piece.fill n value localized) ++ t := by
    intro ps hps hn
    induction ps with
    | nil => simp at hn
    | cons p ps ih =>
        rw [List.flatMap_cons, List.flatMap_cons, List.append_assoc]
        by_cases hp : p.number? = some n
        · obtain ⟨cs, hcs⟩ := hps p List.mem_cons_self (by simp [hp])
          have hhead := head_fill_of_eq hp hvalue hlocalized
          rw [hcs, List.cons_append]
          intro hprefix
          cases hfill : p.fill n value localized with
          | nil => simp [hfill] at hhead
          | cons c ds =>
              rw [hfill, List.cons_append, List.cons_prefix_cons] at hprefix
              simp [hfill, ← hprefix.1] at hhead
        · rw [Piece.fill_of_ne hp, List.prefix_append_right_inj]
          apply ih fun q hq => hps q (List.mem_cons_of_mem p hq)
          simpa [List.mem_filterMap, hp] using hn
  have hnot := hall (l.pieces s) (fun p hp => text_of_mem_pieces hp) h
  rwa [flatMap_text_pieces] at hnot

end Replacing

end QLocale
end GreenWallet.Library
