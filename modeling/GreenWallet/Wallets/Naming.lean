import GreenWallet.Library.Fresh
import GreenWallet.Library.Markers

/-!
# The name of a new wallet

A name that is taken gets a number. The name is put together by `QString::arg`, which
looks for markers in the base as well.
-/
namespace GreenWallet.Wallets
open GreenWallet.Library

variable (l : QLocale)

/-- `QString("%1 %2").arg(base).arg(n)`. -/
def numberedName (base : String) (n : ℕ) : String :=
  String.ofList (l.arg (l.arg "%1 %2".toList base.toList base.toList)
    (toString n).toList (l.number n))

/-- The loop of `uniqueWalletName`; there is no name when it is still running after the
given number of rounds. -/
def searchName (names : List String) (base : String) : ℕ → ℕ → String → Option String
  | 0, _, _ => none
  | rounds + 1, n, name =>
      if name ∈ names then searchName names base rounds (n + 1) (numberedName l base (n + 1))
      else some name

/-- `WalletManager::uniqueWalletName`. -/
def uniqueWalletName (wallets : List String) (base : String) (rounds : ℕ) : Option String :=
  searchName l (wallets.filter fun name => base.toList <+: name.toList) base rounds 0 base

/-- The name after some rounds. -/
def nameAfter (base : String) : ℕ → String
  | 0 => base
  | n + 1 => numberedName l base (n + 1)

/-- The names of the rounds are a sequence, in which the loop looks for the first free one. -/
theorem searchName_eq_firstFree (names : List String) (base : String) (rounds n : ℕ) :
    searchName l names base rounds n (nameAfter l base n) =
      firstFree (nameAfter l base) names rounds n := by
  induction rounds generalizing n with
  | zero => rfl
  | succ rounds ih =>
      rw [searchName, firstFree, ← ih (n + 1)]
      rfl

theorem digit_one : l.digit '1' = some 1 := l.digit_ascii '1' (by decide)

theorem digit_two : l.digit '2' = some 2 := l.digit_ascii '2' (by decide)

theorem pieces_first :
    l.pieces "%1 %2".toList =
      [.marker false 1 ['%', '1'], .plain ' ', .marker false 2 ['%', '2']] := by
  simp [QLocale.pieces, QLocale.piecesFrom, QLocale.readMarker, QLocale.readEscape,
    QLocale.readNumber, QLocale.secondDigit, digit_one, digit_two, l.digit_blank, Piece.text]

theorem pieces_second :
    l.pieces " %2".toList = [.plain ' ', .marker false 2 ['%', '2']] := by
  simp [QLocale.pieces, QLocale.piecesFrom, QLocale.readMarker, QLocale.readEscape,
    QLocale.readNumber, QLocale.secondDigit, digit_two, Piece.text]

/-- The first `arg` puts the base in front of the marker of the number. -/
theorem arg_first (base : List Char) :
    l.arg "%1 %2".toList base base = base ++ " %2".toList := by
  rw [QLocale.arg, QLocale.markers, pieces_first]
  have hmin : [1, 2].min? = some 1 := by decide
  have hnumbers : List.filterMap Piece.number?
      [.marker false 1 ['%', '1'], .plain ' ', .marker false 2 ['%', '2']] = [1, 2] := rfl
  rw [hnumbers, hmin]
  rfl

theorem markers_second (base : List Char) :
    l.markers (base ++ " %2".toList) = l.markers base ++ [2] := by
  have hpieces : l.pieces (base ++ " %2".toList) = l.pieces base ++ l.pieces " %2".toList :=
    l.pieces_blank base ['%', '2']
  rw [QLocale.markers, hpieces, pieces_second, List.filterMap_append]
  rfl

theorem arg_second {m : ℕ} {base : List Char} (value localized : List Char)
    (hm : (l.markers base ++ [2]).min? = some m) :
    l.arg (base ++ " %2".toList) value localized =
      (l.pieces base).flatMap (Piece.fill m value localized) ++
        (l.pieces " %2".toList).flatMap (Piece.fill m value localized) := by
  have hpieces : l.pieces (base ++ " %2".toList) = l.pieces base ++ l.pieces " %2".toList :=
    l.pieces_blank base ['%', '2']
  rw [QLocale.arg, markers_second, hm, Option.elim_some, hpieces, List.flatMap_append]

/-- A base without a marker up to `%2` is followed by the number. -/
theorem numberedName_plain {base : String} (h : ∀ m ∈ l.markers base.toList, 2 < m) (n : ℕ) :
    numberedName l base n = String.ofList (base.toList ++ ' ' :: (toString n).toList) := by
  have hmin : (l.markers base.toList ++ [2]).min? = some 2 := by
    rw [List.min?_eq_some_iff]
    constructor
    · simp
    · intro m hm
      rcases List.mem_append.mp hm with hbase | hlast
      · exact Nat.le_of_lt (h m hbase)
      · rw [List.mem_singleton.mp hlast]
  have hnone : 2 ∉ l.markers base.toList := fun h2 => Nat.lt_irrefl 2 (h 2 h2)
  have hlast : (l.pieces " %2".toList).flatMap (Piece.fill 2 (toString n).toList (l.number n)) =
      ' ' :: (toString n).toList := by
    rw [pieces_second]
    simp [Piece.fill]
  rw [numberedName, arg_first, arg_second l _ _ hmin, QLocale.flatMap_fill_of_ne hnone, hlast]

theorem toString_head (n : ℕ) : (toString n).toList.head?.any fun c => c ≠ '%' := by
  rw [Nat.toString_eq_ofList_toDigits, String.toList_ofList]
  cases hdigits : Nat.toDigits 10 n with
  | nil => exact (Nat.toDigits_ne_nil hdigits).elim
  | cons c cs =>
      have hmem : c ∈ Nat.toDigits 10 n := hdigits ▸ List.mem_cons_self
      have hdigit := Nat.isDigit_of_mem_toDigits (by decide) (by decide) hmem
      have hne : c ≠ '%' := by
        intro hc
        rw [hc] at hdigit
        exact absurd hdigit (by decide)
      simpa using hne

/-- A base with a marker up to `%2` is no longer what the name begins with. -/
theorem numberedName_marked {base : String} (h : ∃ m ∈ l.markers base.toList, m ≤ 2) (n : ℕ) :
    ¬ base.toList <+: (numberedName l base n).toList := by
  obtain ⟨m, hm, hle⟩ := h
  have hne : l.markers base.toList ++ [2] ≠ [] := List.append_ne_nil_of_right_ne_nil _ (by simp)
  obtain ⟨k, hk⟩ := Option.isSome_iff_exists.mp (List.isSome_min?_of_ne_nil hne)
  have hmem : k ∈ l.markers base.toList := by
    rw [List.min?_eq_some_iff] at hk
    have hkm : k ≤ m := hk.2 m (List.mem_append_left _ hm)
    rcases List.mem_append.mp hk.1 with hbase | hlast
    · exact hbase
    · have hk2 : k = 2 := List.mem_singleton.mp hlast
      have hm2 : m = k := by omega
      rwa [← hm2]
  rw [numberedName, arg_first, arg_second l _ _ hk, String.toList_ofList]
  exact QLocale.not_prefix_fill hmem (toString_head n) (l.number_head n) _

theorem nameAfter_injective {base : String} (h : ∀ m ∈ l.markers base.toList, 2 < m) :
    Function.Injective (nameAfter l base) := by
  have hlong : ∀ n, base ≠ nameAfter l base (n + 1) := by
    intro n hn
    have hlength := congrArg (fun s => s.toList.length) hn
    simp [nameAfter, numberedName_plain l h] at hlength
  intro i j hij
  cases i with
  | zero =>
      cases j with
      | zero => rfl
      | succ j => exact (hlong j hij).elim
  | succ i =>
      cases j with
      | zero => exact (hlong i hij.symm).elim
      | succ j =>
          have hlists := congrArg String.toList hij
          simp only [nameAfter, numberedName_plain l h, String.toList_ofList,
            List.append_cancel_left_eq, List.cons.injEq, true_and] at hlists
          exact toString_toList_injective hlists

/-- A base without a marker up to `%2` gives ever new names, all of which begin with it. -/
theorem uniqueWalletName_plain {base : String} (h : ∀ m ∈ l.markers base.toList, 2 < m)
    (wallets : List String) : ∃ name enough,
      (∀ rounds > enough, uniqueWalletName l wallets base rounds = some name) ∧
      name ∉ wallets ∧ (base ∉ wallets → name = base) := by
  have hbegin : ∀ n, base.toList <+: (nameAfter l base n).toList := by
    intro n
    cases n with
    | zero => exact List.prefix_refl _
    | succ n => simp [nameAfter, numberedName_plain l h]
  obtain ⟨k, -, hfree, htaken, hfound⟩ := exists_firstFree (n := 0)
    (nameAfter_injective l h).injOn (wallets.filter fun name => base.toList <+: name.toList)
  refine ⟨nameAfter l base k, _, fun rounds hrounds =>
    (searchName_eq_firstFree l _ base rounds 0).trans (hfound rounds hrounds), ?_, ?_⟩
  · intro hmem
    exact hfree (List.mem_filter.mpr ⟨hmem, by simpa using hbegin k⟩)
  · intro hbase
    cases k with
    | zero => rfl
    | succ k => exact (hbase (List.mem_of_mem_filter (htaken 0 (Nat.le_refl 0) (Nat.succ_pos k)))).elim

/-- A base with such a marker gives the first numbered name, taken or not, once it is
taken itself. -/
theorem uniqueWalletName_marked {base : String} (h : ∃ m ∈ l.markers base.toList, m ≤ 2)
    {wallets : List String} (hbase : base ∈ wallets) {rounds : ℕ} (hrounds : 1 < rounds) :
    uniqueWalletName l wallets base rounds = some (numberedName l base 1) := by
  have htaken : ∀ j, 0 ≤ j → j < 1 → nameAfter l base j ∈
      wallets.filter fun name => base.toList <+: name.toList := by
    intro j _ hj
    have hj0 : j = 0 := by omega
    rw [hj0]
    exact List.mem_filter.mpr ⟨hbase, by simp [nameAfter]⟩
  have hfree : nameAfter l base 1 ∉ wallets.filter fun name => base.toList <+: name.toList := by
    intro hmem
    have hbegin := (List.mem_filter.mp hmem).2
    exact numberedName_marked l h 1 (by simpa [nameAfter] using hbegin)
  exact (searchName_eq_firstFree l _ base rounds 0).trans
    (firstFree_eq htaken hfree (Nat.zero_le 1) (by omega))

theorem uniqueWalletName_free {base : String} {wallets : List String} (hbase : base ∉ wallets)
    {rounds : ℕ} (hrounds : 0 < rounds) :
    uniqueWalletName l wallets base rounds = some base := by
  have hfree : nameAfter l base 0 ∉ wallets.filter fun name => base.toList <+: name.toList :=
    fun hmem => hbase (List.mem_of_mem_filter hmem)
  exact (searchName_eq_firstFree l _ base rounds 0).trans
    (firstFree_eq (by omega) hfree (Nat.le_refl 0) (by omega))

/-- The search ends. Its name is a new one, and the base where that is free, exactly when
the base is free, or has no marker up to `%2`, or the first numbered name is free. -/
theorem uniqueWalletName_new_iff (wallets : List String) (base : String) : ∃ name enough,
    (∀ rounds > enough, uniqueWalletName l wallets base rounds = some name) ∧
    ((name ∉ wallets ∧ (base ∉ wallets → name = base)) ↔
      base ∉ wallets ∨ (∀ m ∈ l.markers base.toList, 2 < m) ∨
        numberedName l base 1 ∉ wallets) := by
  by_cases hplain : ∀ m ∈ l.markers base.toList, 2 < m
  · obtain ⟨name, enough, hname, hnew⟩ := uniqueWalletName_plain l hplain wallets
    exact ⟨name, enough, hname, fun _ => .inr (.inl hplain), fun _ => hnew⟩
  · have hmarked : ∃ m ∈ l.markers base.toList, m ≤ 2 := by
      push Not at hplain
      exact hplain
    by_cases hbase : base ∈ wallets
    · refine ⟨_, 1, fun rounds hrounds => uniqueWalletName_marked l hmarked hbase hrounds, ?_⟩
      simp [hbase, hplain]
    · refine ⟨base, 0, fun rounds hrounds => uniqueWalletName_free l hbase hrounds, ?_⟩
      simp [hbase]

/-- The digits of ASCII, and numbers written without separators. -/
def plainLocale : QLocale where
  digit c := if c.isDigit then some (c.toNat - 48) else none
  number n := (toString n).toList
  digit_ascii := fun _ _ => rfl
  number_head := toString_head

/-- The third login of one user name: the second wallet got this name already. -/
theorem uniqueWalletName_taken :
    ¬ ∀ (l : QLocale) (wallets : List String) (base : String), ∃ name enough,
      (∀ rounds > enough, uniqueWalletName l wallets base rounds = some name) ∧
      name ∉ wallets ∧ (base ∉ wallets → name = base) := by
  intro h
  obtain ⟨name, enough, hname, hnew, -⟩ :=
    h plainLocale ["%1 Watch-only", "1 Watch-only %2"] "%1 Watch-only"
  have hfirst : uniqueWalletName plainLocale ["%1 Watch-only", "1 Watch-only %2"]
      "%1 Watch-only" (enough + 2) = some (numberedName plainLocale "%1 Watch-only" 1) :=
    uniqueWalletName_marked _ (by decide +kernel) (by decide) (by omega)
  rw [hname (enough + 2) (by omega), Option.some.injEq] at hfirst
  rw [hfirst] at hnew
  exact hnew (by decide +kernel)

end GreenWallet.Wallets
