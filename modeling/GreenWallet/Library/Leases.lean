import Mathlib.Data.List.Nodup
import Mathlib.Logic.Function.Basic
import GreenWallet.Library.Reactive

/-!
# Numbers that are leased once

Owners take numbers from a counter and give them back, and a number given back is not taken
again. A table finds the owner by the number, and a list may keep the numbers given back.
-/
namespace GreenWallet.Library

structure Leases (α : Type*) where
  next : ℕ
  holds : α → Option ℕ

namespace Leases
variable {α : Type*} [DecidableEq α]

def lease (a : α) (l : Leases α) : Leases α where
  next := l.next + 1
  holds := Function.update l.holds a (some l.next)

def release (a : α) (l : Leases α) : Leases α where
  next := l.next
  holds := Function.update l.holds a none

/-- The numbers held come from the counter, and no two owners hold the same. -/
structure Kept (l : Leases α) : Prop where
  lt_next : ∀ a n, l.holds a = some n → n < l.next
  owner : ∀ a b n, l.holds a = some n → l.holds b = some n → a = b

theorem holds_lease (l : Leases α) (a b : α) :
    (l.lease a).holds b = if b = a then some l.next else l.holds b := Function.update_apply _ _ _ _

theorem holds_release (l : Leases α) (a b : α) :
    (l.release a).holds b = if b = a then none else l.holds b := Function.update_apply _ _ _ _

theorem Kept.lease {l : Leases α} (hl : l.Kept) (a : α) : (l.lease a).Kept where
  lt_next := by
    intro b n hb
    rw [holds_lease] at hb
    split_ifs at hb with hba
    · rw [← Option.some.inj hb]
      exact Nat.lt_succ_self l.next
    · exact Nat.lt_succ_of_lt (hl.lt_next b n hb)
  owner := by
    intro b c n hb hc
    rw [holds_lease] at hb hc
    split_ifs at hb hc with hba hca hca
    · rw [hba, hca]
    · have := hl.lt_next c n hc
      have := Option.some.inj hb
      omega
    · have := hl.lt_next b n hb
      have := Option.some.inj hc
      omega
    · exact hl.owner b c n hb hc

theorem Kept.release {l : Leases α} (hl : l.Kept) (a : α) : (l.release a).Kept where
  lt_next := by
    intro b n hb
    rw [holds_release] at hb
    split_ifs at hb
    exact hl.lt_next b n hb
  owner := by
    intro b c n hb hc
    rw [holds_release] at hb hc
    split_ifs at hb hc
    exact hl.owner b c n hb hc

/-! ### The table -/

/-- The table finds the owner of each number that is held. -/
def Finds (table : ℕ → Option α) (l : Leases α) : Prop :=
  ∀ n a, table n = some a ↔ l.holds a = some n

theorem Finds.lease {table : ℕ → Option α} {l : Leases α} (ht : Finds table l) (hl : l.Kept)
    {a : α} (ha : l.holds a = none) :
    Finds (Function.update table l.next (some a)) (l.lease a) := by
  intro n b
  rw [holds_lease, Function.update_apply]
  by_cases hn : n = l.next
  · by_cases hb : b = a
    · simp [hn, hb]
    · have hfree : l.holds b ≠ some n := by
        intro h
        have := hl.lt_next b n h
        omega
      simp [hn, Ne.symm hb, hb, hn ▸ hfree]
  · by_cases hb : b = a
    · have htable : table n ≠ some a := by
        intro h
        rw [ht n a, ha] at h
        cases h
      simp [hn, hb, htable, Ne.symm hn]
    · simp [hn, hb, ht n b]

theorem Finds.release {table : ℕ → Option α} {l : Leases α} (ht : Finds table l) (hl : l.Kept)
    {a : α} {n : ℕ} (ha : l.holds a = some n) :
    Finds (Function.update table n none) (l.release a) := by
  intro m b
  rw [holds_release, Function.update_apply]
  by_cases hm : m = n
  · by_cases hb : b = a
    · simp [hm, hb]
    · have hother : l.holds b ≠ some n := fun h => hb (hl.owner b a n h ha)
      simp [hm, hb, hother]
  · by_cases hb : b = a
    · have htable : table m ≠ some a := by
        intro h
        rw [ht m a, ha] at h
        exact hm (Option.some.inj h).symm
      simp [hm, hb, htable]
    · simp [hm, hb, ht m b]

/-! ### What is given back -/

/-- The list has the numbers given back, each once. -/
structure Ended (ended : List ℕ) (l : Leases α) : Prop where
  nodup : ended.Nodup
  lt_next : ∀ n ∈ ended, n < l.next
  open_iff : ∀ n, n < l.next ∧ n ∉ ended ↔ ∃ a, l.holds a = some n

theorem Ended.lease {ended : List ℕ} {l : Leases α} (he : Ended ended l) (hl : l.Kept)
    {a : α} (ha : l.holds a = none) : Ended ended (l.lease a) where
  nodup := he.nodup
  lt_next := fun n hn => Nat.lt_succ_of_lt (he.lt_next n hn)
  open_iff := by
    intro n
    have hnew : l.next ∉ ended := fun h => Nat.lt_irrefl _ (he.lt_next _ h)
    constructor
    · intro ⟨hlt, hn⟩
      by_cases hnext : n = l.next
      · exact ⟨a, by rw [holds_lease, if_pos rfl, hnext]⟩
      · have hold : n < l.next := by
          have hsucc : n < l.next + 1 := hlt
          omega
        obtain ⟨b, hb⟩ := (he.open_iff n).mp ⟨hold, hn⟩
        have hba : b ≠ a := by
          intro h
          rw [h, ha] at hb
          cases hb
        exact ⟨b, by rw [holds_lease, if_neg hba, hb]⟩
    · intro ⟨b, hb⟩
      refine ⟨(hl.lease a).lt_next b n hb, ?_⟩
      rw [holds_lease] at hb
      split_ifs at hb with hba
      · rw [← Option.some.inj hb]
        exact hnew
      · exact ((he.open_iff n).mpr ⟨b, hb⟩).2

theorem Ended.release {ended : List ℕ} {l : Leases α} (he : Ended ended l) (hl : l.Kept)
    {a : α} {n : ℕ} (ha : l.holds a = some n) : Ended (ended ++ [n]) (l.release a) where
  nodup := by
    have hn := ((he.open_iff n).mpr ⟨a, ha⟩).2
    rw [List.nodup_append]
    refine ⟨he.nodup, List.nodup_singleton n, ?_⟩
    intro m hm k hk hmk
    rw [List.mem_singleton.mp hk] at hmk
    exact hn (hmk ▸ hm)
  lt_next := by
    intro m hm
    cases List.mem_append.mp hm with
    | inl hm => exact he.lt_next m hm
    | inr hm => exact List.mem_singleton.mp hm ▸ hl.lt_next a n ha
  open_iff := by
    intro m
    rw [List.mem_append, List.mem_singleton, not_or, ← and_assoc]
    constructor
    · intro ⟨hopen, hm⟩
      obtain ⟨b, hb⟩ := (he.open_iff m).mp hopen
      have hba : b ≠ a := by
        intro h
        rw [h, ha] at hb
        exact hm (Option.some.inj hb).symm
      exact ⟨b, by rw [holds_release, if_neg hba, hb]⟩
    · intro ⟨b, hb⟩
      rw [holds_release] at hb
      split_ifs at hb with hba
      refine ⟨(he.open_iff m).mpr ⟨b, hb⟩, ?_⟩
      intro hm
      rw [hm] at hb
      exact hba (hl.owner b a n hb ha)

/-! ### Runs -/

/-- The counter has only gone on, and who holds a number that had been taken has held it before. -/
structure Later (l l' : Leases α) : Prop where
  next_le : l.next ≤ l'.next
  held_before : ∀ a n, n < l.next → l'.holds a = some n → l.holds a = some n

omit [DecidableEq α] in
theorem Later.same (l : Leases α) : Later l l := ⟨Nat.le_refl _, fun _ _ _ h => h⟩

omit [DecidableEq α] in
theorem Later.trans {l l' l'' : Leases α} (h : Later l l') (h' : Later l' l'') : Later l l'' where
  next_le := Nat.le_trans h.next_le h'.next_le
  held_before := by
    intro a n hn ha
    have hbetween := h'.held_before a n (Nat.lt_of_lt_of_le hn h.next_le) ha
    exact h.held_before a n hn hbetween

theorem Later.lease (l : Leases α) (a : α) : Later l (l.lease a) where
  next_le := Nat.le_succ _
  held_before := by
    intro b n hn hb
    rw [holds_lease] at hb
    split_ifs at hb
    · have := Option.some.inj hb
      omega
    · exact hb

theorem Later.release (l : Leases α) (a : α) : Later l (l.release a) where
  next_le := Nat.le_refl _
  held_before := by
    intro b n _ hb
    rw [holds_release] at hb
    split_ifs at hb
    exact hb

section
variable {σ ε ω : Type*} {R : Reactive σ ε ω} {J : σ → Prop} {V : σ → ε → Prop}
  {leases : σ → Leases α} (hJ : ∀ s e, J s → V s e → J (R.next s e))
  (hstep : ∀ s e, J s → V s e → Later (leases s) (leases (R.next s e)))
omit [DecidableEq α]
include hJ hstep

theorem run_later {s : σ} (hs : J s) {es : List ε} (hes : R.Along V s es) :
    Later (leases s) (leases (R.run s es)) := by
  induction es generalizing s with
  | nil => exact .same _
  | cons e es ih => exact (hstep s e hs hes.1).trans (ih (hJ s e hs hes.1) hes.2)

/-- A number is leased once: who holds it later is who has held it all the time since. -/
theorem run_leased_once {s : σ} (hs : J s) {es fs : List ε} (hes : R.Along V s (es ++ fs))
    (hkept : (leases s).Kept) {n : ℕ} {a b : α} (ha : (leases s).holds a = some n)
    (hb : (leases (R.run s (es ++ fs))).holds b = some n) :
    b = a ∧ (leases (R.run s es)).holds a = some n := by
  have hn := hkept.lt_next a n ha
  have hparts := (R.along_append V s es fs).mp hes
  have hmiddle : J (R.run s es) := Reactive.run_invariant hJ hs hparts.1
  have hbefore := run_later hJ hstep hs hparts.1
  have hafter := run_later hJ hstep hmiddle hparts.2
  have hall := run_later hJ hstep hs hes
  have hba : b = a := hkept.owner b a n (hall.held_before b n hn hb) ha
  rw [Reactive.run_append, hba] at hb
  exact ⟨hba, hafter.held_before a n (Nat.lt_of_lt_of_le hn hbefore.next_le) hb⟩

end
end Leases
end GreenWallet.Library
