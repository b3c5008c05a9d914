import Mathlib.Data.List.Basic
import Mathlib.Logic.Relation

/-!
# Depth-first flooding

A flood marks a place and then floods its successors, one after the other. A
marked place is not entered again, so the flood ends on graphs with cycles; the
depth of the recursion is bounded by the number of places left unmarked. What it
marks does not depend on the order of the successors: these are the places that a
path of unmarked places leads to.
-/
namespace GreenWallet.Library

/-- A state with marks on the places of a graph. -/
structure Marking (σ α : Type*) where
  marked : σ → α → Prop
  mark : σ → α → σ
  succ : σ → α → List α
  /-- A bound on the number of unmarked places. -/
  left : σ → ℕ
  marked_mark : ∀ {s a} b, ¬ marked s a → (marked (mark s a) b ↔ b = a ∨ marked s b)
  succ_mark : ∀ s a, succ (mark s a) = succ s
  left_mark : ∀ {s a}, ¬ marked s a → left (mark s a) < left s

namespace Marking
variable {σ α : Type*} (M : Marking σ α) [∀ s a, Decidable (M.marked s a)]

/-- The flood from one place, to a depth of at most the first argument. -/
def flood : ℕ → α → σ → σ
  | 0, _, s => s
  | n + 1, a, s =>
      if M.marked s a then s
      else (M.succ s a).foldl (fun s b => flood n b s) (M.mark s a)

def floodAll (n : ℕ) (as : List α) (s : σ) : σ := as.foldl (fun s a => M.flood n a s) s

omit [∀ s a, Decidable (M.marked s a)] in
/-- A path of unmarked places. -/
def Reaches (s : σ) (a b : α) : Prop :=
  ¬ M.marked s a ∧ Relation.ReflTransGen (fun x y => y ∈ M.succ s x ∧ ¬ M.marked s y) a b

@[simp] theorem floodAll_nil (n : ℕ) (s : σ) : M.floodAll n [] s = s := rfl

@[simp] theorem floodAll_cons (n : ℕ) (a : α) (as : List α) (s : σ) :
    M.floodAll n (a :: as) s = M.floodAll n as (M.flood n a s) := rfl

theorem flood_marked {n : ℕ} {a : α} {s : σ} (h : M.marked s a) : M.flood n a s = s := by
  cases n with
  | zero => rfl
  | succ n => exact if_pos h

theorem flood_unmarked {n : ℕ} {a : α} {s : σ} (h : ¬ M.marked s a) :
    M.flood (n + 1) a s = M.floodAll n (M.succ s a) (M.mark s a) := if_neg h

/-- What every mark keeps, a flood keeps. -/
theorem floodAll_invariant {I : σ → Prop} (hmark : ∀ s a, I s → ¬ M.marked s a → I (M.mark s a))
    (n : ℕ) (as : List α) {s : σ} (hs : I s) : I (M.floodAll n as s) := by
  induction n generalizing as s with
  | zero =>
      induction as with
      | nil => exact hs
      | cons a as ih => exact ih
  | succ n ihn =>
      induction as generalizing s with
      | nil => exact hs
      | cons a as ih =>
          rw [floodAll_cons]
          by_cases ha : M.marked s a
          · rw [M.flood_marked ha]
            exact ih hs
          · rw [M.flood_unmarked ha]
            exact ih (ihn (M.succ s a) (hmark s a hs ha))

theorem flood_invariant {I : σ → Prop} (hmark : ∀ s a, I s → ¬ M.marked s a → I (M.mark s a))
    (n : ℕ) (a : α) {s : σ} (hs : I s) : I (M.flood n a s) :=
  M.floodAll_invariant hmark n [a] hs

theorem succ_floodAll (n : ℕ) (as : List α) (s : σ) :
    M.succ (M.floodAll n as s) = M.succ s :=
  M.floodAll_invariant (I := fun s' => M.succ s' = M.succ s)
    (fun s' a h _ => (M.succ_mark s' a).trans h) n as rfl

theorem left_floodAll_le (n : ℕ) (as : List α) (s : σ) :
    M.left (M.floodAll n as s) ≤ M.left s :=
  M.floodAll_invariant (I := fun s' => M.left s' ≤ M.left s)
    (fun _ _ h ha => Nat.le_trans (Nat.le_of_lt (M.left_mark ha)) h) n as (Nat.le_refl _)

theorem left_flood_le (n : ℕ) (a : α) (s : σ) : M.left (M.flood n a s) ≤ M.left s :=
  M.left_floodAll_le n [a] s

theorem succ_flood (n : ℕ) (a : α) (s : σ) : M.succ (M.flood n a s) = M.succ s :=
  M.succ_floodAll n [a] s

section Reach
omit [∀ s a, Decidable (M.marked s a)]

variable {M}

theorem Reaches.tail {s : σ} {a b c : α} (h : M.Reaches s a b) (hc : c ∈ M.succ s b)
    (hm : ¬ M.marked s c) : M.Reaches s a c := ⟨h.1, h.2.tail ⟨hc, hm⟩⟩

/-- A path of unmarked places is one in every state over the same graph with fewer marks. -/
theorem Reaches.of_fewer {s s' : σ} {a b : α} (hsucc : M.succ s' = M.succ s)
    (hmarked : ∀ x, M.marked s x → M.marked s' x) (h : M.Reaches s' a b) : M.Reaches s a b := by
  refine ⟨fun ha => h.1 (hmarked a ha), ?_⟩
  refine Relation.ReflTransGen.mono ?_ a b h.2
  intro x y hxy
  exact ⟨hsucc ▸ hxy.1, fun hy => hxy.2 (hmarked y hy)⟩

/-- A path either meets what was marked since, or is still open. -/
theorem Reaches.split {s s' : σ} {c b : α} (hsucc : M.succ s' = M.succ s)
    {P : α → Prop} (hmarked : ∀ x, M.marked s' x ↔ M.marked s x ∨ P x)
    (hP : ∀ x y, P x → y ∈ M.succ s x → ¬ M.marked s y → P y) (h : M.Reaches s c b) :
    P b ∨ M.Reaches s' c b := by
  obtain ⟨hc, hpath⟩ := h
  induction hpath with
  | refl =>
      by_cases hPc : P c
      · exact .inl hPc
      · refine .inr ⟨?_, .refl⟩
        rw [hmarked]
        exact fun h => h.elim hc hPc
  | tail _ hyz ih =>
      rename_i y z _
      rcases ih with hPy | hopen
      · exact .inl (hP y z hPy hyz.1 hyz.2)
      · by_cases hPz : P z
        · exact .inl hPz
        · refine .inr (hopen.tail (hsucc ▸ hyz.1) ?_)
          rw [hmarked]
          exact fun h => h.elim hyz.2 hPz

/-- The places reached from an unmarked one: itself, and those that its successors
reach without it. -/
theorem reaches_iff {s : σ} {a b : α} (ha : ¬ M.marked s a) :
    M.Reaches s a b ↔ b = a ∨ ∃ c ∈ M.succ s a, M.Reaches (M.mark s a) c b := by
  constructor
  · intro ⟨_, hpath⟩
    induction hpath with
    | refl => exact .inl rfl
    | tail _ hyz ih =>
        rename_i y z _
        by_cases hz : z = a
        · exact .inl hz
        have hopen : ¬ M.marked (M.mark s a) z := by
          rw [M.marked_mark z ha]
          exact fun h => h.elim hz hyz.2
        rcases ih with rfl | ⟨c, hc, hcy⟩
        · exact .inr ⟨z, hyz.1, hopen, .refl⟩
        · exact .inr ⟨c, hc, hcy.tail (by rw [M.succ_mark]; exact hyz.1) hopen⟩
  · rintro (rfl | ⟨c, hc, hcb⟩)
    · exact ⟨ha, .refl⟩
    · have hcb' : M.Reaches s c b :=
        hcb.of_fewer (M.succ_mark s a) fun x hx => (M.marked_mark x ha).mpr (.inr hx)
      exact ⟨ha, .head ⟨hc, hcb'.1⟩ hcb'.2⟩

end Reach

/-- A flood from several places marks what a path of unmarked places leads to. -/
theorem marked_floodAll {n : ℕ} (as : List α) {s : σ} (hn : M.left s < n) (b : α) :
    M.marked (M.floodAll n as s) b ↔ M.marked s b ∨ ∃ a ∈ as, M.Reaches s a b := by
  induction n generalizing as s b with
  | zero => omega
  | succ n ihn =>
      have hone : ∀ (a : α) (s : σ), M.left s < n + 1 → ∀ b,
          M.marked (M.flood (n + 1) a s) b ↔ M.marked s b ∨ M.Reaches s a b := by
        intro a s hs b
        by_cases ha : M.marked s a
        · rw [M.flood_marked ha]
          exact ⟨.inl, fun h => h.elim id fun hr => (hr.1 ha).elim⟩
        · have hleft : M.left (M.mark s a) < n := by
            have := M.left_mark ha
            omega
          rw [M.flood_unmarked ha, ihn (M.succ s a) hleft, M.marked_mark b ha, reaches_iff ha]
          tauto
      induction as generalizing s with
      | nil => simp
      | cons a as ih =>
          have hleft : M.left (M.flood (n + 1) a s) < n + 1 :=
            Nat.lt_of_le_of_lt (M.left_flood_le (n + 1) a s) hn
          have hsucc := M.succ_flood (n + 1) a s
          rw [floodAll_cons]
          refine (ih hleft).trans ?_
          rw [hone a s hn b]
          constructor
          · rintro ((h | h) | ⟨c, hc, h⟩)
            · exact .inl h
            · exact .inr ⟨a, List.mem_cons_self, h⟩
            · refine .inr ⟨c, List.mem_cons_of_mem a hc, h.of_fewer hsucc ?_⟩
              exact fun x hx => (hone a s hn x).mpr (.inl hx)
          · rintro (h | ⟨c, hc, h⟩)
            · exact .inl (.inl h)
            rcases List.mem_cons.mp hc with rfl | hc
            · exact .inl (.inr h)
            · rcases h.split hsucc (hone a s hn) fun x y hx hy hm => hx.tail hy hm with h | h
              · exact .inl (.inr h)
              · exact .inr ⟨c, hc, h⟩

theorem marked_flood {n : ℕ} {a : α} {s : σ} (hn : M.left s < n) (b : α) :
    M.marked (M.flood n a s) b ↔ M.marked s b ∨ M.Reaches s a b := by
  have h := M.marked_floodAll [a] hn b
  simpa using h

/-- More depth than there are unmarked places changes nothing. -/
theorem flood_depth {n m : ℕ} (a : α) {s : σ} (hn : M.left s < n) (hm : M.left s < m) :
    M.flood n a s = M.flood m a s := by
  induction n generalizing m a s with
  | zero => omega
  | succ n ihn =>
      obtain ⟨m, rfl⟩ : ∃ k, m = k + 1 := ⟨m - 1, by omega⟩
      by_cases ha : M.marked s a
      · rw [M.flood_marked ha, M.flood_marked ha]
      · have hlt := M.left_mark ha
        have hall : ∀ (bs : List α) (s : σ), M.left s < n → M.left s < m →
            M.floodAll n bs s = M.floodAll m bs s := by
          intro bs
          induction bs with
          | nil => exact fun _ _ _ => rfl
          | cons b bs ih =>
              intro s hn hm
              have hle := M.left_flood_le n b s
              rw [floodAll_cons, floodAll_cons, ← ihn b hn hm]
              exact ih _ (by omega) (by omega)
        rw [M.flood_unmarked ha, M.flood_unmarked ha]
        exact hall _ _ (by omega) (by omega)

/-- A property that a mark keeps exactly at the good places is kept by a flood exactly
when it reaches good places only. The side condition `A` holds between the marks. -/
theorem keeps_floodAll_iff {I A : σ → Prop} {G : α → Prop}
    (hA : ∀ s a, A s → ¬ M.marked s a → A (M.mark s a))
    (hI : ∀ s a, A s → ¬ M.marked s a → (I (M.mark s a) ↔ I s ∧ G a))
    {n : ℕ} (as : List α) {s : σ} (hn : M.left s < n) (hs : A s) :
    I (M.floodAll n as s) ↔ I s ∧ ∀ a ∈ as, ∀ b, M.Reaches s a b → G b := by
  induction n generalizing as s with
  | zero => omega
  | succ n ihn =>
      have hone : ∀ (a : α) (s : σ), M.left s < n + 1 → A s →
          (I (M.flood (n + 1) a s) ↔ I s ∧ ∀ b, M.Reaches s a b → G b) := by
        intro a s hs hAs
        by_cases ha : M.marked s a
        · rw [M.flood_marked ha]
          exact ⟨fun h => ⟨h, fun b hb => (hb.1 ha).elim⟩, And.left⟩
        · have hleft : M.left (M.mark s a) < n := by
            have := M.left_mark ha
            omega
          rw [M.flood_unmarked ha, ihn (M.succ s a) hleft (hA s a hAs ha), hI s a hAs ha,
            and_assoc]
          refine and_congr_right fun _ => ⟨?_, ?_⟩
          · intro ⟨hgood, hrest⟩ b hb
            rcases (reaches_iff ha).mp hb with rfl | ⟨c, hc, hcb⟩
            · exact hgood
            · exact hrest c hc b hcb
          · intro h
            exact ⟨h a ⟨ha, .refl⟩, fun c hc b hcb => h b ((reaches_iff ha).mpr (.inr ⟨c, hc, hcb⟩))⟩
      induction as generalizing s with
      | nil => simp
      | cons a as ih =>
          have hleft : M.left (M.flood (n + 1) a s) < n + 1 :=
            Nat.lt_of_le_of_lt (M.left_flood_le (n + 1) a s) hn
          have hsucc := M.succ_flood (n + 1) a s
          have hmarked := fun x => M.marked_flood (a := a) hn x
          have hAs : A (M.flood (n + 1) a s) := M.flood_invariant hA (n + 1) a hs
          rw [floodAll_cons]
          refine (ih hleft hAs).trans ?_
          rw [hone a s hn hs, and_assoc]
          refine and_congr_right fun _ => ⟨?_, ?_⟩
          · intro ⟨hfirst, hrest⟩ c hc b hb
            rcases List.mem_cons.mp hc with rfl | hc
            · exact hfirst b hb
            · rcases hb.split hsucc hmarked fun x y hx hy hm => hx.tail hy hm with h | h
              · exact hfirst b h
              · exact hrest c hc b h
          · intro h
            refine ⟨h a List.mem_cons_self, fun c hc b hb => ?_⟩
            refine h c (List.mem_cons_of_mem a hc) b (hb.of_fewer hsucc ?_)
            exact fun x hx => (hmarked x).mpr (.inl hx)

end Marking
end GreenWallet.Library
