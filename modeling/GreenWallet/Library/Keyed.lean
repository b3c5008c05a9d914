import Mathlib.Data.List.Basic
import Mathlib.Data.List.Nodup

/-!
# Loops over the keys of a store

A store holds one cell for each key and appends to a log. A loop body is local
when the round for a key reads and rewrites the cell of that key only, and
appends what it reports about it. The loop over distinct keys then acts on every
cell as one round does, and its log is the concatenation of what the rounds say.
A store that is a list of entries loses the entry of a key to a filter.

What the rounds of a loop bring about, or undo, is there in the end if one of them has
brought it about, or none has undone it.
-/
namespace GreenWallet.Library.Keyed
variable {σ κ γ ω : Type*} [DecidableEq κ]

/-- A loop body that acts on the cell of its key only, under an invariant `Good`. -/
structure LocalBody (view : σ → κ → γ) (log : σ → List ω) (Good : σ → Prop)
    (body : σ → κ → σ) (update : κ → γ → γ) (report : κ → γ → List ω) : Prop where
  view_self : ∀ s k, Good s → view (body s k) k = update k (view s k)
  view_other : ∀ s k k', Good s → k' ≠ k → view (body s k) k' = view s k'
  log_eq : ∀ s k, Good s → log (body s k) = log s ++ report k (view s k)
  good : ∀ s k, Good s → Good (body s k)

namespace LocalBody
variable {view : σ → κ → γ} {log : σ → List ω} {Good : σ → Prop} {body : σ → κ → σ}
variable {update : κ → γ → γ} {report : κ → γ → List ω}

theorem foldl_view (L : LocalBody view log Good body update report) {ks : List κ}
    (hks : ks.Nodup) {s : σ} (hs : Good s) (k : κ) :
    view (ks.foldl body s) k = if k ∈ ks then update k (view s k) else view s k := by
  induction ks generalizing s with
  | nil => simp
  | cons j ks ih =>
      obtain ⟨hj, hks⟩ := List.nodup_cons.mp hks
      rw [List.foldl_cons, ih hks (L.good s j hs)]
      by_cases hkj : k = j
      · subst hkj
        simp [hj, L.view_self s k hs]
      · simp [hkj, L.view_other s j k hs hkj]

omit [DecidableEq κ] in
theorem foldl_log (L : LocalBody view log Good body update report) {ks : List κ}
    (hks : ks.Nodup) {s : σ} (hs : Good s) :
    log (ks.foldl body s) = log s ++ ks.flatMap fun k => report k (view s k) := by
  induction ks generalizing s with
  | nil => simp
  | cons j ks ih =>
      obtain ⟨hj, hks⟩ := List.nodup_cons.mp hks
      have hsame : ks.flatMap (fun k => report k (view (body s j) k)) =
          ks.flatMap fun k => report k (view s k) := by
        apply List.flatMap_congr
        intro k hk
        have hkj : k ≠ j := fun h => hj (h ▸ hk)
        rw [L.view_other s j k hs hkj]
      rw [List.foldl_cons, ih hks (L.good s j hs), L.log_eq s j hs, hsame]
      simp

end LocalBody

/-- What the rounds say about one key, when each report only things about its own. -/
theorem filter_flatMap (key : ω → κ) (report : κ → List ω)
    (hkey : ∀ k, ∀ w ∈ report k, key w = k) {ks : List κ} (hks : ks.Nodup) (k : κ) :
    (ks.flatMap report).filter (fun w => key w = k) = if k ∈ ks then report k else [] := by
  induction ks with
  | nil => simp
  | cons j ks ih =>
      obtain ⟨hj, hks⟩ := List.nodup_cons.mp hks
      rw [List.flatMap_cons, List.filter_append, ih hks]
      by_cases hkj : k = j
      · subst hkj
        have hall : (report k).filter (fun w => key w = k) = report k :=
          List.filter_eq_self.mpr fun w hw => by simp [hkey k w hw]
        simp [hall, hj]
      · have hnone : (report j).filter (fun w => key w = k) = [] := by
          apply List.filter_eq_nil_iff.mpr
          intro w hw
          simp [hkey j w hw, Ne.symm hkj]
        simp [hnone, hkj]

section
variable {σ α : Type*} {body : σ → α → σ} {Q : α → Prop} (P : σ → Prop)

/-- A loop whose rounds bring something about. -/
theorem foldl_gains (hround : ∀ s x, P (body s x) ↔ Q x ∨ P s) (xs : List α) (s : σ) :
    P (xs.foldl body s) ↔ (∃ x ∈ xs, Q x) ∨ P s := by
  induction xs generalizing s with
  | nil => simp
  | cons x xs ih => rw [List.foldl_cons, ih, hround, List.exists_mem_cons_iff, or_assoc, or_left_comm]

/-- A loop whose rounds may undo something. -/
theorem foldl_keeps (hround : ∀ s x, P (body s x) ↔ ¬ Q x ∧ P s) (xs : List α) (s : σ) :
    P (xs.foldl body s) ↔ (∀ x ∈ xs, ¬ Q x) ∧ P s := by
  induction xs generalizing s with
  | nil => simp
  | cons x xs ih => rw [List.foldl_cons, ih, hround, List.forall_mem_cons, and_assoc, and_left_comm]

end

section
variable {κ γ : Type*} [BEq κ] [LawfulBEq κ]

theorem lookup_filter_self (entries : List (κ × γ)) (k : κ) :
    (entries.filter fun entry => entry.1 != k).lookup k = none := by
  apply List.lookup_eq_none_iff.mpr
  intro entry hentry
  have hne := (List.mem_filter.mp hentry).2
  exact bne_iff_ne.mpr (bne_iff_ne.mp hne).symm

theorem lookup_filter_of_ne (entries : List (κ × γ)) {k j : κ} (h : j ≠ k) :
    (entries.filter fun entry => entry.1 != k).lookup j = entries.lookup j := by
  induction entries with
  | nil => rfl
  | cons entry entries ih =>
      obtain ⟨key, value⟩ := entry
      rw [List.filter_cons, List.lookup_cons]
      split_ifs with hkept
      · rw [List.lookup_cons, ih]
      · have hkey : key = k := by simpa using hkept
        rw [ih, hkey, beq_false_of_ne h]

theorem lookup_eq_some_iff_mem {entries : List (κ × γ)} (h : (entries.map Prod.fst).Nodup) {k : κ}
    {v : γ} : entries.lookup k = some v ↔ (k, v) ∈ entries := by
  induction entries with
  | nil => simp
  | cons entry entries ih =>
      obtain ⟨key, value⟩ := entry
      obtain ⟨hnew, hrest⟩ := List.nodup_cons.mp h
      rw [List.lookup_cons, List.mem_cons, Prod.mk.injEq]
      by_cases hkey : k = key
      · have hmem : (key, v) ∉ entries := fun h => hnew (List.mem_map.mpr ⟨(key, v), h, rfl⟩)
        simp [hkey, hmem, eq_comm]
      · rw [beq_false_of_ne hkey]
        simp only [hkey, false_and, false_or]
        exact ih hrest

end

end GreenWallet.Library.Keyed
