import Mathlib.Data.Option.Basic
import Mathlib.Logic.Function.Basic
import Mathlib.Tactic.SplitIfs

/-!
# Links and the links back

Objects of one kind refer to objects of another kind, which have a link back to whoever refers
to them. The link back is a single one, so it can be right only as long as nobody else refers
to the same object.
-/
namespace GreenWallet.Library
variable {α β : Type*}

/-- The links back are to those that refer, and to no others. -/
def Mutual (refers : β → α → Prop) (back : α → Option β) : Prop :=
  ∀ a b, back a = some b ↔ refers b a

section
variable [DecidableEq α]

/-- The link back is cleared at the object that is left, and then set at the one taken instead. -/
def relink (back : α → Option β) (b : β) (old new : Option α) : α → Option β := fun a =>
  if new = some a then some b else if old = some a then none else back a

/-- Two updates, each if there is something to be updated. -/
theorem relink_eq_update (back : α → Option β) (b : β) (old new : Option α) :
    relink back b old new =
      new.elim (old.elim back fun a => Function.update back a none) fun a =>
        Function.update (old.elim back fun a => Function.update back a none) a (some b) := by
  funext a
  rw [relink]
  cases new with
  | none =>
      cases old with
      | none => simp
      | some a' =>
          by_cases ha : a = a'
          · subst ha
            simp
          · simp [ha, Ne.symm ha]
  | some a'' =>
      by_cases ha : a = a''
      · subst ha
        simp
      · cases old with
        | none => simp [ha, Ne.symm ha]
        | some a' =>
            by_cases ha' : a = a'
            · subst ha'
              simp [ha, Ne.symm ha]
            · simp [ha, Ne.symm ha, ha', Ne.symm ha']

variable {refers refers' : β → α → Prop} {back : α → Option β} {b : β} {rest : α → Prop}
variable {old new : Option α}

/-- What an object leaves it does not refer to in another way. -/
theorem Mutual.left_of_relink (h' : Mutual refers' (relink back b old new)) (hne : old ≠ new)
    (hnew : ∀ a, refers' b a ↔ rest a ∨ new = some a) {a : α} (ha : old = some a) : ¬ rest a := by
  intro hrest
  have hback := (h' a b).mpr ((hnew a).mpr (.inl hrest))
  have hleft : new ≠ some a := fun hsame => hne (ha.trans hsame.symm)
  have hnone : relink back b old new a = none := (if_neg hleft).trans (if_pos ha)
  rw [hnone] at hback
  cases hback

/-- What an object takes nobody else refers to. -/
theorem Mutual.taken_of_relink (h : Mutual refers back)
    (h' : Mutual refers' (relink back b old new))
    (hother : ∀ c a, c ≠ b → (refers' c a ↔ refers c a)) {a : α} (ha : new = some a) :
    back a = none ∨ back a = some b := by
  cases hback : back a with
  | none => exact .inl rfl
  | some c =>
      by_cases hc : c = b
      · exact .inr (by rw [hc])
      · have hrefers := (hother c a hc).mpr ((h a c).mp hback)
        have hback' := (h' a c).mpr hrefers
        have hown : relink back b old new a = some b := if_pos ha
        rw [hown] at hback'
        exact absurd (Option.some_inj.mp hback').symm hc

/-- The links back that are right for the object itself. -/
theorem Mutual.relink_self (h : Mutual refers back)
    (hold : ∀ a, refers b a ↔ rest a ∨ old = some a)
    (hnew : ∀ a, refers' b a ↔ rest a ∨ new = some a) (hleft : ∀ a ∈ old, ¬ rest a) (a : α) :
    relink back b old new a = some b ↔ refers' b a := by
  rw [relink, hnew]
  split_ifs with htakes hleaves
  · exact iff_of_true rfl (.inr htakes)
  · have hnone : ¬ (rest a ∨ new = some a) := by
      intro hrefers
      cases hrefers with
      | inl hrest => exact hleft a hleaves hrest
      | inr hnew => exact htakes hnew
    exact iff_of_false id hnone
  · rw [h a b, hold, or_iff_left htakes, or_iff_left hleaves]

/-- The links back that are right for the others. -/
theorem Mutual.relink_other (h : Mutual refers back)
    (hold : ∀ a, refers b a ↔ rest a ∨ old = some a)
    (hother : ∀ c a, c ≠ b → (refers' c a ↔ refers c a))
    (htaken : ∀ a ∈ new, back a = none ∨ back a = some b) {c : β} (hc : c ≠ b) (a : α) :
    relink back b old new a = some c ↔ refers' c a := by
  rw [relink, hother c a hc]
  split_ifs with htakes hleaves
  · have hnone : ¬ refers c a := by
      intro hrefers
      rcases htaken a htakes with hback | hback
      · rw [(h a c).mpr hrefers] at hback
        cases hback
      · rw [(h a c).mpr hrefers] at hback
        exact hc (Option.some_inj.mp hback)
    exact iff_of_false (fun hsame => hc (Option.some_inj.mp hsame).symm) hnone
  · have hnone : ¬ refers c a := by
      intro hrefers
      have hown := (h a b).mpr ((hold a).mpr (.inr hleaves))
      rw [(h a c).mpr hrefers] at hown
      exact hc (Option.some_inj.mp hown)
    exact iff_of_false id hnone
  · exact h a c

/-- One of the links of an object is replaced, and the others stay. The links back remain right
exactly if the object does not refer to what it leaves in another way too, and nobody else
refers to what it takes. -/
theorem Mutual.relink_iff (h : Mutual refers back) (hne : old ≠ new)
    (hold : ∀ a, refers b a ↔ rest a ∨ old = some a)
    (hnew : ∀ a, refers' b a ↔ rest a ∨ new = some a)
    (hother : ∀ c a, c ≠ b → (refers' c a ↔ refers c a)) :
    Mutual refers' (relink back b old new) ↔
      (∀ a ∈ old, ¬ rest a) ∧ ∀ a ∈ new, back a = none ∨ back a = some b := by
  constructor
  · intro h'
    exact ⟨fun a ha => h'.left_of_relink hne hnew ha, fun a ha => h.taken_of_relink h' hother ha⟩
  · intro hfree a c
    by_cases hc : c = b
    · subst hc
      exact h.relink_self hold hnew hfree.1 a
    · exact h.relink_other hold hother hfree.2 hc a

end

end GreenWallet.Library
