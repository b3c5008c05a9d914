import GreenWallet.Library.Backlinks
import GreenWallet.Library.Reactive

/-!
# Swaps and their transactions

A swap has a lockup and a claim transaction, and a transaction has a swap. `update` takes up
the transactions that the response of the swap names by then, by calls of the two setters.
-/
namespace GreenWallet.Wallets
open GreenWallet.Library

inductive SwapKind where
  | reverse
  /-- A submarine swap need not have a response. -/
  | submarine (prepared : Bool)
  | chain
deriving DecidableEq

namespace SwapKind

/-- `setLockupTransaction` is overridden to tell the response. -/
def tellsLockup : SwapKind → Bool
  | .reverse => false
  | .submarine prepared => prepared
  | .chain => true

/-- `update` asks the response for a lockup transaction. -/
def asksLockup : SwapKind → Bool
  | .reverse => true
  | .submarine prepared => prepared
  | .chain => true

def asksClaim : SwapKind → Bool
  | .reverse => true
  | .submarine _ => false
  | .chain => true

end SwapKind

structure Swap (τ : Type) where
  kind : SwapKind
  m_lockup_transaction : Option τ := none
  m_claim_transaction : Option τ := none
  /-- What the response says. -/
  lockup_txid : Option τ := none
  claim_txid : Option τ := none

/-- The swaps, and the swap of each chain transaction. A transaction is known by its hash. -/
structure Swaps (σ τ : Type) where
  swaps : σ → Swap τ
  swap : τ → Option σ := fun _ => none

inductive SwapEvent (σ τ : Type) where
  | setLockupTransaction (s : σ) (transaction : Option τ)
  | setClaimTransaction (s : σ) (transaction : Option τ)
  /-- The response has come to know transactions. -/
  | responded (s : σ) (lockup_txid claim_txid : Option τ)

namespace Swaps
variable {σ τ : Type} [DecidableEq σ] [DecidableEq τ]

def setField (w : Swaps σ τ) (s : σ) (f : Swap τ → Swap τ) : Swaps σ τ :=
  { w with swaps := Function.update w.swaps s (f (w.swaps s)) }

/-- `setSwap` of a transaction, if there is one. -/
def setSwap (w : Swaps σ τ) (transaction : Option τ) (s : Option σ) : Swaps σ τ :=
  { w with swap := transaction.elim w.swap fun t => Function.update w.swap t s }

/-- `Swap::setLockupTransaction`. -/
def replaceLockup (w : Swaps σ τ) (s : σ) (lockup_transaction : Option τ) : Swaps σ τ :=
  if (w.swaps s).m_lockup_transaction = lockup_transaction then w
  else
    ((w.setSwap (w.swaps s).m_lockup_transaction none).setField s fun swap =>
      { swap with m_lockup_transaction := lockup_transaction }).setSwap lockup_transaction (some s)

/-- What the overrides do before. -/
def tellLockup (w : Swaps σ τ) (s : σ) (lockup_transaction : Option τ) : Swaps σ τ :=
  if (w.swaps s).kind.tellsLockup = true ∧ (w.swaps s).lockup_txid = none then
    w.setField s fun swap => { swap with lockup_txid := lockup_transaction }
  else w

def setLockupTransaction (w : Swaps σ τ) (s : σ) (lockup_transaction : Option τ) : Swaps σ τ :=
  (w.tellLockup s lockup_transaction).replaceLockup s lockup_transaction

def setClaimTransaction (w : Swaps σ τ) (s : σ) (claim_transaction : Option τ) : Swaps σ τ :=
  if (w.swaps s).m_claim_transaction = claim_transaction then w
  else
    ((w.setSwap (w.swaps s).m_claim_transaction none).setField s fun swap =>
      { swap with m_claim_transaction := claim_transaction }).setSwap claim_transaction (some s)

/-- `update` of a swap, as far as the lockup transaction goes. -/
def updateLockup (w : Swaps σ τ) (s : σ) : Swaps σ τ :=
  if (w.swaps s).kind.asksLockup = true ∧ (w.swaps s).m_lockup_transaction = none ∧
      (w.swaps s).lockup_txid ≠ none then
    w.setLockupTransaction s (w.swaps s).lockup_txid
  else w

def updateClaim (w : Swaps σ τ) (s : σ) : Swaps σ τ :=
  if (w.swaps s).kind.asksClaim = true ∧ (w.swaps s).m_claim_transaction = none ∧
      (w.swaps s).claim_txid ≠ none then
    w.setClaimTransaction s (w.swaps s).claim_txid
  else w

def update (w : Swaps σ τ) (s : σ) : Swaps σ τ := (w.updateLockup s).updateClaim s

def next (w : Swaps σ τ) : SwapEvent σ τ → Swaps σ τ
  | .setLockupTransaction s transaction => w.setLockupTransaction s transaction
  | .setClaimTransaction s transaction => w.setClaimTransaction s transaction
  | .responded s lockup_txid claim_txid =>
      w.setField s fun swap => { swap with lockup_txid, claim_txid }

end Swaps

section
variable {σ τ : Type} [DecidableEq σ] [DecidableEq τ]

/-- Any calls of the setters, in any order. -/
def swapCalls : Reactive (Swaps σ τ) (SwapEvent σ τ) Empty where
  enabled _ _ := True
  next := Swaps.next
  emits _ _ := []

def Swaps.fresh (kind : σ → SwapKind) : Swaps σ τ where
  swaps s := { kind := kind s }

namespace Swaps
variable {w : Swaps σ τ} {s : σ}

/-- The transaction is the lockup or the claim transaction of the swap. -/
def Refers (w : Swaps σ τ) (s : σ) (t : τ) : Prop :=
  (w.swaps s).m_lockup_transaction = some t ∨ (w.swaps s).m_claim_transaction = some t

def LinksMutual (w : Swaps σ τ) : Prop := Mutual w.Refers w.swap

/-- The transaction is without a swap, or this swap has it already. -/
def Free (w : Swaps σ τ) (s : σ) (transaction : Option τ) : Prop :=
  ∀ t ∈ transaction, w.swap t = none ∨ w.swap t = some s

/-- A call that replaces a transaction leaves one that has no other role in the swap, and takes
one that belongs to no other swap. -/
def Spares (w : Swaps σ τ) : SwapEvent σ τ → Prop
  | .setLockupTransaction s transaction =>
      (w.swaps s).m_lockup_transaction ≠ transaction →
        (∀ t ∈ (w.swaps s).m_lockup_transaction, (w.swaps s).m_claim_transaction ≠ some t) ∧
          w.Free s transaction
  | .setClaimTransaction s transaction =>
      (w.swaps s).m_claim_transaction ≠ transaction →
        (∀ t ∈ (w.swaps s).m_claim_transaction, (w.swaps s).m_lockup_transaction ≠ some t) ∧
          w.Free s transaction
  | .responded _ _ _ => True

/-! ## What a call does to the links -/

omit [DecidableEq τ] in
theorem swaps_setField_self (f : Swap τ → Swap τ) :
    (w.setField s f).swaps s = f (w.swaps s) := Function.update_self s _ _

omit [DecidableEq τ] in
theorem swaps_setField_of_ne {s' : σ} (hs : s' ≠ s) (f : Swap τ → Swap τ) :
    (w.setField s f).swaps s' = w.swaps s' := Function.update_of_ne hs _ _

omit [DecidableEq τ] in
/-- What is set besides the two transactions is not part of the links. -/
theorem linksMutual_setField (f : Swap τ → Swap τ)
    (hlockup : ∀ swap, (f swap).m_lockup_transaction = swap.m_lockup_transaction)
    (hclaim : ∀ swap, (f swap).m_claim_transaction = swap.m_claim_transaction) :
    (w.setField s f).LinksMutual ↔ w.LinksMutual := by
  have hrefers : (w.setField s f).Refers = w.Refers := by
    funext s' t
    by_cases hs : s' = s
    · subst hs
      simp only [Refers, swaps_setField_self, hlockup, hclaim]
    · simp only [Refers, swaps_setField_of_ne hs]
  rw [LinksMutual, hrefers]
  exact Iff.rfl

theorem replaceLockup_iff (h : w.LinksMutual) (transaction : Option τ) :
    (w.replaceLockup s transaction).LinksMutual ↔ w.Spares (.setLockupTransaction s transaction) := by
  by_cases hsame : (w.swaps s).m_lockup_transaction = transaction
  · rw [replaceLockup, if_pos hsame]
    exact iff_of_true h fun hne => absurd hsame hne
  · have hspares : w.Spares (.setLockupTransaction s transaction) ↔
        (∀ t ∈ (w.swaps s).m_lockup_transaction, (w.swaps s).m_claim_transaction ≠ some t) ∧
          w.Free s transaction := ⟨fun h => h hsame, fun h _ => h⟩
    have hback : (w.replaceLockup s transaction).swap =
        relink w.swap s (w.swaps s).m_lockup_transaction transaction := by
      rw [relink_eq_update, replaceLockup, if_neg hsame]
      rfl
    have hself : ((w.replaceLockup s transaction).swaps s) =
        { w.swaps s with m_lockup_transaction := transaction } := by
      rw [replaceLockup, if_neg hsame]
      exact Function.update_self s _ _
    have hothers {s' : σ} (hs : s' ≠ s) : (w.replaceLockup s transaction).swaps s' = w.swaps s' := by
      rw [replaceLockup, if_neg hsame]
      exact Function.update_of_ne hs _ _
    rw [hspares, LinksMutual, hback]
    apply h.relink_iff hsame
    · exact fun t => or_comm
    · intro t
      rw [Refers, hself]
      exact or_comm
    · intro s' t hs
      rw [Refers, hothers hs, Refers]

theorem setClaimTransaction_iff (h : w.LinksMutual) (transaction : Option τ) :
    (w.setClaimTransaction s transaction).LinksMutual ↔
      w.Spares (.setClaimTransaction s transaction) := by
  by_cases hsame : (w.swaps s).m_claim_transaction = transaction
  · rw [setClaimTransaction, if_pos hsame]
    exact iff_of_true h fun hne => absurd hsame hne
  · have hspares : w.Spares (.setClaimTransaction s transaction) ↔
        (∀ t ∈ (w.swaps s).m_claim_transaction, (w.swaps s).m_lockup_transaction ≠ some t) ∧
          w.Free s transaction := ⟨fun h => h hsame, fun h _ => h⟩
    have hback : (w.setClaimTransaction s transaction).swap =
        relink w.swap s (w.swaps s).m_claim_transaction transaction := by
      rw [relink_eq_update, setClaimTransaction, if_neg hsame]
      rfl
    have hself : ((w.setClaimTransaction s transaction).swaps s) =
        { w.swaps s with m_claim_transaction := transaction } := by
      rw [setClaimTransaction, if_neg hsame]
      exact Function.update_self s _ _
    have hothers {s' : σ} (hs : s' ≠ s) :
        (w.setClaimTransaction s transaction).swaps s' = w.swaps s' := by
      rw [setClaimTransaction, if_neg hsame]
      exact Function.update_of_ne hs _ _
    rw [hspares, LinksMutual, hback]
    apply h.relink_iff hsame
    · exact fun t => Iff.rfl
    · intro t
      rw [Refers, hself]
    · intro s' t hs
      rw [Refers, hothers hs, Refers]

/-- Links that are right remain so exactly if the call spares those of others. -/
theorem next_iff (h : w.LinksMutual) (e : SwapEvent σ τ) : (w.next e).LinksMutual ↔ w.Spares e := by
  cases e with
  | setLockupTransaction s transaction =>
      have htold : (w.tellLockup s transaction).LinksMutual := by
        rw [tellLockup]
        split_ifs
        · exact (linksMutual_setField (fun swap => { swap with lockup_txid := transaction })
            (fun _ => rfl) fun _ => rfl).mpr h
        · exact h
      have hspares : (w.tellLockup s transaction).Spares (.setLockupTransaction s transaction) ↔
          w.Spares (.setLockupTransaction s transaction) := by
        rw [tellLockup]
        split_ifs
        · simp only [Spares, swaps_setField_self]
          exact Iff.rfl
        · exact Iff.rfl
      exact (replaceLockup_iff htold transaction).trans hspares
  | setClaimTransaction s transaction => exact setClaimTransaction_iff h transaction
  | responded s lockup_txid claim_txid =>
      exact iff_of_true ((linksMutual_setField (fun swap => { swap with lockup_txid, claim_txid })
        (fun _ => rfl) fun _ => rfl).mpr h) trivial

/-! ## The calls that `update` makes -/

def updateCalls (w : Swaps σ τ) (s : σ) : List (SwapEvent σ τ) :=
  (if (w.swaps s).kind.asksLockup = true ∧ (w.swaps s).m_lockup_transaction = none ∧
      (w.swaps s).lockup_txid ≠ none then
    [.setLockupTransaction s (w.swaps s).lockup_txid] else []) ++
  if (w.swaps s).kind.asksClaim = true ∧ (w.swaps s).m_claim_transaction = none ∧
      (w.swaps s).claim_txid ≠ none then
    [.setClaimTransaction s (w.swaps s).claim_txid] else []

/-- The claim side of a swap is as it was. -/
theorem claim_updateLockup :
    ((w.updateLockup s).swaps s).kind = (w.swaps s).kind ∧
      ((w.updateLockup s).swaps s).m_claim_transaction = (w.swaps s).m_claim_transaction ∧
      ((w.updateLockup s).swaps s).claim_txid = (w.swaps s).claim_txid := by
  unfold updateLockup setLockupTransaction replaceLockup tellLockup
  split_ifs <;> simp [setSwap, setField]

theorem update_eq_run (w : Swaps σ τ) (s : σ) : w.update s = swapCalls.run w (w.updateCalls s) := by
  have hlockup : w.updateLockup s = swapCalls.run w
      (if (w.swaps s).kind.asksLockup = true ∧ (w.swaps s).m_lockup_transaction = none ∧
          (w.swaps s).lockup_txid ≠ none then
        [.setLockupTransaction s (w.swaps s).lockup_txid] else []) := by
    rw [updateLockup]
    split_ifs <;> rfl
  obtain ⟨hkind, hclaim, htxid⟩ := claim_updateLockup (w := w) (s := s)
  rw [update, updateCalls, Reactive.run_append, ← hlockup, updateClaim, hkind, hclaim, htxid]
  split_ifs <;> rfl

/-- Swaps and transactions stay linked in both directions exactly if every call spares the links
of others. -/
theorem linksMutual_iff (kind : σ → SwapKind) (es : List (SwapEvent σ τ)) :
    swapCalls.Always LinksMutual (.fresh kind) es ↔ swapCalls.Along Spares (.fresh kind) es := by
  have hall (w : Swaps σ τ) (es : List (SwapEvent σ τ)) : swapCalls.Along (fun _ _ => True) w es :=
    Reactive.along_of_at fun _ _ _ _ => trivial
  have hfresh : (Swaps.fresh kind : Swaps σ τ).LinksMutual := by
    intro t s
    simp [fresh, Refers]
  exact Reactive.always_iff_along (J := fun _ => True) (V := fun _ _ => True)
    (fun _ _ _ _ => trivial) (fun w e _ _ h => next_iff h e) trivial hfresh (hall _ es)

/-- Two swaps take the same transaction for theirs. -/
theorem not_linksMutual_sharedLockup :
    ¬ swapCalls.Always LinksMutual (.fresh fun _ : Fin 2 => .chain)
        [.setLockupTransaction 0 (some "a"), .setLockupTransaction 1 (some "a")] := by
  intro h
  have hrefers : (swapCalls.run (.fresh fun _ : Fin 2 => .chain)
      [.setLockupTransaction 0 (some "a"), .setLockupTransaction 1 (some "a")]).Refers 0 "a" :=
    .inl rfl
  exact absurd ((h.last "a" 0).mpr hrefers) (by decide)

end Swaps
end
end GreenWallet.Wallets
