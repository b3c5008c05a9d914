import Mathlib.Data.List.Nodup
import GreenWallet.Controllers.Swaps

/-!
# The swaps that a controller leaves behind

`ChainSwapController` adds every swap it has made to the list of the context, and exposes
the last one. Its destructor takes the exposed swap off the list unless a lockup
transaction has been sent for it; nothing takes off the ones before.
-/
namespace GreenWallet.Controllers
open GreenWallet.Library

/-- The controller with the swaps it has created, numbered in that order. -/
structure ChainSwaps where
  controllers : Swaps := {}
  created : ℕ := 0
  /-- The context's list, as far as this controller has filled it. -/
  m_swaps : List ℕ := []
  /-- `d->swap`. -/
  swap : Option ℕ := none
  /-- The swap has a lockup transaction. -/
  lockupTransaction : ℕ → Bool := fun _ => false
  destroyed : Bool := false

inductive ChainSwapsEvent where
  | handle (e : SwapsEvent)
  /-- The controller's setter, with a transaction or without. -/
  | setLockupTransaction (transaction : Bool)
  /-- `ChainSwap::update` finds the lockup transaction of the swap. -/
  | sync (swap : ℕ)
  | destroy

def SwapsOutput.isChainSwap : SwapsOutput → Bool
  | .addChainSwap _ => true
  | .addReverseSwap _ | .removeReverseSwap _ => false

namespace ChainSwaps

/-- `Context::addSwap` of a swap that is new. -/
def addSwap (s : ChainSwaps) : ChainSwaps :=
  { s with
    created := s.created + 1
    m_swaps := s.m_swaps ++ [s.created]
    swap := some s.created }

/-- `Context::removeSwap`. -/
def removeSwap (swap : ℕ) (s : ChainSwaps) : ChainSwaps :=
  { s with m_swaps := s.m_swaps.erase swap }

/-- A step that shows what was shown, or nothing. -/
def kept (controllers : Swaps) (s : ChainSwaps) : ChainSwaps :=
  { s with
    controllers := controllers
    swap := if controllers.chain.swap.isSome then s.swap else none }

/-- A new swap is exposed in the place of the one before. -/
def follow (controllers : Swaps) (outputs : List SwapsOutput) (s : ChainSwaps) : ChainSwaps :=
  if outputs.any SwapsOutput.isChainSwap then { s.addSwap with controllers := controllers }
  else s.kept controllers

def setLockupTransaction (transaction : Bool) (s : ChainSwaps) : ChainSwaps :=
  s.swap.elim s fun swap =>
    { s with lockupTransaction := Function.update s.lockupTransaction swap transaction }

/-- `ChainSwapController::~ChainSwapController`. -/
def destroy (s : ChainSwaps) : ChainSwaps :=
  { s.swap.elim s fun swap => if s.lockupTransaction swap then s else s.removeSwap swap with
    destroyed := true }

def next (validAddress : String → Bool) (s : ChainSwaps) : ChainSwapsEvent → ChainSwaps
  | .handle e => 
      s.follow (s.controllers.handle validAddress e).1 (s.controllers.handle validAddress e).2
  | .setLockupTransaction transaction => s.setLockupTransaction transaction
  | .sync swap => { s with lockupTransaction := Function.update s.lockupTransaction swap true }
  | .destroy => s.destroy

/-- With the controller go its timer, and the watchers of its threads. -/
def enabled (validAddress : String → Bool) (s : ChainSwaps) : ChainSwapsEvent → Prop
  | .handle e => s.destroyed = false ∧ (swaps validAddress).enabled s.controllers e
  | .setLockupTransaction _ => s.destroyed = false
  | .sync swap => swap < s.created
  | .destroy => s.destroyed = false

end ChainSwaps

instance (validAddress : String → Bool) (s : ChainSwaps) (e : ChainSwapsEvent) :
    Decidable (s.enabled validAddress e) := by
  cases e <;> simp only [ChainSwaps.enabled] <;> infer_instance

def chainSwaps (validAddress : String → Bool) : Reactive ChainSwaps ChainSwapsEvent Empty where
  enabled := ChainSwaps.enabled validAddress
  next := ChainSwaps.next validAddress
  emits _ _ := []

instance (validAddress : String → Bool) (s : ChainSwaps) (e : ChainSwapsEvent) :
    Decidable ((chainSwaps validAddress).enabled s e) :=
  inferInstanceAs (Decidable (s.enabled validAddress e))

namespace ChainSwaps

/-- The only swap without a lockup transaction is the exposed one, and there is none once
the controller is gone. -/
def NoOrphans (s : ChainSwaps) : Prop :=
  ∀ swap ∈ s.m_swaps, s.lockupTransaction swap = false → s.destroyed = false ∧ s.swap = some swap

/-- The exposed swap, if any, has a lockup transaction. -/
def LockedUp (s : ChainSwaps) : Prop := ∀ swap, s.swap = some swap → s.lockupTransaction swap = true

/-- A swap that is made, or inputs that are found invalid, find no swap exposed that still
has no lockup transaction. -/
def Replaces (s : ChainSwaps) : ChainSwapsEvent → Prop
  | .handle (.lockupFinished _ .response) => s.LockedUp
  | .handle .chainTimer =>
      s.controllers.boltz_session = true → s.controllers.chain.isValid = false → s.LockedUp
  | _ => True

/-- What every step keeps. -/
structure Owned (s : ChainSwaps) : Prop where
  shown : s.swap.isSome = s.controllers.chain.swap.isSome
  listed : ∀ swap, s.swap = some swap → s.destroyed = false → swap ∈ s.m_swaps
  below : ∀ swap ∈ s.m_swaps, swap < s.created
  nodup : s.m_swaps.Nodup
  fresh : ∀ swap, s.created ≤ swap → s.lockupTransaction swap = false

theorem Owned.initial : Owned {} := by
  constructor <;> simp

/-- The list has each swap once, and the orphans are told by the exposed one. -/
theorem Owned.addSwap {s : ChainSwaps} (h : s.Owned) {controllers : Swaps}
    (hshown : controllers.chain.swap.isSome = true) : Owned { s.addSwap with controllers := controllers } := by
  have hnew : s.created ∉ s.m_swaps := fun hmem => Nat.lt_irrefl _ (h.below _ hmem)
  constructor
  · exact hshown.symm
  · intro swap hswap _
    obtain rfl : s.created = swap := Option.some.inj hswap
    exact List.mem_append_right _ (List.mem_singleton_self _)
  · intro swap hswap
    rcases List.mem_append.mp hswap with hold | hlast
    · exact Nat.lt_succ_of_lt (h.below swap hold)
    · rw [List.mem_singleton.mp hlast]
      exact Nat.lt_succ_self _
  · exact List.Nodup.append h.nodup (List.nodup_singleton _) (by simpa using hnew)
  · intro swap hswap
    exact h.fresh swap (Nat.le_of_succ_le hswap)

theorem noOrphans_addSwap {s : ChainSwaps} (h : s.Owned) (hs : s.NoOrphans)
    (hdestroyed : s.destroyed = false) (controllers : Swaps) :
    NoOrphans { s.addSwap with controllers := controllers } ↔ s.LockedUp := by
  constructor
  · intro hnext swap hswap
    have hmem := h.listed swap hswap hdestroyed
    by_contra hopen
    have hlast := hnext swap (List.mem_append_left _ hmem) (Bool.eq_false_iff.mpr hopen)
    have hsame : s.created = swap := Option.some.inj hlast.2
    have hlt := h.below swap hmem
    omega
  · intro hlocked swap hswap hnone
    have hopen : s.lockupTransaction swap = false := hnone
    rcases List.mem_append.mp hswap with hold | hlast
    · have hexposed := (hs swap hold hopen).2
      rw [hlocked swap hexposed] at hopen
      cases hopen
    · refine ⟨hdestroyed, ?_⟩
      rw [List.mem_singleton.mp hlast]
      rfl

theorem follow_kept (s : ChainSwaps) {controllers : Swaps} {outputs : List SwapsOutput}
    (h : outputs.any SwapsOutput.isChainSwap = false) :
    s.follow controllers outputs = s.kept controllers := by
  rw [follow, h]
  rfl

section Steps
variable {s : ChainSwaps} {controllers : Swaps}

theorem Owned.kept (h : s.Owned)
    (hshown : controllers.chain.swap.isSome = true → s.controllers.chain.swap.isSome = true) :
    (s.kept controllers).Owned := by
  have hswap : (s.kept controllers).swap =
      if controllers.chain.swap.isSome then s.swap else none := rfl
  constructor
  · rw [hswap]
    cases hnext : controllers.chain.swap.isSome with
    | true =>
        rw [if_pos rfl, h.shown, hshown hnext]
        exact hnext.symm
    | false =>
        rw [if_neg Bool.false_ne_true]
        exact hnext.symm
  · intro swap hexposed hdestroyed
    rw [hswap] at hexposed
    split_ifs at hexposed
    exact h.listed swap hexposed hdestroyed
  · exact h.below
  · exact h.nodup
  · exact h.fresh

/-- What is exposed no more must have its lockup transaction. -/
theorem noOrphans_kept (h : s.Owned) (hs : s.NoOrphans) (hdestroyed : s.destroyed = false) :
    (s.kept controllers).NoOrphans ↔ (controllers.chain.swap.isSome = false → s.LockedUp) := by
  have hswap : (s.kept controllers).swap =
      if controllers.chain.swap.isSome then s.swap else none := rfl
  constructor
  · intro hnext hhidden swap hexposed
    by_contra hopen
    have hlast := hnext swap (h.listed swap hexposed hdestroyed) (Bool.eq_false_iff.mpr hopen)
    rw [hswap, if_neg (Bool.eq_false_iff.mp hhidden)] at hlast
    cases hlast.2
  · intro hlocked swap hmem hopen
    have hexposed := (hs swap hmem hopen).2
    refine ⟨hdestroyed, ?_⟩
    rw [hswap]
    split_ifs with hshown
    · exact hexposed
    · have hlock := hlocked (Bool.eq_false_iff.mpr hshown) swap hexposed
      have hopen' : s.lockupTransaction swap = false := hopen
      rw [hlock] at hopen'
      cases hopen'

end Steps

/-- The handlers other than the timer and the end of a thread leave the exposed swap. -/
theorem handle_swap (validAddress : String → Bool) (s : Swaps) {e : SwapsEvent}
    (htimer : e ≠ .chainTimer) (hfinished : ∀ id lockup, e ≠ .lockupFinished id lockup) :
    (s.handle validAddress e).1.chain.swap = s.chain.swap ∧
      (s.handle validAddress e).2.any SwapsOutput.isChainSwap = false := by
  cases e with
  | chainTimer => exact (htimer rfl).elim
  | lockupFinished id lockup => exact (hfinished id lockup rfl).elim
  | setAmount amount =>
      simp only [Swaps.handle, ChainSwapController.setAmount]
      split_ifs <;> exact ⟨rfl, rfl⟩
  | setRefundAddress address =>
      simp only [Swaps.handle, ChainSwapController.setRefundAddress]
      split_ifs <;> exact ⟨rfl, rfl⟩
  | setClaimAddress address =>
      simp only [Swaps.handle, ChainSwapController.setClaimAddress]
      split_ifs <;> exact ⟨rfl, rfl⟩
  | read id =>
      simp only [Swaps.handle]
      cases (s.lockups.find id).bind fun job => job.read s.chain <;> exact ⟨rfl, rfl⟩
  | setSatoshi satoshi =>
      simp only [Swaps.handle, Swaps.setSatoshi]
      split_ifs
      · exact ⟨trivial, rfl⟩
      · exact ⟨trivial, by cases s.invoice.swap <;> rfl⟩
  | invoiceTimer =>
      simp only [Swaps.handle, Swaps.invoiceTimer, Swaps.updateInvoice]
      split_ifs <;> exact ⟨rfl, rfl⟩
  | invoiceFinished id response =>
      simp only [Swaps.handle]
      cases s.invoices.find id with
      | none => exact ⟨rfl, rfl⟩
      | some job => cases response <;> exact ⟨rfl, rfl⟩
  | boltzSession | setAddress | setDescription | request => exact ⟨rfl, rfl⟩

/-- The timer hides what is exposed when the inputs are invalid. -/
theorem chainTimer_swap (validAddress : String → Bool) (s : Swaps) :
    (s.handle validAddress .chainTimer).1.chain.swap =
        (if s.boltz_session = true ∧ s.chain.isValid = false then none else s.chain.swap) ∧
      (s.handle validAddress .chainTimer).2.any SwapsOutput.isChainSwap = false := by
  have hvalid : ({ s.chain with timer := false } : ChainSwapController).isValid =
      s.chain.isValid := rfl
  refine ⟨?_, rfl⟩
  simp only [Swaps.handle, Swaps.chainTimer, Swaps.updateChain, hvalid]
  cases s.boltz_session <;> cases s.chain.isValid <;> rfl

theorem unanswered_swap (validAddress : String → Bool) (s : Swaps) (id : ℕ) {lockup : Lockup}
    (h : lockup ≠ .response) :
    (s.handle validAddress (.lockupFinished id lockup)).1.chain.swap = s.chain.swap ∧
      (s.handle validAddress (.lockupFinished id lockup)).2.any SwapsOutput.isChainSwap = false := by
  simp only [Swaps.handle]
  cases s.lockups.find id with
  | none => exact ⟨rfl, rfl⟩
  | some job =>
      cases lockup with
      | thrown | nothing => exact ⟨rfl, rfl⟩
      | response => exact (h rfl).elim

/-- An answer makes a swap. -/
theorem response_swap {validAddress : String → Bool} {s : Swaps} {id : ℕ}
    (he : (swaps validAddress).enabled s (.lockupFinished id .response)) :
    (s.handle validAddress (.lockupFinished id .response)).1.chain.swap.isSome = true ∧
      (s.handle validAddress (.lockupFinished id .response)).2.any SwapsOutput.isChainSwap =
        true := by
  obtain ⟨job, hjob, hend⟩ := he
  obtain ⟨request, hrequest⟩ := Option.isSome_iff_exists.mp hend
  simp only [Swaps.handle, Option.mem_def.mp hjob, Swaps.lockupFinished, hrequest]
  exact ⟨rfl, rfl⟩

theorem Owned.lockedUp {s : ChainSwaps} (h : s.Owned)
    (hnone : s.controllers.chain.swap.isSome = false) : s.LockedUp := by
  intro swap hswap
  have hshown := h.shown
  rw [hswap, hnone] at hshown
  cases hshown

/-- What a handler does to the swaps: it adds one, or it shows what was shown, or nothing. -/
theorem handle_cases (validAddress : String → Bool) {s : ChainSwaps} (h : s.Owned)
    {e : SwapsEvent} (he : (swaps validAddress).enabled s.controllers e) :
    ∃ controllers,
      controllers.chain.swap.isSome = true ∧ (s.Replaces (.handle e) ↔ s.LockedUp) ∧
        s.next validAddress (.handle e) = { s.addSwap with controllers := controllers } ∨
      (controllers.chain.swap.isSome = true → s.controllers.chain.swap.isSome = true) ∧
        (s.Replaces (.handle e) ↔ (controllers.chain.swap.isSome = false → s.LockedUp)) ∧
        s.next validAddress (.handle e) = s.kept controllers := by
  refine ⟨(s.controllers.handle validAddress e).1, ?_⟩
  have hsame : (s.controllers.handle validAddress e).1.chain.swap = s.controllers.chain.swap ∧
        (s.controllers.handle validAddress e).2.any SwapsOutput.isChainSwap = false →
      s.Replaces (.handle e) →
      ((s.controllers.handle validAddress e).1.chain.swap.isSome = true →
        s.controllers.chain.swap.isSome = true) ∧
      (s.Replaces (.handle e) ↔
        ((s.controllers.handle validAddress e).1.chain.swap.isSome = false → s.LockedUp)) ∧
      s.next validAddress (.handle e) = s.kept (s.controllers.handle validAddress e).1 := by
    intro ⟨hswap, hany⟩ hreplaces
    refine ⟨fun hnext => hswap ▸ hnext, ?_, ?_⟩
    · rw [hswap]
      exact iff_of_true hreplaces fun hnone => h.lockedUp hnone
    · exact follow_kept s hany
  cases e with
  | chainTimer =>
      obtain ⟨hswap, hany⟩ := chainTimer_swap validAddress s.controllers
      by_cases hinvalid : s.controllers.boltz_session = true ∧ s.controllers.chain.isValid = false
      · rw [if_pos hinvalid] at hswap
        refine .inr ⟨?_, ?_, follow_kept s hany⟩
        · intro hnext
          rw [hswap] at hnext
          cases hnext
        · rw [hswap]
          simp [Replaces, hinvalid]
      · rw [if_neg hinvalid] at hswap
        exact .inr (hsame ⟨hswap, hany⟩ fun hboltz hnot => (hinvalid ⟨hboltz, hnot⟩).elim)
  | lockupFinished id lockup =>
      by_cases hresponse : lockup = .response
      · subst hresponse
        obtain ⟨hswap, hany⟩ := response_swap he
        exact .inl ⟨hswap, Iff.rfl, if_pos hany⟩
      · have hreplaces : s.Replaces (.handle (.lockupFinished id lockup)) := by
          cases lockup with
          | thrown | nothing => trivial
          | response => exact (hresponse rfl).elim
        exact .inr (hsame (unanswered_swap validAddress s.controllers id hresponse) hreplaces)
  | boltzSession | setAmount | setRefundAddress | setClaimAddress | read | setAddress | setSatoshi
  | setDescription | request | invoiceTimer | invoiceFinished =>
      exact .inr (hsame (handle_swap validAddress s.controllers nofun nofun) trivial)

theorem setLockupTransaction_none {s : ChainSwaps} (h : s.swap = none) (transaction : Bool) :
    s.setLockupTransaction transaction = s := by
  rw [setLockupTransaction, h]
  rfl

theorem setLockupTransaction_some {s : ChainSwaps} {swap : ℕ} (h : s.swap = some swap)
    (transaction : Bool) :
    s.setLockupTransaction transaction =
      { s with lockupTransaction := Function.update s.lockupTransaction swap transaction } := by
  rw [setLockupTransaction, h]
  rfl

theorem Owned.setLockupTransaction {s : ChainSwaps} (h : s.Owned) (hdestroyed : s.destroyed = false)
    (transaction : Bool) : (s.setLockupTransaction transaction).Owned := by
  cases hswap : s.swap with
  | none =>
      rw [setLockupTransaction_none hswap]
      exact h
  | some swap =>
      rw [setLockupTransaction_some hswap]
      refine ⟨h.shown, h.listed, h.below, h.nodup, ?_⟩
      intro other hother
      have hlt := h.below swap (h.listed swap hswap hdestroyed)
      have hne : other ≠ swap := by
        rintro rfl
        exact Nat.lt_irrefl _ (Nat.lt_of_lt_of_le hlt hother)
      exact (Function.update_of_ne hne _ _).trans (h.fresh other hother)

theorem noOrphans_setLockupTransaction {s : ChainSwaps} (hs : s.NoOrphans) (transaction : Bool)
    (hdestroyed : s.destroyed = false) : (s.setLockupTransaction transaction).NoOrphans := by
  cases hswap : s.swap with
  | none =>
      rw [setLockupTransaction_none hswap]
      exact hs
  | some swap =>
      rw [setLockupTransaction_some hswap]
      intro other hmem hopen
      by_cases hother : other = swap
      · rw [hother]
        exact ⟨hdestroyed, hswap⟩
      · have hopen' : s.lockupTransaction other = false :=
          (Function.update_of_ne hother _ _).symm.trans hopen
        exact hs other hmem hopen'

theorem Owned.sync {s : ChainSwaps} (h : s.Owned) {swap : ℕ} (hswap : swap < s.created) :
    Owned { s with lockupTransaction := Function.update s.lockupTransaction swap true } := by
  refine ⟨h.shown, h.listed, h.below, h.nodup, ?_⟩
  intro other hother
  have hne : other ≠ swap := by
    rintro rfl
    exact Nat.lt_irrefl _ (Nat.lt_of_lt_of_le hswap hother)
  exact (Function.update_of_ne hne _ _).trans (h.fresh other hother)

theorem noOrphans_sync {s : ChainSwaps} (hs : s.NoOrphans) (swap : ℕ) :
    NoOrphans { s with lockupTransaction := Function.update s.lockupTransaction swap true } := by
  intro other hmem hopen
  have hne : other ≠ swap := by
    rintro rfl
    have htrue : Function.update s.lockupTransaction other true other = true :=
      Function.update_self ..
    exact Bool.false_ne_true (hopen.symm.trans htrue)
  exact hs other hmem ((Function.update_of_ne hne _ _).symm.trans hopen)

/-- The destructor leaves the list, or takes the exposed swap off it. -/
theorem destroy_m_swaps (s : ChainSwaps) :
    s.destroy.m_swaps = s.swap.elim s.m_swaps fun swap =>
      if s.lockupTransaction swap then s.m_swaps else s.m_swaps.erase swap := by
  rw [destroy]
  cases s.swap with
  | none => rfl
  | some swap =>
      simp only [Option.elim_some]
      split_ifs <;> rfl

theorem destroy_rest (s : ChainSwaps) :
    s.destroy.controllers = s.controllers ∧ s.destroy.created = s.created ∧
      s.destroy.swap = s.swap ∧ s.destroy.lockupTransaction = s.lockupTransaction := by
  rw [destroy]
  cases hswap : s.swap with
  | none => simp [hswap]
  | some swap =>
      simp only [Option.elim_some]
      split_ifs <;> simp [removeSwap, hswap]

theorem destroy_sublist (s : ChainSwaps) : s.destroy.m_swaps.Sublist s.m_swaps := by
  rw [destroy_m_swaps]
  cases s.swap with
  | none => exact List.Sublist.refl _
  | some swap =>
      simp only [Option.elim_some]
      split_ifs
      · exact List.Sublist.refl _
      · exact List.erase_sublist

theorem Owned.destroy {s : ChainSwaps} (h : s.Owned) : s.destroy.Owned := by
  obtain ⟨hcontrollers, hcreated, hswap, hlockup⟩ := s.destroy_rest
  constructor
  · rw [hswap, hcontrollers]
    exact h.shown
  · intro swap _ hdestroyed
    cases hdestroyed
  · intro swap hmem
    rw [hcreated]
    exact h.below swap (s.destroy_sublist.subset hmem)
  · exact h.nodup.sublist s.destroy_sublist
  · rw [hcreated, hlockup]
    exact h.fresh

/-- The only orphan there can be goes with the controller. -/
theorem noOrphans_destroy {s : ChainSwaps} (h : s.Owned) (hs : s.NoOrphans) :
    s.destroy.NoOrphans := by
  obtain ⟨_, _, _, hlockup⟩ := s.destroy_rest
  intro swap hmem hopen
  exfalso
  rw [hlockup] at hopen
  have hexposed := (hs swap (s.destroy_sublist.subset hmem) hopen).2
  rw [destroy_m_swaps, hexposed, Option.elim_some, if_neg (Bool.eq_false_iff.mp hopen)] at hmem
  exact h.nodup.not_mem_erase hmem

theorem Owned.next (validAddress : String → Bool) {s : ChainSwaps} (h : s.Owned)
    {e : ChainSwapsEvent} (he : s.enabled validAddress e) : (s.next validAddress e).Owned := by
  cases e with
  | handle e =>
      obtain ⟨controllers, hcases⟩ := handle_cases validAddress h he.2
      rcases hcases with ⟨hshown, _, hnext⟩ | ⟨hshown, _, hnext⟩
      · rw [hnext]
        exact h.addSwap hshown
      · rw [hnext]
        exact h.kept hshown
  | setLockupTransaction transaction => exact h.setLockupTransaction he transaction
  | sync swap => exact h.sync he
  | destroy => exact h.destroy

/-- One step keeps the list free of orphans exactly when it replaces no swap that still has
no lockup transaction. -/
theorem noOrphans_next_iff (validAddress : String → Bool) {s : ChainSwaps} (h : s.Owned)
    {e : ChainSwapsEvent} (he : s.enabled validAddress e) (hs : s.NoOrphans) :
    (s.next validAddress e).NoOrphans ↔ s.Replaces e := by
  cases e with
  | handle e =>
      obtain ⟨controllers, hcases⟩ := handle_cases validAddress h he.2
      rcases hcases with ⟨_, hreplaces, hnext⟩ | ⟨_, hreplaces, hnext⟩
      · rw [hnext, hreplaces]
        exact noOrphans_addSwap h hs he.1 controllers
      · rw [hnext, hreplaces]
        exact noOrphans_kept h hs he.1
  | setLockupTransaction transaction =>
      exact iff_of_true (noOrphans_setLockupTransaction hs transaction he) trivial
  | sync swap => exact iff_of_true (noOrphans_sync hs swap) trivial
  | destroy => exact iff_of_true (noOrphans_destroy h hs) trivial

end ChainSwaps

/-- In every state of a run the exposed swap is the only one without a lockup transaction,
and none is left by the destructor, exactly when no step replaces a swap that still has
no lockup transaction. -/
theorem noOrphans_always_iff (validAddress : String → Bool) {es : List ChainSwapsEvent}
    (hes : (chainSwaps validAddress).Valid {} es) :
    (chainSwaps validAddress).Always ChainSwaps.NoOrphans {} es ↔
      (chainSwaps validAddress).Along ChainSwaps.Replaces {} es := by
  apply Reactive.always_iff_along (J := ChainSwaps.Owned) (V := (chainSwaps validAddress).enabled)
  · intro s e hs he
    exact hs.next validAddress he
  · intro s e hs he hA
    exact ChainSwaps.noOrphans_next_iff validAddress hs he hA
  · exact .initial
  · intro swap hswap
    cases hswap
  · exact hes

/-- The amount is changed after a swap has been made for it, and another swap is made. -/
def editedAmount : List ChainSwapsEvent :=
  [.boltzSession, .setAmount "1000",
    .setRefundAddress (some { id := 0, address := "bc1", isLiquid := false }),
    .setClaimAddress (some { id := 1, address := "lq1", isLiquid := true }),
    .chainTimer, .read 0, .read 0, .read 0, .read 0, .lockupFinished 0 .response,
    .setAmount "2000", .chainTimer, .read 1, .read 1, .read 1, .read 1,
    .lockupFinished 1 .response].map .handle

/-- One swap is made and paid before the controller goes. -/
theorem noOrphans_always_iff_paid :
    (chainSwaps fun _ => true).Always ChainSwaps.NoOrphans {}
        (editedAmount.take 10 ++ [.setLockupTransaction true, .destroy]) ↔
      (chainSwaps fun _ => true).Along ChainSwaps.Replaces {}
        (editedAmount.take 10 ++ [.setLockupTransaction true, .destroy]) :=
  noOrphans_always_iff (fun _ => true) (by decide)

theorem not_noOrphans_editedAmount :
    ¬ ∀ es : List ChainSwapsEvent, (chainSwaps fun _ => true).Valid {} es →
      (chainSwaps fun _ => true).Always ChainSwaps.NoOrphans {} es := by
  intro h
  have hlast := (h editedAmount (by decide)).last
  exact absurd (hlast 0 (by decide) (by decide)).2 (by decide)

end GreenWallet.Controllers
