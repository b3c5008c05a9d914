import Mathlib.Data.List.Nodup
import GreenWallet.Library.Reactive

/-!
# A wallet that is restored

A mnemonic logs in on every network of its deployment. When all have finished or failed, the wallet is
the one that was to be restored, or a new one. The loop that looks for a wallet with a PIN and the same
hash sets the wallet of the controller, and the variable that is looked at after it stays null.
-/
namespace GreenWallet.Restoring
open GreenWallet.Library

structure Wallet where
  /-- The login is a `PinData`. -/
  isPin : Bool := false
  xpubHashId : String
  deployment : String
deriving DecidableEq

structure Context where
  deployment : String
  /-- Empty until a login has finished. -/
  xpubHashId : String := ""
  /-- The place of the wallet in the list of the manager. -/
  wallet : Option ℕ := none
deriving DecidableEq

inductive RestoreSignal where
  | restoreFinished (context : Context)
  | alreadyRestored (wallet : ℕ)
  | mismatch
deriving DecidableEq

structure RestoreController where
  /-- `getWallets` of the manager. -/
  wallets : List Wallet
  m_wallet : Option ℕ := none
  m_context : Option Context := none
  /-- The groups of the monitor have not all finished or failed. -/
  checking : Bool := false
  log : List RestoreSignal := []
deriving DecidableEq

inductive RestoreEvent where
  | setWallet (wallet : Option ℕ)
  | restore (deployment : String)
  /-- `LoginTask::handleDone` of some network. -/
  | loggedIn (xpubHashId : String)
  | allFinishedOrFailed
  /-- A PIN is set for a wallet. -/
  | setPin (wallet : ℕ)

namespace RestoreController

def emit (c : RestoreController) (signal : RestoreSignal) : RestoreController :=
  { c with m_context := none, checking := false, log := c.log ++ [signal] }

/-- The loop over the wallets. -/
def search (xpubHashId : String) (c : RestoreController) : RestoreController :=
  match c.wallets.findIdx? fun w => w.isPin && w.xpubHashId == xpubHashId with
  | some w => { c with m_wallet := some w }
  | none => c

/-- `createWallet` and `insertWallet`. -/
def create (context : Context) (c : RestoreController) : RestoreController :=
  let wallet := { xpubHashId := context.xpubHashId, deployment := context.deployment }
  emit { c with wallets := c.wallets ++ [wallet] }
    (.restoreFinished { context with wallet := some c.wallets.length })

def finish (context : Context) (c : RestoreController) : RestoreController :=
  match c.m_wallet with
  | some wallet =>
      if (c.wallets[wallet]?).map Wallet.xpubHashId = some context.xpubHashId then
        c.emit (.restoreFinished { context with wallet := some wallet })
      else c.emit .mismatch
  | none =>
      -- The loop assigns `m_wallet`, and not this variable.
      let wallet : Option ℕ := none
      let c := c.search context.xpubHashId
      match wallet with
      | some wallet => c.emit (.alreadyRestored wallet)
      | none => c.create context

def next (c : RestoreController) : RestoreEvent → RestoreController
  | .setWallet wallet => { c with m_wallet := wallet }
  | .restore deployment =>
      { c with m_context := some { deployment := deployment }, checking := true }
  | .loggedIn xpubHashId =>
      { c with m_context := c.m_context.map fun context => { context with xpubHashId := xpubHashId } }
  | .allFinishedOrFailed => c.m_context.elim c c.finish
  | .setPin wallet => { c with wallets := c.wallets.modify wallet fun w => { w with isPin := true } }

def enabled (c : RestoreController) : RestoreEvent → Prop
  | .setWallet wallet => c.checking = false ∧ ∀ w ∈ wallet, w < c.wallets.length
  | .restore _ => c.checking = false
  | .loggedIn _ | .allFinishedOrFailed => c.checking = true
  | .setPin wallet => wallet < c.wallets.length

instance (c : RestoreController) : (e : RestoreEvent) → Decidable (c.enabled e)
  | .setWallet wallet =>
      inferInstanceAs (Decidable (c.checking = false ∧ ∀ w ∈ wallet, w < c.wallets.length))
  | .restore _ => inferInstanceAs (Decidable (c.checking = false))
  | .loggedIn _ | .allFinishedOrFailed => inferInstanceAs (Decidable (c.checking = true))
  | .setPin wallet => inferInstanceAs (Decidable (wallet < c.wallets.length))

def restoring : Reactive RestoreController RestoreEvent Empty where
  enabled := enabled
  next := next
  emits := fun _ _ => []

instance (c : RestoreController) (e : RestoreEvent) : Decidable (restoring.enabled c e) :=
  inferInstanceAs (Decidable (c.enabled e))

/-- Each wallet has a hash of its own. -/
structure Distinct (c : RestoreController) : Prop where
  nodup : (c.wallets.map Wallet.xpubHashId).Nodup
  named : "" ∉ c.wallets.map Wallet.xpubHashId

/-- What ends without a wallet has logged in, with a hash that no wallet has. -/
def Anew (c : RestoreController) : RestoreEvent → Prop
  | .allFinishedOrFailed => c.m_wallet = none → ∀ context ∈ c.m_context,
      context.xpubHashId ≠ "" ∧ context.xpubHashId ∉ c.wallets.map Wallet.xpubHashId
  | _ => True

/-- What was restored is the wallet that it was logged in to. -/
def Restored (c : RestoreController) : RestoreSignal → Prop
  | .restoreFinished context => ∃ place ∈ context.wallet,
      (c.wallets.map Wallet.xpubHashId)[place]? = some context.xpubHashId
  | .alreadyRestored _ => False
  | .mismatch => True

theorem wallets_search (xpubHashId : String) (c : RestoreController) :
    (c.search xpubHashId).wallets = c.wallets ∧ (c.search xpubHashId).log = c.log := by
  unfold search
  split
  · exact ⟨rfl, rfl⟩
  · exact ⟨rfl, rfl⟩

/-- The end of a restore: the wallet that was given, or a new one. -/
theorem finish_cases (context : Context) (c : RestoreController) :
    (c.m_wallet ≠ none ∧ (c.finish context).wallets = c.wallets ∧
      ∃ signal, c.Restored signal ∧ (c.finish context).log = c.log ++ [signal]) ∨
    (c.m_wallet = none ∧
      (c.finish context).wallets =
        c.wallets ++ [{ xpubHashId := context.xpubHashId, deployment := context.deployment }] ∧
      (c.finish context).log =
        c.log ++ [.restoreFinished { context with wallet := some c.wallets.length }]) := by
  unfold finish
  split
  · next wallet hwallet =>
      left
      refine ⟨by simp [hwallet], ?_⟩
      split
      · next hsame =>
          refine ⟨rfl, .restoreFinished { context with wallet := some wallet }, ⟨wallet, rfl, ?_⟩, rfl⟩
          rw [List.getElem?_map]
          exact hsame
      · exact ⟨rfl, .mismatch, trivial, rfl⟩
  · next hwallet =>
      right
      have hsearch := wallets_search context.xpubHashId c
      refine ⟨hwallet, ?_, ?_⟩
      · simp only [create, emit, hsearch.1]
      · simp only [create, emit, hsearch.1, hsearch.2]

theorem hashes_setPin (wallets : List Wallet) (place : ℕ) :
    (wallets.modify place fun w => { w with isPin := true }).map Wallet.xpubHashId =
      wallets.map Wallet.xpubHashId := by
  apply List.ext_getElem?
  intro i
  rw [List.getElem?_map, List.getElem?_map, List.getElem?_modify]
  cases wallets[i]? with
  | none => rfl
  | some wallet =>
      simp only [Option.map_eq_map, Option.map_some]
      split
      · rfl
      · rfl

/-- A wallet never gets another hash, and none is taken away. -/
theorem hashes_next (c : RestoreController) (e : RestoreEvent) :
    ∃ new, ((c.next e).wallets.map Wallet.xpubHashId) = c.wallets.map Wallet.xpubHashId ++ new := by
  cases e with
  | setWallet | restore | loggedIn => exact ⟨[], (List.append_nil _).symm⟩
  | allFinishedOrFailed =>
      cases hcontext : c.m_context with
      | none => exact ⟨[], by simp [next, hcontext]⟩
      | some context =>
          simp only [next, hcontext, Option.elim_some]
          cases finish_cases context c with
          | inl hgiven => exact ⟨[], by rw [hgiven.2.1, List.append_nil]⟩
          | inr hnew => exact ⟨[context.xpubHashId], by rw [hnew.2.1, List.map_append]; rfl⟩
  | setPin wallet => exact ⟨[], by rw [List.append_nil]; exact hashes_setPin c.wallets wallet⟩

theorem Restored.next {c : RestoreController} {signal : RestoreSignal} (h : c.Restored signal)
    (e : RestoreEvent) : (c.next e).Restored signal := by
  obtain ⟨new, hnew⟩ := c.hashes_next e
  cases signal with
  | restoreFinished context =>
      obtain ⟨place, hplace, hhash⟩ := h
      refine ⟨place, hplace, ?_⟩
      rw [hnew]
      exact List.getElem?_append_left (List.getElem?_eq_some_iff.mp hhash).1 ▸ hhash
  | alreadyRestored => exact h
  | mismatch => trivial

theorem distinct_iff_of_hashes {c c' : RestoreController}
    (h : c'.wallets.map Wallet.xpubHashId = c.wallets.map Wallet.xpubHashId) :
    c'.Distinct ↔ c.Distinct := by
  constructor
  · intro hdistinct
    exact ⟨h ▸ hdistinct.nodup, h ▸ hdistinct.named⟩
  · intro hdistinct
    exact ⟨h.symm ▸ hdistinct.nodup, h.symm ▸ hdistinct.named⟩

theorem distinct_concat_iff {c c' : RestoreController} {xpubHashId : String}
    (h : c'.wallets.map Wallet.xpubHashId = c.wallets.map Wallet.xpubHashId ++ [xpubHashId]) :
    c'.Distinct ↔
      c.Distinct ∧ xpubHashId ≠ "" ∧ xpubHashId ∉ c.wallets.map Wallet.xpubHashId := by
  constructor
  · intro hdistinct
    have hnodup := hdistinct.nodup
    have hnamed := hdistinct.named
    rw [h, ← List.concat_eq_append, List.nodup_concat] at hnodup
    rw [h, List.mem_append, List.mem_singleton, not_or] at hnamed
    exact ⟨⟨hnodup.2, hnamed.1⟩, Ne.symm hnamed.2, hnodup.1⟩
  · intro ⟨hdistinct, hne, hnot⟩
    constructor
    · rw [h, ← List.concat_eq_append, List.nodup_concat]
      exact ⟨hnot, hdistinct.nodup⟩
    · rw [h, List.mem_append, List.mem_singleton]
      exact not_or.mpr ⟨hdistinct.named, hne.symm⟩

/-- A step keeps the wallets apart exactly if what ends without a wallet is new. -/
theorem distinct_next_iff {c : RestoreController} (h : c.Distinct) (e : RestoreEvent) :
    (c.next e).Distinct ↔ c.Anew e := by
  cases e with
  | setWallet | restore | loggedIn => exact iff_of_true ⟨h.nodup, h.named⟩ trivial
  | setPin wallet =>
      exact iff_of_true ((distinct_iff_of_hashes (hashes_setPin c.wallets wallet)).mpr h) trivial
  | allFinishedOrFailed =>
      cases hcontext : c.m_context with
      | none =>
          apply iff_of_true
          · rw [next, hcontext]
            exact h
          · intro _ context hmem
            rw [hcontext] at hmem
            cases hmem
      | some context =>
          have hnext : c.next .allFinishedOrFailed = c.finish context := by
            rw [next, hcontext, Option.elim_some]
          rw [hnext]
          cases finish_cases context c with
          | inl hgiven =>
              apply iff_of_true
              · exact (distinct_iff_of_hashes (congrArg _ hgiven.2.1)).mpr h
              · exact fun hnone => absurd hnone hgiven.1
          | inr hnew =>
              have hhashes : (c.finish context).wallets.map Wallet.xpubHashId =
                  c.wallets.map Wallet.xpubHashId ++ [context.xpubHashId] := by
                rw [hnew.2.1, List.map_append]
                rfl
              rw [distinct_concat_iff hhashes]
              constructor
              · intro ⟨_, hanew⟩ _ found hfound
                cases hcontext.symm.trans hfound
                exact hanew
              · intro hanew
                exact ⟨h, hanew hnew.1 context hcontext⟩

/-- A restore that ends says so once, of a wallet with the hash that it has logged in with. -/
theorem log_next (c : RestoreController) (e : RestoreEvent) :
    (c.next e).log = c.log ∨
      ∃ signal, (c.next e).Restored signal ∧ (c.next e).log = c.log ++ [signal] := by
  cases e with
  | setWallet | restore | loggedIn | setPin => exact .inl rfl
  | allFinishedOrFailed =>
      cases hcontext : c.m_context with
      | none =>
          rw [next, hcontext]
          exact .inl rfl
      | some context =>
          have hnext : c.next .allFinishedOrFailed = c.finish context := by
            rw [next, hcontext, Option.elim_some]
          right
          cases finish_cases context c with
          | inl hgiven =>
              obtain ⟨signal, hrestored, hlog⟩ := hgiven.2.2
              exact ⟨signal, hrestored.next _, by rw [hnext, hlog]⟩
          | inr hnew =>
              refine ⟨_, ?_, by rw [hnext, hnew.2.2]⟩
              refine ⟨c.wallets.length, rfl, ?_⟩
              rw [hnext, hnew.2.1, List.map_append, ← List.length_map Wallet.xpubHashId]
              exact List.getElem?_concat_length

/-- The page with the wallets that there are when it is opened. -/
def opened (wallets : List Wallet) : RestoreController where
  wallets := wallets

/-- In every state of a run each wallet has a hash of its own, exactly if every restore that ends
without a wallet, given or found by the one before, has logged in with a hash that no wallet has.
After every run each restore that has ended was of a wallet with the hash that it has logged in with,
or a mismatch: none has found that its wallet was there already. -/
theorem distinct_iff_anew {wallets : List Wallet} (hwallets : (opened wallets).Distinct)
    {es : List RestoreEvent} (hes : restoring.Valid (opened wallets) es) :
    (restoring.Always Distinct (opened wallets) es ↔ restoring.Along Anew (opened wallets) es) ∧
      ∀ signal ∈ (restoring.run (opened wallets) es).log,
        (restoring.run (opened wallets) es).Restored signal := by
  constructor
  · exact Reactive.always_iff_along_of_keeps (J := Distinct) (R := restoring)
      (fun _ e h _ hanew => (distinct_next_iff h e).mpr hanew)
      (fun _ e h _ _ => distinct_next_iff h e) hwallets hwallets hes
  · apply Reactive.run_invariant (R := restoring)
      (I := fun c => ∀ signal ∈ c.log, c.Restored signal) _ (List.forall_mem_nil _) hes
    intro c e h _ signal hsignal
    cases log_next c e with
    | inl hsame => exact (h signal (hsame ▸ hsignal)).next e
    | inr hended =>
        obtain ⟨ended, hrestored, hlog⟩ := hended
        have hmem : signal ∈ c.log ++ [ended] := hlog ▸ hsignal
        cases List.mem_append.mp hmem with
        | inl hold => exact (h signal hold).next e
        | inr hnew =>
            rw [List.mem_singleton.mp hnew]
            exact hrestored

/-- The mnemonic of a wallet that is there, with its PIN. -/
def restoredAgain : List RestoreEvent :=
  [.restore "mainnet", .loggedIn "7b3f", .allFinishedOrFailed]

theorem distinct_iff_anew_restoredAgain :
    ¬ restoring.Always Distinct
      (opened [{ isPin := true, xpubHashId := "7b3f", deployment := "mainnet" }]) restoredAgain := by
  have hwallets :
      (opened [{ isPin := true, xpubHashId := "7b3f", deployment := "mainnet" }]).Distinct :=
    ⟨by decide, by decide⟩
  rw [(distinct_iff_anew hwallets (by decide)).1]
  intro ⟨_, _, hanew, _⟩
  exact (hanew rfl _ rfl).2 (by decide)

end RestoreController
end GreenWallet.Restoring
