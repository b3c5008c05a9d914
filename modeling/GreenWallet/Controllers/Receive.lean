import Mathlib.Logic.Function.Basic
import Mathlib.Tactic.SplitIfs
import GreenWallet.Library.Reactive

/-!
# The address to receive to

A controller asks for an address of the account it is given, and shows it as a text or as a URI
with the amount and the asset. It asks for one address at a time, and takes the answer for the
account it has when the answer comes.
-/
namespace GreenWallet.Controllers.Receive
open GreenWallet.Library

structure Network where
  bip21_prefix : String
  isLiquid : Bool
  policyAsset : String

structure Account where
  context : ℕ
  network : Network

/-- An address is one object in its context, and has the account it was given last. -/
structure ReceiveAddressController (ι : Type) where
  m_context : Option ℕ := none
  m_account : Option ι := none
  /-- The id of the asset. -/
  m_asset : Option String := none
  m_address : Option (ℕ × String) := none
  m_generating : Bool := false
  /-- `bip21_amount` of the output of `m_convert`. -/
  bip21_amount : String := ""
  owners : ℕ × String → Option ι := fun _ => none
  /-- The accounts that an address has been asked for, and the answer to the last is due. -/
  asked : List ι := []
  due : Bool := false
  /-- The addresses that the library has issued, and for which account. -/
  issued : List (String × ι) := []
  /-- A null pointer has been followed. -/
  crashed : Bool := false

inductive ReceiveEvent (ι : Type) where
  | setContext (context : Option ℕ)
  | setAccount (account : Option ι)
  | setAsset (asset : Option String)
  | generate
  | converted (bip21_amount : String)
  | finished (address : String)
  | failed

namespace ReceiveAddressController
variable {ι : Type} (accounts : ι → Account) (positive : String → Bool)

def generate (c : ReceiveAddressController ι) : ReceiveAddressController ι :=
  match c.m_context, c.m_account with
  | some _, some account =>
      if c.m_generating then c
      else { c with m_generating := true, asked := c.asked ++ [account], due := true }
  | _, _ => c

def takeAccount (account : Option ι) (c : ReceiveAddressController ι) :
    ReceiveAddressController ι :=
  match account with
  | none => { c with m_account := none }
  | some found => { c with m_account := some found, m_context := some (accounts found).context }

def setAccount [DecidableEq ι] (account : Option ι) (c : ReceiveAddressController ι) :
    ReceiveAddressController ι :=
  if c.m_account = account then c else (c.takeAccount accounts account).generate

/-- The answer, for the account there is now. -/
def finished [DecidableEq ι] (address : String) (c : ReceiveAddressController ι) :
    ReceiveAddressController ι :=
  match c.m_account with
  | none => { c with due := false, crashed := true }
  | some account =>
      { c with
        due := false
        m_generating := false
        m_address := some ((accounts account).context, address)
        owners := Function.update c.owners ((accounts account).context, address) (some account) }

/-- Absent if a null pointer is followed. `positive` says whether a text is a number above zero. -/
def uri (c : ReceiveAddressController ι) : Option String :=
  match c.m_account with
  | none => some ""
  | some account =>
      if c.m_generating then some ""
      else
        match c.m_address with
        | none => none
        | some (_, address) =>
            if positive c.bip21_amount then
              if (accounts account).network.isLiquid then
                some ((accounts account).network.bip21_prefix ++ ":" ++ address ++ "?assetid=" ++
                  c.m_asset.getD (accounts account).network.policyAsset ++ "&amount=" ++
                  c.bip21_amount)
              else
                some ((accounts account).network.bip21_prefix ++ ":" ++ address ++ "?amount=" ++
                  c.bip21_amount)
            else
              match c.m_asset with
              | none => some address
              | some asset =>
                  if (accounts account).network.isLiquid &&
                      asset != (accounts account).network.policyAsset then
                    some ((accounts account).network.bip21_prefix ++ ":" ++ address ++
                      "?assetid=" ++ asset)
                  else some address

variable [DecidableEq ι]

/-- An address is issued for one account only. -/
def enabled (c : ReceiveAddressController ι) : ReceiveEvent ι → Prop
  | .finished address => c.crashed = false ∧ c.due = true ∧
      ∀ account, (address, account) ∈ c.issued → some account = c.asked.getLast?
  | .failed => c.crashed = false ∧ c.due = true
  | _ => c.crashed = false

def next (c : ReceiveAddressController ι) : ReceiveEvent ι → ReceiveAddressController ι
  | .setContext context => { c with m_context := context }
  | .setAccount account => c.setAccount accounts account
  | .setAsset asset => { c with m_asset := asset }
  | .generate => c.generate
  | .converted amount => { c with bip21_amount := amount }
  | .finished address =>
      { c.finished accounts address with
        issued := c.issued ++ c.asked.getLast?.toList.map fun account => (address, account) }
  -- No slot is connected to the failure.
  | .failed => { c with due := false }

def receiving : Reactive (ReceiveAddressController ι) (ReceiveEvent ι) Empty where
  enabled := enabled
  next := next accounts
  emits := fun _ _ => []

/-- The account's own address is shown: while none is being asked for there is one, it has been
issued for the account, and it is filed under it. -/
structure Right (c : ReceiveAddressController ι) : Prop where
  crashed : c.crashed = false
  shown : ∀ account, c.m_account = some account → c.m_generating = false →
    ∃ address, c.m_address = some ((accounts account).context, address) ∧
      c.owners ((accounts account).context, address) = some account ∧
      (address, account) ∈ c.issued

/-- An answer finds the account that it was asked for. -/
def Timely (c : ReceiveAddressController ι) : ReceiveEvent ι → Prop
  | .finished _ => c.m_account = c.asked.getLast?
  | _ => True

omit [DecidableEq ι] in
/-- An answer is due only after a question, and while it is, an address is being asked for. -/
structure Asking (c : ReceiveAddressController ι) : Prop where
  asked : c.due = true → c.asked ≠ []
  generating : c.due = true → c.m_generating = true

variable {accounts}

omit [DecidableEq ι] in
theorem Asking.empty : ({} : ReceiveAddressController ι).Asking := ⟨nofun, nofun⟩

omit [DecidableEq ι] in
theorem Asking.generate {c : ReceiveAddressController ι} (h : c.Asking) : c.generate.Asking := by
  unfold ReceiveAddressController.generate
  split
  · split_ifs
    · exact h
    · exact ⟨fun _ => List.concat_ne_nil _ _, fun _ => rfl⟩
  · exact h

omit [DecidableEq ι] in
theorem Asking.takeAccount {c : ReceiveAddressController ι} (h : c.Asking) (account : Option ι) :
    (c.takeAccount accounts account).Asking := by
  cases account with
  | none => exact ⟨h.asked, h.generating⟩
  | some found => exact ⟨h.asked, h.generating⟩

theorem Asking.next {c : ReceiveAddressController ι} (h : c.Asking) (e : ReceiveEvent ι) :
    (c.next accounts e).Asking := by
  cases e with
  | setContext context => exact ⟨h.asked, h.generating⟩
  | setAccount account =>
      unfold ReceiveAddressController.next setAccount
      dsimp only
      split_ifs
      · exact h
      · exact (h.takeAccount account).generate
  | setAsset asset => exact ⟨h.asked, h.generating⟩
  | generate => exact h.generate
  | converted amount => exact ⟨h.asked, h.generating⟩
  | finished address =>
      have hdue : (c.next accounts (.finished address)).due = false := by
        unfold ReceiveAddressController.next finished
        dsimp only
        split
        · rfl
        · rfl
      constructor
      · intro hstill
        cases hdue.symm.trans hstill
      · intro hstill
        cases hdue.symm.trans hstill
  | failed => exact ⟨nofun, nofun⟩

omit [DecidableEq ι] in
/-- While an address is being asked for, or without an account, there is nothing to show. -/
theorem right_of_generating {c : ReceiveAddressController ι} (hcrashed : c.crashed = false)
    (h : c.m_account = none ∨ c.m_generating = true) : c.Right accounts := by
  refine ⟨hcrashed, ?_⟩
  intro account haccount hgenerating
  rcases h with hnone | htrue
  · cases hnone.symm.trans haccount
  · cases htrue.symm.trans hgenerating

omit [DecidableEq ι] in
theorem generate_cases (c : ReceiveAddressController ι) :
    c.generate = c ∨ c.generate.m_generating = true ∧ c.generate.crashed = c.crashed := by
  unfold generate
  split
  · split_ifs
    · exact .inl rfl
    · exact .inr ⟨rfl, rfl⟩
  · exact .inl rfl

/-- A new account is asked for an address at once, unless an answer is awaited anyway. -/
theorem right_setAccount {c : ReceiveAddressController ι} (h : c.Right accounts)
    (account : Option ι) : (c.setAccount accounts account).Right accounts := by
  unfold setAccount
  split_ifs
  · exact h
  · cases account with
    | none =>
        have hsame : (c.takeAccount accounts none).generate = c.takeAccount accounts none := by
          unfold generate takeAccount
          split
          · next hsome => cases hsome
          · rfl
        rw [hsame]
        exact right_of_generating h.crashed (.inl rfl)
    | some found =>
        have hasks : (c.takeAccount accounts (some found)).generate.m_generating = true := by
          unfold generate takeAccount
          dsimp only
          split_ifs with hgenerating
          · exact hgenerating
          · rfl
        have hcrashed : (c.takeAccount accounts (some found)).generate.crashed = c.crashed := by
          unfold generate takeAccount
          dsimp only
          split_ifs
          · rfl
          · rfl
        exact right_of_generating (hcrashed.trans h.crashed) (.inr hasks)

theorem right_finished {c : ReceiveAddressController ι} (hasking : c.Asking)
    (h : c.Right accounts) {address : String} (he : c.enabled (.finished address)) :
    (c.next accounts (.finished address)).Right accounts ↔ c.m_account = c.asked.getLast? := by
  obtain ⟨_, hdue, hissued⟩ := he
  obtain ⟨last, hlast⟩ : ∃ last, c.asked.getLast? = some last :=
    Option.isSome_iff_exists.mp (List.getLast?_isSome.mpr (hasking.asked hdue))
  rw [hlast] at hissued ⊢
  cases haccount : c.m_account with
  | none =>
      refine iff_of_false ?_ nofun
      intro hright
      have hcrashed : (c.next accounts (.finished address)).crashed = true := by
        simp only [next, finished, haccount]
      cases hcrashed.symm.trans hright.crashed
  | some account =>
      simp only [next, finished, haccount, hlast, Option.toList_some, List.map_singleton]
      constructor
      · intro hright
        obtain ⟨_, ⟨⟩, _, hmem⟩ := hright.shown account rfl rfl
        rcases List.mem_append.mp hmem with hold | hnew
        · exact hissued account hold
        · rw [(Prod.mk.inj (List.mem_singleton.mp hnew)).2]
      · intro hsame
        obtain rfl := Option.some.inj hsame
        refine ⟨h.crashed, ?_⟩
        rintro _ ⟨⟩ _
        exact ⟨address, rfl, Function.update_self _ _ _,
          List.mem_append_right _ (List.mem_singleton_self _)⟩

theorem right_next {c : ReceiveAddressController ι} (hasking : c.Asking) (h : c.Right accounts)
    {e : ReceiveEvent ι} (he : c.enabled e) :
    (c.next accounts e).Right accounts ↔ c.Timely e := by
  cases e with
  | setAccount account => exact iff_of_true (right_setAccount h account) trivial
  | generate =>
      refine iff_of_true ?_ trivial
      rcases generate_cases c with hsame | ⟨hgenerating, hcrashed⟩
      · rw [next, hsame]
        exact h
      · exact right_of_generating (hcrashed.trans h.crashed) (.inr hgenerating)
  | finished address => exact right_finished hasking h he
  | _ => exact iff_of_true ⟨h.crashed, h.shown⟩ trivial

/-! ### After a failure -/

omit [DecidableEq ι] in
/-- The controller takes itself to be asking, but no answer is due. -/
structure Stuck (c : ReceiveAddressController ι) (asked : List ι) : Prop where
  generating : c.m_generating = true
  due : c.due = false
  asked : c.asked = asked

omit [DecidableEq ι] in
theorem Stuck.generate {c : ReceiveAddressController ι} {asked : List ι} (h : c.Stuck asked) :
    c.generate.Stuck asked := by
  unfold ReceiveAddressController.generate
  split
  · rw [if_pos h.generating]
    exact h
  · exact h

theorem Stuck.next {c : ReceiveAddressController ι} {asked : List ι} (h : c.Stuck asked)
    {e : ReceiveEvent ι} (he : c.enabled e) : (c.next accounts e).Stuck asked := by
  cases e with
  | setAccount account =>
      unfold ReceiveAddressController.next setAccount
      dsimp only
      split_ifs
      · exact h
      · have htaken : (c.takeAccount accounts account).Stuck asked := by
          cases account with
          | none => exact ⟨h.generating, h.due, h.asked⟩
          | some found => exact ⟨h.generating, h.due, h.asked⟩
        exact htaken.generate
  | generate => exact h.generate
  | finished address => cases h.due.symm.trans he.2.1
  | failed => cases h.due.symm.trans he.2
  | setContext context => exact ⟨h.generating, h.due, h.asked⟩
  | setAsset asset => exact ⟨h.generating, h.due, h.asked⟩
  | converted amount => exact ⟨h.generating, h.due, h.asked⟩

omit [DecidableEq ι] in
theorem Stuck.uri {c : ReceiveAddressController ι} {asked : List ι} (h : c.Stuck asked) :
    c.uri accounts positive = some "" := by
  unfold ReceiveAddressController.uri
  split
  · rfl
  · exact if_pos h.generating

/-- Whenever none is being asked for, the address shown has been issued for the account shown, and
is filed under it, exactly if every answer finds the account that it was asked for; while one is, the
view keeps the address before. After a failure no address is ever asked for again, and the URI is
empty. -/
theorem right_iff_timely {es : List (ReceiveEvent ι)} (hes : (receiving accounts).Valid {} es) :
    ((receiving accounts).Always (Right accounts) {} es ↔
      (receiving accounts).Along Timely {} es) ∧
    ∀ fs gs, es = fs ++ .failed :: gs →
      ((receiving accounts).run {} es).asked = ((receiving accounts).run {} fs).asked ∧
      ((receiving accounts).run {} es).uri accounts positive = some "" := by
  have hempty : Right accounts ({} : ReceiveAddressController ι) :=
    right_of_generating rfl (.inl rfl)
  constructor
  · apply Reactive.always_iff_along_of_keeps
      (J := fun c : ReceiveAddressController ι => c.Asking ∧ c.Right accounts)
      (R := receiving accounts) _ _ ⟨.empty, hempty⟩ hempty hes
    · intro c e ⟨hasking, h⟩ he htimely
      exact ⟨hasking.next e, (right_next hasking h he).mpr htimely⟩
    · intro c e ⟨hasking, h⟩ he _
      exact right_next hasking h he
  · rintro fs gs rfl
    obtain ⟨hfs, hfailed, hgs⟩ := ((receiving accounts).along_append _ _ fs _).mp hes
    have hasking : ((receiving accounts).run {} fs).Asking :=
      Reactive.run_invariant (fun _ e h _ => h.next e) .empty hfs
    have hstuck : Stuck ((receiving accounts).next ((receiving accounts).run {} fs) .failed)
        ((receiving accounts).run {} fs).asked :=
      ⟨hasking.generating hfailed.2, rfl, rfl⟩
    have hrun := Reactive.run_invariant (R := receiving accounts)
      (I := fun c => Stuck c ((receiving accounts).run {} fs).asked)
      (fun _ _ h he => Stuck.next h he) hstuck hgs
    rw [Reactive.run_append, Reactive.run_cons]
    exact ⟨hrun.asked, hrun.uri positive⟩

/-- A Bitcoin account and a Liquid account of one wallet. -/
def both (liquid : Bool) : Account where
  context := 0
  network :=
    { bip21_prefix := if liquid then "liquidnetwork" else "bitcoin"
      isLiquid := liquid
      policyAsset := if liquid then "6f0279e9" else "btc" }

/-- Another account is chosen before the answer comes: it shows the address of the first. -/
def chosenAnew : List (ReceiveEvent Bool) :=
  [.setAccount (some false), .setAccount (some true), .finished "bc1qxy2k"]

theorem right_iff_timely_chosenAnew :
    ¬ (receiving both).Always (Right both) {} chosenAnew := by
  have hes : (receiving both).Valid {} chosenAnew :=
    ⟨rfl, rfl, ⟨rfl, rfl, nofun⟩, trivial⟩
  rw [(right_iff_timely (fun _ => true) hes).1]
  intro ⟨_, _, htimely, _⟩
  cases htimely

end ReceiveAddressController
end GreenWallet.Controllers.Receive
