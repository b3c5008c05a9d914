import Mathlib.Tactic.SplitIfs
import GreenWallet.Library.Fresh
import GreenWallet.Library.Reactive

/-!
# Creating an account

Before it creates an account, `CreateAccountController` looks for one to reuse among those
of the session: a hidden one, or one without a name. On its way it hides empty accounts of
other types. The changes go to the backend as tasks, one after the other.
-/
namespace GreenWallet.Accounts.CreateAccount
open GreenWallet.Library

structure Network where
  id : String
  liquid : Bool
  electrum : Bool
deriving DecidableEq

abbrev Key := Network × ℕ

/-- A network has one session, so that the accounts of a session are those of its network. -/
structure Account where
  network : Network
  pointer : ℕ
  type : String := ""
  name : String := ""
  hidden : Bool := false
  bip44_discovered : Bool := false
  transactions : List String := []
  satoshi : List (String × ℤ) := []
deriving DecidableEq

/-- An account as the backend lists it. -/
structure Subaccount where
  pointer : ℕ
  type : String
  name : String
  hidden : Bool
  bip44_discovered : Bool
  satoshi : Option (List (String × ℤ))

namespace Account

def key (a : Account) : Key := (a.network, a.pointer)

def isSinglesig (a : Account) : Bool := a.network.electrum

def isMultisig (a : Account) : Bool := !a.network.electrum

def isEmpty (a : Account) : Bool :=
  a.name = "" && a.transactions.isEmpty && a.satoshi.all fun asset => asset.2 ≤ 0

/-- A balance that the backend does not list stays. -/
def update (a : Account) (json : Subaccount) : Account :=
  { a with
    type := json.type
    name := json.name
    hidden := json.hidden
    bip44_discovered := json.bip44_discovered
    satoshi := json.satoshi.getD a.satoshi }

end Account

/-- The name of the account with a key. -/
def accountName (accounts : List Account) (k : Key) : Option String :=
  (accounts.find? fun a => a.key = k).map Account.name

/-- The context finds its accounts by their keys. -/
structure Context where
  accounts : List Account
  nodup : (accounts.map Account.key).Nodup

namespace Context

def nameOf (c : Context) : Key → Option String := accountName c.accounts

def getOrCreateAccount (c : Context) (network : Network) (pointer : ℕ) : Context :=
  if h : (network, pointer) ∈ c.accounts.map Account.key then c
  else
    { accounts := c.accounts ++ [{ network, pointer }]
      nodup := by
        rw [List.map_append, List.nodup_append]
        refine ⟨c.nodup, List.nodup_singleton _, ?_⟩
        intro k hk new hnew hsame
        rw [hsame, List.mem_singleton.mp hnew] at hk
        exact h hk }

/-- `getOrCreateAccount` with an account that the backend lists. -/
def loadAccount (c : Context) (network : Network) (json : Subaccount) : Context where
  accounts := (c.getOrCreateAccount network json.pointer).accounts.map fun a =>
    if a.key = (network, json.pointer) then a.update json else a
  nodup := by
    rw [List.map_map]
    convert (c.getOrCreateAccount network json.pointer).nodup using 2
    funext a
    simp only [Function.comp_apply]
    split_ifs <;> rfl

/-- `LoadAccountsTask::handleDone`. -/
def loadAccounts (c : Context) (network : Network) (subaccounts : List Subaccount) : Context :=
  subaccounts.foldl (fun c json => c.loadAccount network json) c

end Context

structure UpdateDetails where
  subaccount : ℕ
  name : Option String := none
  hidden : Bool
deriving DecidableEq

structure CreateDetails where
  name : String
  type : String
  recovery_mnemonic : Option String := none
  recovery_xpub : Option String := none
deriving DecidableEq

inductive Task where
  | updateAccount (details : UpdateDetails)
  | createAccount (details : CreateDetails)
  | loadAccounts
deriving DecidableEq

structure CreateAccountController where
  m_network : Network
  m_type : String
  m_recovery_mnemonic : List String := []
  m_recovery_xpub : String := ""
  m_account : Option Key := none

/-- What becomes of an account on the way. -/
inductive Visit where
  | skip
  | hide
  | reuse
deriving DecidableEq

structure Scan where
  accounts : List Account
  tasks : List Task
  m_account : Option Key

namespace CreateAccountController
variable (c : CreateAccountController)

/-- What an account of the type is called. -/
def name : String :=
  (if c.m_type = "2of2" then "2FA Protected"
  else if c.m_type = "2of3" then "2of3 with 2FA"
  else if c.m_type = "2of2_no_recovery" then "AMP Account"
  else if c.m_type = "p2wpkh" then "Standard"
  else if c.m_type = "p2sh-p2wpkh" then "Legacy SegWit"
  else if c.m_type = "p2pkh" then "Legacy"
  else "") ++ (if c.m_network.liquid then " Liquid" else "")

/-- The name with the suffix of a round. -/
def numbered (n : ℕ) : String := c.name ++ (if 1 < n then " " ++ toString n else "")

def visit (a : Account) : Visit :=
  if a.network ≠ c.m_network then .skip
  else if a.pointer = 0 ∧ a.type ≠ c.m_type ∧ a.isEmpty then .hide
  else if a.type ≠ c.m_type then .skip
  else if a.isMultisig ∧ 0 < a.pointer then .skip
  else if a.isMultisig ∧ a.name ≠ "" then .skip
  else if a.isSinglesig ∧ a.bip44_discovered then .skip
  else if a.isSinglesig ∧ ¬ a.hidden then .skip
  else .reuse

def reuses (a : Account) : Bool := c.visit a = .reuse

/-- The name that the backend is sent for an account that is reused. -/
def sentName (a : Account) : String := if a.name = "" then c.name else a.name

/-- The loop over the accounts; it ends with the one that is reused. -/
def scan : List Account → Scan
  | [] => ⟨[], [], none⟩
  | a :: as =>
      match c.visit a with
      | .skip => { scan as with accounts := a :: (scan as).accounts }
      | .hide =>
          { scan as with
            accounts := { a with hidden := true } :: (scan as).accounts
            tasks := .updateAccount { subaccount := a.pointer, hidden := true } :: (scan as).tasks }
      | .reuse =>
          { accounts := { a with name := c.name, hidden := false } :: as
            tasks := [.updateAccount
              { subaccount := a.pointer, name := some (c.sentName a), hidden := false }]
            m_account := some a.key }

/-- An account of the type `2of3` has one or the other recovery key. -/
def details (name : String) : CreateDetails where
  name := name
  type := c.m_type
  recovery_mnemonic :=
    if c.m_type = "2of3" ∧ c.m_recovery_mnemonic ≠ [] then
      some (" ".intercalate c.m_recovery_mnemonic)
    else none
  recovery_xpub :=
    if c.m_type = "2of3" ∧ c.m_recovery_mnemonic = [] ∧ c.m_recovery_xpub ≠ "" then
      some c.m_recovery_xpub
    else none

theorem map_key_scan (as : List Account) :
    (c.scan as).accounts.map Account.key = as.map Account.key := by
  induction as with
  | nil => rfl
  | cons a as ih =>
      cases hvisit : c.visit a with
      | skip => simp only [scan, hvisit, List.map_cons, ih]
      | hide =>
          simp only [scan, hvisit, List.map_cons, ih]
          rfl
      | reuse =>
          simp only [scan, hvisit, List.map_cons]
          rfl

end CreateAccountController

namespace Task

def isUpdate : Task → Bool
  | updateAccount _ => true
  | createAccount _ | loadAccounts => false

/-- The name of the account that the task creates. -/
def createdName? : Task → Option String
  | createAccount details => some details.name
  | updateAccount _ | loadAccounts => none

end Task

/-- The controller at work. -/
structure Creation where
  context : Context
  m_account : Option Key
  /-- The tasks that have not finished; each begins when the one before it has finished. -/
  tasks : List Task
  /-- The account that the backend has created, and its name there. -/
  subaccount : Option (ℕ × String) := none
  /-- The pointer that `CreateAccountTask` has received. -/
  pointer : Option ℕ := none

inductive CreationEvent where
  /-- The backend creates the account. -/
  | create (pointer : ℕ)
  /-- The backend announces an account. -/
  | subaccountEvent (network : Network) (pointer : ℕ)
  | updateFinished
  | createFinished (pointer : ℕ)
  | loadFinished (subaccounts : List Subaccount)

namespace Creation

/-- The name that an account of the session has in the backend. The accounts have been
loaded right before, so for those of the context it is the name they have there. -/
def backendName (s : Creation) (network : Network) (pointer : ℕ) : Option String :=
  if s.subaccount.map Prod.fst = some pointer then s.subaccount.map Prod.snd
  else s.context.nameOf (network, pointer)

def next (network : Network) (s : Creation) : CreationEvent → Creation
  | .create pointer =>
      { s with
        subaccount := (s.tasks.head?.bind Task.createdName?).map fun name => (pointer, name) }
  | .subaccountEvent other pointer =>
      { s with context := s.context.getOrCreateAccount other pointer }
  | .updateFinished => { s with tasks := s.tasks.tail }
  | .createFinished pointer =>
      { s with
        tasks := s.tasks.tail
        pointer := some pointer
        m_account :=
          if (s.context.nameOf (network, pointer)).isSome then some (network, pointer) else none }
  | .loadFinished subaccounts =>
      { s with
        tasks := s.tasks.tail
        context := s.context.loadAccounts network subaccounts }

/-- The backend creates what it is asked to, with a new pointer, announces what there is,
and lists every account with its name. -/
def enabled (network : Network) (s : Creation) : CreationEvent → Prop
  | .create pointer =>
      (s.tasks.head?.bind Task.createdName?).isSome ∧ s.subaccount = none ∧
        s.context.nameOf (network, pointer) = none
  | .subaccountEvent other pointer =>
      (s.context.nameOf (other, pointer)).isSome ∨
        other = network ∧ s.subaccount.map Prod.fst = some pointer
  | .updateFinished => s.tasks.head?.any Task.isUpdate
  | .createFinished pointer =>
      (s.tasks.head?.bind Task.createdName?).isSome ∧ s.subaccount.map Prod.fst = some pointer
  | .loadFinished subaccounts =>
      s.tasks.head? = some .loadAccounts ∧
        (∀ pointer ∈ s.subaccount.map Prod.fst, ∃ json ∈ subaccounts, json.pointer = pointer) ∧
        ∀ json ∈ subaccounts, s.backendName network json.pointer = some json.name

end Creation

instance (network : Network) (s : Creation) (e : CreationEvent) :
    Decidable (s.enabled network e) := by
  cases e <;> simp only [Creation.enabled] <;> infer_instance

def creation (network : Network) : Reactive Creation CreationEvent Empty where
  enabled := Creation.enabled network
  next := Creation.next network
  emits _ _ := []

instance (network : Network) (s : Creation) (e : CreationEvent) :
    Decidable ((creation network).enabled s e) :=
  inferInstanceAs (Decidable (s.enabled network e))

namespace CreateAccountController
variable (c : CreateAccountController)

/-- `ensureAccount` with the name that the search has found. -/
def begin (context : Context) (name : String) : Creation where
  context :=
    { accounts := (c.scan context.accounts).accounts
      nodup := by
        rw [map_key_scan]
        exact context.nodup }
  m_account := (c.scan context.accounts).m_account.or c.m_account
  tasks := (c.scan context.accounts).tasks ++
    if ((c.scan context.accounts).m_account.or c.m_account).isSome then []
    else [.createAccount (c.details name), .loadAccounts]

/-- The controller is at work unless the search is still going on after the given number
of rounds. -/
def ensureAccount (context : Context) (rounds : ℕ) : Option Creation :=
  (firstFree c.numbered (context.accounts.map Account.name) rounds 1).map (c.begin context)

end CreateAccountController

section Names

@[simp] theorem accountName_nil (k : Key) : accountName [] k = none := rfl

theorem accountName_cons (a : Account) (as : List Account) (k : Key) :
    accountName (a :: as) k = if a.key = k then some a.name else accountName as k := by
  rw [accountName, List.find?_cons]
  split_ifs with h
  · simp [h]
  · simp [h, accountName]

theorem accountName_concat (as : List Account) (a : Account) (k : Key) :
    accountName (as ++ [a]) k =
      (accountName as k).or (if a.key = k then some a.name else none) := by
  induction as with
  | nil => rw [List.nil_append, accountName_cons, accountName_nil, Option.none_or]
  | cons b as ih =>
      rw [List.cons_append, accountName_cons, accountName_cons, ih]
      split_ifs <;> simp

theorem accountName_eq_none {as : List Account} {k : Key} :
    accountName as k = none ↔ k ∉ as.map Account.key := by
  simp [accountName, List.find?_eq_none]

theorem accountName_eq_some {as : List Account} (hnodup : (as.map Account.key).Nodup) {k : Key}
    {name : String} : accountName as k = some name ↔ ∃ a ∈ as, a.key = k ∧ a.name = name := by
  induction as with
  | nil => simp
  | cons a as ih =>
      rw [List.map_cons, List.nodup_cons] at hnodup
      rw [accountName_cons, List.exists_mem_cons_iff, ← ih hnodup.2]
      split_ifs with hkey
      · have hnone : accountName as k = none := accountName_eq_none.mpr (hkey ▸ hnodup.1)
        simp [hkey, hnone]
      · simp [hkey]

/-- The name after a change that keeps the keys. -/
theorem accountName_map {f : Account → Account} (hf : ∀ a, (f a).key = a.key) {k : Key}
    {g : String → String} (hg : ∀ a, a.key = k → (f a).name = g a.name) (as : List Account) :
    accountName (as.map f) k = (accountName as k).map g := by
  induction as with
  | nil => rfl
  | cons a as ih =>
      rw [List.map_cons, accountName_cons, accountName_cons, hf, ih]
      split_ifs with hkey
      · rw [hg a hkey, Option.map_some]
      · rfl

namespace Context
variable (c : Context) (network : Network)

theorem nameOf_getOrCreateAccount (pointer : ℕ) (k : Key) :
    (c.getOrCreateAccount network pointer).nameOf k =
      if k = (network, pointer) then some ((c.nameOf k).getD "") else c.nameOf k := by
  by_cases hmem : (network, pointer) ∈ c.accounts.map Account.key
  · rw [getOrCreateAccount, dif_pos hmem]
    split_ifs with hk
    · cases hname : c.nameOf k with
      | none => exact (accountName_eq_none.mp hname (hk ▸ hmem)).elim
      | some name => rfl
    · rfl
  · rw [getOrCreateAccount, dif_neg hmem, nameOf, nameOf, accountName_concat]
    split_ifs with hnew hk hk
    · have hnone : accountName c.accounts k = none := accountName_eq_none.mpr (hk ▸ hmem)
      rw [hnone]
      rfl
    · exact (hk hnew.symm).elim
    · exact (hnew hk.symm).elim
    · exact Option.or_none

theorem nameOf_loadAccount (json : Subaccount) (k : Key) :
    (c.loadAccount network json).nameOf k =
      if k = (network, json.pointer) then some json.name else c.nameOf k := by
  have hkeep : ∀ a : Account,
      (if a.key = (network, json.pointer) then a.update json else a).key = a.key := by
    intro a
    split_ifs <;> rfl
  have hname := c.nameOf_getOrCreateAccount network json.pointer k
  rw [nameOf] at hname
  rw [loadAccount, nameOf]
  split_ifs at hname ⊢ with hk
  · rw [accountName_map hkeep (g := fun _ => json.name), hname, Option.map_some]
    intro a ha
    rw [if_pos (ha.trans hk)]
    rfl
  · rw [accountName_map hkeep (g := id), hname, Option.map_id, id_eq]
    intro a ha
    rw [if_neg fun h => hk (ha.symm.trans h), id_eq]

/-- All records of an account have one name. -/
theorem nameOf_loadAccounts {k : Key} (name : String) {subaccounts : List Subaccount}
    (h : ∀ json ∈ subaccounts, (network, json.pointer) = k → json.name = name) :
    (c.loadAccounts network subaccounts).nameOf k =
      if ∃ json ∈ subaccounts, (network, json.pointer) = k then some name else c.nameOf k := by
  induction subaccounts generalizing c with
  | nil => simp [loadAccounts]
  | cons json subaccounts ih =>
      have hload : c.loadAccounts network (json :: subaccounts) =
          (c.loadAccount network json).loadAccounts network subaccounts := rfl
      rw [hload, ih _ fun later hlater => h later (List.mem_cons_of_mem _ hlater),
        nameOf_loadAccount]
      by_cases hk : (network, json.pointer) = k
      · rw [h json List.mem_cons_self hk]
        simp [hk]
      · simp [hk, Ne.symm hk]

end Context
end Names

section Scan
namespace CreateAccountController
variable (c : CreateAccountController)

theorem scan_m_account (as : List Account) :
    (c.scan as).m_account = (as.find? c.reuses).map Account.key := by
  induction as with
  | nil => rfl
  | cons a as ih =>
      rw [List.find?_cons]
      cases hvisit : c.visit a with
      | skip => simp [scan, hvisit, reuses, ih]
      | hide => simp [scan, hvisit, reuses, ih]
      | reuse => simp [scan, hvisit, reuses]

theorem isUpdate_of_mem_scan {as : List Account} {task : Task} (h : task ∈ (c.scan as).tasks) :
    task.isUpdate := by
  induction as with
  | nil => cases h
  | cons a as ih =>
      cases hvisit : c.visit a with
      | skip =>
          simp only [scan, hvisit] at h
          exact ih h
      | hide =>
          simp only [scan, hvisit, List.mem_cons] at h
          rcases h with rfl | h
          · rfl
          · exact ih h
      | reuse =>
          simp only [scan, hvisit, List.mem_singleton] at h
          rw [h]
          rfl

/-- Only the account that is reused gets a name in the backend. -/
theorem named_mem_scan (as : List Account) (details : UpdateDetails) :
    (.updateAccount details ∈ (c.scan as).tasks ∧ details.name.isSome) ↔
      ∃ a, as.find? c.reuses = some a ∧ details =
        { subaccount := a.pointer, name := some (c.sentName a), hidden := false } := by
  induction as with
  | nil => simp [scan]
  | cons a as ih =>
      rw [List.find?_cons]
      cases hvisit : c.visit a with
      | skip => simp [scan, hvisit, reuses, ih]
      | hide =>
          have hother : ¬ (details = { subaccount := a.pointer, hidden := true } ∧
              details.name.isSome) := by
            rintro ⟨rfl, hsome⟩
            cases hsome
          simp only [scan, hvisit, List.mem_cons, Task.updateAccount.injEq, or_and_right, ih]
          simp [hother, reuses, hvisit]
      | reuse =>
          simp only [scan, hvisit, reuses, List.mem_singleton, Task.updateAccount.injEq, decide_true,
            Option.some.injEq]
          constructor
          · rintro ⟨hdetails, -⟩
            exact ⟨a, rfl, hdetails⟩
          · rintro ⟨_, rfl, rfl⟩
            exact ⟨rfl, rfl⟩

/-- The account that is reused has its new name; the other names are as they were. -/
theorem accountName_scan {as : List Account} (hnodup : (as.map Account.key).Nodup) (k : Key) :
    accountName (c.scan as).accounts k =
      if ((as.find? c.reuses).map Account.key) = some k then some c.name else accountName as k := by
  induction as with
  | nil => rfl
  | cons a as ih =>
      rw [List.map_cons, List.nodup_cons] at hnodup
      have hfirst : a.key = k → ¬ ((as.find? c.reuses).map Account.key) = some k := by
        intro hkey hfind
        obtain ⟨b, hb, hbkey⟩ := Option.map_eq_some_iff.mp hfind
        apply hnodup.1
        rw [hkey, ← hbkey]
        exact List.mem_map_of_mem (List.mem_of_find?_eq_some hb)
      rw [List.find?_cons, accountName_cons]
      cases hvisit : c.visit a with
      | skip =>
          simp only [scan, hvisit, accountName_cons, ih hnodup.2, reuses]
          by_cases hkey : a.key = k
          · simp [hkey, hfirst hkey]
          · simp [hkey]
      | hide =>
          have hsame : Account.key { a with hidden := true } = a.key := rfl
          simp only [scan, hvisit, accountName_cons, ih hnodup.2, reuses, hsame]
          by_cases hkey : a.key = k
          · simp [hkey, hfirst hkey]
          · simp [hkey]
      | reuse =>
          have hsame : Account.key { a with name := c.name, hidden := false } = a.key := rfl
          simp only [scan, hvisit, accountName_cons, reuses, hsame, decide_true, Option.map_some,
            Option.some.injEq]
          split_ifs <;> rfl

end CreateAccountController
end Scan

end GreenWallet.Accounts.CreateAccount
