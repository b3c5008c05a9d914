import Mathlib.Data.Finset.Basic
import Mathlib.Data.Rat.Defs
import Mathlib.Logic.Function.Basic
import Mathlib.Tactic.SplitIfs
import GreenWallet.Library.Reactive

/-!
# The outputs of the accounts of a context

An output is created once for its account and its outpoint and keeps the data it has been given
last, whether its time lock has expired by the block its session has seen last, and the
transaction that spends it. Whenever one of the last two changes, it brings the notification
about expired outputs up to date.
-/
namespace GreenWallet.Accounts
open GreenWallet.Library

structure Network where
  id : String
  isElectrum : Bool
deriving DecidableEq

/-- A context has one account for a network and a pointer. -/
structure AccountRef where
  network : Network
  pointer : ℕ
deriving DecidableEq

/-- An account has one transaction for a hash. -/
structure AccountTransaction where
  account : AccountRef
  hash : String
deriving DecidableEq

/-- The key of `m_outputs_by_hash`. -/
structure Outpoint where
  txhash : String := ""
  pt_idx : ℤ := 0
deriving DecidableEq

/-- An account has one output for an outpoint. -/
structure OutputRef where
  account : AccountRef
  outpoint : Outpoint
deriving DecidableEq

/-- An object from the server, as text, and what is read from it. -/
structure OutputData where
  outpoint : Outpoint := {}
  /-- Absent unless it is a number. -/
  expiry_height : Option ℚ := none
  object : String := "\x7b\x7d"
deriving DecidableEq

structure Output where
  m_data : OutputData := {}
  m_expired : Bool := false
  m_spending_transaction : Option AccountTransaction := none

structure Block where
  block_height : ℕ := 0
  object : String := "\x7b\x7d"
deriving DecidableEq

structure TwoFactorExpiredNotification where
  m_accounts : List AccountRef := []
  m_outputs : Finset OutputRef := ∅

namespace TwoFactorExpiredNotification

def add (notification : TwoFactorExpiredNotification) (output : OutputRef) :
    TwoFactorExpiredNotification :=
  if output ∈ notification.m_outputs then notification
  else
    { m_outputs := insert output notification.m_outputs
      m_accounts :=
        if output.account ∈ notification.m_accounts then notification.m_accounts
        else notification.m_accounts ++ [output.account] }

/-- The account goes with its last output. -/
def remove (notification : TwoFactorExpiredNotification) (output : OutputRef) :
    TwoFactorExpiredNotification :=
  { m_outputs := notification.m_outputs.erase output
    m_accounts :=
      if ∃ other ∈ notification.m_outputs.erase output, other.account = output.account then
        notification.m_accounts
      else notification.m_accounts.erase output.account }

def isEmpty (notification : TwoFactorExpiredNotification) : Bool := notification.m_outputs = ∅

end TwoFactorExpiredNotification

inductive Notification where
  | twoFactorExpired (notification : TwoFactorExpiredNotification)
  /-- A notification of another class. -/
  | other (serial : ℕ)

namespace Notification

/-- `qobject_cast<TwoFactorExpiredNotification*>` -/
def asTwoFactorExpired : Notification → Option TwoFactorExpiredNotification
  | .twoFactorExpired notification => some notification
  | .other _ => none

def isOther (serial : ℕ) : Notification → Bool
  | .twoFactorExpired _ => false
  | .other serial' => serial' = serial

end Notification

/-- The first notification of the class. -/
def GetExpiredNotification (notifications : List Notification) :
    Option TwoFactorExpiredNotification :=
  notifications.findSome? Notification.asTwoFactorExpired

/-- The first notification of the class has changed. -/
def setExpiredNotification (notification : TwoFactorExpiredNotification) :
    List Notification → List Notification
  | [] => []
  | .twoFactorExpired _ :: notifications => .twoFactorExpired notification :: notifications
  | .other serial :: notifications =>
      .other serial :: setExpiredNotification notification notifications

/-- The first notification of the class is removed. -/
def removeExpiredNotification (notifications : List Notification) : List Notification :=
  notifications.eraseP fun notification => notification.asTwoFactorExpired.isSome

structure Outputs where
  m_watchonly : Bool := false
  /-- The block of the session of a network. -/
  m_block : Network → Block := fun _ => {}
  output : OutputRef → Option Output := fun _ => none
  /-- The outputs in the order they were created. -/
  coins : List OutputRef := []
  m_notifications : List Notification := []

namespace Outputs

def blockHeight (s : Outputs) (network : Network) : ℕ := (s.m_block network).block_height

/-- What `updateNotifications` looks at. -/
def isOverdue (s : Outputs) (o : OutputRef) : Bool :=
  (s.output o).any fun output => output.m_expired && output.m_spending_transaction.isNone

def notifyAdd (s : Outputs) (o : OutputRef) : List Notification :=
  match GetExpiredNotification s.m_notifications with
  | none => s.m_notifications ++ [.twoFactorExpired (({} : TwoFactorExpiredNotification).add o)]
  | some notification => setExpiredNotification (notification.add o) s.m_notifications

def notifyRemove (s : Outputs) (o : OutputRef) : List Notification :=
  match GetExpiredNotification s.m_notifications with
  | none => s.m_notifications
  | some notification =>
      if (notification.remove o).isEmpty then removeExpiredNotification s.m_notifications
      else setExpiredNotification (notification.remove o) s.m_notifications

def updateNotifications (s : Outputs) (o : OutputRef) : Outputs :=
  if s.m_watchonly then s
  else if o.account.network.isElectrum then s
  else if s.isOverdue o then { s with m_notifications := s.notifyAdd o }
  else { s with m_notifications := s.notifyRemove o }

def set (s : Outputs) (o : OutputRef) (output : Output) : Outputs :=
  { s with output := Function.update s.output o (some output) }

def setExpired (s : Outputs) (o : OutputRef) (expired : Bool) : Outputs :=
  match s.output o with
  | none => s
  | some output =>
      if output.m_expired = expired then s
      else (s.set o { output with m_expired := expired }).updateNotifications o

def setSpendingTransaction (s : Outputs) (o : OutputRef) (transaction : Option AccountTransaction) :
    Outputs :=
  match s.output o with
  | none => s
  | some output =>
      if output.m_spending_transaction = transaction then s
      else (s.set o { output with m_spending_transaction := transaction }).updateNotifications o

/-- Whether the data say so at the height. -/
def expiredAt (data : OutputData) (block_height : ℕ) : Bool :=
  data.expiry_height.any fun expiry_height => expiry_height ≤ (block_height : ℚ)

def updateExpired (s : Outputs) (o : OutputRef) : Outputs :=
  match s.output o with
  | none => s
  | some output => s.setExpired o (expiredAt output.m_data (s.blockHeight o.account.network))

def updateFromData (s : Outputs) (o : OutputRef) (data : OutputData) : Outputs :=
  match s.output o with
  | none => s
  | some output =>
      if output.m_data = data then s
      else (s.set o { output with m_data := data }).updateExpired o

/-- The new output is there before its constructor gives it the data. -/
def create (s : Outputs) (o : OutputRef) : Outputs :=
  { s.set o {} with coins := s.coins ++ [o] }

def getOrCreateOutput (s : Outputs) (account : AccountRef) (data : OutputData) : Outputs :=
  match s.output ⟨account, data.outpoint⟩ with
  | none => (s.create ⟨account, data.outpoint⟩).updateFromData ⟨account, data.outpoint⟩ data
  | some _ => s.updateFromData ⟨account, data.outpoint⟩ data

/-- The outputs of the session's accounts are told in the order they were created. -/
def setBlock (s : Outputs) (network : Network) (block : Block) : Outputs :=
  if s.m_block network = block then s
  else
    (s.coins.filter fun o => o.account.network = network).foldl updateExpired
      { s with m_block := Function.update s.m_block network block }

def addNotification (s : Outputs) (serial : ℕ) : Outputs :=
  { s with m_notifications := s.m_notifications ++ [.other serial] }

def removeNotification (s : Outputs) (serial : ℕ) : Outputs :=
  { s with m_notifications := s.m_notifications.eraseP fun n => n.isOther serial }

end Outputs

inductive OutputsEvent where
  | getOrCreateOutput (account : AccountRef) (data : OutputData)
  | setBlock (network : Network) (block : Block)
  | setSpendingTransaction (o : OutputRef) (transaction : Option AccountTransaction)
  /-- A notification of another class comes or goes. -/
  | addNotification (serial : ℕ)
  | removeNotification (serial : ℕ)

namespace Outputs
variable {s : Outputs} {o : OutputRef}

/-! ## What the calls change -/

@[simp] theorem output_updateNotifications (s : Outputs) (o : OutputRef) :
    (s.updateNotifications o).output = s.output := by
  unfold updateNotifications
  split_ifs <;> rfl

@[simp] theorem coins_updateNotifications (s : Outputs) (o : OutputRef) :
    (s.updateNotifications o).coins = s.coins := by
  unfold updateNotifications
  split_ifs <;> rfl

@[simp] theorem m_block_updateNotifications (s : Outputs) (o : OutputRef) :
    (s.updateNotifications o).m_block = s.m_block := by
  unfold updateNotifications
  split_ifs <;> rfl

@[simp] theorem m_watchonly_updateNotifications (s : Outputs) (o : OutputRef) :
    (s.updateNotifications o).m_watchonly = s.m_watchonly := by
  unfold updateNotifications
  split_ifs <;> rfl

/-- All that a call for one output leaves alone. -/
structure Frame (s s' : Outputs) : Prop where
  coins : s'.coins = s.coins
  m_block : s'.m_block = s.m_block
  m_watchonly : s'.m_watchonly = s.m_watchonly

theorem Frame.refl (s : Outputs) : s.Frame s := ⟨rfl, rfl, rfl⟩

theorem Frame.trans {s s' s'' : Outputs} (h : s.Frame s') (h' : s'.Frame s'') : s.Frame s'' where
  coins := h'.coins.trans h.coins
  m_block := h'.m_block.trans h.m_block
  m_watchonly := h'.m_watchonly.trans h.m_watchonly

theorem Frame.blockHeight {s s' : Outputs} (h : s.Frame s') (network : Network) :
    s'.blockHeight network = s.blockHeight network := by
  rw [Outputs.blockHeight, h.m_block, Outputs.blockHeight]

theorem frame_set (s : Outputs) (o : OutputRef) (output : Output) : s.Frame (s.set o output) :=
  ⟨rfl, rfl, rfl⟩

theorem frame_updateNotifications (s : Outputs) (o : OutputRef) :
    s.Frame (s.updateNotifications o) :=
  ⟨coins_updateNotifications s o, m_block_updateNotifications s o,
    m_watchonly_updateNotifications s o⟩

theorem frame_setExpired (s : Outputs) (o : OutputRef) (expired : Bool) :
    s.Frame (s.setExpired o expired) := by
  unfold setExpired
  cases s.output o with
  | none => exact .refl s
  | some output =>
      show s.Frame (if _ then _ else _)
      split_ifs
      · exact .refl s
      · exact (frame_set s o _).trans (frame_updateNotifications _ o)

theorem frame_setSpendingTransaction (s : Outputs) (o : OutputRef)
    (transaction : Option AccountTransaction) : s.Frame (s.setSpendingTransaction o transaction) := by
  unfold setSpendingTransaction
  cases s.output o with
  | none => exact .refl s
  | some output =>
      show s.Frame (if _ then _ else _)
      split_ifs
      · exact .refl s
      · exact (frame_set s o _).trans (frame_updateNotifications _ o)

theorem frame_updateExpired (s : Outputs) (o : OutputRef) : s.Frame (s.updateExpired o) := by
  unfold updateExpired
  cases s.output o with
  | none => exact .refl s
  | some output => exact frame_setExpired s o _

theorem frame_updateFromData (s : Outputs) (o : OutputRef) (data : OutputData) :
    s.Frame (s.updateFromData o data) := by
  unfold updateFromData
  cases s.output o with
  | none => exact .refl s
  | some output =>
      show s.Frame (if _ then _ else _)
      split_ifs
      · exact .refl s
      · exact (frame_set s o _).trans (frame_updateExpired _ o)

/-- The output, if it is there, is as the function says, and the others are as they were. -/
def adjust (s : Outputs) (o : OutputRef) (f : Output → Output) : OutputRef → Option Output :=
  Function.update s.output o ((s.output o).map f)

theorem adjust_of_ne {f : Output → Output} {other : OutputRef} (hne : other ≠ o) :
    s.adjust o f other = s.output other := Function.update_of_ne hne _ _

@[simp] theorem adjust_self (s : Outputs) (o : OutputRef) (f : Output → Output) :
    s.adjust o f o = (s.output o).map f := Function.update_self o _ _

theorem adjust_of_none {f : Output → Output} (hnone : s.output o = none) :
    s.adjust o f = s.output := by
  rw [adjust, hnone, Option.map_none, ← hnone, Function.update_eq_self]

theorem adjust_of_some {f : Output → Output} {output : Output} (hsome : s.output o = some output)
    (hsame : f output = output) : s.adjust o f = s.output := by
  rw [adjust, hsome, Option.map_some, hsame, ← hsome, Function.update_eq_self]

theorem output_setExpired (s : Outputs) (o : OutputRef) (expired : Bool) :
    (s.setExpired o expired).output =
      s.adjust o fun output => { output with m_expired := expired } := by
  unfold setExpired
  cases houtput : s.output o with
  | none => exact (adjust_of_none houtput).symm
  | some output =>
      show (if _ then _ else _ : Outputs).output = _
      split_ifs with hsame
      · subst hsame
        exact (adjust_of_some houtput rfl).symm
      · rw [output_updateNotifications, adjust, houtput]
        rfl

theorem output_setSpendingTransaction (s : Outputs) (o : OutputRef)
    (transaction : Option AccountTransaction) :
    (s.setSpendingTransaction o transaction).output =
      s.adjust o fun output => { output with m_spending_transaction := transaction } := by
  unfold setSpendingTransaction
  cases houtput : s.output o with
  | none => exact (adjust_of_none houtput).symm
  | some output =>
      show (if _ then _ else _ : Outputs).output = _
      split_ifs with hsame
      · subst hsame
        exact (adjust_of_some houtput rfl).symm
      · rw [output_updateNotifications, adjust, houtput]
        rfl

theorem output_updateExpired (s : Outputs) (o : OutputRef) :
    (s.updateExpired o).output = s.adjust o fun output =>
      { output with m_expired := expiredAt output.m_data (s.blockHeight o.account.network) } := by
  unfold updateExpired
  cases houtput : s.output o with
  | none => exact (adjust_of_none houtput).symm
  | some output =>
      show (s.setExpired o _).output = _
      rw [output_setExpired, adjust, adjust, houtput]
      rfl

theorem output_create_of_ne {other : OutputRef} (hne : other ≠ o) :
    (s.create o).output other = s.output other := Function.update_of_ne hne _ _

@[simp] theorem output_create_self (s : Outputs) (o : OutputRef) :
    (s.create o).output o = some {} := Function.update_self o _ _

/-- New data come with a new look at the time lock. -/
theorem output_updateFromData (s : Outputs) (o : OutputRef) (data : OutputData) :
    (s.updateFromData o data).output = s.adjust o fun output =>
      if output.m_data = data then output
      else
        { output with
          m_data := data
          m_expired := expiredAt data (s.blockHeight o.account.network) } := by
  unfold updateFromData
  cases houtput : s.output o with
  | none => exact (adjust_of_none houtput).symm
  | some output =>
      show (if _ then _ else _ : Outputs).output = _
      split_ifs with hsame
      · refine (adjust_of_some houtput ?_).symm
        exact if_pos hsame
      · rw [output_updateExpired, adjust, adjust, houtput, Option.map_some, if_neg hsame]
        simp [set, blockHeight]

end Outputs

def outputsCalls : Reactive Outputs OutputsEvent Empty where
  enabled _ _ := True
  next s e :=
    match e with
    | .getOrCreateOutput account data => s.getOrCreateOutput account data
    | .setBlock network block => s.setBlock network block
    | .setSpendingTransaction o transaction => s.setSpendingTransaction o transaction
    | .addNotification serial => s.addNotification serial
    | .removeNotification serial => s.removeNotification serial
  emits _ _ := []

end GreenWallet.Accounts
