import GreenWallet.Accounts.Outputs
import GreenWallet.Accounts.Context
import GreenWallet.Library.Backlinks

/-!
# Payments and their transactions

A payment has the transaction that the context finds under the id its data name, and a
transaction has a payment. Both links are set when the payment is refreshed.
-/
namespace GreenWallet.Accounts
open GreenWallet.Library

/-- The objects a context can have as transactions. -/
inductive AnyTransaction where
  | account (transaction : AccountTransaction)
  | chain (hash : String)
deriving DecidableEq

namespace AnyTransaction

/-- `qobject_cast<AccountTransaction*>` -/
def asAccountTransaction : AnyTransaction → Option AccountTransaction
  | .account transaction => some transaction
  | .chain _ => none

instance : ContextTransaction AnyTransaction where
  id
    | .account transaction => transaction.hash
    | .chain hash => hash

end AnyTransaction

/-- An object from the provider, as text, and what is read from it. -/
structure PaymentData where
  updatedAt : String := ""
  status : String := ""
  destinationWalletAddress : String := ""
  blockchainTransactionId : String := ""
  object : String := "\x7b\x7d"
deriving DecidableEq

/-- The time of the last update is kept as the text it is read from. -/
structure Payment where
  m_data : PaymentData := {}
  m_updated_at : String := ""
  m_status : String := ""
  m_address : Option String := none
  m_transaction : Option AccountTransaction := none

/-- The payments by their ids, and the payment of each transaction. -/
structure Payments where
  payments : String → Payment := fun _ => {}
  m_payment : AccountTransaction → Option String := fun _ => none
  context : Context AnyTransaction := {}

inductive PaymentsEvent where
  | update (id : String) (data : PaymentData)
  | refresh (id : String)
  | addTransaction (transaction : AnyTransaction)
  | removeTransaction (transaction : AnyTransaction)

namespace Payment

/-- An address that has been set is not replaced. -/
def readData (payment : Payment) : Payment :=
  { payment with
    m_updated_at := payment.m_data.updatedAt
    m_status := payment.m_data.status
    m_address := payment.m_address.or
      (if payment.m_data.destinationWalletAddress = "" then none
      else some payment.m_data.destinationWalletAddress) }

end Payment

namespace Payments

def setPayment (s : Payments) (transaction : Option AccountTransaction) (id : Option String) :
    Payments :=
  { s with m_payment := transaction.elim s.m_payment fun t => Function.update s.m_payment t id }

def set (s : Payments) (id : String) (payment : Payment) : Payments :=
  { s with payments := Function.update s.payments id payment }

/-- The first of the context's transactions with the id that is one of an account. -/
def findTransaction (s : Payments) (blockchain_transaction_id : String) :
    Option AccountTransaction :=
  if blockchain_transaction_id = "" then none
  else
    (s.context.getTransaction blockchain_transaction_id).findSome?
      AnyTransaction.asAccountTransaction

/-- The end of `refresh`, where the transaction has been found. -/
def replaceTransaction (s : Payments) (id : String) (transaction : Option AccountTransaction) :
    Payments :=
  if (s.payments id).m_transaction = transaction then s
  else
    ((s.setPayment (s.payments id).m_transaction none).set id
      { s.payments id with m_transaction := transaction }).setPayment transaction (some id)

def refresh (s : Payments) (id : String) : Payments :=
  (s.set id (s.payments id).readData).replaceTransaction id
    (s.findTransaction (s.payments id).m_data.blockchainTransactionId)

def update (s : Payments) (id : String) (data : PaymentData) : Payments :=
  if (s.payments id).m_data = data then s
  else (s.set id { s.payments id with m_data := data }).refresh id

end Payments

def paymentsCalls : Reactive Payments PaymentsEvent Empty where
  enabled _ _ := True
  next s e :=
    match e with
    | .update id data => s.update id data
    | .refresh id => s.refresh id
    | .addTransaction t => { s with context := s.context.addTransaction t }
    | .removeTransaction t => { s with context := s.context.removeTransaction t }
  emits _ _ := []

namespace Payments
variable {s : Payments} {id : String}

def Refers (s : Payments) (id : String) (t : AccountTransaction) : Prop :=
  (s.payments id).m_transaction = some t

def LinksMutual (s : Payments) : Prop := Mutual s.Refers s.m_payment

/-- The transaction found first under the id has no other payment. -/
def Free (s : Payments) (id blockchain_transaction_id : String) : Prop :=
  ∀ t ∈ s.findTransaction blockchain_transaction_id, s.m_payment t = none ∨ s.m_payment t = some id

/-- A refresh takes no transaction that has another payment. -/
def SparesPayments (s : Payments) : PaymentsEvent → Prop
  | .update id data =>
      (s.payments id).m_data ≠ data → s.Free id data.blockchainTransactionId
  | .refresh id => s.Free id (s.payments id).m_data.blockchainTransactionId
  | .addTransaction _ => True
  | .removeTransaction _ => True

@[simp] theorem payments_set_self (s : Payments) (id : String) (payment : Payment) :
    (s.set id payment).payments id = payment := Function.update_self id _ _

theorem payments_set_of_ne {other : String} (hne : other ≠ id) (payment : Payment) :
    (s.set id payment).payments other = s.payments other := Function.update_of_ne hne _ _

/-- Only the payment's own fields besides its transaction are set. -/
theorem refers_set {payment : Payment}
    (hsame : payment.m_transaction = (s.payments id).m_transaction) :
    (s.set id payment).Refers = s.Refers := by
  funext other t
  by_cases hne : other = id
  · subst hne
    rw [Refers, payments_set_self, hsame, Refers]
  · rw [Refers, payments_set_of_ne hne, Refers]

theorem linksMutual_set (payment : Payment)
    (hsame : payment.m_transaction = (s.payments id).m_transaction) :
    (s.set id payment).LinksMutual ↔ s.LinksMutual := by
  rw [LinksMutual, refers_set hsame]
  exact Iff.rfl

theorem replaceTransaction_iff (h : s.LinksMutual) (transaction : Option AccountTransaction) :
    (s.replaceTransaction id transaction).LinksMutual ↔
      ∀ t ∈ transaction, s.m_payment t = none ∨ s.m_payment t = some id := by
  by_cases hsame : (s.payments id).m_transaction = transaction
  · rw [replaceTransaction, if_pos hsame]
    refine iff_of_true h fun t ht => .inr ?_
    exact (h t id).mpr (hsame.trans ht)
  · have hback : (s.replaceTransaction id transaction).m_payment =
        relink s.m_payment id (s.payments id).m_transaction transaction := by
      rw [relink_eq_update, replaceTransaction, if_neg hsame]
      rfl
    have hself : ((s.replaceTransaction id transaction).payments id).m_transaction = transaction := by
      rw [replaceTransaction, if_neg hsame, setPayment, payments_set_self]
    have hothers {other : String} (hne : other ≠ id) :
        (s.replaceTransaction id transaction).payments other = s.payments other := by
      rw [replaceTransaction, if_neg hsame, setPayment, payments_set_of_ne hne, setPayment]
    rw [LinksMutual, hback]
    have hold (t : AccountTransaction) :
        s.Refers id t ↔ False ∨ (s.payments id).m_transaction = some t := by
      rw [Refers, false_or]
    have hnew (t : AccountTransaction) :
        (s.replaceTransaction id transaction).Refers id t ↔ False ∨ transaction = some t := by
      rw [Refers, hself, false_or]
    have hrest (other : String) (t : AccountTransaction) (hne : other ≠ id) :
        (s.replaceTransaction id transaction).Refers other t ↔ s.Refers other t := by
      rw [Refers, hothers hne, Refers]
    rw [h.relink_iff hsame hold hnew hrest]
    exact and_iff_right fun _ _ => not_false

theorem refresh_iff (h : s.LinksMutual) (id : String) :
    (s.refresh id).LinksMutual ↔ s.Free id (s.payments id).m_data.blockchainTransactionId := by
  have hread : (s.set id (s.payments id).readData).LinksMutual := (linksMutual_set (s.payments id).readData rfl).mpr h
  exact replaceTransaction_iff hread _

theorem update_iff (h : s.LinksMutual) (id : String) (data : PaymentData) :
    (s.update id data).LinksMutual ↔ s.SparesPayments (.update id data) := by
  by_cases hsame : (s.payments id).m_data = data
  · rw [update, if_pos hsame]
    exact iff_of_true h fun hne => absurd hsame hne
  · have hset : (s.set id { s.payments id with m_data := data }).LinksMutual :=
      (linksMutual_set { s.payments id with m_data := data } rfl).mpr h
    have hdata : ((s.set id { s.payments id with m_data := data }).payments id).m_data = data := by
      rw [payments_set_self]
    rw [update, if_neg hsame, refresh_iff hset, hdata]
    exact ⟨fun hfree _ => hfree, fun hspares => hspares hsame⟩

/-- Links that are right remain so exactly if the call spares other payments. -/
theorem next_iff (h : s.LinksMutual) (e : PaymentsEvent) :
    (paymentsCalls.next s e).LinksMutual ↔ s.SparesPayments e := by
  cases e with
  | update id data => exact update_iff h id data
  | refresh id => exact refresh_iff h id
  | addTransaction t => exact iff_of_true h trivial
  | removeTransaction t => exact iff_of_true h trivial

/-- The links are mutual throughout exactly if no payment takes the transaction of another. -/
theorem paymentLinks_iff (es : List PaymentsEvent) :
    paymentsCalls.Always LinksMutual {} es ↔ paymentsCalls.Along SparesPayments {} es := by
  have hempty : ({} : Payments).LinksMutual := fun t id =>
    iff_of_false (Option.some_ne_none id).symm (Option.some_ne_none t).symm
  exact Reactive.always_iff_along (J := fun _ => True) (V := fun _ _ => True)
    (fun _ _ _ _ => trivial) (fun s e _ _ h => next_iff h e) trivial hempty
    (Reactive.along_of_at fun _ _ _ _ => trivial)

/-- Two payments name the same transaction. -/
def sharedTransaction : List PaymentsEvent :=
  [.addTransaction (.account ⟨⟨⟨"mainnet", false⟩, 0⟩, "b"⟩),
  .update "first" { blockchainTransactionId := "b" },
  .update "second" { blockchainTransactionId := "b" }]

/-- The transaction's payment is the second, but it is still the transaction of the first. -/
theorem not_paymentLinks_shared :
    ¬ paymentsCalls.Always LinksMutual {} sharedTransaction := by
  intro h
  have hmutual := h.last ⟨⟨⟨"mainnet", false⟩, 0⟩, "b"⟩ "first"
  exact absurd (hmutual.mpr (by unfold Refers; decide)) (by decide)

end Payments

end GreenWallet.Accounts
