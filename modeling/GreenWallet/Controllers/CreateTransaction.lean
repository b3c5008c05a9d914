import GreenWallet.Controllers.Convert
import GreenWallet.Controllers.Submarine

/-!
# Drafting a transaction

`CreateTransactionController` keeps a draft for what the user has entered: an account,
an asset, a recipient, coins, a fee rate, or a transaction to replace. Every change
restarts a timer. An update first fetches the unspent outputs of the account, then has
the wallet library create the transaction; a sequence number tells the answer to the
latest call apart, and nothing tells apart the outputs of one account from another's.
-/
namespace GreenWallet.Controllers
open GreenWallet.Library

/-- The unspent outputs fetched for an account. -/
structure Unspents where
  account : ℕ
  outputs : ℕ
deriving DecidableEq

/-- The transaction to replace. -/
structure AccountTransaction where
  id : ℕ
  context : ℕ
  account : ℕ
  fee_rate : Int
deriving DecidableEq

/-- The `utxos` of a call: those fetched, or the coins that were chosen. -/
inductive Utxos where
  | fetched (unspents : Option Unspents)
  | coins (asset : Option String) (outputs : List ℕ)
deriving DecidableEq

structure CallAddressee where
  address : String
  satoshi : Int
  is_greedy : Bool
  asset_id : Option String
deriving DecidableEq

/-- A call of `GA_create_transaction` for an account. -/
structure Details where
  account : ℕ
  utxos : Utxos
  previous_transaction : Option ℕ
  addressee : Option CallAddressee
  fee_rate : Option Int
deriving DecidableEq

/-- The `bip21-params` of an addressee. -/
structure Bip21Params where
  assetid : Option String
  hasAmount : Bool

/-- The first addressee of a transaction that was created. -/
structure TransactionAddressee where
  bip21_params : Option Bip21Params
  address : String
  satoshi : Int
  is_greedy : Bool

structure Transaction where
  addressee : Option TransactionAddressee

structure Recipient where
  address : String := ""
  greedy : Bool := false
  /-- The asset and the satoshi of the recipient's `Convert`. -/
  asset : Option String := none
  satoshi : Int := 0

structure CreateTransactionController where
  context : Option ℕ := none
  account : Option ℕ := none
  asset : Option String := none
  previous_transaction : Option AccountTransaction := none
  recipient : Recipient := {}
  coins : List ℕ := []
  fee_rate : Int := 0
  /-- Null at first. -/
  utxos : Option Unspents := none
  /-- What is shown, with the call it answers; the empty object is `none`. -/
  transaction : Option (Details × Transaction) := none
  seq : ℕ := 0
  timer : Bool := false

/-- A call in flight, with its sequence number. -/
structure CreateCall where
  seq : ℕ
  details : Details

namespace CreateTransactionController

def invalidate (c : CreateTransactionController) : CreateTransactionController :=
  { c with timer := true }

def setContext (context : Option ℕ) (c : CreateTransactionController) :
    CreateTransactionController := { c with context := context }

def setAccount (account : Option ℕ) (c : CreateTransactionController) :
    CreateTransactionController :=
  if c.account = account then c else { c with account := account, utxos := none }.invalidate

def setAsset (asset : Option String) (c : CreateTransactionController) :
    CreateTransactionController :=
  if c.asset = asset then c
  else { c with asset := asset, recipient := { c.recipient with asset := asset } }.invalidate

def setPreviousTransaction (previous_transaction : Option AccountTransaction)
    (c : CreateTransactionController) : CreateTransactionController :=
  if c.previous_transaction = previous_transaction then c
  else
    let c := { c with previous_transaction := previous_transaction }
    match previous_transaction with
    | none => c.invalidate
    | some transaction =>
        ((c.setContext (some transaction.context)).setAccount (some transaction.account)).invalidate

def setCoins (coins : List ℕ) (c : CreateTransactionController) : CreateTransactionController :=
  if c.coins = coins then c else { c with coins := coins }.invalidate

def setFeeRate (fee_rate : Int) (c : CreateTransactionController) : CreateTransactionController :=
  if c.fee_rate = fee_rate then c else { c with fee_rate := fee_rate }.invalidate

def setAddress (address : String) (c : CreateTransactionController) :
    CreateTransactionController :=
  if c.recipient.address = address then c
  else { c with recipient := { c.recipient with address := address } }.invalidate

def setGreedy (greedy : Bool) (c : CreateTransactionController) : CreateTransactionController :=
  if c.recipient.greedy = greedy then c
  else { c with recipient := { c.recipient with greedy := greedy } }.invalidate

/-- The recipient's `Convert` has a result, the old one again perhaps. -/
def resultChanged (satoshi : Int) (c : CreateTransactionController) :
    CreateTransactionController :=
  { c with recipient := { c.recipient with satoshi := satoshi } }.invalidate

/-- `setTransaction`: what the library made of the address is taken over. -/
def setTransaction (transaction : Option (Details × Transaction))
    (c : CreateTransactionController) : CreateTransactionController :=
  let c := { c with transaction := transaction }
  match transaction.bind fun entry => entry.2.addressee with
  | none => c
  | some addressee =>
      match addressee.bip21_params with
      | some params =>
          let c := if params.assetid.isSome then c.setAsset params.assetid else c
          let c := if !addressee.address.isEmpty then c.setAddress addressee.address else c
          if params.hasAmount then c.setGreedy false else c
      | none =>
          if c.previous_transaction.isSome || addressee.is_greedy then
            c.setAddress addressee.address
          else c

section
variable (isLiquid : ℕ → Bool)

/-- The `utxos` of a call made now. -/
def givenUtxos (c : CreateTransactionController) : Utxos :=
  if c.previous_transaction.isNone && c.coins.isEmpty then .fetched c.utxos
  else .coins c.asset c.coins

/-- The addressee of a call made now for an account; a replacement has none. -/
def givenAddressee (account : ℕ) (c : CreateTransactionController) : Option CallAddressee :=
  if c.previous_transaction.isSome then none
  else some
    { address := String.ofList (trimmed c.recipient.address)
      satoshi := c.recipient.satoshi
      is_greedy := !containsText c.recipient.address "amount" && c.recipient.greedy
      asset_id := if isLiquid account then c.recipient.asset else none }

def feeRate (estimates : List Int) (c : CreateTransactionController) : Option Int :=
  if c.fee_rate > 0 then some c.fee_rate
  else
    match c.previous_transaction with
    | some previous => estimates[0]?.map fun estimate => previous.fee_rate + estimate
    | none => estimates[24]?

def details (estimates : List Int) (account : ℕ) (c : CreateTransactionController) : Details :=
  { account := account
    utxos := c.givenUtxos
    previous_transaction := c.previous_transaction.map AccountTransaction.id
    addressee := c.givenAddressee isLiquid account
    fee_rate := c.feeRate estimates }

end
end CreateTransactionController

/-- The controller with its tasks in flight; the library's fee estimates may change. -/
structure Drafts where
  controller : CreateTransactionController := {}
  estimates : List Int := []
  fetches : Jobs ℕ := {}
  creates : Jobs CreateCall := {}

inductive DraftEvent where
  | setContext (context : Option ℕ)
  | setAccount (account : Option ℕ)
  | setAsset (asset : Option String)
  | setPreviousTransaction (previous_transaction : Option AccountTransaction)
  | setCoins (coins : List ℕ)
  | setFeeRate (fee_rate : Int)
  | setAddress (address : String)
  | setGreedy (greedy : Bool)
  | resultChanged (satoshi : Int)
  | invalidate
  | estimates (estimates : List Int)
  | timer
  | unspentsFinished (job outputs : ℕ)
  | unspentsFailed (job : ℕ)
  | created (job : ℕ) (transaction : Transaction)
  | createFailed (job : ℕ)

namespace Drafts
section
variable (isLiquid : ℕ → Bool)

def update (s : Drafts) : Drafts :=
  match s.controller.context, s.controller.account with
  | none, _ | _, none => s
  | some _, some account =>
      let c := s.controller
      if c.previous_transaction.isNone && c.utxos.isNone then
        { s with fetches := s.fetches.launch account }
      else if c.previous_transaction.isNone && (trimmed c.recipient.address).isEmpty then
        { s with controller := c.setTransaction none }
      else
        let details := c.details isLiquid s.estimates account
        { s with
          controller := { c with seq := c.seq + 1 }
          creates := s.creates.launch { seq := c.seq + 1, details := details } }

def timerEvent (s : Drafts) : Drafts :=
  { s with controller := { s.controller with timer := false } }.update isLiquid

/-- The unspent outputs are in, whatever account is set by now. -/
def unspentsFinished (job account outputs : ℕ) (s : Drafts) : Drafts :=
  { s with
    fetches := s.fetches.finish job
    controller :=
      { s.controller with utxos := some { account := account, outputs := outputs } } }.update
    isLiquid

/-- A call is answered, by a transaction or by a failure. -/
def createEnded (job : ℕ) (call : CreateCall) (transaction : Option Transaction) (s : Drafts) :
    Drafts :=
  let s := { s with creates := s.creates.finish job }
  if s.controller.seq = call.seq then
    { s with
      controller := s.controller.setTransaction (transaction.map fun made => (call.details, made)) }
  else s

def edit (edited : CreateTransactionController) (s : Drafts) : Drafts :=
  { s with controller := edited }

def next (s : Drafts) : DraftEvent → Drafts
  | .setContext context => s.edit (s.controller.setContext context)
  | .setAccount account => s.edit (s.controller.setAccount account)
  | .setAsset asset => s.edit (s.controller.setAsset asset)
  | .setPreviousTransaction previous => s.edit (s.controller.setPreviousTransaction previous)
  | .setCoins coins => s.edit (s.controller.setCoins coins)
  | .setFeeRate fee_rate => s.edit (s.controller.setFeeRate fee_rate)
  | .setAddress address => s.edit (s.controller.setAddress address)
  | .setGreedy greedy => s.edit (s.controller.setGreedy greedy)
  | .resultChanged satoshi => s.edit (s.controller.resultChanged satoshi)
  | .invalidate => s.edit s.controller.invalidate
  | .estimates estimates => { s with estimates := estimates }
  | .timer => s.timerEvent isLiquid
  | .unspentsFinished job outputs =>
      match s.fetches.find job with
      | none => s
      | some account => s.unspentsFinished isLiquid job account outputs
  | .unspentsFailed job => { s with fetches := s.fetches.finish job }
  | .created job transaction =>
      match s.creates.find job with
      | none => s
      | some call => s.createEnded job call (some transaction)
  | .createFailed job =>
      match s.creates.find job with
      | none => s
      | some call => s.createEnded job call none

end

/-- No task is outstanding and no update is due. -/
def Settled (s : Drafts) : Prop :=
  s.fetches.idle = true ∧ s.creates.idle = true ∧ s.controller.timer = false

instance (s : Drafts) : Decidable s.Settled := inferInstanceAs (Decidable (_ ∧ _ ∧ _))

end Drafts

def drafts (isLiquid : ℕ → Bool) : Reactive Drafts DraftEvent Empty where
  enabled := fun s e =>
    match e with
    | .timer => s.controller.timer = true
    | .unspentsFinished job _ | .unspentsFailed job => (s.fetches.find job).isSome = true
    | .created job _ | .createFailed job => (s.creates.find job).isSome = true
    | _ => True
  next := Drafts.next isLiquid
  emits := fun _ _ => []

instance (isLiquid : ℕ → Bool) (s : Drafts) (e : DraftEvent) :
    Decidable ((drafts isLiquid).enabled s e) := by
  cases e <;> simp only [drafts] <;> infer_instance

end GreenWallet.Controllers
