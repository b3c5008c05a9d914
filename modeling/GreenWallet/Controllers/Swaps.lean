import GreenWallet.Controllers.Convert

/-!
# Swaps made for what was typed

`ChainSwapController` and `InvoiceController` have a swap made on another thread for an
amount and for addresses that can be edited all the while. The one takes the amount along
and reads the addresses when its thread comes to them, the other takes along all it
needs. A swap is shown when it is there, whatever has been typed since; an attempt that
fails leaves the one that was there.
-/
namespace GreenWallet.Controllers
open GreenWallet.Library

/-- `QString::toULongLong`, with its `ok`. -/
def toULongLong (text : String) : Option ℕ :=
  let digits :=
    match trimmed text with
    | '+' :: digits => digits
    | digits => digits
  (Jade.digitsToNat digits).bind fun n => if n < UInt64.size then some n else none

/-- `QString::toULongLong`, which is 0 where the text is no number. -/
def amountOf (text : String) : ℕ := (toULongLong text).getD 0

/-! ## Swaps between two chains -/

/-- An `Address` of the wallet, with the kind of its account's network. -/
structure Address where
  id : ℕ
  address : String
  isLiquid : Bool
deriving DecidableEq

/-- What a swap is made of: the call of the swap library. -/
structure LockupRequest where
  amount : ℕ
  claim_liquid : Bool
  refund_liquid : Bool
  refund_address : String
  claim_address : String
deriving DecidableEq

/-- A thread that makes a swap, as far as it has got: the amount is its own, the rest it
reads from the controller, one after the other. -/
structure ChainSwapJob where
  amount : ℕ
  claim_liquid : Option Bool := none
  refund_liquid : Option Bool := none
  refund_address : Option String := none
  claim_address : Option String := none
deriving DecidableEq

structure ChainSwap where
  request : LockupRequest
deriving DecidableEq

structure ChainSwapController where
  timer : Bool := true
  refund_address : Option Address := none
  claim_address : Option Address := none
  amount : String := ""
  busy : Bool := true
  swap : Option ChainSwap := none

/-- How the thread ends: it throws, it has no call to make, or the library answers. -/
inductive Lockup where
  | thrown
  | nothing
  | response
deriving DecidableEq

namespace ChainSwapController

def invalidate (d : ChainSwapController) : ChainSwapController :=
  { d with timer := true, busy := true }

def setAmount (amount : String) (d : ChainSwapController) : ChainSwapController :=
  if d.amount = amount then d else { d with amount := amount }.invalidate

def setRefundAddress (refund_address : Option Address) (d : ChainSwapController) :
    ChainSwapController :=
  if d.refund_address = refund_address then d
  else { d with refund_address := refund_address }.invalidate

def setClaimAddress (claim_address : Option Address) (d : ChainSwapController) :
    ChainSwapController :=
  if d.claim_address = claim_address then d
  else { d with claim_address := claim_address }.invalidate

def isValid (d : ChainSwapController) : Bool :=
  d.claim_address.isSome && d.refund_address.isSome && amountOf d.amount != 0

/-- What a swap for the inputs as they are would be made of. -/
def inputs (d : ChainSwapController) : Option LockupRequest :=
  match toULongLong d.amount, d.claim_address, d.refund_address with
  | some amount, some claim, some refund =>
      some
        { amount := amount
          claim_liquid := claim.isLiquid
          refund_liquid := refund.isLiquid
          refund_address := refund.address
          claim_address := claim.address }
  | _, _, _ => none

end ChainSwapController

namespace ChainSwapJob

/-- The next thing the thread reads; an address that is not set is not read. Where both
networks are of one kind there is no call to make, and no more to read. -/
def read (d : ChainSwapController) (job : ChainSwapJob) : Option ChainSwapJob :=
  match job.claim_liquid, job.refund_liquid, job.refund_address, job.claim_address with
  | none, _, _, _ =>
      d.claim_address.map fun claim => { job with claim_liquid := some claim.isLiquid }
  | some _, none, _, _ =>
      d.refund_address.map fun refund => { job with refund_liquid := some refund.isLiquid }
  | some claim_liquid, some refund_liquid, none, _ =>
      if claim_liquid = refund_liquid then none
      else d.refund_address.map fun refund => { job with refund_address := some refund.address }
  | some _, some _, some _, none =>
      d.claim_address.map fun claim => { job with claim_address := some claim.address }
  | some _, some _, some _, some _ => none

/-- The call of the library, once everything is read. -/
def request (job : ChainSwapJob) : Option LockupRequest :=
  match job.claim_liquid, job.refund_liquid, job.refund_address, job.claim_address with
  | some claim_liquid, some refund_liquid, some refund_address, some claim_address =>
      some
        { amount := job.amount
          claim_liquid := claim_liquid
          refund_liquid := refund_liquid
          refund_address := refund_address
          claim_address := claim_address }
  | _, _, _, _ => none

/-- How the thread can end where it is. -/
def CanEnd (job : ChainSwapJob) : Lockup → Prop
  | .thrown => True
  | .nothing => job.claim_liquid.isSome = true ∧ job.refund_liquid = job.claim_liquid
  | .response => job.request.isSome = true

instance (job : ChainSwapJob) (lockup : Lockup) : Decidable (job.CanEnd lockup) := by
  cases lockup <;> unfold CanEnd <;> infer_instance

end ChainSwapJob

/-! ## Invoices -/

/-- What an invoice is made of. -/
structure InvoiceRequest where
  satoshi : ℕ
  address : String
deriving DecidableEq

structure ReverseSwap where
  request : InvoiceRequest
  description : Option String
deriving DecidableEq

structure InvoiceController where
  address : String := ""
  satoshi : String := ""
  description : String := ""
  timer : Bool := false
  busy : Bool := false
  swap : Option ReverseSwap := none

namespace InvoiceController

def invalidate (d : InvoiceController) : InvoiceController := { d with timer := true }

def setAddress (address : String) (d : InvoiceController) : InvoiceController :=
  if d.address = address then d else { d with address := address }.invalidate

/-- A new amount takes away the swap that is shown, and starts no timer. -/
def setSatoshi (satoshi : String) (d : InvoiceController) : InvoiceController :=
  if d.satoshi = satoshi then d else { d with satoshi := satoshi, swap := none }

def setDescription (description : String) (d : InvoiceController) : InvoiceController :=
  if d.description = description then d else { d with description := description }

def request (d : InvoiceController) : InvoiceController :=
  if d.busy then d else { d with busy := true }.invalidate

def isValid (boltz_session : Bool) (d : InvoiceController) : Bool :=
  boltz_session && !d.address.isEmpty && amountOf d.satoshi != 0

/-- What an invoice for the inputs as they are would be made of. -/
def inputs (d : InvoiceController) : Option InvoiceRequest :=
  (toULongLong d.satoshi).map fun satoshi => { satoshi := satoshi, address := d.address }

end InvoiceController

/-! ## Both controllers at work -/

/-- A call of `invoice` on the swap service. -/
structure InvoiceJob where
  request : InvoiceRequest
  description : Option String

structure Swaps where
  boltz_session : Bool := false
  chain : ChainSwapController := {}
  lockups : Jobs ChainSwapJob := {}
  invoice : InvoiceController := {}
  invoices : Jobs InvoiceJob := {}

inductive SwapsEvent where
  /-- The wallet connects to the swap service. -/
  | boltzSession
  | setAmount (amount : String)
  | setRefundAddress (address : Option Address)
  | setClaimAddress (address : Option Address)
  | chainTimer
  /-- A thread that makes a swap reads on. -/
  | read (job : ℕ)
  | lockupFinished (job : ℕ) (lockup : Lockup)
  | setAddress (address : String)
  | setSatoshi (satoshi : String)
  | setDescription (description : String)
  | request
  | invoiceTimer
  /-- An invoice is there, or its thread has caught an error. -/
  | invoiceFinished (job : ℕ) (response : Bool)

/-- What is done to the list of the wallet's swaps. -/
inductive SwapsOutput where
  | addChainSwap (swap : ChainSwap)
  | addReverseSwap (swap : ReverseSwap)
  | removeReverseSwap (swap : ReverseSwap)
deriving DecidableEq

namespace Swaps

/-- `ChainSwapController::update`. -/
def updateChain (s : Swaps) : Swaps :=
  if !s.boltz_session then s
  else if !s.chain.isValid then { s with chain := { s.chain with busy := false, swap := none } }
  else { s with lockups := s.lockups.launch { amount := amountOf s.chain.amount } }

def chainTimer (s : Swaps) : Swaps :=
  { s with chain := { s.chain with timer := false } }.updateChain

/-- The thread is done. A swap that was made is shown as it is. -/
def lockupFinished (id : ℕ) (job : ChainSwapJob) (lockup : Lockup) (s : Swaps) :
    Swaps × List SwapsOutput :=
  let s := { s with lockups := s.lockups.finish id }
  match lockup with
  | .thrown => ({ s with chain := { s.chain with timer := true } }, [])
  | .nothing => ({ s with chain := { s.chain with busy := false } }, [])
  | .response =>
      match job.request with
      | none => ({ s with chain := { s.chain with busy := false } }, [])
      | some request =>
          ({ s with chain := { s.chain with busy := false, swap := some { request := request } } },
            [.addChainSwap { request := request }])

/-- `InvoiceController::update`; the library may not accept the address. -/
def updateInvoice (validAddress : String → Bool) (s : Swaps) : Swaps :=
  if s.invoice.isValid s.boltz_session && validAddress s.invoice.address then
    { s with
      invoices := s.invoices.launch
        { request := { satoshi := amountOf s.invoice.satoshi, address := s.invoice.address }
          description :=
            if s.invoice.description.isEmpty then none else some s.invoice.description } }
  else { s with invoice := { s.invoice with swap := none, busy := false } }

def invoiceTimer (validAddress : String → Bool) (s : Swaps) : Swaps :=
  { s with invoice := { s.invoice with timer := false } }.updateInvoice validAddress

def invoiceFinished (id : ℕ) (job : InvoiceJob) (response : Bool) (s : Swaps) :
    Swaps × List SwapsOutput :=
  let s := { s with invoices := s.invoices.finish id }
  if response then
    let swap : ReverseSwap := { request := job.request, description := job.description }
    ({ s with invoice := { s.invoice with swap := some swap, busy := false } },
      [.addReverseSwap swap])
  else ({ s with invoice := s.invoice.invalidate }, [])

def setSatoshi (satoshi : String) (s : Swaps) : Swaps × List SwapsOutput :=
  ({ s with invoice := s.invoice.setSatoshi satoshi },
    if s.invoice.satoshi = satoshi then []
    else s.invoice.swap.toList.map SwapsOutput.removeReverseSwap)

def handle (validAddress : String → Bool) (s : Swaps) : SwapsEvent → Swaps × List SwapsOutput
  | .boltzSession => ({ s with boltz_session := true }, [])
  | .setAmount amount => ({ s with chain := s.chain.setAmount amount }, [])
  | .setRefundAddress address => ({ s with chain := s.chain.setRefundAddress address }, [])
  | .setClaimAddress address => ({ s with chain := s.chain.setClaimAddress address }, [])
  | .chainTimer => (s.chainTimer, [])
  | .read id =>
      match (s.lockups.find id).bind fun job => job.read s.chain with
      | none => (s, [])
      | some job => ({ s with lockups := s.lockups.update id job }, [])
  | .lockupFinished id lockup =>
      match s.lockups.find id with
      | none => (s, [])
      | some job => s.lockupFinished id job lockup
  | .setAddress address => ({ s with invoice := s.invoice.setAddress address }, [])
  | .setSatoshi satoshi => s.setSatoshi satoshi
  | .setDescription description => ({ s with invoice := s.invoice.setDescription description }, [])
  | .request => ({ s with invoice := s.invoice.request }, [])
  | .invoiceTimer => (s.invoiceTimer validAddress, [])
  | .invoiceFinished id response =>
      match s.invoices.find id with
      | none => (s, [])
      | some job => s.invoiceFinished id job response

end Swaps

def swaps (validAddress : String → Bool) : Reactive Swaps SwapsEvent SwapsOutput where
  enabled := fun s e =>
    match e with
    | .chainTimer => s.chain.timer = true
    | .read id => ((s.lockups.find id).bind fun job => job.read s.chain).isSome = true
    | .lockupFinished id lockup => ∃ job ∈ s.lockups.find id, job.CanEnd lockup
    | .invoiceTimer => s.invoice.timer = true
    | .invoiceFinished id _ => (s.invoices.find id).isSome = true
    | _ => True
  next := fun s e => (s.handle validAddress e).1
  emits := fun s e => (s.handle validAddress e).2

instance (validAddress : String → Bool) (s : Swaps) (e : SwapsEvent) :
    Decidable ((swaps validAddress).enabled s e) := by
  cases e <;> simp only [swaps] <;> infer_instance

namespace Swaps

/-- The swap between chains that is shown, if any, was made of the inputs as they are. -/
def ChainCurrent (s : Swaps) : Prop :=
  ∀ swap, s.chain.swap = some swap → s.chain.inputs = some swap.request

/-- The same of the invoice that is shown. -/
def InvoiceCurrent (s : Swaps) : Prop :=
  ∀ swap, s.invoice.swap = some swap → s.invoice.inputs = some swap.request

end Swaps

/-- A thread that is done leaves its controller with a swap for the inputs as they are,
or with none. -/
def LeavesCurrent (validAddress : String → Bool) (s : Swaps) (e : SwapsEvent) : Prop :=
  match e with
  | .lockupFinished _ _ => ((swaps validAddress).next s e).ChainCurrent
  | .invoiceFinished _ _ => ((swaps validAddress).next s e).InvoiceCurrent
  | _ => True

namespace Swaps
/-- A swap between chains comes in that was made by this call. -/
def MakesLockup (request : LockupRequest) (s : Swaps) (e : SwapsEvent) : Prop :=
  ∃ id job, e = .lockupFinished id .response ∧ s.lockups.find id = some job ∧
    job.request = some request

def MakesInvoice (request : InvoiceRequest) (s : Swaps) (e : SwapsEvent) : Prop :=
  ∃ id job, e = .invoiceFinished id true ∧ s.invoices.find id = some job ∧ job.request = request

section
variable (s : Swaps)

def BringsLockup (e : SwapsEvent) : Prop := ∃ request, MakesLockup request s e

/-- The swap between chains is replaced, or hidden by an update that finds the inputs invalid. -/
def EndsLockup (e : SwapsEvent) : Prop :=
  s.BringsLockup e ∨ e = .chainTimer ∧ s.boltz_session = true ∧ s.chain.isValid = false

def BringsInvoice (e : SwapsEvent) : Prop := ∃ request, MakesInvoice request s e

/-- The invoice is replaced, taken away with another amount, or hidden by an update that finds the
inputs invalid. -/
def EndsInvoice (validAddress : String → Bool) (e : SwapsEvent) : Prop :=
  s.BringsInvoice e ∨ (∃ satoshi, e = .setSatoshi satoshi ∧ s.invoice.satoshi ≠ satoshi) ∨
    e = .invoiceTimer ∧
      (s.invoice.isValid s.boltz_session && validAddress s.invoice.address) = false

end
end Swaps

/-- What a thread with an answer took along or has read is what is set when it is done. When a
thread without one is done, no swap has come in while something else was set, and stayed. -/
def FindsCurrent (validAddress : String → Bool) (fs : List SwapsEvent) : SwapsEvent → Prop
  | .lockupFinished id .response => ∀ job,
      ((swaps validAddress).run {} fs).lockups.find id = some job →
        ((swaps validAddress).run {} fs).chain.inputs = job.request
  | .lockupFinished _ _ =>
      ¬ (swaps validAddress).Since (fun s e => s.BringsLockup e ∧
        s.chain.inputs ≠ ((swaps validAddress).run {} fs).chain.inputs) Swaps.EndsLockup {} fs
  | .invoiceFinished id true => ∀ job,
      ((swaps validAddress).run {} fs).invoices.find id = some job →
        ((swaps validAddress).run {} fs).invoice.inputs = some job.request
  | .invoiceFinished _ false =>
      ¬ (swaps validAddress).Since (fun s e => s.BringsInvoice e ∧
        s.invoice.inputs ≠ ((swaps validAddress).run {} fs).invoice.inputs)
          (fun s e => s.EndsInvoice validAddress e) {} fs
  | _ => True

namespace Swaps
variable {validAddress : String → Bool} {s : Swaps} {e : SwapsEvent}

/-! ## What is shown -/

/-- What the swap between chains that is shown was made of. -/
def shownLockup (s : Swaps) : Option LockupRequest := s.chain.swap.map ChainSwap.request

def shownInvoice (s : Swaps) : Option InvoiceRequest := s.invoice.swap.map ReverseSwap.request

theorem chainCurrent_iff :
    s.ChainCurrent ↔ ∀ request, s.shownLockup = some request → s.chain.inputs = some request := by
  simp [ChainCurrent, shownLockup]

theorem invoiceCurrent_iff :
    s.InvoiceCurrent ↔ ∀ request, s.shownInvoice = some request →
      s.invoice.inputs = some request := by
  simp [InvoiceCurrent, shownInvoice]

/-- A setter of the controller leaves the swap. -/
theorem swap_unless {p : Prop} [Decidable p] {d d' : ChainSwapController} (h : d'.swap = d.swap) :
    (if p then d else d'.invalidate).swap = d.swap := by
  split_ifs
  · rfl
  · exact h

/-- The events that can change which swap between chains is shown. -/
def TouchesLockup : SwapsEvent → Prop
  | .chainTimer | .lockupFinished _ .response => True
  | _ => False

theorem EndsLockup.touches (h : s.EndsLockup e) : TouchesLockup e := by
  rcases h with ⟨_, _, _, rfl, _⟩ | ⟨rfl, _⟩
  · trivial
  · trivial

theorem chain_swap_next (he : (swaps validAddress).enabled s e) (hnot : ¬ TouchesLockup e) :
    ((swaps validAddress).next s e).chain.swap = s.chain.swap := by
  cases e with
  | chainTimer => exact absurd trivial hnot
  | lockupFinished id lockup =>
      obtain ⟨job, hjob, -⟩ := he
      rw [Option.mem_def] at hjob
      simp only [swaps, handle, hjob]
      cases lockup with
      | thrown | nothing => rfl
      | response => exact absurd trivial hnot
  | read id =>
      simp only [swaps, handle]
      split <;> rfl
  | invoiceFinished id response =>
      simp only [swaps, handle, invoiceFinished]
      split
      · rfl
      · split_ifs <;> rfl
  | invoiceTimer =>
      simp only [swaps, handle, invoiceTimer, updateInvoice]
      split_ifs <;> rfl
  | setAmount amount | setRefundAddress address | setClaimAddress address => exact swap_unless rfl
  | boltzSession | setAddress | setSatoshi | setDescription | request => rfl

theorem shownLockup_kept {request : LockupRequest} (he : (swaps validAddress).enabled s e)
    (hnot : ¬ TouchesLockup e) :
    ((swaps validAddress).next s e).shownLockup = some request ↔
      MakesLockup request s e ∨ s.shownLockup = some request ∧ ¬ s.EndsLockup e := by
  have hends : ¬ s.EndsLockup e := fun hends => hnot hends.touches
  have hmakes : ¬ MakesLockup request s e := fun hmakes => hends (.inl ⟨request, hmakes⟩)
  rw [shownLockup, chain_swap_next he hnot, or_iff_right hmakes, and_iff_left hends, shownLockup]

theorem shownLockup_next {request : LockupRequest} (he : (swaps validAddress).enabled s e) :
    ((swaps validAddress).next s e).shownLockup = some request ↔
      MakesLockup request s e ∨ s.shownLockup = some request ∧ ¬ s.EndsLockup e := by
  cases e with
  | chainTimer =>
      have hmakes : ¬ MakesLockup request s .chainTimer := by rintro ⟨_, _, ⟨⟩, _⟩
      have hends : s.EndsLockup .chainTimer ↔ s.boltz_session = true ∧ s.chain.isValid = false := by
        simp [EndsLockup, BringsLockup, MakesLockup]
      rw [or_iff_right hmakes, hends]
      have hnext : (swaps validAddress).next s .chainTimer = s.chainTimer := rfl
      have hvalid : { s.chain with timer := false }.isValid = s.chain.isValid := rfl
      rw [hnext]
      simp only [chainTimer, updateChain, shownLockup, hvalid]
      cases s.boltz_session <;> cases s.chain.isValid <;> simp
  | lockupFinished id lockup =>
      cases lockup with
      | thrown | nothing => exact shownLockup_kept he not_false
      | response =>
          obtain ⟨job, hjob, hend⟩ := he
          rw [Option.mem_def] at hjob
          have hnext : (swaps validAddress).next s (.lockupFinished id .response) =
              (s.lockupFinished id job .response).1 := by
            simp only [swaps, handle, hjob]
          obtain ⟨made, hmade⟩ := Option.isSome_iff_exists.mp hend
          have hends : s.EndsLockup (.lockupFinished id .response) :=
            .inl ⟨made, id, job, rfl, hjob, hmade⟩
          rw [hnext, or_iff_left fun h => h.2 hends]
          simp [lockupFinished, hmade, shownLockup, MakesLockup, hjob]
  | _ => exact shownLockup_kept he not_false

/-- The events that can change which invoice is shown. -/
def TouchesInvoice : SwapsEvent → Prop
  | .invoiceTimer | .setSatoshi _ | .invoiceFinished _ true => True
  | _ => False

theorem EndsInvoice.touches (h : s.EndsInvoice validAddress e) : TouchesInvoice e := by
  rcases h with ⟨_, _, _, rfl, _⟩ | ⟨_, rfl, _⟩ | ⟨rfl, _⟩
  · trivial
  · trivial
  · trivial

theorem invoice_swap_next (he : (swaps validAddress).enabled s e) (hnot : ¬ TouchesInvoice e) :
    ((swaps validAddress).next s e).invoice.swap = s.invoice.swap := by
  cases e with
  | invoiceTimer | setSatoshi satoshi => exact absurd trivial hnot
  | invoiceFinished id response =>
      obtain ⟨job, hjob⟩ := Option.isSome_iff_exists.mp he
      simp only [swaps, handle, hjob]
      cases response with
      | false => rfl
      | true => exact absurd trivial hnot
  | lockupFinished id lockup =>
      obtain ⟨job, hjob, -⟩ := he
      rw [Option.mem_def] at hjob
      simp only [swaps, handle, hjob, lockupFinished]
      cases lockup with
      | thrown | nothing => rfl
      | response => cases job.request <;> rfl
  | read id =>
      simp only [swaps, handle]
      split <;> rfl
  | chainTimer =>
      simp only [swaps, handle, chainTimer, updateChain]
      split_ifs <;> rfl
  | setAddress address =>
      simp only [swaps, handle, InvoiceController.setAddress]
      split_ifs <;> rfl
  | setDescription description =>
      simp only [swaps, handle, InvoiceController.setDescription]
      split_ifs <;> rfl
  | request =>
      simp only [swaps, handle, InvoiceController.request]
      split_ifs <;> rfl
  | boltzSession | setAmount | setRefundAddress | setClaimAddress => rfl

theorem shownInvoice_kept {request : InvoiceRequest} (he : (swaps validAddress).enabled s e)
    (hnot : ¬ TouchesInvoice e) :
    ((swaps validAddress).next s e).shownInvoice = some request ↔
      MakesInvoice request s e ∨
        s.shownInvoice = some request ∧ ¬ s.EndsInvoice validAddress e := by
  have hends : ¬ s.EndsInvoice validAddress e := fun hends => hnot hends.touches
  have hmakes : ¬ MakesInvoice request s e := fun hmakes => hends (.inl ⟨request, hmakes⟩)
  rw [shownInvoice, invoice_swap_next he hnot, or_iff_right hmakes, and_iff_left hends,
    shownInvoice]

theorem shownInvoice_next {request : InvoiceRequest} (he : (swaps validAddress).enabled s e) :
    ((swaps validAddress).next s e).shownInvoice = some request ↔
      MakesInvoice request s e ∨
        s.shownInvoice = some request ∧ ¬ s.EndsInvoice validAddress e := by
  cases e with
  | invoiceTimer =>
      have hmakes : ¬ MakesInvoice request s .invoiceTimer := by rintro ⟨_, _, ⟨⟩, _⟩
      have hends : s.EndsInvoice validAddress .invoiceTimer ↔
          (s.invoice.isValid s.boltz_session && validAddress s.invoice.address) = false := by
        simp [EndsInvoice, BringsInvoice, MakesInvoice]
      rw [or_iff_right hmakes, hends]
      have hnext : (swaps validAddress).next s .invoiceTimer = s.invoiceTimer validAddress := rfl
      have hvalid : { s.invoice with timer := false }.isValid s.boltz_session =
          s.invoice.isValid s.boltz_session := rfl
      rw [hnext]
      simp only [invoiceTimer, updateInvoice, shownInvoice, hvalid]
      cases s.invoice.isValid s.boltz_session && validAddress s.invoice.address <;> simp
  | setSatoshi satoshi =>
      have hmakes : ¬ MakesInvoice request s (.setSatoshi satoshi) := by rintro ⟨_, _, ⟨⟩, _⟩
      have hends : s.EndsInvoice validAddress (.setSatoshi satoshi) ↔
          s.invoice.satoshi ≠ satoshi := by
        simp [EndsInvoice, BringsInvoice, MakesInvoice]
      rw [or_iff_right hmakes, hends]
      simp only [swaps, handle, setSatoshi, InvoiceController.setSatoshi, shownInvoice]
      split_ifs with hsame <;> simp [hsame]
  | invoiceFinished id response =>
      cases response with
      | false => exact shownInvoice_kept he not_false
      | true =>
          obtain ⟨job, hjob⟩ := Option.isSome_iff_exists.mp he
          have hnext : (swaps validAddress).next s (.invoiceFinished id true) =
              (s.invoiceFinished id job true).1 := by
            simp only [swaps, handle, hjob]
          have hends : s.EndsInvoice validAddress (.invoiceFinished id true) :=
            .inl ⟨job.request, id, job, rfl, hjob, rfl⟩
          rw [hnext, or_iff_left fun h => h.2 hends]
          simp [invoiceFinished, shownInvoice, MakesInvoice, hjob]
  | _ => exact shownInvoice_kept he not_false

/-! ## Answers -/

/-- The swap that was made is the one shown. -/
theorem chainCurrent_response (id : ℕ) {job : ChainSwapJob} {request : LockupRequest}
    (hrequest : job.request = some request) :
    (s.lockupFinished id job .response).1.ChainCurrent ↔ s.chain.inputs = some request := by
  simp only [lockupFinished, hrequest, ChainCurrent, Option.some.injEq, forall_eq']
  rfl

theorem invoiceCurrent_response (id : ℕ) (job : InvoiceJob) :
    (s.invoiceFinished id job true).1.InvoiceCurrent ↔ s.invoice.inputs = some job.request := by
  simp only [invoiceFinished, if_true, InvoiceCurrent, Option.some.injEq, forall_eq']
  rfl

/-- A step that leaves a current swap and has one made leaves that one. -/
theorem inputs_of_makesLockup {request : LockupRequest} (h : LeavesCurrent validAddress s e)
    (hmakes : MakesLockup request s e) : s.chain.inputs = some request := by
  obtain ⟨id, job, rfl, hjob, hrequest⟩ := hmakes
  rw [← chainCurrent_response id hrequest]
  simpa only [LeavesCurrent, swaps, handle, hjob] using h

theorem inputs_of_makesInvoice {request : InvoiceRequest} (h : LeavesCurrent validAddress s e)
    (hmakes : MakesInvoice request s e) : s.invoice.inputs = some request := by
  obtain ⟨id, job, rfl, hjob, rfl⟩ := hmakes
  rw [← invoiceCurrent_response id job]
  simpa only [LeavesCurrent, swaps, handle, hjob] using h

theorem lockupFinished_iff {id : ℕ} {lockup : Lockup}
    (he : (swaps validAddress).enabled s (.lockupFinished id lockup)) :
    LeavesCurrent validAddress s (.lockupFinished id lockup) ↔
      match lockup with
      | .response => ∀ job, s.lockups.find id = some job → s.chain.inputs = job.request
      | _ => s.ChainCurrent := by
  obtain ⟨job, hjob, hend⟩ := he
  rw [Option.mem_def] at hjob
  have hnext : (swaps validAddress).next s (.lockupFinished id lockup) =
      (s.lockupFinished id job lockup).1 := by
    simp only [swaps, handle, hjob]
  rw [LeavesCurrent, hnext]
  cases lockup with
  | thrown | nothing => rfl
  | response =>
      obtain ⟨request, hrequest⟩ := Option.isSome_iff_exists.mp hend
      rw [chainCurrent_response id hrequest]
      simp only [hjob, Option.some.injEq, forall_eq', hrequest]

theorem invoiceFinished_iff {id : ℕ} {response : Bool}
    (he : (swaps validAddress).enabled s (.invoiceFinished id response)) :
    LeavesCurrent validAddress s (.invoiceFinished id response) ↔
      match response with
      | true => ∀ job, s.invoices.find id = some job → s.invoice.inputs = some job.request
      | false => s.InvoiceCurrent := by
  obtain ⟨job, hjob⟩ := Option.isSome_iff_exists.mp he
  have hnext : (swaps validAddress).next s (.invoiceFinished id response) =
      (s.invoiceFinished id job response).1 := by
    simp only [swaps, handle, hjob]
  rw [LeavesCurrent, hnext]
  cases response with
  | false => rfl
  | true =>
      rw [invoiceCurrent_response]
      simp only [hjob, Option.some.injEq, forall_eq']

section Runs
variable {fs : List SwapsEvent} (hes : (swaps validAddress).Valid {} fs)
  (hfs : (swaps validAddress).Along (LeavesCurrent validAddress) {} fs)
include hes hfs

/-- The swap shown is current unless it came in while something else was set. -/
theorem chainCurrent_run :
    ((swaps validAddress).run {} fs).ChainCurrent ↔
      ¬ (swaps validAddress).Since (fun s e => s.BringsLockup e ∧
        s.chain.inputs ≠ ((swaps validAddress).run {} fs).chain.inputs) EndsLockup {} fs := by
  rw [chainCurrent_iff]
  apply Reactive.current_iff_not_since shownLockup (fun s => s.chain.inputs)
    (fun _ _ _ => shownLockup_next) rfl hes
  exact hfs.imp fun _ _ h _ hmakes => inputs_of_makesLockup h hmakes

theorem invoiceCurrent_run :
    ((swaps validAddress).run {} fs).InvoiceCurrent ↔
      ¬ (swaps validAddress).Since (fun s e => s.BringsInvoice e ∧
        s.invoice.inputs ≠ ((swaps validAddress).run {} fs).invoice.inputs)
          (fun s e => s.EndsInvoice validAddress e) {} fs := by
  rw [invoiceCurrent_iff]
  apply Reactive.current_iff_not_since shownInvoice (fun s => s.invoice.inputs)
    (fun _ _ _ => shownInvoice_next) rfl hes
  exact hfs.imp fun _ _ h _ hmakes => inputs_of_makesInvoice h hmakes

end Runs
end Swaps

/-- **No outdated swap.** In a run every thread that is done leaves a current swap or none exactly
if it finds the inputs as it has taken them, or, without an answer, as they were when the swap
that is shown came in. -/
theorem leavesCurrent_iff (validAddress : String → Bool) {es : List SwapsEvent}
    (hes : (swaps validAddress).Valid {} es) :
    (swaps validAddress).Along (LeavesCurrent validAddress) {} es ↔
      ∀ fs e gs, es = fs ++ e :: gs → FindsCurrent validAddress fs e := by
  apply Reactive.along_iff_forall
  rintro fs e gs rfl hfs
  have hvalid := ((swaps validAddress).along_append _ {} fs (e :: gs)).mp hes
  cases e with
  | lockupFinished id lockup =>
      rw [Swaps.lockupFinished_iff hvalid.2.1]
      cases lockup with
      | response => exact Iff.rfl
      | thrown | nothing => exact Swaps.chainCurrent_run hvalid.1 hfs
  | invoiceFinished id response =>
      rw [Swaps.invoiceFinished_iff hvalid.2.1]
      cases response with
      | true => exact Iff.rfl
      | false => exact Swaps.invoiceCurrent_run hvalid.1 hfs
  | _ => exact Iff.rfl

/-- The amounts are changed while the swap and the invoice are being made. -/
def editedMeanwhile : List SwapsEvent :=
  [.boltzSession, .setAmount "1000",
    .setRefundAddress (some { id := 0, address := "bc1", isLiquid := false }),
    .setClaimAddress (some { id := 1, address := "lq1", isLiquid := true }),
    .chainTimer, .read 0, .read 0, .read 0, .read 0, .setAmount "2000", .lockupFinished 0 .response,
    .setAddress "lq1", .setSatoshi "1000", .invoiceTimer, .setSatoshi "2000", .invoiceFinished 0 true]

theorem leavesCurrent_iff_editedMeanwhile :
    (swaps fun _ => true).Along (LeavesCurrent fun _ => true) {} editedMeanwhile ↔
      ∀ fs e gs, editedMeanwhile = fs ++ e :: gs → FindsCurrent (fun _ => true) fs e :=
  leavesCurrent_iff (fun _ => true) (by decide)

theorem not_leavesCurrent_editedMeanwhile :
    (swaps fun _ => true).Valid {} editedMeanwhile ∧
      ¬ (swaps fun _ => true).Along (LeavesCurrent fun _ => true) {} editedMeanwhile := by
  refine ⟨by decide, ?_⟩
  intro h
  have hshown : ((swaps fun _ => true).run {} (editedMeanwhile.take 11)).ChainCurrent :=
    h.at (editedMeanwhile.take 10)
  have hcurrent := hshown
    { request :=
        { amount := 1000, claim_liquid := true, refund_liquid := false,
          refund_address := "bc1", claim_address := "lq1" } } (by decide)
  exact absurd hcurrent (by decide)

end GreenWallet.Controllers
