import GreenWallet.Library.Jobs
import GreenWallet.Library.Reactive

/-!
# Swaps that pay an invoice

`SubmarineController` prepares a swap for the payment and the refund address that are
set. A change of either restarts a timer; when it fires, a swap of the wallet with
that invoice is taken up, or one is prepared on another thread. The preparation works
on the payment it was started with, and when it is done the swap made of it is filed
under the payment that is set by then.
-/
namespace GreenWallet.Controllers
open GreenWallet.Library

/-- What the swap library prepares, for a payment and a refund address. -/
structure PreparePayResponse where
  payment : String
  refund_address : String
deriving DecidableEq

/-- A `SubmarineSwap` is made of a response and filed under an invoice; or, where the
payment has an address to pay instead, of the address. -/
inductive SubmarineSwap where
  | prepared (invoice : String) (prepare_pay_response : PreparePayResponse)
  | address (address : String) (amount : ℕ) (payment : String)
deriving DecidableEq

namespace SubmarineSwap

def invoice : SubmarineSwap → String
  | .prepared invoice _ => invoice
  | .address _ _ _ => ""

/-- The payment the swap was prepared for. -/
def preparedFor : SubmarineSwap → String
  | .prepared _ response => response.payment
  | .address _ _ payment => payment

end SubmarineSwap

/-- How a preparation ends. -/
inductive Preparation where
  | prepared
  | magicRoutingHint (address : String) (amount : ℕ)
  | error (msg : String)

structure SubmarineController where
  timer : Bool := false
  payment : String := ""
  refund_address : String := ""
  busy : Bool := false
  error : Option String := none
  /-- The place of the swap in the wallet's list. -/
  swap : Option ℕ := none

/-- A call of `prepare_pay`. -/
structure PreparePay where
  payment : String
  refund_address : String

/-- The controller, the swaps of the wallet, and the preparations in flight. -/
structure Payments where
  controller : SubmarineController := {}
  boltz_session : Bool := false
  swaps : List SubmarineSwap := []
  jobs : Jobs PreparePay := {}

inductive PaymentEvent where
  | setPayment (payment : String)
  | setRefundAddress (refund_address : String)
  | timer
  | finished (job : ℕ) (result : Preparation)
  /-- The wallet connects to the swap service. -/
  | boltzSession
  /-- A swap of an earlier session is restored. -/
  | restored (response : PreparePayResponse)

/-- `QString::contains`. -/
def containsText (text needle : String) : Bool :=
  text.toList.tails.any fun tail => needle.toList.isPrefixOf tail

namespace SubmarineController

def invalidate (d : SubmarineController) : SubmarineController :=
  { d with timer := true, busy := true }

def setPayment (payment : String) (d : SubmarineController) : SubmarineController :=
  if d.payment = payment then d else { d with payment := payment }.invalidate

def setRefundAddress (refund_address : String) (d : SubmarineController) : SubmarineController :=
  if d.refund_address = refund_address then d
  else { d with refund_address := refund_address }.invalidate

/-- The text shown for an error of the swap service. -/
def errorText (error : String) : String :=
  if containsText error "a swap with this invoice exists already" then
    "id_there_is_already_a_swap_in"
  else if containsText error "could not find route to pay invoice" then
    "Could not find route to pay invoice"
  else error

end SubmarineController

namespace Payments

/-- The three checks at the head of `update`. -/
def ready (s : Payments) : Bool :=
  s.boltz_session && !s.controller.payment.isEmpty && !s.controller.refund_address.isEmpty

def update (s : Payments) : Payments :=
  if !s.ready then s
  else
    match s.swaps.findIdx? fun swap => swap.invoice == s.controller.payment with
    | some swap =>
        { s with controller := { s.controller with busy := false, swap := some swap, error := none } }
    | none =>
        { s with
          jobs := s.jobs.launch
            { payment := s.controller.payment
              refund_address := s.controller.refund_address } }

def timerEvent (s : Payments) : Payments :=
  { s with controller := { s.controller with timer := false } }.update

/-- `addSwap` and `setSwap`. -/
def expose (swap : SubmarineSwap) (s : Payments) : Payments :=
  { s with
    swaps := s.swaps ++ [swap]
    controller := { s.controller with swap := some s.swaps.length, error := none } }

/-- The preparation is done. Its response is for the payment it was started with; the
payment read for the swap is the one that is set now. -/
def finish (job : ℕ) (started : PreparePay) (result : Preparation) (s : Payments) : Payments :=
  let s := { s with
    jobs := s.jobs.finish job
    controller := { s.controller with busy := false } }
  match result with
  | .prepared =>
      s.expose (.prepared s.controller.payment
        { payment := started.payment, refund_address := started.refund_address })
  | .magicRoutingHint address amount => s.expose (.address address amount started.payment)
  | .error msg =>
      { s with
        controller :=
          { s.controller with swap := none, error := some (SubmarineController.errorText msg) } }

def next (s : Payments) : PaymentEvent → Payments
  | .setPayment payment => { s with controller := s.controller.setPayment payment }
  | .setRefundAddress refund => { s with controller := s.controller.setRefundAddress refund }
  | .timer => s.timerEvent
  | .finished job result =>
      match s.jobs.find job with
      | none => s
      | some started => s.finish job started result
  | .boltzSession => { s with boltz_session := true }
  | .restored response => { s with swaps := s.swaps ++ [.prepared response.payment response] }

/-- No preparation is outstanding and no update is due. -/
def Settled (s : Payments) : Prop := s.jobs.idle = true ∧ s.controller.timer = false

instance (s : Payments) : Decidable s.Settled := inferInstanceAs (Decidable (_ ∧ _))

/-- The swap the controller shows. -/
def exposed (s : Payments) : Option SubmarineSwap :=
  s.controller.swap.bind fun swap => s.swaps[swap]?

end Payments

def payments : Reactive Payments PaymentEvent Empty where
  enabled := fun s e =>
    match e with
    | .timer => s.controller.timer = true
    | .finished job _ => (s.jobs.find job).isSome = true
    | _ => True
  next := Payments.next
  emits := fun _ _ => []

instance (s : Payments) (e : PaymentEvent) : Decidable (payments.enabled s e) := by
  cases e <;> simp only [payments] <;> infer_instance

/-- Every swap made of a response is filed under the payment the response is for. -/
def FiledUnderItsPayment (s : Payments) : Prop :=
  ∀ invoice response, .prepared invoice response ∈ s.swaps → invoice = response.payment

/-- The swap that is shown when nothing is outstanding is for the payment that is set. -/
def ShowsCurrentSwap (s : Payments) : Prop :=
  s.Settled → ∀ swap, s.exposed = some swap → swap.preparedFor = s.controller.payment

def SwapMatchesPayment (s : Payments) : Prop := FiledUnderItsPayment s ∧ ShowsCurrentSwap s

/-- A preparation that succeeds was started with the payment that is set; one that ends
in an address to pay may be for another payment only while something is outstanding;
and an update that cannot prepare a swap, with none in preparation, finds no swap
shown for another payment. -/
def KeepsPayment (s : Payments) : PaymentEvent → Prop
  | .finished job result =>
      ∀ started, s.jobs.find job = some started →
        match result with
        | .prepared => started.payment = s.controller.payment
        | .magicRoutingHint _ _ =>
            (s.jobs.finish job).idle = true → s.controller.timer = false →
              started.payment = s.controller.payment
        | .error _ => True
  | .timer =>
      s.ready = false → s.jobs.idle = true →
        ∀ swap, s.exposed = some swap → swap.preparedFor = s.controller.payment
  | _ => True

namespace Payments

/-- The controller shows a swap of the list. -/
def Listed (s : Payments) : Prop := ∀ swap, s.controller.swap = some swap → swap < s.swaps.length

theorem exposed_append {s : Payments} (hs : s.Listed) (swaps : List SubmarineSwap) :
    { s with swaps := s.swaps ++ swaps }.exposed = s.exposed := by
  unfold exposed
  cases hswap : s.controller.swap with
  | none => rfl
  | some swap => simp [List.getElem?_append_left (hs swap hswap)]

@[simp] theorem exposed_expose (s : Payments) (swap : SubmarineSwap) :
    (s.expose swap).exposed = some swap := by
  simp [exposed, expose]

theorem Listed.expose {s : Payments} (swap : SubmarineSwap) : (s.expose swap).Listed := by
  intro place hplace
  cases hplace
  simp [Payments.expose]

/-- What an update does: nothing, or it takes up a swap with the invoice, or prepares one. -/
theorem timerEvent_cases (s : Payments) :
    (s.ready = false ∧
        s.timerEvent = { s with controller := { s.controller with timer := false } }) ∨
      (s.ready = true ∧ ∃ (place : ℕ) (swap : SubmarineSwap), s.swaps[place]? = some swap ∧
        swap.invoice = s.controller.payment ∧
        s.timerEvent = { s with
          controller :=
            { s.controller with timer := false, busy := false, swap := some place, error := none } }) ∨
      (s.ready = true ∧ ∃ job, s.timerEvent = { s with
        controller := { s.controller with timer := false }
        jobs := s.jobs.launch job }) := by
  have hready : { s with controller := { s.controller with timer := false } }.ready = s.ready := rfl
  simp only [timerEvent, update, hready]
  cases h : s.ready with
  | false => exact .inl ⟨rfl, rfl⟩
  | true =>
      right
      simp only [Bool.not_true, Bool.false_eq_true, if_false]
      cases hplace : s.swaps.findIdx? fun swap => swap.invoice == s.controller.payment with
      | none => exact .inr ⟨trivial, _, rfl⟩
      | some place =>
          left
          obtain ⟨hlt, hinvoice, -⟩ := List.findIdx?_eq_some_iff_getElem.mp hplace
          exact ⟨trivial, place, s.swaps[place], List.getElem?_eq_getElem hlt,
            beq_iff_eq.mp hinvoice, rfl⟩

theorem Listed.next {s : Payments} (hs : s.Listed) (e : PaymentEvent) : (s.next e).Listed := by
  cases e with
  | setPayment payment =>
      simp only [Payments.next, SubmarineController.setPayment]
      split_ifs <;> exact hs
  | setRefundAddress refund =>
      simp only [Payments.next, SubmarineController.setRefundAddress]
      split_ifs <;> exact hs
  | timer =>
      change s.timerEvent.Listed
      obtain ⟨-, h⟩ | ⟨-, place, swap, hplace, -, h⟩ | ⟨-, job, h⟩ := s.timerEvent_cases
      · rw [h]
        exact hs
      · rw [h]
        intro other hother
        cases hother
        exact (List.getElem?_eq_some_iff.mp hplace).1
      · rw [h]
        exact hs
  | finished job result =>
      simp only [Payments.next]
      split
      · exact hs
      · cases result with
        | prepared | magicRoutingHint address amount => exact Listed.expose _
        | error msg =>
            intro place hplace
            cases hplace
  | boltzSession => exact hs
  | restored response =>
      intro place hplace
      have := hs place hplace
      simp only [Payments.next, List.length_append, List.length_singleton]
      omega

theorem filed_append {s : Payments} (hs : FiledUnderItsPayment s) {invoice : String}
    {response : PreparePayResponse} (h : invoice = response.payment) :
    FiledUnderItsPayment { s with swaps := s.swaps ++ [.prepared invoice response] } := by
  intro other made hmem
  rcases List.mem_append.mp hmem with hmem | hmem
  · exact hs other made hmem
  · cases List.mem_singleton.mp hmem
    exact h

/-- Taking up the swap with the invoice takes up one for the payment. -/
theorem preparedFor_of_invoice {s : Payments} (hs : FiledUnderItsPayment s)
    (hready : s.ready = true) {swap : SubmarineSwap} (hmem : swap ∈ s.swaps)
    (hinvoice : swap.invoice = s.controller.payment) :
    swap.preparedFor = s.controller.payment := by
  cases swap with
  | prepared invoice response =>
      rw [← hinvoice]
      exact (hs invoice response hmem).symm
  | address address amount payment =>
      rw [ready, ← hinvoice] at hready
      simp [SubmarineSwap.invoice] at hready

/-- A change of the payment or of the refund address leaves what matches matching. -/
theorem matches_edit {s : Payments} (hs : SwapMatchesPayment s) {d : SubmarineController}
    (hd : d = s.controller ∨ d.timer = true) :
    SwapMatchesPayment { s with controller := d } := by
  refine ⟨hs.1, ?_⟩
  intro ⟨hidle, htimer⟩
  rcases hd with rfl | hd
  · exact hs.2 ⟨hidle, htimer⟩
  · rw [hd] at htimer
    cases htimer

theorem matches_timer {s : Payments} (hs : SwapMatchesPayment s) :
    SwapMatchesPayment s.timerEvent ↔ KeepsPayment s .timer := by
  obtain ⟨hready, h⟩ | ⟨hready, place, swap, hplace, hinvoice, h⟩ | ⟨hready, job, h⟩ :=
    s.timerEvent_cases
  · rw [h]
    constructor
    · intro hmatches _ hidle swap hswap
      exact hmatches.2 ⟨hidle, rfl⟩ swap hswap
    · intro hkeeps
      exact ⟨hs.1, fun hsettled => hkeeps hready hsettled.1⟩
  · refine iff_of_true ?_ (fun hnot => absurd hnot (by rw [hready]; decide))
    rw [h]
    refine ⟨hs.1, fun _ other hother => ?_⟩
    simp only [exposed, Option.bind_some, hplace, Option.some.injEq] at hother
    rw [← hother]
    exact preparedFor_of_invoice hs.1 hready (List.mem_of_getElem? hplace) hinvoice
  · refine iff_of_true ?_ (fun hnot => absurd hnot (by rw [hready]; decide))
    rw [h]
    refine ⟨hs.1, fun hsettled => ?_⟩
    have hidle := hsettled.1
    rw [Jobs.idle_launch] at hidle
    cases hidle

theorem matches_finish {s : Payments} (hs : SwapMatchesPayment s) {job : ℕ} {started : PreparePay}
    (hjob : s.jobs.find job = some started) (result : Preparation) :
    SwapMatchesPayment (s.finish job started result) ↔ KeepsPayment s (.finished job result) := by
  simp only [KeepsPayment, hjob, Option.some.injEq, forall_eq']
  cases result with
  | prepared =>
      simp only [finish]
      constructor
      · intro ⟨hfiled, _⟩
        exact (hfiled s.controller.payment _ (List.mem_append_right _ List.mem_cons_self)).symm
      · intro heq
        refine ⟨filed_append hs.1 heq.symm, fun _ swap hswap => ?_⟩
        rw [exposed_expose, Option.some.injEq] at hswap
        rw [← hswap]
        exact heq
  | magicRoutingHint address amount =>
      simp only [finish]
      constructor
      · intro hmatches hidle htimer
        exact hmatches.2 ⟨hidle, htimer⟩ _ (exposed_expose _ _)
      · intro hkeeps
        refine ⟨?_, fun hsettled swap hswap => ?_⟩
        · intro invoice response hmem
          rcases List.mem_append.mp hmem with hmem | hmem
          · exact hs.1 invoice response hmem
          · cases List.mem_singleton.mp hmem
        · rw [exposed_expose, Option.some.injEq] at hswap
          rw [← hswap]
          exact hkeeps hsettled.1 hsettled.2
  | error msg =>
      refine iff_of_true ?_ trivial
      refine ⟨hs.1, fun _ swap hswap => ?_⟩
      cases hswap

theorem matches_next {s : Payments} (hlisted : s.Listed) {e : PaymentEvent}
    (he : payments.enabled s e) (hs : SwapMatchesPayment s) :
    SwapMatchesPayment (s.next e) ↔ KeepsPayment s e := by
  cases e with
  | setPayment payment =>
      refine iff_of_true (matches_edit hs ?_) trivial
      unfold SubmarineController.setPayment
      split_ifs
      · exact .inl rfl
      · exact .inr rfl
  | setRefundAddress refund =>
      refine iff_of_true (matches_edit hs ?_) trivial
      unfold SubmarineController.setRefundAddress
      split_ifs
      · exact .inl rfl
      · exact .inr rfl
  | timer => exact matches_timer hs
  | finished job result =>
      obtain ⟨started, hjob⟩ := Option.isSome_iff_exists.mp he
      have hnext : s.next (.finished job result) = s.finish job started result := by
        simp only [Payments.next, hjob]
      rw [hnext]
      exact matches_finish hs hjob result
  | boltzSession => exact iff_of_true ⟨hs.1, hs.2⟩ trivial
  | restored response =>
      refine iff_of_true ⟨filed_append hs.1 rfl, ?_⟩ trivial
      intro hsettled swap hswap
      change { s with swaps := s.swaps ++ [_] }.exposed = some swap at hswap
      rw [exposed_append hlisted] at hswap
      exact hs.2 hsettled swap hswap

end Payments

/-- **Swap of the payment.** In every state of a run the swaps made of a response are
filed under its payment, and the swap shown when nothing is outstanding is for the
payment that is set, exactly if every step of the run keeps the payment. -/
theorem swapMatchesPayment_iff {es : List PaymentEvent} (hes : payments.Valid {} es) :
    payments.Always SwapMatchesPayment {} es ↔ payments.Along KeepsPayment {} es := by
  apply Reactive.always_iff_along (J := Payments.Listed) (V := payments.enabled)
  · intro s e hs _
    exact hs.next e
  · intro s e hs he hmatches
    exact Payments.matches_next hs he hmatches
  · intro swap hswap
    cases hswap
  · constructor
    · intro invoice response hmem
      cases hmem
    · intro _ swap hswap
      cases hswap
  · exact hes

/-- The payment is replaced while its swap is being prepared. -/
def replacedPayment : List PaymentEvent :=
  [.boltzSession, .setRefundAddress "address", .setPayment "first", .timer, .setPayment "second",
    .finished 0 .prepared]

theorem swapMatchesPayment_iff_replacedPayment :
    payments.Always SwapMatchesPayment {} replacedPayment ↔
      payments.Along KeepsPayment {} replacedPayment :=
  swapMatchesPayment_iff (by decide)

theorem not_swapMatchesPayment_replacedPayment :
    payments.Valid {} replacedPayment ∧
      ¬ payments.Always SwapMatchesPayment {} replacedPayment := by
  refine ⟨by decide, ?_⟩
  intro h
  have hswaps : (payments.run {} replacedPayment).swaps =
      [.prepared "second" { payment := "first", refund_address := "address" }] := by decide
  have hfiled := h.last.1 "second" { payment := "first", refund_address := "address" }
    (by rw [hswaps]; exact List.mem_cons_self)
  exact absurd hfiled (by decide)

end GreenWallet.Controllers
