import GreenWallet.Controllers.Swaps

/-!
# Quotes for a swap

`SwapQuoteController` asks the swap library for a quote whenever what it is asked for changes,
each time on a thread of its own. The thread takes the amount along and reads the direction and
the assets from the controller when it comes to them. Whatever quote comes back last is shown.
-/
namespace GreenWallet.Controllers
open GreenWallet.Library

/-- `lwk::SwapAsset`. -/
inductive SwapAsset where
  | kOnchain
  | kLiquid
  | kLightning
deriving DecidableEq

/-- `lwk::Quote`. -/
structure Quote where
  send_amount : ℕ
  receive_amount : ℕ
  network_fee : ℕ
  boltz_fee : ℕ
  min : ℕ
  max : ℕ
deriving DecidableEq

def parseQuote (quote : Quote) : List (String × String) :=
  [("send_amount", toString quote.send_amount),
    ("receive_amount", toString quote.receive_amount),
    ("network_fee", toString quote.network_fee),
    ("boltz_fee", toString quote.boltz_fee),
    ("min", toString quote.min),
    ("max", toString quote.max)]

/-- What a quote is for: with `send_amount` the amount is the one that is sent. -/
structure QuoteRequest where
  satoshi : ℕ
  send_amount : Bool
  send_asset : SwapAsset
  receive_asset : SwapAsset
deriving DecidableEq

/-- A thread that asks for a quote, as far as it has got, and its result when it is done. -/
structure QuoteJob where
  satoshi : ℕ
  send_amount : Option Bool := none
  send_asset : Option SwapAsset := none
  receive_asset : Option SwapAsset := none
  result : Option (List (String × String)) := none
deriving DecidableEq

structure SwapQuoteController where
  context : Bool := true
  boltz_session : Bool := true
  quote : List (String × String) := []
  send_asset : SwapAsset := .kOnchain
  receive_asset : SwapAsset := .kLiquid
  send_amount : Bool := true
  amount : String := ""

/-- What a call of `send` or `receive` says. -/
structure QuoteCall where
  send_amount : Bool := true
  amount : String := ""
deriving DecidableEq

/-- The controller with the threads it has started, in that order, and the last call of `send`
or `receive`; before the first one, what the controller starts with. -/
structure SwapQuotes where
  d : SwapQuoteController := {}
  jobs : List QuoteJob := []
  called : QuoteCall := {}

inductive QuoteEvent where
  | send (amount : String)
  | receive (amount : String)
  | swapNetworks
  | setLightning (lightning : Bool)
  /-- A thread reads on. -/
  | read (job : ℕ)
  /-- The library has built a quote, or the thread has caught an error. -/
  | finished (job : ℕ) (quote : Option Quote)

namespace QuoteJob

/-- The next thing the thread reads. -/
def read (d : SwapQuoteController) (job : QuoteJob) : Option QuoteJob :=
  match job.send_amount, job.send_asset, job.receive_asset with
  | none, _, _ => some { job with send_amount := some d.send_amount }
  | some _, none, _ => some { job with send_asset := some d.send_asset }
  | some _, some _, none => some { job with receive_asset := some d.receive_asset }
  | some _, some _, some _ => none

/-- How the thread can end where it is: the direction is read before the library is called. -/
def CanEnd (job : QuoteJob) : Option Quote → Prop
  | none => job.send_amount.isSome = true
  | some _ => job.send_amount.isSome = true ∧ job.send_asset.isSome = true ∧
      job.receive_asset.isSome = true

instance (job : QuoteJob) (quote : Option Quote) : Decidable (job.CanEnd quote) := by
  cases quote <;> unfold CanEnd <;> infer_instance

/-- What the thread asks for: what it has read, and for the rest what it finds now. -/
def request (d : SwapQuoteController) (job : QuoteJob) : QuoteRequest where
  satoshi := job.satoshi
  send_amount := job.send_amount.getD d.send_amount
  send_asset := job.send_asset.getD d.send_asset
  receive_asset := job.receive_asset.getD d.receive_asset

end QuoteJob

/-- The result of the thread: an error is caught and there is no quote. -/
def quoteResult : Option Quote → List (String × String)
  | none => []
  | some quote => parseQuote quote

namespace SwapQuotes

def update (s : SwapQuotes) : SwapQuotes :=
  if !s.d.context then s
  else if !s.d.boltz_session then s
  else
    match toULongLong s.d.amount with
    | none => { s with d := { s.d with quote := [] } }
    | some satoshi => { s with jobs := s.jobs ++ [{ satoshi := satoshi }] }

/-- `send` and `receive`: nothing is done for the amount that is there already. -/
def enter (send_amount : Bool) (amount : String) (s : SwapQuotes) : SwapQuotes :=
  if !s.d.context then s
  else if s.d.amount = amount then s
  else { s with d := { s.d with send_amount := send_amount, amount := amount } }.update

def send (amount : String) (s : SwapQuotes) : SwapQuotes := s.enter true amount

def receive (amount : String) (s : SwapQuotes) : SwapQuotes := s.enter false amount

def swapNetworks (s : SwapQuotes) : SwapQuotes :=
  if !s.d.context then s
  else
    { s with
      d := { s.d with send_asset := s.d.receive_asset, receive_asset := s.d.send_asset } }.update

/-- Whatever the argument is. -/
def setLightning (_lightning : Bool) (s : SwapQuotes) : SwapQuotes :=
  if s.d.send_asset = .kOnchain then { s with d := { s.d with send_asset := .kLightning } }.update
  else if s.d.receive_asset = .kOnchain then
    { s with d := { s.d with receive_asset := .kLightning } }.update
  else s.update

def read (id : ℕ) (s : SwapQuotes) : SwapQuotes :=
  { s with jobs := s.jobs.modify id fun job => (job.read s.d).getD job }

def finished (id : ℕ) (quote : Option Quote) (s : SwapQuotes) : SwapQuotes where
  d := { s.d with quote := quoteResult quote }
  jobs := s.jobs.modify id fun job => { job with result := some (quoteResult quote) }
  called := s.called

def handle (s : SwapQuotes) : QuoteEvent → SwapQuotes
  | .send amount => { s.send amount with called := { send_amount := true, amount := amount } }
  | .receive amount => { s.receive amount with called := { send_amount := false, amount := amount } }
  | .swapNetworks => s.swapNetworks
  | .setLightning lightning => s.setLightning lightning
  | .read id => s.read id
  | .finished id quote => s.finished id quote

/-- All threads are done. -/
def Idle (s : SwapQuotes) : Prop := ∀ job ∈ s.jobs, job.result.isSome = true

/-- What the last thread that was started has come back with. -/
def lastResult (s : SwapQuotes) : Option (List (String × String)) :=
  s.jobs.getLast?.bind QuoteJob.result

/-- What is to be shown in the end: nothing for an amount that is no number, else the answer
to the last request. -/
def expected (s : SwapQuotes) : Option (List (String × String)) :=
  match toULongLong s.called.amount with
  | none => some []
  | some _ => s.lastResult

/-- Where there is an amount, the quote requested last is for it, in this direction and for the
assets as they are. -/
def AsksFor (s : SwapQuotes) (send_amount : Bool) : Prop :=
  ∀ satoshi, toULongLong s.called.amount = some satoshi →
    ∃ job ∈ s.jobs.getLast?, job.request s.d =
      { satoshi := satoshi, send_amount := send_amount,
        send_asset := s.d.send_asset, receive_asset := s.d.receive_asset }

/-- The quote requested last is for the last call, and once all threads are done its answer is
shown. -/
structure AnswersLast (s : SwapQuotes) : Prop where
  requested : s.AsksFor s.called.send_amount
  shown : s.Idle → s.expected = some s.d.quote

end SwapQuotes

def swapQuotes : Reactive SwapQuotes QuoteEvent Empty where
  enabled := fun s e =>
    match e with
    | .read id => ∃ job ∈ s.jobs[id]?, job.result = none ∧ (job.read s.d).isSome = true
    | .finished id quote => ∃ job ∈ s.jobs[id]?, job.result = none ∧ job.CanEnd quote
    | _ => True
  next := SwapQuotes.handle
  emits := fun _ _ => []

instance (s : SwapQuotes) (e : QuoteEvent) : Decidable (swapQuotes.enabled s e) := by
  cases e <;> simp only [swapQuotes] <;> infer_instance

/-- A call for the amount that is there already, which is a number, does not turn the direction.
A thread that is done after all the others is the last that was started, or comes back with
the same; with an amount that is no number it comes back with nothing. -/
def InOrder (s : SwapQuotes) : QuoteEvent → Prop
  | .send amount =>
      s.d.amount = amount → toULongLong amount = none ∨ s.d.send_amount = true
  | .receive amount =>
      s.d.amount = amount → toULongLong amount = none ∨ s.d.send_amount = false
  | .finished id quote =>
      (∀ other job, s.jobs[other]? = some job → other ≠ id → job.result.isSome = true) →
        if toULongLong s.d.amount = none then quote = none
        else id + 1 = s.jobs.length ∨ s.lastResult = some (quoteResult quote)
  | _ => True

namespace SwapQuotes
variable {s : SwapQuotes} {id : ℕ}

/-- What every step keeps: the last request is for what the controller holds. -/
structure Asking (s : SwapQuotes) : Prop where
  context : s.d.context = true
  boltz_session : s.d.boltz_session = true
  amount : s.called.amount = s.d.amount
  last : s.AsksFor s.d.send_amount

theorem asksFor_of_none {send_amount : Bool} (h : toULongLong s.called.amount = none) :
    s.AsksFor send_amount := by
  intro satoshi hsatoshi
  rw [h] at hsatoshi
  cases hsatoshi

/-! ### A new request -/

theorem update_called (s : SwapQuotes) (called : QuoteCall) :
    { s.update with called := called } = { s with called := called }.update := by
  unfold update
  split_ifs
  · rfl
  · rfl
  · cases toULongLong s.d.amount <;> rfl

theorem update_none (hcontext : s.d.context = true) (hsession : s.d.boltz_session = true)
    (hamount : toULongLong s.d.amount = none) :
    s.update = { s with d := { s.d with quote := [] } } := by
  simp only [update, hcontext, hsession, hamount, Bool.not_true, Bool.false_eq_true, if_false]

theorem update_some {satoshi : ℕ} (hcontext : s.d.context = true)
    (hsession : s.d.boltz_session = true) (hamount : toULongLong s.d.amount = some satoshi) :
    s.update = { s with jobs := s.jobs ++ [{ satoshi := satoshi }] } := by
  simp only [update, hcontext, hsession, hamount, Bool.not_true, Bool.false_eq_true, if_false]

theorem asking_update (hcontext : s.d.context = true) (hsession : s.d.boltz_session = true)
    (hamount : s.called.amount = s.d.amount) : s.update.Asking := by
  cases hnumber : toULongLong s.d.amount with
  | none =>
      rw [update_none hcontext hsession hnumber]
      exact ⟨hcontext, hsession, hamount, asksFor_of_none (hamount ▸ hnumber)⟩
  | some n =>
      rw [update_some hcontext hsession hnumber]
      refine ⟨hcontext, hsession, hamount, ?_⟩
      intro satoshi hsatoshi
      rw [hamount, hnumber] at hsatoshi
      cases hsatoshi
      exact ⟨{ satoshi := n }, List.getLast?_concat, rfl⟩

/-- The request is in the direction of the last call if the controller is. -/
theorem answersLast_update (hcontext : s.d.context = true) (hsession : s.d.boltz_session = true)
    (hamount : s.called.amount = s.d.amount)
    (hdirection : toULongLong s.d.amount = none ∨ s.called.send_amount = s.d.send_amount) :
    s.update.AnswersLast := by
  cases hnumber : toULongLong s.d.amount with
  | none =>
      rw [update_none hcontext hsession hnumber]
      constructor
      · exact asksFor_of_none (hamount ▸ hnumber)
      · intro _
        simp only [expected, hamount, hnumber]
  | some n =>
      have hsame := hdirection.resolve_left (by simp [hnumber])
      have hasking := asking_update hcontext hsession hamount
      rw [update_some hcontext hsession hnumber] at hasking ⊢
      constructor
      · rw [hsame]
        exact hasking.last
      · intro hidle
        have hnew := hidle { satoshi := n } (List.mem_append_right _ List.mem_cons_self)
        cases hnew

/-- Where the controller asks for what it holds, it asks in the direction that it holds. -/
theorem Asking.asksFor_iff (h : s.Asking) {send_amount : Bool} :
    s.AsksFor send_amount ↔
      toULongLong s.d.amount = none ∨ s.d.send_amount = send_amount := by
  unfold AsksFor
  rw [h.amount]
  constructor
  · intro hasks
    cases hnumber : toULongLong s.d.amount with
    | none => exact .inl rfl
    | some satoshi =>
        have hlast : toULongLong s.called.amount = some satoshi := by rw [h.amount, hnumber]
        obtain ⟨job, hjob, hrequest⟩ := h.last satoshi hlast
        obtain ⟨job', hjob', hrequest'⟩ := hasks satoshi hnumber
        have heq : job = job' := Option.some.inj (hjob.symm.trans hjob')
        rw [heq, hrequest'] at hrequest
        exact .inr (congrArg QuoteRequest.send_amount hrequest).symm
  · intro hor satoshi hsatoshi
    have hsame := hor.resolve_left (by simp [hsatoshi])
    rw [← hsame]
    exact h.last satoshi (by rw [h.amount, hsatoshi])

/-! ### The calls -/

theorem enter_same {send_amount : Bool} {amount : String} (h : s.d.amount = amount) :
    s.enter send_amount amount = s := by
  unfold enter
  split_ifs
  · rfl
  · rfl

theorem enter_new {send_amount : Bool} {amount : String} (hcontext : s.d.context = true)
    (h : s.d.amount ≠ amount) :
    s.enter send_amount amount =
      { s with d := { s.d with send_amount := send_amount, amount := amount } }.update := by
  simp only [enter, hcontext, if_neg h, Bool.not_true, Bool.false_eq_true, if_false]

theorem Asking.enter (h : s.Asking) (send_amount : Bool) (amount : String) :
    { s.enter send_amount amount with
      called := { send_amount := send_amount, amount := amount } }.Asking := by
  by_cases hamount : s.d.amount = amount
  · rw [enter_same hamount]
    refine ⟨h.context, h.boltz_session, hamount.symm, ?_⟩
    intro satoshi hsatoshi
    exact h.last satoshi (by rw [h.amount, hamount, hsatoshi])
  · rw [enter_new h.context hamount, update_called]
    exact asking_update h.context h.boltz_session rfl

/-- A call is answered unless it repeats an amount in the other direction. -/
theorem AnswersLast.enter_iff (h : s.Asking) (hs : s.AnswersLast) (send_amount : Bool)
    (amount : String) :
    { s.enter send_amount amount with
      called := { send_amount := send_amount, amount := amount } }.AnswersLast ↔
        (s.d.amount = amount → toULongLong amount = none ∨ s.d.send_amount = send_amount) := by
  have hasking := h.enter send_amount amount
  by_cases hamount : s.d.amount = amount
  · rw [enter_same hamount] at hasking ⊢
    constructor
    · intro hnext _
      rw [← hamount]
      exact hasking.asksFor_iff.mp hnext.requested
    · intro hdirection
      constructor
      · apply hasking.asksFor_iff.mpr
        rw [← hamount] at hdirection
        exact hdirection rfl
      · intro hidle
        have hshown := hs.shown hidle
        unfold expected at hshown ⊢
        rwa [h.amount, hamount] at hshown
  · rw [enter_new h.context hamount, update_called]
    apply iff_of_true
    · exact answersLast_update h.context h.boltz_session rfl (.inr rfl)
    · intro hequal
      exact absurd hequal hamount

/-- The same with other assets. -/
def withAssets (send_asset receive_asset : SwapAsset) (s : SwapQuotes) : SwapQuotes :=
  { s with d := { s.d with send_asset := send_asset, receive_asset := receive_asset } }

theorem Asking.withAssets (h : s.Asking) (send_asset receive_asset : SwapAsset) :
    (s.withAssets send_asset receive_asset).update.Asking :=
  asking_update h.context h.boltz_session h.amount

theorem AnswersLast.withAssets (h : s.Asking) (hs : s.AnswersLast)
    (send_asset receive_asset : SwapAsset) :
    (s.withAssets send_asset receive_asset).update.AnswersLast := by
  apply answersLast_update (s := s.withAssets send_asset receive_asset) h.context h.boltz_session
    h.amount
  cases h.asksFor_iff.mp hs.requested with
  | inl hnone => exact .inl hnone
  | inr hsame => exact .inr hsame.symm

theorem swapNetworks_eq (h : s.Asking) :
    s.swapNetworks = (s.withAssets s.d.receive_asset s.d.send_asset).update := by
  unfold swapNetworks
  split_ifs with hcontext
  · simp [h.context] at hcontext
  · rfl

theorem exists_setLightning_eq (lightning : Bool) (s : SwapQuotes) :
    ∃ send_asset receive_asset,
      s.setLightning lightning = (s.withAssets send_asset receive_asset).update := by
  unfold setLightning
  split_ifs
  · exact ⟨.kLightning, s.d.receive_asset, rfl⟩
  · exact ⟨s.d.send_asset, .kLightning, rfl⟩
  · exact ⟨s.d.send_asset, s.d.receive_asset, rfl⟩

/-! ### The threads -/

/-- What a thread asks for does not change as it reads. -/
theorem request_read {d : SwapQuoteController} {job job' : QuoteJob} (h : job.read d = some job') :
    job'.request d = job.request d ∧ job'.result = job.result := by
  cases job with
  | mk satoshi send_amount send_asset receive_asset result =>
      cases send_amount with
      | none =>
          cases h
          exact ⟨rfl, rfl⟩
      | some direction =>
          cases send_asset with
          | none =>
              cases h
              exact ⟨rfl, rfl⟩
          | some asset =>
              cases receive_asset with
              | none =>
                  cases h
                  exact ⟨rfl, rfl⟩
              | some other => cases h

theorem request_getD_read (d : SwapQuoteController) (job : QuoteJob) :
    ((job.read d).getD job).request d = job.request d := by
  cases hread : job.read d with
  | none => rfl
  | some job' => exact (request_read hread).1

theorem getLast?_modify {α : Type*} (f : α → α) (l : List α) (i : ℕ) :
    (l.modify i f).getLast? = if i + 1 = l.length then l.getLast?.map f else l.getLast? := by
  rw [List.getLast?_eq_getElem?, List.getLast?_eq_getElem?, List.length_modify,
    List.getElem?_modify]
  cases l with
  | nil => rfl
  | cons a l =>
      by_cases hlast : i = l.length
      · simp [hlast]
      · simp [hlast]

/-- Where it makes no difference to the request, a thread of the list may change. -/
theorem asksFor_modify {f : QuoteJob → QuoteJob} {quote : List (String × String)}
    (h : ∀ job, (f job).request s.d = job.request s.d) {send_amount : Bool} :
    (⟨{ s.d with quote := quote }, s.jobs.modify id f, s.called⟩ : SwapQuotes).AsksFor send_amount ↔
      s.AsksFor send_amount := by
  have hlast : ∀ request, (∃ job ∈ (s.jobs.modify id f).getLast?, job.request s.d = request) ↔
      ∃ job ∈ s.jobs.getLast?, job.request s.d = request := by
    intro request
    rw [getLast?_modify]
    split_ifs
    · cases s.jobs.getLast? with
      | none => simp
      | some job => simp [h]
    · exact Iff.rfl
  constructor
  · intro hasks satoshi hsatoshi
    exact (hlast _).mp (hasks satoshi hsatoshi)
  · intro hasks satoshi hsatoshi
    exact (hlast _).mpr (hasks satoshi hsatoshi)

theorem asksFor_read {send_amount : Bool} :
    (s.read id).AsksFor send_amount ↔ s.AsksFor send_amount :=
  asksFor_modify (request_getD_read s.d)

theorem asksFor_finished {quote : Option Quote} {send_amount : Bool} :
    (s.finished id quote).AsksFor send_amount ↔ s.AsksFor send_amount :=
  asksFor_modify (f := fun job => { job with result := some (quoteResult quote) }) fun _ => rfl

theorem Asking.read (h : s.Asking) (id : ℕ) : (s.read id).Asking where
  context := h.context
  boltz_session := h.boltz_session
  amount := h.amount
  last := asksFor_read.mpr h.last

theorem Asking.finished (h : s.Asking) (id : ℕ) (quote : Option Quote) :
    (s.finished id quote).Asking where
  context := h.context
  boltz_session := h.boltz_session
  amount := h.amount
  last := asksFor_finished.mpr h.last

/-- A thread that reads is not done. -/
theorem AnswersLast.read (hs : s.AnswersLast) {job : QuoteJob} (hjob : s.jobs[id]? = some job)
    (hresult : job.result = none) : (s.read id).AnswersLast := by
  constructor
  · exact asksFor_read.mpr hs.requested
  · intro hidle
    have hread : (s.read id).jobs[id]? = some ((job.read s.d).getD job) := by
      rw [SwapQuotes.read, List.getElem?_modify_eq, hjob]
      rfl
    have hdone := hidle _ (List.mem_of_getElem? hread)
    cases hnext : job.read s.d with
    | none => simp [hnext, hresult] at hdone
    | some job' => simp [hnext, (request_read hnext).2, hresult] at hdone

/-- All threads are done with this one if the others were. -/
theorem idle_finished {quote : Option Quote} :
    (s.finished id quote).Idle ↔
      ∀ other job, s.jobs[other]? = some job → other ≠ id → job.result.isSome = true := by
  constructor
  · intro hidle other job hjob hne
    apply hidle job
    have hother : (s.finished id quote).jobs[other]? = some job := by
      rw [SwapQuotes.finished, List.getElem?_modify_ne _ _ hne.symm, hjob]
    exact List.mem_of_getElem? hother
  · intro hothers job hmem
    obtain ⟨other, hjob⟩ := List.getElem?_of_mem hmem
    by_cases hid : other = id
    · rw [hid, SwapQuotes.finished, List.getElem?_modify_eq] at hjob
      obtain ⟨before, -, rfl⟩ := Option.map_eq_some_iff.mp hjob
      rfl
    · rw [SwapQuotes.finished, List.getElem?_modify_ne _ _ (Ne.symm hid)] at hjob
      exact hothers other job hjob hid

theorem lastResult_finished {quote : Option Quote} {job : QuoteJob}
    (hjob : s.jobs[id]? = some job) :
    (s.finished id quote).lastResult = some (quoteResult quote) ↔
      id + 1 = s.jobs.length ∨ s.lastResult = some (quoteResult quote) := by
  unfold lastResult SwapQuotes.finished
  rw [getLast?_modify]
  split_ifs with hlast
  · apply iff_of_true _ (.inl hlast)
    have hid : s.jobs.length - 1 = id := by omega
    rw [List.getLast?_eq_getElem?, hid, hjob]
    rfl
  · rw [or_iff_right hlast]

theorem quoteResult_eq_nil_iff {quote : Option Quote} : quoteResult quote = [] ↔ quote = none := by
  cases quote with
  | none => simp [quoteResult]
  | some quote => simp [quoteResult, parseQuote]

theorem AnswersLast.finished_iff (h : s.Asking) (hs : s.AnswersLast) {job : QuoteJob}
    (hjob : s.jobs[id]? = some job) (quote : Option Quote) :
    (s.finished id quote).AnswersLast ↔ InOrder s (.finished id quote) := by
  have hrequested : (s.finished id quote).AsksFor s.called.send_amount :=
    asksFor_finished.mpr hs.requested
  have hexpected : (s.finished id quote).expected = some (quoteResult quote) ↔
      if toULongLong s.d.amount = none then quote = none
      else id + 1 = s.jobs.length ∨ s.lastResult = some (quoteResult quote) := by
    rw [← lastResult_finished hjob]
    unfold expected
    rw [(h.finished id quote).amount]
    cases hnumber : toULongLong (s.finished id quote).d.amount with
    | none =>
        have hnumber' : toULongLong s.d.amount = none := hnumber
        rw [if_pos hnumber', ← quoteResult_eq_nil_iff, Option.some.injEq]
        exact eq_comm
    | some satoshi =>
        have hnumber' : toULongLong s.d.amount = some satoshi := hnumber
        rw [if_neg (by simp [hnumber'])]
  constructor
  · intro hnext hothers
    exact hexpected.mp (hnext.shown (idle_finished.mpr hothers))
  · intro hinorder
    refine ⟨hrequested, ?_⟩
    intro hidle
    exact hexpected.mpr (hinorder (idle_finished.mp hidle))

end SwapQuotes

/-- **The last request is answered.** In a run the last request is for the last call, and its
answer is shown once all threads are done, exactly if no call turns the direction of an amount
that is there already and no thread comes back after all others with an older answer. -/
theorem answersLast_iff_inOrder {es : List QuoteEvent} (hes : swapQuotes.Valid {} es) :
    swapQuotes.Always SwapQuotes.AnswersLast {} es ↔ swapQuotes.Along InOrder {} es := by
  have hempty : toULongLong "" = none := by decide
  apply Reactive.always_iff_along (J := SwapQuotes.Asking) (V := swapQuotes.enabled)
  · intro s e h _
    cases e with
    | send amount => exact h.enter true amount
    | receive amount => exact h.enter false amount
    | swapNetworks =>
        have hnext := h.withAssets s.d.receive_asset s.d.send_asset
        rwa [← SwapQuotes.swapNetworks_eq h] at hnext
    | setLightning lightning =>
        obtain ⟨send_asset, receive_asset, heq⟩ := SwapQuotes.exists_setLightning_eq lightning s
        have hnext := h.withAssets send_asset receive_asset
        rwa [← heq] at hnext
    | read id => exact h.read id
    | finished id quote => exact h.finished id quote
  · intro s e h he hs
    cases e with
    | send amount => exact hs.enter_iff h true amount
    | receive amount => exact hs.enter_iff h false amount
    | swapNetworks =>
        have hnext := hs.withAssets h s.d.receive_asset s.d.send_asset
        rw [← SwapQuotes.swapNetworks_eq h] at hnext
        exact iff_of_true hnext trivial
    | setLightning lightning =>
        obtain ⟨send_asset, receive_asset, heq⟩ := SwapQuotes.exists_setLightning_eq lightning s
        have hnext := hs.withAssets h send_asset receive_asset
        rw [← heq] at hnext
        exact iff_of_true hnext trivial
    | read id =>
        obtain ⟨job, hjob, hresult, -⟩ := he
        exact iff_of_true (hs.read hjob hresult) trivial
    | finished id quote =>
        obtain ⟨job, hjob, -⟩ := he
        exact hs.finished_iff h hjob quote
  · exact ⟨rfl, rfl, rfl, SwapQuotes.asksFor_of_none hempty⟩
  · constructor
    · exact SwapQuotes.asksFor_of_none hempty
    · intro _
      simp only [SwapQuotes.expected, hempty]
  · exact hes

/-- The amount to send is entered as the amount to receive. -/
def turned : List QuoteEvent :=
  [.send "1000", .read 0, .read 0, .read 0, .receive "1000",
    .finished 0 (some
      { send_amount := 1000, receive_amount := 940, network_fee := 50, boltz_fee := 10,
        min := 100, max := 100000 })]

theorem answersLast_iff_inOrder_turned :
    swapQuotes.Always SwapQuotes.AnswersLast {} turned ↔ swapQuotes.Along InOrder {} turned :=
  answersLast_iff_inOrder (by decide)

theorem not_answersLast_turned :
    swapQuotes.Valid {} turned ∧ ¬ swapQuotes.Always SwapQuotes.AnswersLast {} turned := by
  refine ⟨by decide, ?_⟩
  intro h
  have hrequested := h.last.requested 1000 (by decide)
  exact absurd hrequested (by decide)

end GreenWallet.Controllers
