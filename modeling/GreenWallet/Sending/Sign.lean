import GreenWallet.Tasks.Begins
import GreenWallet.Wallets.Record

/-!
# Signing and sending

`sign()` makes a task that signs the transaction and a task that sends it, and on Liquid one that
blinds it before. A task gets its details from the handler of the one before it, once that has
finished; until then the dispatcher holds it back. The user may ask for other codes, cancel, change
the account or sign again at any time.
-/
namespace GreenWallet.Sending
open GreenWallet.Library GreenWallet.Tasks
open GreenWallet.Wallets (Json JsonObject)

/-- `insert`, which takes a member away if the value is undefined. -/
def put (key : String) (value : Option Json) (data : JsonObject) : JsonObject :=
  match value with
  | some value => data.insert key value
  | none => data.filter fun member => member.1 != key

structure Account where
  id : ℕ
  isLiquid : Bool
deriving DecidableEq

/-- What a call of `sign()` has made, and the transaction that it took. -/
structure Signing (ι : Type) where
  transaction : JsonObject
  /-- On Liquid. -/
  blind : Option ι
  sign : ι
  send : ι
  group : GroupId

def Signing.tasks {ι : Type} (signing : Signing ι) : List ι :=
  signing.blind.toList ++ [signing.sign, signing.send]

inductive SignSignal (ι : Type) where
  /-- The wallet library is called for the task, with the details that it has. -/
  | called (task : ι) (details : JsonObject)
  /-- The task has finished, with the `result` of the last answer. -/
  | finished (task : ι) (result : JsonObject)
  | failed (error : String)
  /-- `transactionCompleted`, in the handler of the task that has sent it. Without an account a null
  pointer is followed. -/
  | transactionCompleted (task : ι) (account : Option Account) (transaction : JsonObject)

def SignSignal.task {ι : Type} : SignSignal ι → Option ι
  | .called t _ | .finished t _ | .transactionCompleted t _ _ => some t
  | .failed _ => none

structure SignTransactionController (ι : Type) where
  dispatching : Dispatching ι
  /-- The program was started with `--mock-send`. -/
  mockSend : Bool := false
  m_account : Option Account := none
  m_transaction : JsonObject := []
  m_memo : String := ""
  m_error : String := ""
  /-- `m_details` and `m_result` of the tasks. -/
  details : ι → JsonObject := fun _ => []
  result : ι → JsonObject := fun _ => []
  signings : List (Signing ι) := []
  log : List (SignSignal ι) := []

/-- The objects that a call of `sign()` makes. The first is made on Liquid only. -/
structure SignCall (ι : Type) where
  blind : ι
  sign : ι
  send : ι
  group : GroupId
  dispatcher : DispatcherId

def SignCall.tasks {ι : Type} (call : SignCall ι) : List ι := [call.blind, call.sign, call.send]

def SignCall.signing {ι : Type} (call : SignCall ι) (isLiquid : Bool) (transaction : JsonObject) :
    Signing ι where
  transaction := transaction
  blind := if isLiquid then some call.blind else none
  sign := call.sign
  send := call.send
  group := call.group

inductive SignEvent (ι : Type) where
  | setAccount (account : Option Account)
  | setTransaction (transaction : JsonObject)
  | setMemo (memo : String)
  | sign (call : SignCall ι)
  | cancel
  /-- A step of the dispatchers and their tasks. `answer` is what the status of an auth handler
  reads, if the step asks for it. -/
  | step (e : Step ι) (answer : JsonObject)

/-- `next` sets the result of the task. -/
def HandlerStatus.isEnd : Tasks.HandlerStatus → Bool
  | .done | .error _ => true
  | _ => false

/-- The task that the step gives a result. -/
def answered {ι : Type} (w : World ι) : Step ι → Option ι
  | .client ⟨.completes c report, _⟩ =>
      if w.asksHandler c report && report.status.any HandlerStatus.isEnd then some c.task else none
  | _ => none

/-- What an `update` reads outside its task. -/
def surroundings {ι : Type} : Step ι → Option Surroundings
  | .work seen => some seen
  | _ => none

namespace SignTransactionController
variable {ι : Type}

def emit (c : SignTransactionController ι) (signal : SignSignal ι) : SignTransactionController ι :=
  { c with log := c.log ++ [signal] }

/-- `result().value("result").toObject()`. -/
def resultOf (c : SignTransactionController ι) (t : ι) : JsonObject :=
  Json.toObject (JsonObject.value "result" (c.result t))

/-- `SendTransactionTask::transaction`. -/
def transactionOf (c : SignTransactionController ι) (t : ι) : JsonObject :=
  put "inputs" (JsonObject.value "transaction_inputs" (c.details t))
    (if c.mockSend then c.details t else c.resultOf t)

variable [DecidableEq ι]

def setDetails (c : SignTransactionController ι) (t : ι) (details : JsonObject) :
    SignTransactionController ι :=
  { c with details := Function.update c.details t details }

/-- The call that has made the task, and connected to it. -/
def signingOf (c : SignTransactionController ι) (t : ι) : Option (Signing ι) :=
  c.signings.find? fun signing => t ∈ signing.tasks

/-- The handlers of `finished`. -/
def taskFinished (c : SignTransactionController ι) (t : ι) (signing : Signing ι) :
    SignTransactionController ι :=
  if signing.blind = some t then c.setDetails signing.sign (c.resultOf t)
  else if signing.sign = t then c.setDetails signing.send (c.resultOf t)
  else c.emit (.transactionCompleted t c.m_account (c.transactionOf t))

/-- The handlers of `failed`: none is connected to the blinding. -/
def taskFailed (c : SignTransactionController ι) (t : ι) (error : String) (signing : Signing ι) :
    SignTransactionController ι :=
  if signing.blind = some t then c else { c with m_error := c.m_error ++ error }

def hear (c : SignTransactionController ι) : Signal ι → SignTransactionController ι
  | .finished t =>
      match c.signingOf t with
      | some signing => (c.emit (.finished t (c.resultOf t))).taskFinished t signing
      | none => c.emit (.finished t (c.resultOf t))
  | .failed t error =>
      match c.signingOf t with
      | some signing => c.taskFailed t error signing
      | none => c
  | .groupFailed g =>
      if c.signings.any fun signing => signing.group = g then c.emit (.failed c.m_error) else c
  | _ => c

/-- The edges and the group of a call, in a dispatcher. -/
def construct (w : World ι) (isLiquid : Bool) (call : SignCall ι) : World ι :=
  let blinding :=
    if isLiquid then (w.then_ call.blind call.sign).groupAdd call.group call.blind else w
  (((blinding.then_ call.sign call.send).groupAdd call.group call.sign).groupAdd call.group
    call.send).dispatcherAdd call.dispatcher call.group

def sign (c : SignTransactionController ι) (account : Account) (call : SignCall ι) :
    SignTransactionController ι :=
  let transaction := JsonObject.insert "memo" (.string c.m_memo) c.m_transaction
  { c with
    dispatching :=
      { c.dispatching with world := construct c.dispatching.world account.isLiquid call }
    m_error := ""
    details :=
      Function.update c.details (if account.isLiquid then call.blind else call.sign) transaction
    signings := c.signings ++ [call.signing account.isLiquid transaction] }

variable [Fintype ι]

/-- The step itself, before the signals of it are heard. -/
def advance (c : SignTransactionController ι) (e : Step ι) (answer : JsonObject) :
    SignTransactionController ι :=
  { c with
    dispatching := c.dispatching.next e
    result :=
      match answered c.dispatching.world e with
      | some t => Function.update c.result t answer
      | none => c.result
    log := c.log ++ (c.dispatching.calling e).toList.map fun t => .called t (c.details t) }

def step (c : SignTransactionController ι) (e : Step ι) (answer : JsonObject) :
    SignTransactionController ι :=
  (Dispatching.reactive.emits c.dispatching e).foldl hear (c.advance e answer)

def next (c : SignTransactionController ι) : SignEvent ι → SignTransactionController ι
  | .setAccount account => { c with m_account := account }
  | .setTransaction transaction => { c with m_transaction := transaction }
  | .setMemo memo => { c with m_memo := memo }
  | .sign call =>
      match c.m_account with
      | some account => c.sign account call
      | none => c
  -- The monitor is let go, and the tasks go on.
  | .cancel => c
  | .step e answer => c.step e answer

/-- The task is a new one. -/
structure New (c : SignTransactionController ι) (type : TaskType) (t : ι) : Prop where
  view : c.dispatching.world.view t = { type := type }
  authHandler : (c.dispatching.world.tasks t).authHandler = false
  details : (c.details t).isEmpty = true
  unmentioned : ∀ signal ∈ c.log, signal.task ≠ some t
  unused : ∀ signing ∈ c.signings, t ∉ signing.tasks

/-- A call makes new tasks, of the classes that it names, and a new group. -/
structure Constructs (c : SignTransactionController ι) (call : SignCall ι) : Prop where
  nodup : call.tasks.Nodup
  blind : c.New .blindTransaction call.blind
  sign : c.New .signTransaction call.sign
  send : c.New .sendTransaction call.send
  group : (c.dispatching.world.groups call.group).tasks = []

/-- A task that sends is active once it has details. -/
structure Sees (c : SignTransactionController ι) (seen : Surroundings) : Prop where
  mockSend : seen.mockSend = c.mockSend
  details : ∀ t ∈ c.dispatching.updating, (∃ signing ∈ c.signings, signing.send = t) →
    seen.details = !(c.details t).isEmpty

instance (c : SignTransactionController ι) (type : TaskType) (t : ι) : Decidable (c.New type t) :=
  decidable_of_iff
    (c.dispatching.world.view t = { type := type } ∧
      (c.dispatching.world.tasks t).authHandler = false ∧ (c.details t).isEmpty = true ∧
      (∀ signal ∈ c.log, signal.task ≠ some t) ∧ ∀ signing ∈ c.signings, t ∉ signing.tasks)
    ⟨fun h => ⟨h.1, h.2.1, h.2.2.1, h.2.2.2.1, h.2.2.2.2⟩,
      fun h => ⟨h.view, h.authHandler, h.details, h.unmentioned, h.unused⟩⟩

instance (c : SignTransactionController ι) (call : SignCall ι) : Decidable (c.Constructs call) :=
  decidable_of_iff
    (call.tasks.Nodup ∧ c.New .blindTransaction call.blind ∧ c.New .signTransaction call.sign ∧
      c.New .sendTransaction call.send ∧ (c.dispatching.world.groups call.group).tasks = [])
    ⟨fun h => ⟨h.1, h.2.1, h.2.2.1, h.2.2.2.1, h.2.2.2.2⟩,
      fun h => ⟨h.nodup, h.blind, h.sign, h.send, h.group⟩⟩

instance (c : SignTransactionController ι) (seen : Surroundings) : Decidable (c.Sees seen) :=
  decidable_of_iff
    (seen.mockSend = c.mockSend ∧ ∀ t ∈ c.dispatching.updating,
      (∃ signing ∈ c.signings, signing.send = t) → seen.details = !(c.details t).isEmpty)
    ⟨fun h => ⟨h.1, h.2⟩, fun h => ⟨h.mockSend, h.details⟩⟩

def enabled (c : SignTransactionController ι) : SignEvent ι → Prop
  | .sign call => c.m_account.isSome = true ∧ c.Constructs call
  | .step e _ => c.dispatching.enabled e ∧ ∀ seen ∈ surroundings e, c.Sees seen
  | _ => True

instance (c : SignTransactionController ι) : (e : SignEvent ι) → Decidable (c.enabled e)
  | .sign call => inferInstanceAs (Decidable (c.m_account.isSome = true ∧ c.Constructs call))
  | .step e _ => inferInstanceAs
      (Decidable (c.dispatching.enabled e ∧ ∀ seen ∈ surroundings e, c.Sees seen))
  | .setAccount _ | .setTransaction _ | .setMemo _ | .cancel => isTrue trivial

def signing : Reactive (SignTransactionController ι) (SignEvent ι) Empty where
  enabled := enabled
  next := next
  emits := fun _ _ => []

instance (c : SignTransactionController ι) (e : SignEvent ι) : Decidable (signing.enabled c e) :=
  inferInstanceAs (Decidable (c.enabled e))

/-- Before the first call. -/
def fresh (types : ι → TaskType) (mockSend : Bool) : SignTransactionController ι :=
  { dispatching := .fresh types, mockSend := mockSend }

end SignTransactionController
end GreenWallet.Sending
