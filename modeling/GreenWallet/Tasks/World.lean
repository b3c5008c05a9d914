import Mathlib.Data.Fintype.Card

/-!
# Tasks, groups and dispatchers

Tasks are objects that point to each other: `needs` and `then` draw the edges, a
group lists its tasks and a dispatcher its groups. `ι` holds every task that a run
constructs. A status is written by `setStatus` alone, which emits what happened and
hands `Failed` on to the outputs; the signal handlers of the callers change no
status, so they show as further events only.
-/
namespace GreenWallet.Tasks

/-- `Task::Status` and `TaskGroup::Status`. -/
inductive Status where
  | ready | active | finished | failed
deriving DecidableEq, Repr

/-- The task, or the group, is over. -/
def Status.isTerminal : Status → Bool
  | .finished | .failed => true
  | .ready | .active => false

inductive TaskType where
  | connect (timeout : Int) | registerUser | login | loadTwoFactorConfig | loadCurrencies
  | getWatchOnlyDetails | encryptWithPin | changeSettings | loadAccount | loadAccounts
  | syncAccounts | loadBalance | loadAssets | createAccount | updateAccount | validate
  | changeTwoFactor | twoFactorReset | setCsvTime | getCredentials | disableAllPinLogins
  | twoFactorChangeLimits | createTransaction | createRedepositTransaction
  | signTransaction | blindTransaction | sendTransaction | sendNLocktimes
  | twoFactorCancelReset | getUnspentOutputs | setUnspentOutputsStatus | getTransactions
  | getReceiveAddress | getAddresses | deleteWallet | signMessage | getSystemMessage
  | ackSystemMessage | httpRequest | decodeBCUR | encodeBCUR | rsaVerify | loadPayments
  | jadeSetup | jadeUnlock | jadeIdentify | lwkCreateSession | signupCreateWallet
  | signupPersistWallet | watchOnlyCreateWallet
deriving DecidableEq, Repr

/-- What an `AuthHandlerTask` asks the user for. -/
inductive Prompt where
  | code (method : String)
  | device
deriving DecidableEq, Repr

structure Task (ι : Type) where
  type : TaskType
  status : Status := .ready
  error : String := ""
  /-- A `QSet` is a list without repetition, in the order of insertion. -/
  inputs : List ι := []
  outputs : List ι := []
  /-- `m_auth_handler` is set. -/
  authHandler : Bool := false
  prompt : Option Prompt := none
  /-- `m_resolver` is set. -/
  resolver : Bool := false

abbrev GroupId := ℕ
abbrev DispatcherId := ℕ

structure TaskGroup (ι : Type) where
  status : Status := .ready
  tasks : List ι := []

structure TaskDispatcher where
  groups : List GroupId := []
  busy : Bool := false

/-- What a task waits for once `update` or a continuation has returned. -/
inductive Pending where
  /-- The call of `AuthHandlerTask::update`. -/
  | call
  | requestCode (method : String)
  | resolveCode (code : String)
  | handlerCall
  | resolver
  | connect
  | connectTimeout
  /-- The one background job of any other task. -/
  | work
  /-- The page of payments after a key. -/
  | fetch (key : String)
  /-- `auth_user` of a `JadeIdentifyTask`, which leaves the status alone. -/
  | identifyUser
  | disconnected
deriving DecidableEq, Repr

structure Call (ι : Type) where
  task : ι
  pending : Pending
deriving DecidableEq, Repr

inductive Signal (ι : Type) where
  | statusChanged (task : ι) (status : Status)
  | finished (task : ι)
  | failed (task : ι) (error : String)
  | groupStatusChanged (group : GroupId) (status : Status)
  | groupFinished (group : GroupId)
  | groupFailed (group : GroupId)
  | busyChanged (dispatcher : DispatcherId) (busy : Bool)
  /-- The dispatcher calls `update` of the task. -/
  | update (task : ι)
  /-- The task calls `setUnlocking` of its device. -/
  | setUnlocking (task : ι) (unlocking : Bool)
deriving DecidableEq, Repr

structure World (ι : Type) where
  tasks : ι → Task ι
  groups : GroupId → TaskGroup ι := fun _ => {}
  dispatchers : DispatcherId → TaskDispatcher := fun _ => {}
  calls : List (Call ι) := []
  /-- What has been emitted so far. -/
  log : List (Signal ι) := []

namespace World
variable {ι : Type}

/-- Freshly constructed tasks, before any of them is connected or added to a group. -/
def fresh (types : ι → TaskType) : World ι := { tasks := fun t => { type := types t } }

def status (w : World ι) (t : ι) : Status := (w.tasks t).status

def emit (w : World ι) (signals : List (Signal ι)) : World ι :=
  { w with log := w.log ++ signals }

def start (w : World ι) (t : ι) (pending : Pending) : World ι :=
  { w with calls := w.calls ++ [{ task := t, pending := pending }] }

def setGroup (w : World ι) (g : GroupId) (f : TaskGroup ι → TaskGroup ι) : World ι :=
  { w with groups := Function.update w.groups g (f (w.groups g)) }

def outcomeSignal (t : ι) (error : String) : Status → List (Signal ι)
  | .finished => [.finished t]
  | .failed => [.failed t error]
  | _ => []

section
variable [DecidableEq ι]

def setTask (w : World ι) (t : ι) (f : Task ι → Task ι) : World ι :=
  { w with tasks := Function.update w.tasks t (f (w.tasks t)) }

def setError (w : World ι) (t : ι) (error : String) : World ι :=
  w.setTask t fun task => { task with error := error }

def setPrompt (w : World ι) (t : ι) (prompt : Prompt) : World ι :=
  w.setTask t fun task => { task with prompt := some prompt }

def setResolver (w : World ι) (t : ι) (resolver : Bool) : World ι :=
  w.setTask t fun task => { task with resolver := resolver }

def setAuthHandler (w : World ι) (t : ι) : World ι :=
  w.setTask t fun task => { task with authHandler := true }

/-- `m_outputs.insert(u)` of the task `t`. -/
def insertOutput (w : World ι) (t u : ι) : World ι :=
  w.setTask t fun task => { task with outputs := task.outputs.insert u }

def insertInput (w : World ι) (t u : ι) : World ι :=
  w.setTask t fun task => { task with inputs := task.inputs.insert u }

/-- `t->needs(u)`. -/
def needs (w : World ι) (t u : ι) : World ι := (w.insertInput t u).insertOutput u t

/-- `t->then(u)`. -/
def then_ (w : World ι) (t u : ι) : World ι := (w.insertOutput t u).insertInput u t

/-- The first lines of `Task::setStatus`: the new status and its signals. -/
def write (w : World ι) (t : ι) (s : Status) : World ι :=
  (w.setTask t fun task => { task with status := s }).emit
    (.statusChanged t s :: outcomeSignal t (w.tasks t).error s)

/-- `Task::setStatus`, where at most `n` calls of it are nested. -/
def setStatusNested : ℕ → ι → Status → World ι → World ι
  | 0, _, _, w => w
  | n + 1, t, s, w =>
      if w.status t = s then w
      else
        let w := w.write t s
        if s = .failed then
          (w.tasks t).outputs.foldl (fun w u => setStatusNested n u .failed w) w
        else w

/-- A nested call finds one task less that is not `Failed`. -/
def setStatus [Fintype ι] (w : World ι) (t : ι) (s : Status) : World ι :=
  setStatusNested (Fintype.card ι + 1) t s w

def groupAdd (w : World ι) (g : GroupId) (t : ι) : World ι :=
  if t ∈ (w.groups g).tasks then w
  else w.setGroup g fun group => { group with tasks := group.tasks ++ [t] }

def groupRemove (w : World ι) (g : GroupId) (t : ι) : World ι :=
  w.setGroup g fun group => { group with tasks := group.tasks.erase t }

end

def groupOutcomeSignal (g : GroupId) : Status → List (Signal ι)
  | .finished => [.groupFinished g]
  | .failed => [.groupFailed g]
  | _ => []

/-- `TaskGroup::setStatus`. -/
def setGroupStatus (w : World ι) (g : GroupId) (s : Status) : World ι :=
  if (w.groups g).status = s then w
  else
    (w.setGroup g fun group => { group with status := s }).emit
      (.groupStatusChanged g s :: groupOutcomeSignal g s)

def setDispatcher (w : World ι) (d : DispatcherId) (f : TaskDispatcher → TaskDispatcher) :
    World ι :=
  { w with dispatchers := Function.update w.dispatchers d (f (w.dispatchers d)) }

/-- `TaskDispatcher::add`: the newest group comes first. -/
def dispatcherAdd (w : World ι) (d : DispatcherId) (g : GroupId) : World ι :=
  if g ∈ (w.dispatchers d).groups then w
  else w.setDispatcher d fun dispatcher => { dispatcher with groups := g :: dispatcher.groups }

def dispatcherRemove (w : World ι) (d : DispatcherId) (g : GroupId) : World ι :=
  w.setDispatcher d fun dispatcher => { dispatcher with groups := dispatcher.groups.erase g }

def setBusy (w : World ι) (d : DispatcherId) (busy : Bool) : World ι :=
  if (w.dispatchers d).busy = busy then w
  else (w.setDispatcher d fun dispatcher => { dispatcher with busy := busy }).emit
    [.busyChanged d busy]

end World
end GreenWallet.Tasks
