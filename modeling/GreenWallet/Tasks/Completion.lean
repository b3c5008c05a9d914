import GreenWallet.Library.Reactive
import GreenWallet.Tasks.Update

/-!
# Completions and runs

A call that a task has started is completed at any later time and with any report.
What the continuation does then depends on the class of the task: most continuations
write a status whatever the present one is, those of `ConnectTask` and of
`JadeUnlockTask` first check that the task is still `Active`.

A device that is disconnected does not answer `auth_user` any more, whether or not the task
that has asked is told.

A run mixes passes of the dispatchers, completions, calls of the user's slots, and
calls that draw edges or fill groups.
-/
namespace GreenWallet.Tasks
open GreenWallet.Library

/-- What `GA_auth_handler_get_status` says. -/
inductive HandlerStatus where
  | done
  | error (error : String)
  | requestCode (methods : List String)
  | resolveCode (method : String)
  /-- `resolve_code` with `required_data`. -/
  | requiredData
  | call
deriving DecidableEq, Repr

/-- The part of a page of payments that `LoadPaymentsTask::fetch` follows. -/
structure Page where
  remaining : Int
  keys : List String
deriving DecidableEq, Repr

/-- What `resolve()` of a resolver has emitted when it returns. -/
inductive Resolution where
  | later
  | resolved (code : String)
  | failed (error : String)
deriving DecidableEq, Repr

/-- What a completed call reports, and what its continuation reads. -/
structure Report where
  ok : Bool := true
  /-- The details of an error, or the text of `GA_connect`. -/
  details : String := ""
  /-- The call has left an auth handler behind. -/
  handler : Bool := true
  /-- Absent when `GA_auth_handler_get_status` fails. -/
  status : Option HandlerStatus := some .done
  /-- The context has a device, and not one of another wallet. -/
  device : Bool := true
  /-- What a resolver does that is started. -/
  resolution : Resolution := .later
  connected : Bool := false
  /-- Absent when the reply is an error or no object. -/
  page : Option Page := none

variable {ι : Type} [Fintype ι] [DecidableEq ι]

namespace AuthHandlerTask
variable (t : ι) (w : World ι)

def requestCode (method : String) : World ι := w.start t (.requestCode method)

def resolveCode (code : String) : World ι := w.start t (.resolveCode code)

def handleDone : World ι := w.setStatus t .finished

def handleError (error : String) : World ι := (w.setError t error).setStatus t .failed

def handleRequestCode : List String → World ι
  | [method] => requestCode t w method
  | _ => w.setPrompt t (.code "")

/-- A `CodePrompt` for the method: the present one, or a new one. -/
def promptCode (method : String) : World ι := w.setPrompt t (.code method)

/-- The handler of `Resolver::resolved`. -/
def resolverResolved (code : String) : World ι := resolveCode t (w.setResolver t false) code

/-- The handler of `Resolver::failed`. -/
def resolverFailed (error : String) : World ι :=
  ((w.setResolver t false).setError t error).setStatus t .failed

/-- A new resolver is connected, asked to resolve, and exposed after that. -/
def startResolver (resolution : Resolution) : World ι :=
  let w := match resolution with
    | .later => w.start t .resolver
    | .resolved code => resolverResolved t w code
    | .failed error => resolverFailed t w error
  w.setResolver t true

def handleRequiredData (report : Report) : World ι :=
  if report.device then startResolver t w report.resolution else w.setPrompt t .device

def handleCall : World ι := w.start t .handlerCall

def next (report : Report) : World ι :=
  if (w.tasks t).authHandler then
    match report.status with
    | none => w.setStatus t .failed
    | some .done => handleDone t w
    | some (.error error) => handleError t w error
    | some (.requestCode methods) => handleRequestCode t w methods
    | some (.resolveCode method) => promptCode t w method
    | some .requiredData => handleRequiredData t w report
    | some .call => handleCall t w
  else w.setStatus t .finished

/-- The continuation of the call that `update` makes. -/
def called (report : Report) : World ι :=
  if report.ok then next t (if report.handler then w.setAuthHandler t else w) report
  else if report.details = "id_you_are_not_connected" then w.setStatus t .ready
  else (w.setError t report.details).setStatus t .failed

/-- The continuation of `requestCode`, `resolveCode` and `handleCall`. -/
def stepped (report : Report) : World ι :=
  if report.ok then next t w report else w.setStatus t .failed

/-- `Resolver::resolved` and `Resolver::failed`. -/
def resolved (report : Report) : World ι :=
  if report.ok then resolverResolved t w report.details else resolverFailed t w report.details

end AuthHandlerTask

section Continuations
variable (t : ι) (w : World ι) (report : Report)

def ConnectTask.connected : World ι :=
  if w.status t ≠ .active then w
  else if "session already connected".toList <:+: report.details.toList then
    w.setStatus t .finished
  else
    let w := w.setError t report.details
    if report.details ≠ "" then w.setStatus t .failed else w

def ConnectTask.timedOut : World ι :=
  if w.status t = .active ∧ report.connected = false then
    (w.setError t "timeout error").setStatus t .failed
  else w

def JadeUnlockTask.disconnected : World ι :=
  if w.status t ≠ .active then w
  else (w.emit [.setUnlocking t false]).setStatus t .failed

def JadeUnlockTask.answered : World ι :=
  if w.status t ≠ .active then w
  else (w.emit [.setUnlocking t false]).setStatus t (if report.ok then .finished else .failed)

def JadeSetupTask.answered : World ι :=
  (w.emit [.setUnlocking t false]).setStatus t (if report.ok then .finished else .failed)

def SendNLocktimesTask.sent : World ι :=
  if report.ok then w.setStatus t .finished
  else (w.setError t report.details).setStatus t .failed

/-- The reply to `LoadPaymentsTask::fetch(key)`. -/
def LoadPaymentsTask.fetched (key : String) : World ι :=
  match report.page with
  | some page =>
      if page.remaining > 0 then w.start t (.fetch (page.keys.getLastD key))
      else w.setStatus t .finished
  | none => w.setStatus t .finished

/-- The continuation of the background job of a task. -/
def worked : World ι :=
  match (w.tasks t).type with
  | .loadTwoFactorConfig | .loadCurrencies => w.setStatus t .finished
  | .sendNLocktimes => SendNLocktimesTask.sent t w report
  | .jadeSetup => JadeSetupTask.answered t w report
  | .jadeUnlock => JadeUnlockTask.answered t w report
  | _ => w.setStatus t (if report.ok then .finished else .failed)

end Continuations

namespace World

/-- The continuation of a call. -/
def complete (w : World ι) (c : Call ι) (report : Report) : World ι :=
  match c.pending with
  | .call => AuthHandlerTask.called c.task w report
  | .requestCode _ | .resolveCode _ | .handlerCall => AuthHandlerTask.stepped c.task w report
  | .resolver => AuthHandlerTask.resolved c.task w report
  | .connect => ConnectTask.connected c.task w report
  | .connectTimeout => ConnectTask.timedOut c.task w report
  | .work => worked c.task w report
  | .fetch key => LoadPaymentsTask.fetched c.task w report key
  | .identifyUser => w
  | .disconnected => JadeUnlockTask.disconnected c.task w

/-- The call is over. With a disconnection, the answer to `auth_user` is not waited for either. -/
def drop (w : World ι) (c : Call ι) : World ι :=
  { w with
    calls :=
      if c.pending = .disconnected then (w.calls.erase c).erase ⟨c.task, .work⟩
      else w.calls.erase c }

end World

/-- What a task waits for while its `auth_user` is outstanding. -/
def TaskType.authUser : TaskType → Option Pending
  | .jadeSetup | .jadeUnlock => some .work
  | .jadeIdentify => some .identifyUser
  | _ => none

inductive Event (ι : Type) where
  | pass (d : DispatcherId) (seen : ι → Surroundings)
  | completes (c : Call ι) (report : Report)
  /-- The device will not answer the `auth_user` of the task, which is not told. -/
  | lost (t : ι)
  | requestCode (t : ι) (method : String)
  | resolveCode (t : ι) (code : String)
  /-- `DevicePrompt::select` with a device of the wallet. -/
  | selectDevice (t : ι) (resolution : Resolution)
  | needs (t u : ι)
  | then_ (t u : ι)
  | groupAdd (g : GroupId) (t : ι)
  | groupRemove (g : GroupId) (t : ι)
  | dispatcherAdd (d : DispatcherId) (g : GroupId)
  | dispatcherRemove (d : DispatcherId) (g : GroupId)

namespace World

/-- The answer to `auth_user` is not waited for any more. -/
def lose (w : World ι) (t : ι) : World ι :=
  { w with calls := (w.tasks t).type.authUser.elim w.calls fun p => w.calls.erase ⟨t, p⟩ }

def next (w : World ι) : Event ι → World ι
  | .pass d seen => w.dispatcherUpdate seen d
  | .completes c report => (w.drop c).complete c report
  | .lost t => w.lose t
  | .requestCode t method => AuthHandlerTask.requestCode t w method
  | .resolveCode t code => AuthHandlerTask.resolveCode t w code
  | .selectDevice t resolution => AuthHandlerTask.startResolver t w resolution
  | .needs t u => w.needs t u
  | .then_ t u => w.then_ t u
  | .groupAdd g t => w.groupAdd g t
  | .groupRemove g t => w.groupRemove g t
  | .dispatcherAdd d g => w.dispatcherAdd d g
  | .dispatcherRemove d g => w.dispatcherRemove d g

/-- The slots of an `AuthHandlerTask` are offered once it has an auth handler. -/
def enabled (w : World ι) : Event ι → Prop
  | .completes c _ => c ∈ w.calls
  | .lost t => (w.tasks t).type.authUser.any (fun p => ⟨t, p⟩ ∈ w.calls) = true
  | .requestCode t _ | .resolveCode t _ =>
      (w.tasks t).type.isAuthHandler = true ∧ (w.tasks t).authHandler = true
  | .selectDevice t _ => (w.tasks t).prompt = some .device
  | _ => True

instance (w : World ι) : (e : Event ι) → Decidable (w.enabled e)
  | .completes c _ => inferInstanceAs (Decidable (c ∈ w.calls))
  | .lost t => inferInstanceAs (Decidable
      ((w.tasks t).type.authUser.any (fun p => ⟨t, p⟩ ∈ w.calls) = true))
  | .requestCode t _ | .resolveCode t _ => inferInstanceAs (Decidable
      ((w.tasks t).type.isAuthHandler = true ∧ (w.tasks t).authHandler = true))
  | .selectDevice t _ => inferInstanceAs (Decidable ((w.tasks t).prompt = some .device))
  | .pass .. | .needs .. | .then_ .. | .groupAdd .. | .groupRemove .. | .dispatcherAdd ..
  | .dispatcherRemove .. => isTrue trivial

def reactive : Reactive (World ι) (Event ι) (Signal ι) where
  enabled := enabled
  next := next
  emits w e := (w.next e).log.drop w.log.length

instance (w : World ι) (e : Event ι) : Decidable (reactive.enabled w e) :=
  inferInstanceAs (Decidable (w.enabled e))

end World
end GreenWallet.Tasks
