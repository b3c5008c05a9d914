import GreenWallet.Tasks.World

/-!
# The dispatcher pass

A pass updates the groups of a dispatcher in turn. A group with a failed task is
swept: all its tasks fail, whatever their status. Otherwise every task that is
`Ready` or `Active` and whose inputs have all finished gets its `update`, which
looks at the session, the context or the device around it. These are inputs of the
pass, since they change for reasons of their own.
-/
namespace GreenWallet.Tasks

inductive DeviceState where
  | uninitialized | unsaved | locked | ready | temporary
deriving DecidableEq, Repr

/-- What `update` reads outside the task. -/
structure Surroundings where
  connected : Bool := true
  /-- `m_session->m_ready`. -/
  ready : Bool := false
  useTor : Bool := false
  useProxy : Bool := false
  ownsTorSession : Bool := false
  torTag : String := ""
  liquid : Bool := false
  wallet : Bool := true
  watchOnly : Bool := false
  /-- `synced()` of each account of the session. -/
  accountsSynced : List Bool := []
  plaintext : Bool := true
  details : Bool := true
  mockSend : Bool := false
  device : Bool := true
  deviceState : DeviceState := .locked
  network : Bool := true
  api : Bool := true
  xpubHashId : String := ""
  boltzSession : Bool := false
  mainnet : Bool := true

/-- The subclasses of `AuthHandlerTask`. -/
def TaskType.isAuthHandler : TaskType → Bool
  | .registerUser | .login | .encryptWithPin | .changeSettings | .loadAccount | .loadAccounts
  | .loadBalance | .createAccount | .updateAccount | .validate | .changeTwoFactor
  | .twoFactorReset | .setCsvTime | .getCredentials | .disableAllPinLogins
  | .twoFactorChangeLimits | .createTransaction | .createRedepositTransaction
  | .signTransaction | .blindTransaction | .sendTransaction | .twoFactorCancelReset
  | .getUnspentOutputs | .setUnspentOutputsStatus | .getTransactions | .getReceiveAddress
  | .getAddresses | .deleteWallet | .signMessage | .ackSystemMessage | .decodeBCUR
  | .encodeBCUR | .rsaVerify => true
  | _ => false

/-- `AuthHandlerTask::active` with its overrides. -/
def TaskType.active (seen : Surroundings) : TaskType → Bool
  | .encryptWithPin => seen.connected && seen.plaintext
  | .sendTransaction => seen.details && seen.connected
  | .loadAccount | .loadAccounts | .loadBalance | .createAccount | .getCredentials
  | .getUnspentOutputs => seen.connected && seen.ready
  | _ => seen.connected

variable {ι : Type} [Fintype ι] [DecidableEq ι]

section Updates
variable (seen : Surroundings) (t : ι) (w : World ι)

/-- Only a `Ready` task goes on, and only once it can. -/
def whenReady (can : Bool) (go : World ι → World ι) : World ι :=
  if w.status t = .ready ∧ can = true then go w else w

/-- The task becomes `Active` and waits for one answer. -/
def launch (pending : Pending) : World ι := (w.setStatus t .active).start t pending

/-- The task does its work at once. -/
def finishAtOnce : World ι := (w.setStatus t .active).setStatus t .finished

def AuthHandlerTask.update : World ι :=
  whenReady t w ((w.tasks t).type.active seen) fun w => launch t w .call

def LoginTask.update : World ι :=
  if seen.ready then w.setStatus t .finished else AuthHandlerTask.update seen t w

def SendTransactionTask.update : World ι :=
  if seen.mockSend then finishAtOnce t w else AuthHandlerTask.update seen t w

def ConnectTask.update (timeout : Int) : World ι :=
  match w.status t with
  | .ready =>
      if seen.useTor && !seen.useProxy && !seen.ownsTorSession && seen.torTag != "done" then w
      else if seen.connected then finishAtOnce t w
      else
        let w := w.setStatus t .active
        (if timeout > 0 then w.start t .connectTimeout else w).start t .connect
  | .active => if seen.connected then w.setStatus t .finished else w
  | _ => w

def LoadTwoFactorConfigTask.update : World ι :=
  whenReady t w seen.wallet fun w =>
    if seen.watchOnly then w.setStatus t .finished
    else if seen.ready then launch t w .work
    else w

def GetWatchOnlyDetailsTask.update : World ι :=
  whenReady t w seen.wallet fun w =>
    if seen.watchOnly then w.setStatus t .finished
    else if seen.ready then launch t w .work
    else w

def LoadCurrenciesTask.update : World ι := whenReady t w seen.ready fun w => launch t w .work

def SendNLocktimesTask.update : World ι := whenReady t w seen.ready fun w => launch t w .work

def GetSystemMessageTask.update : World ι := whenReady t w seen.ready fun w => launch t w .work

def HttpRequestTask.update : World ι := whenReady t w seen.connected fun w => launch t w .work

def LoadAssetsTask.update : World ι :=
  whenReady t w true fun w =>
    if seen.liquid then launch t w .work else w.setStatus t .finished

def SyncAccountsTask.update : World ι :=
  let w := if w.status t = .ready then w.setStatus t .active else w
  if w.status t = .active ∧ seen.accountsSynced.all id = true then w.setStatus t .finished else w

def LoadPaymentsTask.update : World ι := whenReady t w true fun w => launch t w (.fetch "")

def JadeSetupTask.update : World ι :=
  whenReady t w seen.device fun w =>
    if seen.deviceState ≠ .uninitialized ∧ seen.deviceState ≠ .unsaved then
      w.setStatus t .finished
    else if seen.network then
      ((w.setStatus t .active).emit [.setUnlocking t true]).start t .work
    else w

def JadeUnlockTask.update : World ι :=
  whenReady t w seen.device fun w =>
    if seen.deviceState = .ready then w.setStatus t .finished
    else if seen.network then
      let w := (w.setStatus t .active).emit [.setUnlocking t true]
      if seen.api then (w.start t .disconnected).start t .work else w.setStatus t .failed
    else w

def JadeIdentifyTask.update : World ι :=
  whenReady t w (seen.device && seen.network) fun w =>
    match seen.deviceState with
    | .locked => w
    | .temporary => w.start t .identifyUser
    | _ => launch t w .work

def LwkCreateSessionTask.update : World ι :=
  whenReady t w true fun w =>
    let w := w.setStatus t .active
    if seen.boltzSession then w.setStatus t .finished
    else if seen.mainnet then w.start t .work
    else w.setStatus t .failed

def SignupCreateWalletTask.update : World ι := whenReady t w true (finishAtOnce t)

def SignupPersistWalletTask.update : World ι := whenReady t w true (finishAtOnce t)

def WatchOnlyCreateWalletTask.update : World ι :=
  whenReady t w (seen.xpubHashId != "") (finishAtOnce t)

end Updates

namespace World

/-- The virtual call `task->update()`. -/
def update (w : World ι) (seen : Surroundings) (t : ι) : World ι :=
  match (w.tasks t).type with
  | .connect timeout => ConnectTask.update seen t w timeout
  | .login => LoginTask.update seen t w
  | .sendTransaction => SendTransactionTask.update seen t w
  | .loadTwoFactorConfig => LoadTwoFactorConfigTask.update seen t w
  | .getWatchOnlyDetails => GetWatchOnlyDetailsTask.update seen t w
  | .loadCurrencies => LoadCurrenciesTask.update seen t w
  | .sendNLocktimes => SendNLocktimesTask.update seen t w
  | .getSystemMessage => GetSystemMessageTask.update seen t w
  | .httpRequest => HttpRequestTask.update seen t w
  | .loadAssets => LoadAssetsTask.update seen t w
  | .syncAccounts => SyncAccountsTask.update seen t w
  | .loadPayments => LoadPaymentsTask.update t w
  | .jadeSetup => JadeSetupTask.update seen t w
  | .jadeUnlock => JadeUnlockTask.update seen t w
  | .jadeIdentify => JadeIdentifyTask.update seen t w
  | .lwkCreateSession => LwkCreateSessionTask.update seen t w
  | .signupCreateWallet => SignupCreateWalletTask.update t w
  | .signupPersistWallet => SignupPersistWalletTask.update t w
  | .watchOnlyCreateWallet => WatchOnlyCreateWalletTask.update seen t w
  | _ => AuthHandlerTask.update seen t w

/-- The condition of the loop of `TaskGroup::update` for `task->update()`. -/
def isDue (w : World ι) (t : ι) : Bool :=
  (w.status t == .ready || w.status t == .active) &&
    (w.tasks t).inputs.all fun u => w.status u == .finished

/-- One round of the last loop of `TaskGroup::update`. -/
def visit (seen : ι → Surroundings) (w : World ι) (t : ι) : World ι :=
  if w.isDue t then (w.emit [.update t]).update (seen t) t else w

def anyActive (w : World ι) (g : GroupId) : Bool :=
  (w.groups g).tasks.any fun t => w.status t == .active

def anyFailed (w : World ι) (g : GroupId) : Bool :=
  (w.groups g).tasks.any fun t => w.status t == .failed

def allFinished (w : World ι) (g : GroupId) : Bool :=
  (w.groups g).tasks.all fun t => w.status t == .finished

/-- The loop of `TaskGroup::update` over a group with a failed task. -/
def sweep (w : World ι) (ts : List ι) : World ι := ts.foldl (fun w t => w.setStatus t .failed) w

/-- A group shows that one of its tasks is at work. -/
def showActive (w : World ι) (g : GroupId) : World ι :=
  if w.anyActive g then w.setGroupStatus g .active else w

/-- `TaskGroup::update`. -/
def groupUpdate (seen : ι → Surroundings) (w : World ι) (g : GroupId) : World ι :=
  let tasks := (w.groups g).tasks
  if (w.groups g).status = .failed then w
  else if w.allFinished g then w.setGroupStatus g .finished
  else if w.anyFailed g then (w.sweep tasks).setGroupStatus g .failed
  else tasks.foldl (visit seen) (w.showActive g)

/-- `TaskDispatcher::updateBusy`. -/
def updateBusy (w : World ι) (d : DispatcherId) : World ι :=
  w.setBusy d ((w.dispatchers d).groups.any w.anyActive)

/-- `TaskDispatcher::timerEvent`: `update` and `updateBusy`. -/
def dispatcherUpdate (seen : ι → Surroundings) (w : World ι) (d : DispatcherId) : World ι :=
  ((w.dispatchers d).groups.foldl (groupUpdate seen) w).updateBusy d

end World
end GreenWallet.Tasks
