import Mathlib.Data.List.Nodup
import Mathlib.Logic.Function.Basic
import Mathlib.Tactic.SplitIfs
import GreenWallet.Library.Reactive
import GreenWallet.Wallets.Record

/-!
# The notifications of a context

A context lists what the user is to be told about its wallet. Some of the notifications go by
themselves: the one about networks that cannot be reached when all of them have logged in again,
those about a two-factor reset when the session they listen to reports that none is under way,
and the reminder to back up the wallet when the next check finds that it has been done.
-/
namespace GreenWallet.Notifications
open GreenWallet.Library GreenWallet.Wallets

/-- What a notification is about. One about a two-factor reset is connected to a session. -/
inductive Kind (ι : Type) where
  | twoFactorReset (network : ι) (session : ℕ)
  | outage
  | backup
  | other

structure Notification (ι : Type) where
  id : ℕ
  kind : Kind ι

namespace Notification
variable {ι : Type}

def isOutage (notification : Notification ι) : Bool :=
  match notification.kind with
  | .outage => true
  | _ => false

def isBackup (notification : Notification ι) : Bool :=
  match notification.kind with
  | .backup => true
  | _ => false

/-- The notification is connected to the session. -/
def listens (session : ℕ) (notification : Notification ι) : Bool :=
  match notification.kind with
  | .twoFactorReset _ listened => listened == session
  | _ => false

end Notification

/-- `OutageNotification`, which keeps the networks that cannot be reached. -/
structure Outage (ι : Type) where
  notification : ℕ
  m_networks : List ι := []

namespace Outage
variable {ι : Type} [DecidableEq ι]

def add (network : ι) (outage : Outage ι) : Outage ι :=
  if network ∈ outage.m_networks then outage
  else { outage with m_networks := outage.m_networks ++ [network] }

def remove (network : ι) (outage : Outage ι) : Outage ι :=
  { outage with m_networks := outage.m_networks.erase network }

omit [DecidableEq ι] in
def isEmpty (outage : Outage ι) : Bool := outage.m_networks.isEmpty

end Outage

/-- What the context tells its views, with the number of the notification. -/
inductive Signal where
  | notificationAdded (id : ℕ)
  | notificationRemoved (id : ℕ)

/-- The sessions are numbered in the order they are made, and so are the notifications. -/
structure Context (ι : Type) where
  m_sessions : ι → Option ℕ := fun _ => none
  /-- The networks of the sessions made so far. -/
  networks : List ι := []
  m_notifications : List (Notification ι) := []
  m_outage_notification : Option (Outage ι) := none
  /-- How many notifications have been made. -/
  made : ℕ := 0
  /-- What has been emitted so far. -/
  emitted : List Signal := []

namespace Context
variable {ι : Type} [DecidableEq ι]

/-- The session made last. -/
def create (network : ι) (context : Context ι) : Context ι :=
  { context with
    m_sessions := Function.update context.m_sessions network (some context.networks.length)
    networks := context.networks ++ [network] }

def getOrCreateSession (network : ι) (context : Context ι) : Context ι × ℕ :=
  match context.m_sessions network with
  | some session => (context, session)
  | none => (context.create network, context.networks.length)

/-- The session is kept as garbage, and goes on reporting. -/
def releaseSession (network : ι) (context : Context ι) : Context ι :=
  { context with m_sessions := Function.update context.m_sessions network none }

omit [DecidableEq ι] in
def addNotification (kind : Kind ι) (context : Context ι) : Context ι :=
  { context with
    m_notifications := context.m_notifications ++ [⟨context.made, kind⟩]
    made := context.made + 1
    emitted := context.emitted ++ [.notificationAdded context.made] }

omit [DecidableEq ι] in
def removeNotification (id : ℕ) (context : Context ι) : Context ι :=
  { context with
    m_notifications := context.m_notifications.eraseP (·.id == id)
    emitted := context.emitted ++ [.notificationRemoved id] }

/-- A new notification listens to the session its network has by now. -/
def addTwoFactorReset (network : ι) (context : Context ι) : Context ι :=
  (context.getOrCreateSession network).1.addNotification
    (.twoFactorReset network (context.getOrCreateSession network).2)

omit [DecidableEq ι] in
/-- Every notification connected to the session removes itself. -/
def removeListening (session : ℕ) (context : Context ι) : Context ι :=
  { context with
    m_notifications := context.m_notifications.filter fun notification =>
      !notification.listens session
    emitted := context.emitted ++ (context.m_notifications.filter (·.listens session)).map
      fun notification => .notificationRemoved notification.id }

def twoFactorResetEvent (session : ℕ) (event : JsonObject) (context : Context ι) : Context ι :=
  if Json.toBool (event.value "is_active") then
    match context.networks[session]? with
    | some network => context.addTwoFactorReset network
    | none => context
  else context.removeListening session

omit [DecidableEq ι] in
def configChanged (session : ℕ) (config : JsonObject) (context : Context ι) : Context ι :=
  if Json.toBool ((Json.toObject (config.value "twofactor_reset")).value "is_active") then context
  else context.removeListening session

/-- What `requestTwoFactorReset` does when its group has finished. -/
def resetRequested (session : ℕ) (context : Context ι) : Context ι :=
  match context.networks[session]? with
  | some network => context.addTwoFactorReset network
  | none => context

omit [DecidableEq ι] in
/-- The notification about networks that cannot be reached, made if there is none. -/
def outageNotification (context : Context ι) : Context ι × Outage ι :=
  match context.m_outage_notification with
  | some outage => (context, outage)
  | none => (context.addNotification .outage, { notification := context.made })

/-- What `loginNetwork` does when the session has not been connected. -/
def connectFailed (network : ι) (error : String) (context : Context ι) : Context ι :=
  if error = "timeout error" then
    { (context.releaseSession network).outageNotification.1 with
      m_outage_notification :=
        some ((context.releaseSession network).outageNotification.2.add network) }
  else context

/-- What `loginNetwork` does first when the network has logged in. -/
def loginFinished (network : ι) (context : Context ι) : Context ι :=
  match context.m_outage_notification with
  | none => context
  | some outage =>
      if (outage.remove network).isEmpty then
        { context.removeNotification outage.notification with m_outage_notification := none }
      else { context with m_outage_notification := some (outage.remove network) }

omit [DecidableEq ι] in
/-- `pin` says whether the wallet has a PIN, `registered` whether its backup is pending. -/
def checkAndAddBackupWarningNotification (pin registered : Bool) (context : Context ι) :
    Context ι :=
  if pin then
    match context.m_notifications.find? Notification.isBackup with
    | none => if registered then context.addNotification .backup else context
    | some notification => if registered then context else context.removeNotification notification.id
  else context

end Context

inductive Event (ι : Type) where
  /-- Some component asks for the session of a network. -/
  | wanted (network : ι)
  | twoFactorResetEvent (session : ℕ) (event : JsonObject)
  | configChanged (session : ℕ) (config : JsonObject)
  | resetRequested (session : ℕ)
  | connectFailed (network : ι) (error : String)
  | loginFinished (network : ι)
  /-- The login has failed, or another component gives up the session. -/
  | released (network : ι)
  | backupChecked (pin registered : Bool)
  /-- Notifications of another kind come and go. -/
  | added
  | removed (id : ℕ)

namespace Context
variable {ι : Type}

/-- A session reports after it has been made, and other components remove what they have added. -/
def enabled (context : Context ι) : Event ι → Prop
  | .twoFactorResetEvent session _ => session < context.networks.length
  | .configChanged session _ => session < context.networks.length
  | .resetRequested session => session < context.networks.length
  | .removed id => ∃ notification ∈ context.m_notifications,
      notification.id = id ∧ notification.kind = .other
  | _ => True

variable [DecidableEq ι]

def next (context : Context ι) : Event ι → Context ι
  | .wanted network => (context.getOrCreateSession network).1
  | .twoFactorResetEvent session event => context.twoFactorResetEvent session event
  | .configChanged session config => context.configChanged session config
  | .resetRequested session => context.resetRequested session
  | .connectFailed network error => context.connectFailed network error
  | .loginFinished network => context.loginFinished network
  | .released network => context.releaseSession network
  | .backupChecked pin registered => context.checkAndAddBackupWarningNotification pin registered
  | .added => context.addNotification .other
  | .removed id => context.removeNotification id

def notifying : Reactive (Context ι) (Event ι) Empty where
  enabled := enabled
  next := next
  emits := fun _ _ => []

end Context
end GreenWallet.Notifications
