import GreenWallet.Jade.FirmwareCheck
import GreenWallet.Library.Reactive

/-!
# The discovery of Jade devices

The agent scans the serial ports. It keeps a backend for each port, and asks each for its
version info, which says by its `EFUSEMAC` what device is behind the port. A device that is
known already gets the backend; for another one a device is made. Each backend is asked again
and again. What happens to a backend that has been removed does not matter: what it waits for
goes with it.
-/
namespace GreenWallet.Jade.Discovery
open GreenWallet.Library

/-- What the agent reads of a version info: `EFUSEMAC` and `JADE_VERSION`. -/
structure VersionInfo where
  efusemac : String
  version : QVersionNumber
deriving DecidableEq

structure JadeDevice where
  api : Option ℕ := none
  versionInfo : VersionInfo
  connected : Bool := false
  status : ℤ := 0
  systemLocation : String := ""
deriving DecidableEq

def StatusIdle : ℤ := 0

/-- The answer to a request for the version info; a locked backend answers with nothing. -/
inductive Reply where
  | error (message : String)
  | result (info : VersionInfo)
  | nothing
deriving DecidableEq

/-- What is to come for a backend: its port is open for a while, it is probed again, its turn for
an update comes, or a request is answered. A ping knows the device that it is for. -/
inductive Pending where
  | connected (backend : ℕ)
  | probe (backend : ℕ)
  | retry (backend : ℕ)
  | update (backend : ℕ)
  | ping (backend device : ℕ)
  | version (backend : ℕ)
deriving DecidableEq

def Pending.backend : Pending → ℕ
  | .connected backend | .probe backend | .retry backend | .update backend
  | .ping backend _ | .version backend => backend

/-- A port of a scan; it can be opened or not. -/
structure Port where
  systemLocation : String
  opens : Bool

structure Agent where
  /-- A map, in the order of its keys or any other. -/
  m_backends : List (String × ℕ) := []
  made : ℕ := 0
  isConnected : ℕ → Bool := fun _ => false
  m_locked : ℕ → Bool := fun _ => false
  /-- The devices of the manager. -/
  devices : List JadeDevice := []
  pending : List Pending := []
  /-- Timers for a scan, and scans that run. -/
  timers : ℕ := 0
  watchers : ℕ := 1
  crashed : Bool := false

namespace Agent

def await (pending : Pending) (s : Agent) : Agent := { s with pending := s.pending ++ [pending] }

def answered (pending : Pending) (s : Agent) : Agent := { s with pending := s.pending.erase pending }

def modify (device : ℕ) (f : JadeDevice → JadeDevice) (s : Agent) : Agent :=
  { s with devices := s.devices.modify device f }

def deviceFromBackend (s : Agent) (backend : ℕ) : Option ℕ :=
  s.devices.findIdx? fun device => device.api = some backend

def deviceFromEfusemac (s : Agent) (efusemac : String) : Option ℕ :=
  s.devices.findIdx? fun device => device.versionInfo.efusemac = efusemac

def systemLocation (s : Agent) (backend : ℕ) : String :=
  ((s.m_backends.find? fun entry => entry.2 = backend).map Prod.fst).getD ""

/-- The handler of `onDisconnected`. -/
def disconnected (backend : ℕ) (s : Agent) : Agent :=
  match s.deviceFromBackend backend with
  | none => s
  | some device => s.modify device fun d => { d with connected := false }

/-- The port is opened if it is not open; one that does not open is closed at once. -/
def connectDevice (backend : ℕ) (opens : Bool) (s : Agent) : Agent :=
  if s.isConnected backend then s
  else if opens then
    { s with isConnected := Function.update s.isConnected backend true }.await (.connected backend)
  else s.disconnected backend

def probe (backend : ℕ) (opens : Bool) (s : Agent) : Agent :=
  if s.m_locked backend then s else (s.connectDevice backend opens).await (.probe backend)

/-- The device loses its backend. -/
def detach (backend : ℕ) (s : Agent) : Agent :=
  match s.deviceFromBackend backend with
  | none => s
  | some device =>
      s.modify device fun d => { d with api := none, connected := false, status := StatusIdle }

def remove (backend : ℕ) (s : Agent) : Agent :=
  { s.detach backend with
    m_backends := s.m_backends.filter fun entry => entry.2 != backend
    isConnected := Function.update s.isConnected backend false
    pending := s.pending.filter fun pending => pending.backend != backend }

/-- A scan is put off while a firmware is being updated. -/
def scan (s : Agent) : Agent :=
  if s.m_backends.any fun entry => s.m_locked entry.2 then s
  else { s with timers := s.timers - 1, watchers := s.watchers + 1 }

/-- One port of the result of a scan. -/
def found (s : Agent) (port : Port) : Agent :=
  match s.m_backends.lookup port.systemLocation with
  | none =>
      { s with
        m_backends := s.m_backends ++ [(port.systemLocation, s.made)]
        made := s.made + 1 }.probe s.made port.opens
  | some backend => if s.isConnected backend then s else s.probe backend port.opens

/-- The result of a scan. Backends of the ports that are gone are removed. -/
def scanned (ports : List Port) (s : Agent) : Agent :=
  ((s.m_backends.filter fun entry => entry.1 ∉ ports.map Port.systemLocation).map Prod.snd).foldl
    (fun s backend => s.remove backend)
    (ports.foldl found { s with timers := s.timers + 1, watchers := s.watchers - 1 })

/-- The device for a version info. -/
def identify (info : VersionInfo) (s : Agent) : Agent × ℕ :=
  match s.deviceFromEfusemac info.efusemac with
  | some device => (s, device)
  | none => ({ s with devices := s.devices ++ [{ versionInfo := info }] }, s.devices.length)

def probed (backend : ℕ) (reply : Reply) (s : Agent) : Agent :=
  match reply with
  | .error message => if message = "timeout" then s.await (.retry backend) else s
  | .result info =>
      (((s.identify info).1.modify (s.identify info).2 fun d =>
        { d with
          api := some backend
          versionInfo := info
          connected := true
          systemLocation := s.systemLocation backend }).await (.update backend))
  | .nothing => s.await (.update backend)

/-- The version from which a device can be pinged. -/
def pingVersion : QVersionNumber := ⟨[1, 0, 21]⟩

/-- The timer of `updateLater`. -/
def update (backend : ℕ) (busy : Bool) (s : Agent) : Agent :=
  match s.deviceFromBackend backend with
  | none => s
  | some index =>
      match s.devices[index]? with
      | none => s
      | some device =>
          if pingVersion ≤ device.versionInfo.version then
            (s.await (.ping backend index)).await (.version backend)
          else if !busy && !s.m_locked backend then
            (s.modify index fun d => { d with status := StatusIdle }).await (.version backend)
          else
            (s.modify index fun d => { d with status := StatusIdle }).await (.update backend)

/-- A ping with a result looks for the device anew, and takes it that there is one. -/
def pinged (backend device : ℕ) (status : Option ℤ) (s : Agent) : Agent :=
  match status with
  | none => s.modify device fun d => { d with status := StatusIdle }
  | some status =>
      match s.deviceFromBackend backend with
      | none => { s with crashed := true }
      | some device => s.modify device fun d => { d with status := status }

def versioned (backend : ℕ) (reply : Reply) (s : Agent) : Agent :=
  (match s.deviceFromBackend backend with
    | none => s
    | some device =>
        match reply with
        | .error _ => s.modify device fun d => { d with connected := false, status := StatusIdle }
        | .result info => s.modify device fun d => { d with versionInfo := info, connected := true }
        | .nothing => s).await (.update backend)

end Agent

inductive Event where
  | scan
  | scanned (ports : List Port)
  | disconnected (backend : ℕ)
  | setLocked (backend : ℕ) (locked : Bool)
  | connected (backend : ℕ) (opens : Bool)
  | probed (backend : ℕ) (reply : Reply)
  | retry (backend : ℕ) (opens : Bool)
  | update (backend : ℕ) (busy : Bool)
  | pinged (backend device : ℕ) (status : Option ℤ)
  | versioned (backend : ℕ) (reply : Reply)

namespace Agent

/-- A port is listed once and has a name, and what happens to a backend is what it waits for. -/
def enabled (s : Agent) : Event → Prop
  | .scan => 0 < s.timers
  | .scanned ports => 0 < s.watchers ∧ (ports.map Port.systemLocation).Nodup ∧
      "" ∉ ports.map Port.systemLocation
  | .disconnected backend => s.isConnected backend = true
  | .setLocked backend _ => backend ∈ s.m_backends.map Prod.snd
  | .connected backend _ => .connected backend ∈ s.pending
  | .probed backend _ => .probe backend ∈ s.pending
  | .retry backend _ => .retry backend ∈ s.pending
  | .update backend _ => .update backend ∈ s.pending
  | .pinged backend device _ => .ping backend device ∈ s.pending
  | .versioned backend _ => .version backend ∈ s.pending

instance (s : Agent) (e : Event) : Decidable (s.enabled e) := by
  cases e <;> unfold enabled <;> infer_instance

def next (s : Agent) : Event → Agent
  | .scan => s.scan
  | .scanned ports => s.scanned ports
  | .disconnected backend =>
      { s with isConnected := Function.update s.isConnected backend false }.disconnected backend
  | .setLocked backend locked =>
      { s with m_locked := Function.update s.m_locked backend locked }
  | .connected backend opens => (s.answered (.connected backend)).probe backend opens
  | .probed backend reply => (s.answered (.probe backend)).probed backend reply
  | .retry backend opens => (s.answered (.retry backend)).probe backend opens
  | .update backend busy => (s.answered (.update backend)).update backend busy
  | .pinged backend device status => (s.answered (.ping backend device)).pinged backend device status
  | .versioned backend reply => (s.answered (.version backend)).versioned backend reply

end Agent

def agent : Reactive Agent Event Empty where
  enabled s e := s.crashed = false ∧ s.enabled e
  next := Agent.next
  emits _ _ := []

instance (s : Agent) (e : Event) : Decidable (agent.enabled s e) :=
  inferInstanceAs (Decidable (s.crashed = false ∧ s.enabled e))

end GreenWallet.Jade.Discovery
