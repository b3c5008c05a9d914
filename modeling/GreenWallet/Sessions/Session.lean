import GreenWallet.Library.Reactive
import GreenWallet.Wallets.Objects

/-!
# A session

A session turns the notifications of the network library into its own state and into signals.
It also watches the user: after a time without input, which the settings give, it asks for a
logout. Its timers are those of a `QObject`; a coarse timer may time out early, by one part in
twenty of its interval.
-/
namespace GreenWallet.Sessions
open GreenWallet.Library GreenWallet.Wallets

structure Network where
  isMainnet : Bool
  isLiquid : Bool

inductive Signal where
  | notificationHandled (notification : JsonObject)
  | activeChanged
  | eventsChanged
  | connectedChanged
  | networkEvent (event : JsonObject)
  | torEvent (event : JsonObject)
  | settingsChanged
  | unitChanged
  | twoFactorResetEvent (event : JsonObject)
  | blockChanged
  | blockEvent (event : JsonObject)
  | transactionEvent (event : JsonObject)
  | tickerEvent
  | subaccountEvent (event : JsonObject)
  | autoLogoutTriggered

/-- A timer that runs, in milliseconds. -/
structure Timer where
  id : ℤ
  interval : ℕ
  elapsed : ℕ := 0
deriving DecidableEq

/-- `QEvent::Type`, the input events by name. -/
inductive EventType where
  | mouseButtonPress
  | mouseButtonRelease
  | mouseButtonDblClick
  | mouseMove
  | keyPress
  | keyRelease
  | wheel
  | other (type : ℕ)
deriving DecidableEq

/-- The logout timer with the timers of the object, how many it has started, and whether it is
an event filter of the application. -/
structure LogoutTimer where
  m_altimeout : Int32 := 0
  m_logout_timer : ℤ := -1
  timers : List Timer := []
  started : ℕ := 0
  filters : Bool := false

structure Session where
  m_network : Network
  m_active : Bool := false
  /-- The `GA_session`, if there is one. -/
  m_session : Option ℕ := none
  m_id : ℕ := 0
  m_connected : Bool := false
  m_events : String → Option Json := fun _ => none
  m_block : JsonObject := []
  m_settings : JsonObject := []
  m_unit : String := ""
  m_display_unit : String := ""
  logout : LogoutTimer := {}
  emitted : List Signal := []

namespace LogoutTimer

def startTimer (interval : ℕ) (logout : LogoutTimer) : LogoutTimer :=
  { logout with
    m_logout_timer := logout.started + 1
    timers := logout.timers ++ [{ id := logout.started + 1, interval := interval }]
    started := logout.started + 1 }

def killTimer (id : ℤ) (logout : LogoutTimer) : LogoutTimer :=
  { logout with timers := logout.timers.filter fun timer => timer.id != id }

/-- The timer is killed, and there is none. -/
def stop (logout : LogoutTimer) : LogoutTimer :=
  { logout.killTimer logout.m_logout_timer with m_logout_timer := -1 }

def clear (logout : LogoutTimer) : LogoutTimer :=
  if logout.m_logout_timer ≠ -1 then logout.stop else logout

/-- In milliseconds; the source computes it as an `int`, which holds up to 35791 minutes. -/
def interval (altimeout : Int32) : ℕ := altimeout.toInt.toNat * 60 * 1000

def setAltimeout (altimeout : Int32) (logout : LogoutTimer) : LogoutTimer :=
  if logout.m_altimeout = altimeout then logout
  else if 0 < altimeout then
    { logout.clear.startTimer (interval altimeout) with
      m_altimeout := altimeout
      filters := true }
  else { logout.clear with m_altimeout := altimeout, filters := false }

/-- Input starts the timer anew if it runs. -/
def eventFilter (type : EventType) (logout : LogoutTimer) : LogoutTimer :=
  match type with
  | .mouseButtonPress | .mouseButtonRelease | .mouseButtonDblClick | .mouseMove
  | .keyPress | .keyRelease | .wheel =>
      if logout.m_logout_timer ≠ -1 then
        (logout.killTimer logout.m_logout_timer).startTimer (interval logout.m_altimeout)
      else logout
  | .other _ => logout

/-- Time passes. -/
def elapse (milliseconds : ℕ) (logout : LogoutTimer) : LogoutTimer :=
  { logout with
    timers := logout.timers.map fun timer =>
      { timer with elapsed := timer.elapsed + milliseconds } }

end LogoutTimer

def computeDisplayUnit (network : Network) (unit : String) : String :=
  (if network.isLiquid then "L" else "") ++
    if network.isMainnet then
      if unit = "btc" then "BTC" else unit
    else if unit = "BTC" ∨ unit = "btc" then "TEST"
    else if unit = "mBTC" then "mTEST"
    else if unit = "\u00B5BTC" then "\u00B5TEST"
    else if unit = "bits" then "bTEST"
    else if unit = "sats" then "sTEST"
    else unit

namespace Session

def emit (signal : Signal) (session : Session) : Session :=
  { session with emitted := session.emitted ++ [signal] }

def setConnected (connected : Bool) (session : Session) : Session :=
  if session.m_connected = connected then session
  else emit .connectedChanged { session with m_connected := connected }

def setBlock (block : JsonObject) (session : Session) : Session :=
  if session.m_block = block then session
  else emit .blockChanged { session with m_block := block }

def setUnit (unit : String) (session : Session) : Session :=
  if session.m_unit = unit then session
  else
    emit .unitChanged
      { session with
        m_unit := unit
        m_display_unit := computeDisplayUnit session.m_network unit }

def setAltimeout (altimeout : Int32) (session : Session) : Session :=
  { session with logout := session.logout.setAltimeout altimeout }

def setSettings (settings : JsonObject) (session : Session) : Session :=
  if session.m_settings = settings then session
  else
    emit .settingsChanged
      (setAltimeout (Json.toInt (settings.value "altimeout"))
        (setUnit (Json.toString (settings.value "unit")) { session with m_settings := settings }))

/-- What follows on an event, by its name; the library sends no other. -/
def handleEvent (event : String) (value : Option Json) (session : Session) : Session :=
  if event = "network" then
    emit (.networkEvent (Json.toObject value))
      (setConnected (Json.toString ((Json.toObject value).value "current_state") = "connected")
        session)
  else if event = "tor" then session.emit (.torEvent (Json.toObject value))
  else if event = "settings" then session.setSettings (Json.toObject value)
  else if event = "twofactor_reset" then session.emit (.twoFactorResetEvent (Json.toObject value))
  else if event = "block" then
    emit (.blockEvent (Json.toObject value)) (session.setBlock (Json.toObject value))
  else if event = "transaction" then session.emit (.transactionEvent (Json.toObject value))
  else if event = "ticker" then session.emit .tickerEvent
  else if event = "subaccount" then session.emit (.subaccountEvent (Json.toObject value))
  else session

def setEvent (event : String) (value : Option Json) (session : Session) : Session :=
  emit .eventsChanged { session with m_events := Function.update session.m_events event value }

def handleNotification (notification : JsonObject) (session : Session) : Session :=
  handleEvent (Json.toString (notification.value "event"))
    (notification.value (Json.toString (notification.value "event")))
    (setEvent (Json.toString (notification.value "event"))
      (notification.value (Json.toString (notification.value "event")))
      (session.emit (.notificationHandled notification)))

def eventFilter (type : EventType) (session : Session) : Session :=
  { session with logout := session.logout.eventFilter type }

def timerEvent (id : ℤ) (session : Session) : Session :=
  if id = session.logout.m_logout_timer then
    emit .autoLogoutTriggered { session with logout := session.logout.stop }
  else session

def elapse (milliseconds : ℕ) (session : Session) : Session :=
  { session with logout := session.logout.elapse milliseconds }

end Session
end GreenWallet.Sessions
