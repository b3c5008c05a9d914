import GreenWallet.Jade.UpdateActivity

/-!
# The lock of a firmware update

`update` marks the API of the device as locked and fetches the firmware, `install` uploads it,
and every end of an upload unlocks the API that the device has by then. A fetch that comes to
nothing unlocks none. While it is locked, an API answers `ping` and `getVersionInfo` itself.
-/
namespace GreenWallet.Jade
open GreenWallet.Library

/-- Conversions of values that the model knows no more of. -/
structure Conversions where
  toLongLong : Variant → Int
  /-- The number is 1. -/
  isOne : Variant → Bool
  fromUtf8 : List UInt8 → String

namespace Variant

/-- `QVariant == true`: numbers are compared as such, and other kinds differ. -/
def equalsTrue (qt : Conversions) : Variant → Bool
  | .bool value => value
  | .int value => value == 1
  | .other asBool asBytes => qt.isOne (.other asBool asBytes)
  | _ => false

/-- `QVariant::toString`, of what may be a text. -/
def toMessage (qt : Conversions) : Variant → String
  | .bytes value => qt.fromUtf8 value
  | v => v.toText

end Variant

namespace JadeAPI

/-- `locked` is `m_locked`; the posted callback is called before the next message. -/
def ping (idgen : ℕ → Fin 90000) (locked : Bool) (cb : ℕ) (api : JadeAPI) : Int × JadeAPI :=
  if locked then (0, api.put (.called cb [("result", .int 1)]))
  else
    let (id, api) := api.registerResponseHandler idgen (.client cb) 1000
    (id, api.send (getRequest id "ping" .null))

def getVersionInfo (idgen : ℕ → Fin 90000) (locked nonblocking : Bool) (cb : ℕ) (api : JadeAPI) :
    Int × JadeAPI :=
  if locked then (0, api.put (.called cb []))
  else
    let (id, api) := api.registerResponseHandler idgen (.client cb) 6000
    (id, api.enqueue (getRequest id "get_version_info" (.map [("nonblocking", .bool nonblocking)])))

end JadeAPI

/-- How an upload ends: the signals of `JadeUpdateActivity`. -/
inductive UpdateOutcome where
  | finished
  | cancelled
  | locked
  | failed
deriving DecidableEq, Repr

/-- The `done_cb` of `JadeUpdateActivity`. -/
def JadeUpdateActivity.done (qt : Conversions) (result : Fields) : UpdateOutcome :=
  if (result.value "result").equalsTrue qt then .finished
  else
    let error := (result.value "error").toMap
    let code := (error.value "code").toLongLong qt.toLongLong
    let message := (error.value "message").toMessage qt
    if code = -32000 then .cancelled
    else if code = -32002 ∨ message = "OTA is only allowed on new or logged-in device." then .locked
    else .failed

/-- What an `HttpRequestActivity` has got: it fails without any response. -/
structure HttpRequestActivity where
  response : Fields

namespace HttpRequestActivity

def fails (activity : HttpRequestActivity) : Bool := activity.response.isEmpty

def hasError (activity : HttpRequestActivity) : Bool := activity.response.contains "error"

end HttpRequestActivity

/-- Where the update is, with the APIs that the device had as it was locked. -/
inductive UpdatePhase (ι : Type) where
  | idle
  | fetching (called : ι)
  | uploading (called installed : ι)
  /-- The upload has finished, and the device restarts for 5 s. -/
  | restarting (called installed : ι)

structure JadeFirmwareUpdateController (ι : Type) where
  /-- `m_device->api()`. -/
  api : Option ι := none
  /-- `m_locked` of each API. -/
  locked : ι → Bool := fun _ => false
  versionInfo : Fields := []
  firmware : Fields := []
  fetching : Bool := false
  updating : Bool := false
  phase : UpdatePhase ι := .idle
  /-- A null `m_device->api()` was dereferenced. -/
  crashed : Bool := false

inductive UpdateEvent (ι : Type) where
  /-- The discovery agent gives the device another API, or takes it away. -/
  | setBackend (api : Option ι)
  | setVersionInfo (version_info : Fields)
  | setFirmware (firmware : Fields)
  | update
  | fetched (activity : HttpRequestActivity)
  /-- The upload ends, and what the device says. -/
  | uploaded (result : Fields)
  /-- The 5 s after a finished upload are over. -/
  | restarted

inductive UpdateSignal where
  | updateFinished
  | updateCancelled
  | unlockRequired
  | updateFailed
deriving DecidableEq, Repr

namespace JadeFirmwareUpdateController
variable {ι : Type}

/-- Use of `m_device->api()`. -/
def withApi (s : JadeFirmwareUpdateController ι)
    (f : ι → JadeFirmwareUpdateController ι) : JadeFirmwareUpdateController ι :=
  match s.api with
  | none => { s with crashed := true }
  | some api => f api

variable [DecidableEq ι]

def setLocked (api : ι) (locked : Bool) (s : JadeFirmwareUpdateController ι) :
    JadeFirmwareUpdateController ι :=
  { s with locked := Function.update s.locked api locked }

def update (s : JadeFirmwareUpdateController ι) : JadeFirmwareUpdateController ι :=
  s.withApi fun api =>
    { s.setLocked api true with updating := true, fetching := true, phase := .fetching api }

def install (called : ι) (s : JadeFirmwareUpdateController ι) : JadeFirmwareUpdateController ι :=
  s.withApi fun api => { s.setLocked api true with phase := .uploading called api }

/-- The handlers of `failed` and `finished` of the request. -/
def fetched (activity : HttpRequestActivity) (called : ι) (s : JadeFirmwareUpdateController ι) :
    JadeFirmwareUpdateController ι :=
  let s := { s with fetching := false, updating := false }
  if activity.fails then { s with phase := .idle }
  else if activity.hasError then { s with phase := .idle }
  else s.install called

/-- The handlers of `cancelled`, `locked` and `failed` of the upload. -/
def release (s : JadeFirmwareUpdateController ι) : JadeFirmwareUpdateController ι :=
  { s with updating := false }.withApi fun api =>
    { s.setLocked api false with updating := false, phase := .idle }

/-- The handler of `finished` of the upload. -/
def finished (called installed : ι) (s : JadeFirmwareUpdateController ι) :
    JadeFirmwareUpdateController ι :=
  let version_info := (s.versionInfo.insert "JADE_VERSION" (s.firmware.value "version")).insert
    "JADE_CONFIG" (s.firmware.value "config")
  let version_info :=
    if (version_info.value "JADE_STATE").toText = "READY" then
      version_info.insert "JADE_STATE" (.text "LOCKED")
    else version_info
  { s with versionInfo := version_info, phase := .restarting called installed }

def uploaded (outcome : UpdateOutcome) (called installed : ι)
    (s : JadeFirmwareUpdateController ι) : JadeFirmwareUpdateController ι :=
  match outcome with
  | .finished => s.finished called installed
  | .cancelled | .locked | .failed => s.release

/-- The timer; the API disconnects from the device and connects to it again. -/
def restarted (s : JadeFirmwareUpdateController ι) : JadeFirmwareUpdateController ι :=
  s.withApi fun api => { s.setLocked api false with phase := .idle }

variable (qt : Conversions)

def next (s : JadeFirmwareUpdateController ι) : UpdateEvent ι → JadeFirmwareUpdateController ι
  | .setBackend api => { s with api := api }
  | .setVersionInfo version_info => { s with versionInfo := version_info }
  | .setFirmware firmware => { s with firmware := firmware }
  | .update => s.update
  | .fetched activity =>
      match s.phase with
      | .fetching called => s.fetched activity called
      | _ => s
  | .uploaded result =>
      match s.phase with
      | .uploading called installed =>
          s.uploaded (JadeUpdateActivity.done qt result) called installed
      | _ => s
  | .restarted => s.restarted

/-- What can happen in a phase: a page updates with a controller of its own, and only once. -/
def awaits : UpdatePhase ι → UpdateEvent ι → Bool
  | _, .setBackend _ | _, .setVersionInfo _ | _, .setFirmware _ => true
  | .idle, .update => true
  | .fetching _, .fetched _ => true
  | .uploading .., .uploaded _ => true
  | .restarting .., .restarted => true
  | _, _ => false

def enabled (s : JadeFirmwareUpdateController ι) (e : UpdateEvent ι) : Prop :=
  s.crashed = false ∧ awaits s.phase e = true

/-- Without an API the handlers do not come to their signal. -/
def emits (s : JadeFirmwareUpdateController ι) : UpdateEvent ι → List UpdateSignal
  | .uploaded result =>
      match JadeUpdateActivity.done qt result with
      | .finished => []
      | .cancelled => (s.api.map fun _ => .updateCancelled).toList
      | .locked => (s.api.map fun _ => .unlockRequired).toList
      | .failed => (s.api.map fun _ => .updateFailed).toList
  | .restarted => (s.api.map fun _ => .updateFinished).toList
  | _ => []

end JadeFirmwareUpdateController

section
variable {ι : Type} [DecidableEq ι] (qt : Conversions)

def firmwareUpdate : Reactive (JadeFirmwareUpdateController ι) (UpdateEvent ι) UpdateSignal where
  enabled := JadeFirmwareUpdateController.enabled
  next := JadeFirmwareUpdateController.next qt
  emits := JadeFirmwareUpdateController.emits qt

instance (s : JadeFirmwareUpdateController ι) (e : UpdateEvent ι) :
    Decidable ((firmwareUpdate qt).enabled s e) :=
  inferInstanceAs (Decidable (s.crashed = false ∧ JadeFirmwareUpdateController.awaits s.phase e = true))

end

namespace JadeAPI
variable {idgen : ℕ → Fin 90000}

/-- A locked API sends nothing. -/
theorem sentRequests_of_locked (nonblocking : Bool) (cb : ℕ) (api : JadeAPI) :
    (api.ping idgen true cb).2.sentRequests = api.sentRequests ∧
      (api.getVersionInfo idgen true nonblocking cb).2.sentRequests = api.sentRequests := by
  simp [ping, getVersionInfo, sentRequests, put, Output.request]

end JadeAPI

namespace JadeFirmwareUpdateController
variable {ι : Type}

/-- Once no update is under way, nothing of one is left. -/
structure Released (s : JadeFirmwareUpdateController ι) : Prop where
  survives : s.crashed = false
  updating : s.phase = .idle → s.updating = false
  unlocked : s.phase = .idle → ∀ api, s.locked api = false

/-- The firmware that is fetched arrives, and the device has one API from the call of `update`
to the end of the upload. -/
def Completes (qt : Conversions) (s : JadeFirmwareUpdateController ι) : UpdateEvent ι → Prop
  | .update => s.api ≠ none
  | .fetched activity => activity.fails = false ∧ activity.hasError = false ∧ s.api ≠ none
  | .uploaded result => ∀ called installed, s.phase = .uploading called installed →
      JadeUpdateActivity.done qt result = .finished ∨ s.api = some called ∧ s.api = some installed
  | .restarted => ∀ called installed, s.phase = .restarting called installed →
      s.api = some called ∧ s.api = some installed
  | _ => True

/-- The APIs that are locked in a phase. -/
def apis : UpdatePhase ι → List ι
  | .idle => []
  | .fetching called => [called]
  | .uploading called installed | .restarting called installed => [called, installed]

/-- What is locked, and what `updating` shows. -/
structure Tracked (s : JadeFirmwareUpdateController ι) : Prop where
  locked : ∀ api, s.locked api = true ↔ api ∈ apis s.phase
  updating : s.updating = true → ∃ called, s.phase = .fetching called

variable [DecidableEq ι] {qt : Conversions} {s s' : JadeFirmwareUpdateController ι}

/-- A step that unlocks the API the device has leaves nothing exactly if it was the only one. -/
theorem Tracked.unlocks (h : s.Tracked) {called installed : ι}
    (hapis : apis s.phase = [called, installed]) (hcrashed : s.api = none → s'.crashed = true)
    (hidle : ∀ api, s.api = some api → s'.crashed = false ∧ s'.updating = false ∧
      s'.phase = .idle ∧ s'.locked = Function.update s.locked api false) :
    (s'.Released ↔ s.api = some called ∧ s.api = some installed) ∧ (s'.Released → s'.Tracked) := by
  cases hapi : s.api with
  | none =>
      have hnot : ¬ s'.Released := fun hs => by
        have hsurvives := hs.survives
        rw [hcrashed hapi] at hsurvives
        cases hsurvives
      exact ⟨iff_of_false hnot fun hand => (by cases hand.1), fun hs => absurd hs hnot⟩
  | some api =>
      obtain ⟨hsurvives, hupdating, hphase, hlocked⟩ := hidle api hapi
      have hbefore : ∀ x, s.locked x = true ↔ x = called ∨ x = installed := by
        intro x
        rw [h.locked, hapis]
        simp
      constructor
      · constructor
        · intro hs
          have hfree := hs.unlocked hphase
          rw [hlocked] at hfree
          have honly : ∀ x, s.locked x = true → api = x := by
            intro x hx
            by_contra hne
            have hx' := hfree x
            rw [Function.update_of_ne (Ne.symm hne), hx] at hx'
            cases hx'
          exact ⟨congrArg some (honly called ((hbefore called).mpr (.inl rfl))),
            congrArg some (honly installed ((hbefore installed).mpr (.inr rfl)))⟩
        · intro ⟨hcalled, hinstalled⟩
          obtain rfl := Option.some.inj hcalled
          obtain rfl := Option.some.inj hinstalled
          refine ⟨hsurvives, fun _ => hupdating, fun _ x => ?_⟩
          rw [hlocked]
          by_cases hx : x = api
          · rw [hx, Function.update_self]
          · rw [Function.update_of_ne hx, ← Bool.not_eq_true, hbefore, or_self]
            exact hx
      · intro hs
        refine ⟨fun x => ?_, fun htrue => ?_⟩
        · rw [hs.unlocked hphase, hphase]
          simp [apis]
        · rw [hupdating] at htrue
          cases htrue

/-- A step that locks the API the device has is survived exactly if there is one. -/
theorem Tracked.locks (h : s.Tracked)
    (hupdating : s'.updating = true → ∃ called, s'.phase = .fetching called)
    (hcrashed : s.api = none → s'.crashed = true)
    (hlocked : ∀ api, s.api = some api → s'.crashed = false ∧ s'.phase ≠ .idle ∧
      s'.locked = Function.update s.locked api true ∧
      ∀ x, x ∈ apis s'.phase ↔ x = api ∨ x ∈ apis s.phase) :
    (s'.Released ↔ s.api ≠ none) ∧ (s'.Released → s'.Tracked) := by
  cases hapi : s.api with
  | none =>
      have hnot : ¬ s'.Released := fun hs => by
        have hsurvives := hs.survives
        rw [hcrashed hapi] at hsurvives
        cases hsurvives
      exact ⟨iff_of_false hnot fun hne => hne rfl, fun hs => absurd hs hnot⟩
  | some api =>
      obtain ⟨hsurvives, hphase, hupdate, hapis⟩ := hlocked api hapi
      refine ⟨iff_of_true ⟨hsurvives, fun hidle => absurd hidle hphase,
        fun hidle => absurd hidle hphase⟩ (by simp), fun _ => ⟨fun x => ?_, hupdating⟩⟩
      rw [hupdate, hapis, ← h.locked]
      by_cases hx : x = api
      · simp [hx]
      · simp [hx]

omit [DecidableEq ι] in
/-- An update that comes to an end while it fetches leaves the API locked. -/
theorem Tracked.not_released_of_ends (h : s.Tracked) {called : ι}
    (hphase : s.phase = .fetching called) (hidle : s'.phase = .idle)
    (hlocked : s'.locked = s.locked) : ¬ s'.Released := by
  intro hs
  have hfree := hs.unlocked hidle called
  rw [hlocked, ← Bool.not_eq_true, h.locked, hphase] at hfree
  exact hfree List.mem_cons_self

theorem Tracked.update (h : s.Tracked) (hsurvives : s.crashed = false) (hphase : s.phase = .idle) :
    (s.update.Released ↔ s.api ≠ none) ∧ (s.update.Released → s.update.Tracked) := by
  refine h.locks ?_ ?_ ?_
  · cases hapi : s.api with
    | none => simpa [JadeFirmwareUpdateController.update, withApi, hapi] using h.updating
    | some api => simp [JadeFirmwareUpdateController.update, withApi, hapi]
  · intro hapi
    simp [JadeFirmwareUpdateController.update, withApi, hapi]
  · intro api hapi
    simp [JadeFirmwareUpdateController.update, withApi, hapi, setLocked, hsurvives, hphase, apis]

theorem Tracked.fetched (h : s.Tracked) (hsurvives : s.crashed = false) {called : ι}
    (hphase : s.phase = .fetching called) (activity : HttpRequestActivity) :
    ((s.fetched activity called).Released ↔
        activity.fails = false ∧ activity.hasError = false ∧ s.api ≠ none) ∧
      ((s.fetched activity called).Released → (s.fetched activity called).Tracked) := by
  have hends : ¬ ({ s with fetching := false, updating := false, phase := .idle } :
      JadeFirmwareUpdateController ι).Released := h.not_released_of_ends hphase rfl rfl
  unfold JadeFirmwareUpdateController.fetched
  cases hfails : activity.fails with
  | true => exact ⟨iff_of_false hends (by simp), fun hs => absurd hs hends⟩
  | false =>
      cases herror : activity.hasError with
      | true => exact ⟨iff_of_false hends (by simp), fun hs => absurd hs hends⟩
      | false =>
          simp only [Bool.false_eq_true, if_false, true_and]
          refine h.locks ?_ ?_ ?_
          · cases hapi : s.api <;> simp [install, withApi, setLocked]
          · intro hapi
            simp [install, withApi, hapi]
          · intro api hapi
            simp [install, withApi, hapi, setLocked, hsurvives, hphase, apis, or_comm]

omit [DecidableEq ι] in
theorem Tracked.updating_eq (h : s.Tracked) (hphase : ∀ called, s.phase ≠ .fetching called) :
    s.updating = false := by
  by_contra hupdating
  obtain ⟨called, hcalled⟩ := h.updating (by simpa using hupdating)
  exact hphase called hcalled

theorem Tracked.uploaded (h : s.Tracked) (hsurvives : s.crashed = false) {called installed : ι}
    (hphase : s.phase = .uploading called installed) (outcome : UpdateOutcome) :
    ((s.uploaded outcome called installed).Released ↔
        outcome = .finished ∨ s.api = some called ∧ s.api = some installed) ∧
      ((s.uploaded outcome called installed).Released →
        (s.uploaded outcome called installed).Tracked) := by
  have hunlocks : (s.release.Released ↔ s.api = some called ∧ s.api = some installed) ∧
      (s.release.Released → s.release.Tracked) := by
    refine h.unlocks (by rw [hphase]; rfl) ?_ ?_
    · intro hapi
      simp [release, withApi, hapi]
    · intro api hapi
      simp [release, withApi, hapi, setLocked, hsurvives]
  cases outcome with
  | finished =>
      refine ⟨iff_of_true ⟨hsurvives, ?_, ?_⟩ (.inl rfl), fun _ => ⟨fun api => ?_, fun htrue => ?_⟩⟩
      · rintro ⟨⟩
      · rintro ⟨⟩
      · have hlocked := h.locked api
        rw [hphase] at hlocked
        exact hlocked
      · have hfalse := h.updating_eq fun other => by simp [hphase]
        exact absurd (hfalse.symm.trans htrue) (by decide)
  | cancelled | locked | failed =>
      simp only [reduceCtorEq, false_or]
      exact hunlocks

theorem Tracked.restarted (h : s.Tracked) (hsurvives : s.crashed = false) {called installed : ι}
    (hphase : s.phase = .restarting called installed) :
    (s.restarted.Released ↔ s.api = some called ∧ s.api = some installed) ∧
      (s.restarted.Released → s.restarted.Tracked) := by
  have hfalse : s.updating = false := h.updating_eq fun other => by simp [hphase]
  refine h.unlocks (by rw [hphase]; rfl) ?_ ?_
  · intro hapi
    simp [JadeFirmwareUpdateController.restarted, withApi, hapi]
  · intro api hapi
    simp [JadeFirmwareUpdateController.restarted, withApi, hapi, setLocked, hsurvives, hfalse]

theorem Tracked.released_next (h : s.Tracked) (hs : s.Released) {e : UpdateEvent ι}
    (he : s.enabled e) :
    ((s.next qt e).Released ↔ s.Completes qt e) ∧
      ((s.next qt e).Released → (s.next qt e).Tracked) := by
  obtain ⟨hsurvives, hawaits⟩ := he
  cases e with
  | setBackend | setVersionInfo | setFirmware =>
      exact ⟨iff_of_true ⟨hsurvives, hs.updating, hs.unlocked⟩ trivial,
        fun _ => ⟨h.locked, h.updating⟩⟩
  | update =>
      cases hphase : s.phase with
      | idle => exact h.update hsurvives hphase
      | _ => simp [hphase, awaits] at hawaits
  | fetched activity =>
      cases hphase : s.phase with
      | fetching called =>
          simp only [next, hphase]
          exact h.fetched hsurvives hphase activity
      | _ => simp [hphase, awaits] at hawaits
  | uploaded result =>
      cases hphase : s.phase with
      | uploading called installed =>
          have hcompletes : s.Completes qt (.uploaded result) ↔
              JadeUpdateActivity.done qt result = .finished ∨
                s.api = some called ∧ s.api = some installed := by
            simp only [Completes, hphase, UpdatePhase.uploading.injEq, and_imp]
            exact ⟨fun hand => hand called installed rfl rfl, by rintro hand _ _ rfl rfl; exact hand⟩
          rw [hcompletes]
          simp only [next, hphase]
          exact h.uploaded hsurvives hphase _
      | _ => simp [hphase, awaits] at hawaits
  | restarted =>
      cases hphase : s.phase with
      | restarting called installed =>
          have hcompletes : s.Completes qt .restarted ↔
              s.api = some called ∧ s.api = some installed := by
            simp only [Completes, hphase, UpdatePhase.restarting.injEq, and_imp]
            exact ⟨fun hand => hand called installed rfl rfl, by rintro hand _ _ rfl rfl; exact hand⟩
          rw [hcompletes]
          exact h.restarted hsurvives hphase
      | _ => simp [hphase, awaits] at hawaits

end JadeFirmwareUpdateController

/-- An update of a device with an API. -/
def updateWith (activity : HttpRequestActivity) : List (UpdateEvent Unit) :=
  [.setBackend (some ()), .update, .fetched activity]

/-- Numbers besides integers are neither whole nor 1. -/
def noConversions : Conversions where
  toLongLong _ := 0
  isOne _ := false
  fromUtf8 _ := ""

end GreenWallet.Jade
