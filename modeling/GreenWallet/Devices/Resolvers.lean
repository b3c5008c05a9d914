import GreenWallet.Jade.AllowList
import GreenWallet.Ledger.Framing
import GreenWallet.Library.Serial
import GreenWallet.Wallets.Record

/-!
# Resolvers that ask the device

The server may need data that only the device has. A resolver starts one activity of the device
after the other and puts what they have obtained into lists. An activity may end at once, in
`exec`; the handlers and `resolve` have nothing left to do then, so that it makes no difference.
-/
namespace GreenWallet.Devices
open GreenWallet.Library GreenWallet.Ledger GreenWallet.Wallets
open GreenWallet.Jade (toHex fromHex)

inductive DeviceActivity where
  | getWalletPublicKey (path : List UInt32)
  | getBlindingKey (script : String)
  | getBlindingNonce (pubkey script : Bytes)
deriving DecidableEq

/-- An activity finishes with what it was started for, or fails with its `message`. -/
abbrev Ending := Except JsonObject Bytes

inductive ResolverSignal where
  | progress (current total : ℕ)
  | resolved (data : List (String × List String))
  | failed (error : String)
deriving DecidableEq

def ResolverSignal.isLast : ResolverSignal → Bool
  | .progress _ _ => false
  | .resolved _ => true
  | .failed _ => true

structure DeviceResolver where
  m_required_data : JsonObject
  /-- The activity that has been started and has not ended. -/
  activity : Option DeviceActivity := none
  /-- Those that have ended, in their order. -/
  endings : List (DeviceActivity × Ending) := []
  signals : List ResolverSignal := []

namespace DeviceResolver

def ofResult (result : JsonObject) : DeviceResolver where
  m_required_data := Json.toObject (result.value "required_data")

def getActivityError (message : JsonObject) (defaultMessage : String) : String :=
  let error := Json.toString (message.value "message")
  if error.isEmpty then defaultMessage else error

def emit (s : DeviceResolver) (signal : ResolverSignal) : DeviceResolver :=
  { s with signals := s.signals ++ [signal] }

/-- `ActivityManager::exec`. -/
def exec (s : DeviceResolver) (activity : DeviceActivity) : DeviceResolver :=
  { s with activity := some activity }

def ended (s : DeviceResolver) (activity : DeviceActivity) (ending : Ending) : DeviceResolver :=
  { s with activity := none, endings := s.endings ++ [(activity, ending)] }

def fail (s : DeviceResolver) (message : JsonObject) (defaultMessage : String) : DeviceResolver :=
  s.emit (.failed (getActivityError message defaultMessage))

end DeviceResolver

/-! ## Public keys of the wallet -/

structure GetXPubsResolver extends DeviceResolver where
  m_paths : List (List UInt32)
  m_xpubs : List String := []

/-- A number of a path, which is converted from a `double`. -/
def toUInt32 : Json → UInt32
  | .number value => .ofNat (value.num.toNat / value.den)
  | _ => 0

namespace GetXPubsResolver

def ofResult (result : JsonObject) : GetXPubsResolver :=
  let resolver := DeviceResolver.ofResult result
  { resolver with
    m_paths := (Json.toArray (resolver.m_required_data.value "paths")).map fun path =>
      (Json.toArray (some path)).map toUInt32 }

def resolve (s : GetXPubsResolver) : GetXPubsResolver :=
  let s := { s with
    toDeviceResolver :=
      s.emit (.progress s.m_xpubs.length (s.m_xpubs.length + s.m_paths.length)) }
  match s.m_paths with
  | [] => { s with toDeviceResolver := s.emit (.resolved [("xpubs", s.m_xpubs)]) }
  | path :: rest =>
      { s with toDeviceResolver := s.exec (.getWalletPublicKey path), m_paths := rest }

/-- The handlers of the activity. -/
def handle (fromLocal8Bit : Bytes → String) (s : GetXPubsResolver) (activity : DeviceActivity)
    (ending : Ending) : GetXPubsResolver :=
  let s := { s with toDeviceResolver := s.ended activity ending }
  match ending with
  | .ok publicKey => { s with m_xpubs := s.m_xpubs ++ [fromLocal8Bit publicKey] }.resolve
  | .error message =>
      { s with toDeviceResolver := s.fail message "Failed to get wallet public key" }

end GetXPubsResolver

/-! ## Blinding keys -/

structure BlindingKeysResolver extends DeviceResolver where
  m_scripts : List Json
  m_public_keys : List String := []

namespace BlindingKeysResolver

def ofResult (result : JsonObject) : BlindingKeysResolver :=
  let resolver := DeviceResolver.ofResult result
  { resolver with m_scripts := Json.toArray (resolver.m_required_data.value "scripts") }

def resolve (s : BlindingKeysResolver) : BlindingKeysResolver :=
  if s.m_public_keys.length = s.m_scripts.length then
    { s with toDeviceResolver := s.emit (.resolved [("public_keys", s.m_public_keys)]) }
  else
    let script := s.m_scripts[s.m_public_keys.length]?
    { s with toDeviceResolver := s.exec (.getBlindingKey (Json.toString script)) }

def handle (s : BlindingKeysResolver) (activity : DeviceActivity) (ending : Ending) :
    BlindingKeysResolver :=
  let s := { s with toDeviceResolver := s.ended activity ending }
  match ending with
  | .ok publicKey => { s with m_public_keys := s.m_public_keys ++ [toHex publicKey] }.resolve
  | .error message => { s with toDeviceResolver := s.fail message "Failed to get blinding key" }

end BlindingKeysResolver

/-! ## Blinding nonces -/

structure BlindingNoncesResolver extends DeviceResolver where
  m_blinding_keys_required : Bool
  m_scripts : List Json
  m_public_keys : List Json
  m_nonces : List String := []
  m_blinding_keys : List String := []
  /-- What the handlers have captured. -/
  index : ℕ := 0

namespace BlindingNoncesResolver

def ofResult (result : JsonObject) : BlindingNoncesResolver :=
  let resolver := DeviceResolver.ofResult result
  { resolver with
    m_blinding_keys_required :=
      Json.toBool (resolver.m_required_data.value "blinding_keys_required")
    m_scripts := Json.toArray (resolver.m_required_data.value "scripts")
    m_public_keys := Json.toArray (resolver.m_required_data.value "public_keys") }

def nonceActivity (s : BlindingNoncesResolver) (index : ℕ) : DeviceActivity :=
  let pubkey := fromHex (Json.toString s.m_public_keys[index]?)
  let script := fromHex (Json.toString s.m_scripts[index]?)
  .getBlindingNonce pubkey script

def keyActivity (s : BlindingNoncesResolver) (index : ℕ) : DeviceActivity :=
  .getBlindingKey (Json.toString s.m_scripts[index]?)

def resolve (s : BlindingNoncesResolver) : BlindingNoncesResolver :=
  let index := s.m_nonces.length
  if index = s.m_scripts.length then
    { s with
      toDeviceResolver :=
        s.emit (.resolved [("nonces", s.m_nonces), ("public_keys", s.m_blinding_keys)]) }
  else { s with toDeviceResolver := s.exec (s.nonceActivity index), index }

/-- The handlers of the two kinds of activity. -/
def handle (s : BlindingNoncesResolver) (activity : DeviceActivity) (ending : Ending) :
    BlindingNoncesResolver :=
  let s := { s with toDeviceResolver := s.ended activity ending }
  match activity, ending with
  | .getBlindingNonce _ _, .ok nonce =>
      let s := { s with m_nonces := s.m_nonces ++ [toHex nonce] }
      if s.m_blinding_keys_required then
        { s with toDeviceResolver := s.exec (s.keyActivity s.index) }
      else s.resolve
  | .getBlindingNonce _ _, .error message =>
      { s with toDeviceResolver := s.fail message "Failed to get blinding nonce" }
  | _, .ok publicKey =>
      { s with m_blinding_keys := s.m_blinding_keys ++ [toHex publicKey] }.resolve
  | _, .error message => { s with toDeviceResolver := s.fail message "Failed to get blinding key" }

end BlindingNoncesResolver

/-! ## Resolvers at work -/

/-- The activity that has been started ends. -/
def resolving {σ : Type} (base : σ → DeviceResolver) (handle : σ → DeviceActivity → Ending → σ) :
    Reactive σ Ending Empty where
  enabled s _ := (base s).activity ≠ none
  next s ending :=
    match (base s).activity with
    | none => s
    | some activity => handle s activity ending
  emits _ _ := []

def getXPubs (fromLocal8Bit : Bytes → String) : Reactive GetXPubsResolver Ending Empty :=
  resolving GetXPubsResolver.toDeviceResolver (GetXPubsResolver.handle fromLocal8Bit)

def blindingKeys : Reactive BlindingKeysResolver Ending Empty :=
  resolving BlindingKeysResolver.toDeviceResolver BlindingKeysResolver.handle

def blindingNonces : Reactive BlindingNoncesResolver Ending Empty :=
  resolving BlindingNoncesResolver.toDeviceResolver BlindingNoncesResolver.handle

/-- There is an entry for each item, which the activity started for that item has obtained. -/
structure Obtained (items : List DeviceActivity) (decode : Bytes → String) (stride offset : ℕ)
    (endings : List (DeviceActivity × Ending)) (entries : List String) : Prop where
  length : entries.length = items.length
  entry : ∀ (i : ℕ) (activity : DeviceActivity), items[i]? = some activity →
    ∃ bytes, endings[stride * i + offset]? = some (activity, .ok bytes) ∧
      entries[i]? = some (decode bytes)

/-- The endings of a run, each with the activity that was under way. -/
def endingsOf {σ : Type} (base : σ → DeviceResolver) (R : Reactive σ Ending Empty) (s : σ)
    (endings : List Ending) : List (DeviceActivity × Ending) :=
  (R.trace s endings).filterMap fun (before, ending, _) =>
    (base before).activity.map fun activity => (activity, ending)

/-- After these endings: the activities have been started in their order, and one of `resolved` and
`failed` is emitted in the end: `failed` if an activity has failed, after which none is started, else
`resolved` with what the activities have obtained. -/
structure MapsOrFails (activities : List DeviceActivity)
    (Complete : List (DeviceActivity × Ending) → List (String × List String) → Prop)
    (endings : List (DeviceActivity × Ending)) (s : DeviceResolver) : Prop where
  started : endings.map Prod.fst ++ s.activity.toList <+: activities
  once : s.signals.countP ResolverSignal.isLast ≤ 1
  ends : s.activity = none → s.signals.countP ResolverSignal.isLast = 1
  fails : (∃ error, .failed error ∈ s.signals) ↔ Failure endings
  stops : Failure endings → s.activity = none ∧ ∃ before activity message,
    endings = before ++ [(activity, .error message)] ∧ ¬ Failure before
  resolves : ∀ data, .resolved data ∈ s.signals → Complete endings data

/-! ## What all resolvers keep -/

section
variable {activities : List DeviceActivity}
  {Complete : List (DeviceActivity × Ending) → List (String × List String) → Prop}
  {s : DeviceResolver}

/-- Whether an activity is to end, or the resolver has come to its end. -/
inductive Stage (activities : List DeviceActivity)
    (Complete : List (DeviceActivity × Ending) → List (String × List String) → Prop)
    (s : DeviceResolver) : Prop
  | pending {activity : DeviceActivity} (started : s.activity = some activity)
      (serial : Serial activities s.endings (some activity))
      (signals : s.signals.countP ResolverSignal.isLast = 0)
  | failed {before : List ResolverSignal} {error : String} (idle : s.activity = none)
      (serial : Serial activities s.endings none) (failure : Failure s.endings)
      (signals : s.signals = before ++ [.failed error])
      (none : before.countP ResolverSignal.isLast = 0)
  | resolved {before : List ResolverSignal} {data : List (String × List String)}
      (idle : s.activity = none) (serial : Serial activities s.endings none)
      (noFailure : ¬ Failure s.endings) (signals : s.signals = before ++ [.resolved data])
      (none : before.countP ResolverSignal.isLast = 0) (complete : Complete s.endings data)

theorem not_mem_of_countP {signals : List ResolverSignal}
    (h : signals.countP ResolverSignal.isLast = 0) {signal : ResolverSignal}
    (hlast : signal.isLast = true) : signal ∉ signals :=
  fun hmem => absurd hlast (List.countP_eq_zero.mp h signal hmem)

theorem Stage.mapsOrFails (h : Stage activities Complete s) :
    MapsOrFails activities Complete s.endings s := by
  cases h with
  | @pending activity started serial signals =>
      refine ⟨started ▸ serial.started, by omega, fun hnone => ?_, iff_of_false ?_ ?_, ?_, ?_⟩
      · rw [started] at hnone
        cases hnone
      · intro ⟨error, hmem⟩
        exact not_mem_of_countP signals rfl hmem
      · exact serial.not_failure
      · exact fun hfailure => absurd hfailure serial.not_failure
      · exact fun data hmem => absurd hmem (not_mem_of_countP signals rfl)
  | @failed before error idle serial failure signals none =>
      have hcount : s.signals.countP ResolverSignal.isLast = 1 := by
        rw [signals, List.countP_append, none]
        rfl
      refine ⟨idle ▸ serial.started, hcount.le, fun _ => hcount, iff_of_true ?_ failure, ?_, ?_⟩
      · exact ⟨error, by rw [signals]; simp⟩
      · exact fun _ => ⟨idle, (serial.stops failure).2⟩
      · intro data hmem
        rw [signals, List.mem_append] at hmem
        rcases hmem with hbefore | hlast
        · exact absurd hbefore (not_mem_of_countP none rfl)
        · cases List.mem_singleton.mp hlast
  | @resolved before data idle serial noFailure signals none complete =>
      have hcount : s.signals.countP ResolverSignal.isLast = 1 := by
        rw [signals, List.countP_append, none]
        rfl
      refine ⟨idle ▸ serial.started, hcount.le, fun _ => hcount, iff_of_false ?_ noFailure, ?_, ?_⟩
      · intro ⟨error, hmem⟩
        rw [signals, List.mem_append] at hmem
        rcases hmem with hbefore | hlast
        · exact not_mem_of_countP none rfl hbefore
        · cases List.mem_singleton.mp hlast
      · exact fun hfailure => absurd hfailure noFailure
      · intro other hmem
        rw [signals, List.mem_append] at hmem
        rcases hmem with hbefore | hlast
        · exact absurd hbefore (not_mem_of_countP none rfl)
        · rw [ResolverSignal.resolved.inj (List.mem_singleton.mp hlast)]
          exact complete

/-- The next activity is to be started, or none is left. -/
structure Ready (activities : List DeviceActivity) (s : DeviceResolver) : Prop where
  idle : s.activity = none
  serial : Serial activities s.endings activities[s.endings.length]?
  noFailure : ¬ Failure s.endings
  signals : s.signals.countP ResolverSignal.isLast = 0

theorem ready_ofResult (result : JsonObject) (activities : List DeviceActivity) :
    Ready activities (.ofResult result) where
  idle := rfl
  serial := .start
  noFailure := not_failure_nil
  signals := rfl

theorem Ready.progress (h : Ready activities s) (current total : ℕ) :
    Ready activities (s.emit (.progress current total)) where
  idle := h.idle
  serial := h.serial
  noFailure := h.noFailure
  signals := by
    rw [DeviceResolver.emit, List.countP_append, h.signals]
    rfl

theorem Ready.exec (h : Ready activities s) {activity : DeviceActivity}
    (hnext : activities[s.endings.length]? = some activity) :
    Stage activities Complete (s.exec activity) :=
  .pending rfl (hnext ▸ h.serial) h.signals

theorem Ready.resolved (h : Ready activities s) (hlength : activities.length ≤ s.endings.length)
    {data : List (String × List String)} (hcomplete : Complete s.endings data) :
    Stage activities Complete (s.emit (.resolved data)) := by
  have hserial := h.serial
  rw [List.getElem?_eq_none hlength] at hserial
  exact .resolved h.idle hserial h.noFailure rfl h.signals hcomplete

variable {activity : DeviceActivity}

theorem Stage.serial (h : Stage activities Complete s) (hstarted : s.activity = some activity) :
    Serial activities s.endings (some activity) ∧ s.signals.countP ResolverSignal.isLast = 0 := by
  cases h with
  | pending started serial signals =>
      rw [started, Option.some.injEq] at hstarted
      exact ⟨hstarted ▸ serial, signals⟩
  | failed idle =>
      rw [idle] at hstarted
      cases hstarted
  | resolved idle =>
      rw [idle] at hstarted
      cases hstarted

/-- The activity has finished. -/
theorem Stage.ok (h : Stage activities Complete s) (hstarted : s.activity = some activity)
    (bytes : Bytes) : Ready activities (s.ended activity (.ok bytes)) := by
  obtain ⟨serial, signals⟩ := h.serial hstarted
  refine ⟨rfl, ?_, ?_, signals⟩
  · rw [DeviceResolver.ended, List.length_append, List.length_singleton]
    exact serial.ok bytes
  · exact fun hfailure => serial.not_failure ((failure_concat_ok activity bytes).mp hfailure)

/-- The activity has failed. -/
theorem Stage.error (h : Stage activities Complete s) (hstarted : s.activity = some activity)
    (message : JsonObject) (defaultMessage : String) :
    Stage activities Complete ((s.ended activity (.error message)).fail message defaultMessage) := by
  obtain ⟨serial, signals⟩ := h.serial hstarted
  exact .failed rfl (serial.error message) (failure_concat_error activity message) rfl signals

theorem Obtained.of_entries {items : List DeviceActivity} {decode : Bytes → String}
    {stride offset : ℕ} {endings : List (DeviceActivity × Ending)} {entries : List String}
    {waiting : Option DeviceActivity} (hserial : Serial activities endings waiting)
    (hitems : ∀ i < items.length, activities[stride * i + offset]? = items[i]?)
    (hentries : Entries decode stride offset endings entries)
    (hlength : entries.length = items.length) :
    Obtained items decode stride offset endings entries := by
  refine ⟨hlength, fun i activity hactivity => ?_⟩
  have hlt : i < items.length := (List.getElem?_eq_some_iff.mp hactivity).choose
  have hentry : entries[i]? = some (entries.get ⟨i, hlength ▸ hlt⟩) := List.getElem?_eq_getElem _
  obtain ⟨other, bytes, hlog, hsame⟩ := hentries i _ hentry
  have hother := hserial.answer_eq hlog
  rw [hitems i hlt, hactivity, Option.some.injEq] at hother
  exact ⟨bytes, hother ▸ hlog, hentry.trans (congrArg some hsame)⟩

end

namespace GetXPubsResolver
variable {fromLocal8Bit : Bytes → String} {paths : List (List UInt32)} {s : GetXPubsResolver}

def activities (paths : List (List UInt32)) : List DeviceActivity :=
  paths.map .getWalletPublicKey

/-- One key for each path. -/
def Complete (fromLocal8Bit : Bytes → String) (paths : List (List UInt32))
    (endings : List (DeviceActivity × Ending)) (data : List (String × List String)) : Prop :=
  ∃ xpubs, data = [("xpubs", xpubs)] ∧ Obtained (activities paths) fromLocal8Bit 1 0 endings xpubs

/-- The keys there are when so many paths are left. -/
structure Filled (fromLocal8Bit : Bytes → String) (paths left : List (List UInt32))
    (s : GetXPubsResolver) : Prop where
  left : left = paths.drop s.endings.length
  length : s.m_xpubs.length = s.endings.length
  entries : Entries fromLocal8Bit 1 0 s.endings s.m_xpubs

structure Tracked (fromLocal8Bit : Bytes → String) (paths : List (List UInt32))
    (s : GetXPubsResolver) : Prop where
  stage : Stage (activities paths) (Complete fromLocal8Bit paths) s.toDeviceResolver
  filled : s.activity ≠ none → ∃ path, s.Filled fromLocal8Bit paths (path :: s.m_paths)

theorem tracked_resolve (hready : Ready (activities paths) s.toDeviceResolver)
    (hfilled : s.Filled fromLocal8Bit paths s.m_paths) : s.resolve.Tracked fromLocal8Bit paths := by
  have hprogress := hready.progress s.m_xpubs.length (s.m_xpubs.length + s.m_paths.length)
  cases hpaths : s.m_paths with
  | nil =>
      rw [hpaths] at hfilled
      have hlength : (activities paths).length ≤ s.endings.length := by
        rw [activities, List.length_map]
        exact List.drop_eq_nil_iff.mp hfilled.left.symm
      have hall : s.m_xpubs.length = (activities paths).length :=
        hfilled.length.trans (Nat.le_antisymm hready.serial.length_le hlength)
      have hcomplete : Complete fromLocal8Bit paths s.endings [("xpubs", s.m_xpubs)] :=
        ⟨s.m_xpubs, rfl, .of_entries hready.serial (fun i _ => by rw [Nat.one_mul, Nat.add_zero])
          hfilled.entries hall⟩
      have hresolve : s.resolve = { s with
          toDeviceResolver := (s.emit (.progress s.m_xpubs.length
            (s.m_xpubs.length + s.m_paths.length))).emit (.resolved [("xpubs", s.m_xpubs)]) } := by
        simp [resolve, hpaths]
      rw [hresolve]
      exact ⟨hprogress.resolved hlength hcomplete, fun hne => absurd hready.idle hne⟩
  | cons path rest =>
      rw [hpaths] at hfilled
      have hnext : (activities paths)[s.endings.length]? = some (.getWalletPublicKey path) := by
        rw [activities, List.getElem?_map, ← List.head?_drop, ← hfilled.left]
        rfl
      have hresolve : s.resolve = { s with
          toDeviceResolver := (s.emit (.progress s.m_xpubs.length
            (s.m_xpubs.length + s.m_paths.length))).exec (.getWalletPublicKey path)
          m_paths := rest } := by
        simp [resolve, hpaths]
      rw [hresolve]
      exact ⟨hprogress.exec hnext, fun _ => ⟨path, hfilled.left, hfilled.length, hfilled.entries⟩⟩

theorem Tracked.handle {activity : DeviceActivity} (h : s.Tracked fromLocal8Bit paths)
    (hstarted : s.activity = some activity) (ending : Ending) :
    (s.handle fromLocal8Bit activity ending).Tracked fromLocal8Bit paths := by
  cases ending with
  | error message =>
      exact ⟨h.stage.error hstarted message _, fun hne => absurd rfl hne⟩
  | ok publicKey =>
      obtain ⟨path, hfilled⟩ := h.filled (by rw [hstarted]; exact Option.some_ne_none _)
      apply tracked_resolve (h.stage.ok hstarted publicKey)
      refine ⟨?_, ?_, ?_⟩
      · show s.m_paths = paths.drop (s.endings ++ [(activity, Except.ok publicKey)]).length
        rw [List.length_append, List.length_singleton, ← List.drop_drop, ← hfilled.left]
        rfl
      · show (s.m_xpubs ++ [_]).length = (s.endings ++ [_]).length
        rw [List.length_append, List.length_append, hfilled.length]
        rfl
      · exact hfilled.entries.concat (by rw [Nat.one_mul, Nat.add_zero, hfilled.length]) activity
          publicKey

theorem endings_resolve (s : GetXPubsResolver) : s.resolve.endings = s.endings := by
  unfold resolve
  dsimp only
  split
  · rfl
  · rfl

theorem endings_handle (s : GetXPubsResolver) (activity : DeviceActivity) (ending : Ending) :
    (s.handle fromLocal8Bit activity ending).endings = s.endings ++ [(activity, ending)] := by
  cases ending with
  | ok publicKey => exact endings_resolve _
  | error message => rfl

theorem tracked_start (fromLocal8Bit : Bytes → String) (result : JsonObject) :
    (ofResult result).resolve.Tracked fromLocal8Bit (ofResult result).m_paths :=
  tracked_resolve (ready_ofResult result _) ⟨rfl, rfl, entries_nil⟩

end GetXPubsResolver

namespace BlindingKeysResolver
variable {scripts : List Json} {s : BlindingKeysResolver}

def activities (scripts : List Json) : List DeviceActivity :=
  scripts.map fun script => .getBlindingKey (Json.toString (some script))

/-- One key for each script. -/
def Complete (scripts : List Json) (endings : List (DeviceActivity × Ending))
    (data : List (String × List String)) : Prop :=
  ∃ public_keys, data = [("public_keys", public_keys)] ∧
    Obtained (activities scripts) toHex 1 0 endings public_keys

structure Filled (scripts : List Json) (s : BlindingKeysResolver) : Prop where
  same : s.m_scripts = scripts
  length : s.m_public_keys.length = s.endings.length
  entries : Entries toHex 1 0 s.endings s.m_public_keys

structure Tracked (scripts : List Json) (s : BlindingKeysResolver) : Prop where
  stage : Stage (activities scripts) (Complete scripts) s.toDeviceResolver
  filled : s.activity ≠ none → s.Filled scripts

theorem tracked_resolve (hready : Ready (activities scripts) s.toDeviceResolver)
    (hfilled : s.Filled scripts) : s.resolve.Tracked scripts := by
  have hlength : (activities scripts).length = scripts.length := List.length_map _
  rw [resolve]
  split_ifs with hall
  · rw [hfilled.same, ← hlength] at hall
    have hcomplete : Complete scripts s.endings [("public_keys", s.m_public_keys)] :=
      ⟨s.m_public_keys, rfl, .of_entries hready.serial (fun i _ => by rw [Nat.one_mul, Nat.add_zero])
        hfilled.entries hall⟩
    exact ⟨hready.resolved (by rw [← hfilled.length, hall]) hcomplete,
      fun hne => absurd hready.idle hne⟩
  · have hlt : s.endings.length < scripts.length := by
      have hle := hready.serial.length_le
      rw [hfilled.same, hfilled.length] at hall
      omega
    have hnext : (activities scripts)[s.endings.length]? =
        some (.getBlindingKey (Json.toString s.m_scripts[s.m_public_keys.length]?)) := by
      rw [activities, List.getElem?_map, hfilled.same, hfilled.length,
        List.getElem?_eq_getElem hlt]
      rfl
    exact ⟨hready.exec hnext, fun _ => ⟨hfilled.same, hfilled.length, hfilled.entries⟩⟩

theorem Tracked.handle {activity : DeviceActivity} (h : s.Tracked scripts)
    (hstarted : s.activity = some activity) (ending : Ending) :
    (s.handle activity ending).Tracked scripts := by
  cases ending with
  | error message =>
      exact ⟨h.stage.error hstarted message _, fun hne => absurd rfl hne⟩
  | ok publicKey =>
      have hfilled := h.filled (by rw [hstarted]; exact Option.some_ne_none _)
      apply tracked_resolve (h.stage.ok hstarted publicKey)
      refine ⟨hfilled.same, ?_, ?_⟩
      · show (s.m_public_keys ++ [_]).length = (s.endings ++ [_]).length
        rw [List.length_append, List.length_append, hfilled.length]
        rfl
      · exact hfilled.entries.concat (by rw [Nat.one_mul, Nat.add_zero, hfilled.length]) activity
          publicKey

theorem endings_resolve (s : BlindingKeysResolver) : s.resolve.endings = s.endings := by
  unfold resolve
  split_ifs
  · rfl
  · rfl

theorem endings_handle (s : BlindingKeysResolver) (activity : DeviceActivity) (ending : Ending) :
    (s.handle activity ending).endings = s.endings ++ [(activity, ending)] := by
  cases ending with
  | ok publicKey => exact endings_resolve _
  | error message => rfl

theorem tracked_start (result : JsonObject) :
    (ofResult result).resolve.Tracked (ofResult result).m_scripts :=
  tracked_resolve (ready_ofResult result _) ⟨rfl, rfl, entries_nil⟩

end BlindingKeysResolver

namespace BlindingNoncesResolver
variable {r s : BlindingNoncesResolver}

/-- How many activities there are for a script. -/
def stride (r : BlindingNoncesResolver) : ℕ := if r.m_blinding_keys_required then 2 else 1

/-- The activities for the script of an index. -/
def activitiesOf (r : BlindingNoncesResolver) (index : ℕ) : List DeviceActivity :=
  if r.m_blinding_keys_required then [r.nonceActivity index, r.keyActivity index]
  else [r.nonceActivity index]

def activities (r : BlindingNoncesResolver) : List DeviceActivity :=
  (List.range r.m_scripts.length).flatMap r.activitiesOf

/-- One nonce for each script, and one key if keys are required. -/
def Complete (r : BlindingNoncesResolver) (endings : List (DeviceActivity × Ending))
    (data : List (String × List String)) : Prop :=
  ∃ nonces blinding_keys, data = [("nonces", nonces), ("public_keys", blinding_keys)] ∧
    Obtained ((List.range r.m_scripts.length).map r.nonceActivity) toHex r.stride 0 endings nonces ∧
    if r.m_blinding_keys_required then
      Obtained ((List.range r.m_scripts.length).map r.keyActivity) toHex r.stride 1 endings
        blinding_keys
    else blinding_keys = []

theorem length_activitiesOf (r : BlindingNoncesResolver) (index : ℕ) :
    (r.activitiesOf index).length = r.stride := by
  rw [activitiesOf, stride]
  split_ifs <;> rfl

theorem stride_pos (r : BlindingNoncesResolver) : 0 < r.stride := by
  rw [stride]
  split_ifs <;> decide

theorem activities_nonce (r : BlindingNoncesResolver) {i : ℕ} (hi : i < r.m_scripts.length) :
    r.activities[r.stride * i + 0]? = some (r.nonceActivity i) := by
  rw [activities, getElem?_flatMap r.length_activitiesOf _ i r.stride_pos, List.getElem?_range hi]
  show (r.activitiesOf i)[0]? = _
  rw [activitiesOf]
  split_ifs <;> rfl

theorem activities_key {i : ℕ} (hrequired : r.m_blinding_keys_required = true)
    (hi : i < r.m_scripts.length) : r.activities[r.stride * i + 1]? = some (r.keyActivity i) := by
  have hstride : r.stride = 2 := if_pos hrequired
  rw [activities, getElem?_flatMap r.length_activitiesOf _ i (by omega), List.getElem?_range hi]
  show (r.activitiesOf i)[1]? = _
  rw [activitiesOf, if_pos hrequired]
  rfl

theorem length_activities (r : BlindingNoncesResolver) :
    r.activities.length = r.stride * r.m_scripts.length := by
  simp [activities, List.length_flatMap, length_activitiesOf, Nat.mul_comm]

/-- The resolver `s` has the lists that `r` was constructed with. -/
structure Kept (r s : BlindingNoncesResolver) : Prop where
  required : s.m_blinding_keys_required = r.m_blinding_keys_required
  scripts : s.m_scripts = r.m_scripts
  public_keys : s.m_public_keys = r.m_public_keys
  nonces : Entries toHex r.stride 0 s.endings s.m_nonces
  blinding_keys : Entries toHex r.stride 1 s.endings s.m_blinding_keys

/-- Between two scripts. -/
structure Filled (r s : BlindingNoncesResolver) : Prop extends Kept r s where
  length : s.endings.length = r.stride * s.m_nonces.length
  keys : s.m_blinding_keys.length = if r.m_blinding_keys_required then s.m_nonces.length else 0

/-- What is asked for the script of the index. -/
inductive Asking (r s : BlindingNoncesResolver) : Prop
  | nonce (activity : s.activity = some (r.nonceActivity s.index))
      (index : s.index = s.m_nonces.length) (filled : Filled r s)
  | key (activity : s.activity = some (r.keyActivity s.index)) (kept : Kept r s)
      (required : r.m_blinding_keys_required = true)
      (length : s.endings.length = r.stride * s.index + 1)
      (nonces : s.m_nonces.length = s.index + 1) (keys : s.m_blinding_keys.length = s.index)

structure Tracked (r s : BlindingNoncesResolver) : Prop where
  stage : Stage r.activities r.Complete s.toDeviceResolver
  asking : s.activity ≠ none → Asking r s

theorem Kept.nonceActivity (h : Kept r s) (index : ℕ) :
    s.nonceActivity index = r.nonceActivity index := by
  rw [BlindingNoncesResolver.nonceActivity, BlindingNoncesResolver.nonceActivity, h.scripts,
    h.public_keys]

theorem Kept.keyActivity (h : Kept r s) (index : ℕ) : s.keyActivity index = r.keyActivity index := by
  rw [BlindingNoncesResolver.keyActivity, BlindingNoncesResolver.keyActivity, h.scripts]

theorem Filled.complete (h : Filled r s) {waiting : Option DeviceActivity}
    (hserial : Serial r.activities s.endings waiting) (hall : s.m_nonces.length = r.m_scripts.length) :
    r.Complete s.endings [("nonces", s.m_nonces), ("public_keys", s.m_blinding_keys)] := by
  refine ⟨s.m_nonces, s.m_blinding_keys, rfl, .of_entries hserial ?_ h.nonces (by simp [hall]), ?_⟩
  · intro i hi
    rw [List.length_map, List.length_range] at hi
    rw [r.activities_nonce hi, List.getElem?_map, List.getElem?_range hi]
    rfl
  · have hkeys := h.keys
    split_ifs at hkeys ⊢ with hrequired
    · refine .of_entries hserial ?_ h.blinding_keys (by simp [hkeys, hall])
      intro i hi
      rw [List.length_map, List.length_range] at hi
      rw [activities_key hrequired hi, List.getElem?_map, List.getElem?_range hi]
      rfl
    · exact List.length_eq_zero_iff.mp hkeys

theorem tracked_resolve (hready : Ready r.activities s.toDeviceResolver) (hfilled : Filled r s) :
    Tracked r s.resolve := by
  rw [resolve]
  split_ifs with hall
  · rw [hfilled.scripts] at hall
    have hlength : r.activities.length ≤ s.endings.length := by
      rw [length_activities, hfilled.length, hall]
    exact ⟨hready.resolved hlength (hfilled.complete hready.serial hall),
      fun hne => absurd hready.idle hne⟩
  · have hlt : s.m_nonces.length < r.m_scripts.length := by
      have hle := hready.serial.length_le
      rw [length_activities, hfilled.length] at hle
      have hle' := Nat.le_of_mul_le_mul_left hle r.stride_pos
      rw [hfilled.scripts] at hall
      omega
    have hnext : r.activities[s.endings.length]? = some (r.nonceActivity s.m_nonces.length) := by
      rw [hfilled.length]
      exact r.activities_nonce hlt
    rw [hfilled.nonceActivity]
    exact ⟨hready.exec hnext, fun _ => .nonce rfl rfl
      ⟨⟨hfilled.required, hfilled.scripts, hfilled.public_keys, hfilled.nonces,
        hfilled.blinding_keys⟩, hfilled.length, hfilled.keys⟩⟩

/-- The nonce of a script is there. -/
theorem Filled.nonce (h : Filled r s) (hstage : Stage r.activities r.Complete s.toDeviceResolver)
    (hstarted : s.activity = some (r.nonceActivity s.index)) (hindex : s.index = s.m_nonces.length)
    (nonce : Bytes) : Tracked r (s.handle (r.nonceActivity s.index) (.ok nonce)) := by
  have hready := hstage.ok hstarted nonce
  have hnonces : Entries toHex r.stride 0 (s.endings ++ [(r.nonceActivity s.index, .ok nonce)])
      (s.m_nonces ++ [toHex nonce]) :=
    h.nonces.concat (by rw [h.length, Nat.add_zero]) _ nonce
  have hkeys := h.blinding_keys.append [(r.nonceActivity s.index, .ok nonce)]
  have hlength : (s.endings ++ [(r.nonceActivity s.index, Except.ok nonce)]).length =
      r.stride * s.index + 1 := by
    rw [List.length_append, List.length_singleton, h.length, hindex]
  have hhandle : s.handle (r.nonceActivity s.index) (.ok nonce) =
      if s.m_blinding_keys_required then
        { s with
          toDeviceResolver := (s.ended (r.nonceActivity s.index) (.ok nonce)).exec
            (s.keyActivity s.index)
          m_nonces := s.m_nonces ++ [toHex nonce] }
      else
        { s with
          toDeviceResolver := s.ended (r.nonceActivity s.index) (.ok nonce)
          m_nonces := s.m_nonces ++ [toHex nonce] }.resolve := rfl
  rw [hhandle]
  by_cases hrequired : r.m_blinding_keys_required = true
  · rw [if_pos (h.required.trans hrequired)]
    have hlt : s.index < r.m_scripts.length := by
      have hle := (hstage.serial hstarted).1.started.length_le
      rw [length_activities, List.length_append, List.length_map, h.length, ← hindex] at hle
      have hstride : r.stride = 2 := if_pos hrequired
      simp [hstride] at hle
      omega
    have hnext := activities_key hrequired hlt
    rw [← hlength] at hnext
    rw [h.keyActivity]
    refine ⟨hready.exec hnext, fun _ => .key rfl
      ⟨h.required, h.scripts, h.public_keys, hnonces, hkeys⟩ hrequired hlength ?_ ?_⟩
    · simp [hindex]
    · simp [h.keys, hrequired, hindex]
  · rw [if_neg (by rw [h.required]; exact hrequired)]
    refine tracked_resolve hready ⟨⟨h.required, h.scripts, h.public_keys, hnonces, hkeys⟩, ?_, ?_⟩
    · show (s.endings ++ [_]).length = r.stride * (s.m_nonces ++ [_]).length
      have hstride : r.stride = 1 := if_neg hrequired
      simp [h.length, hstride]
    · show s.m_blinding_keys.length = _
      rw [h.keys, if_neg hrequired, if_neg hrequired]

theorem Tracked.handle {activity : DeviceActivity} (h : Tracked r s)
    (hstarted : s.activity = some activity) (ending : Ending) :
    Tracked r (s.handle activity ending) := by
  have hne : s.activity ≠ none := by
    rw [hstarted]
    exact Option.some_ne_none _
  cases h.asking hne with
  | nonce hactivity hindex filled =>
      rw [hactivity, Option.some.injEq] at hstarted
      subst hstarted
      cases ending with
      | error message => exact ⟨h.stage.error hactivity message _, fun hne => absurd rfl hne⟩
      | ok nonce => exact filled.nonce h.stage hactivity hindex nonce
  | key hactivity kept required length nonces keys =>
      rw [hactivity, Option.some.injEq] at hstarted
      subst hstarted
      cases ending with
      | error message => exact ⟨h.stage.error hactivity message _, fun hne => absurd rfl hne⟩
      | ok publicKey =>
          have hstride : r.stride = 2 := if_pos required
          have hentries := kept.blinding_keys.concat (by rw [length, keys])
            (r.keyActivity s.index) publicKey
          apply tracked_resolve (h.stage.ok hactivity publicKey)
          refine ⟨⟨kept.required, kept.scripts, kept.public_keys, kept.nonces.append _,
            hentries⟩, ?_, ?_⟩
          · show (s.endings ++ [_]).length = r.stride * s.m_nonces.length
            rw [List.length_append, List.length_singleton, length, nonces, hstride]
            omega
          · show (s.m_blinding_keys ++ [_]).length = _
            rw [List.length_append, List.length_singleton, keys, if_pos required]
            exact nonces.symm

theorem endings_resolve (s : BlindingNoncesResolver) : s.resolve.endings = s.endings := by
  unfold resolve
  dsimp only
  split_ifs
  · rfl
  · rfl

theorem endings_handle (s : BlindingNoncesResolver) (activity : DeviceActivity) (ending : Ending) :
    (s.handle activity ending).endings = s.endings ++ [(activity, ending)] := by
  cases activity with
  | getBlindingNonce pubkey script =>
      cases ending with
      | ok nonce =>
          simp only [handle]
          split_ifs
          · rfl
          · exact endings_resolve _
      | error message => rfl
  | getWalletPublicKey path =>
      cases ending with
      | ok publicKey => exact endings_resolve _
      | error message => rfl
  | getBlindingKey script =>
      cases ending with
      | ok publicKey => exact endings_resolve _
      | error message => rfl

theorem tracked_start (result : JsonObject) :
    Tracked (ofResult result) (ofResult result).resolve := by
  refine tracked_resolve (ready_ofResult result _)
    ⟨⟨rfl, rfl, rfl, entries_nil, entries_nil⟩, ?_, ?_⟩
  · show 0 = _ * 0
    rfl
  · show 0 = if _ then 0 else 0
    split_ifs <;> rfl

end BlindingNoncesResolver

/-! ## Whole runs -/

theorem resolving_next {σ : Type} {base : σ → DeviceResolver}
    {handle : σ → DeviceActivity → Ending → σ} {s : σ} {activity : DeviceActivity}
    (h : (base s).activity = some activity) (ending : Ending) :
    (resolving base handle).next s ending = handle s activity ending := by
  simp only [resolving, h]

/-- What the end of each activity keeps holds as long as activities end, and the resolver has put
down the endings of the run. -/
theorem resolving_run {σ : Type} (base : σ → DeviceResolver)
    (handle : σ → DeviceActivity → Ending → σ) {I : σ → Prop} {s : σ}
    (hstep : ∀ s activity ending, I s → (base s).activity = some activity →
      I (handle s activity ending))
    (hendings : ∀ s activity ending,
      (base (handle s activity ending)).endings = (base s).endings ++ [(activity, ending)])
    (hs : I s) (hnone : (base s).endings = []) {endings : List Ending}
    (hvalid : (resolving base handle).Valid s endings) :
    I ((resolving base handle).run s endings) ∧
      (base ((resolving base handle).run s endings)).endings =
        endingsOf base (resolving base handle) s endings := by
  apply Reactive.run_history (I := fun fs t =>
    I t ∧ (base t).endings = endingsOf base (resolving base handle) s fs) _ ⟨hs, hnone⟩
  intro fs ending gs hsplit ⟨hkept, hlog⟩
  rw [hsplit] at hvalid
  have hstarted := hvalid.at fs
  cases hactivity : (base ((resolving base handle).run s fs)).activity with
  | none => exact absurd hactivity hstarted
  | some activity =>
      rw [resolving_next hactivity]
      refine ⟨hstep _ activity ending hkept hactivity, ?_⟩
      rw [hendings, hlog, endingsOf, endingsOf, Reactive.trace_concat, List.filterMap_append]
      simp [hactivity]

/-- The resolvers map their lists, or fail, however the activities end: this holds after each of the
endings. -/
theorem resolvers_map (fromLocal8Bit : Bytes → String) (result : JsonObject)
    (endings : List Ending) :
    ((getXPubs fromLocal8Bit).Valid (GetXPubsResolver.ofResult result).resolve endings →
      ∀ fs gs, endings = fs ++ gs →
        MapsOrFails (GetXPubsResolver.activities (GetXPubsResolver.ofResult result).m_paths)
          (GetXPubsResolver.Complete fromLocal8Bit (GetXPubsResolver.ofResult result).m_paths)
          (endingsOf GetXPubsResolver.toDeviceResolver (getXPubs fromLocal8Bit)
            (GetXPubsResolver.ofResult result).resolve fs)
          ((getXPubs fromLocal8Bit).run
            (GetXPubsResolver.ofResult result).resolve fs).toDeviceResolver) ∧
    (blindingKeys.Valid (BlindingKeysResolver.ofResult result).resolve endings →
      ∀ fs gs, endings = fs ++ gs →
        MapsOrFails (BlindingKeysResolver.activities (BlindingKeysResolver.ofResult result).m_scripts)
          (BlindingKeysResolver.Complete (BlindingKeysResolver.ofResult result).m_scripts)
          (endingsOf BlindingKeysResolver.toDeviceResolver blindingKeys
            (BlindingKeysResolver.ofResult result).resolve fs)
          (blindingKeys.run (BlindingKeysResolver.ofResult result).resolve fs).toDeviceResolver) ∧
    (blindingNonces.Valid (BlindingNoncesResolver.ofResult result).resolve endings →
      ∀ fs gs, endings = fs ++ gs →
        MapsOrFails (BlindingNoncesResolver.ofResult result).activities
          (BlindingNoncesResolver.ofResult result).Complete
          (endingsOf BlindingNoncesResolver.toDeviceResolver blindingNonces
            (BlindingNoncesResolver.ofResult result).resolve fs)
          (blindingNonces.run (BlindingNoncesResolver.ofResult result).resolve fs).toDeviceResolver) := by
  refine ⟨?_, ?_, ?_⟩
  · rintro hvalid fs gs rfl
    obtain ⟨htracked, hlog⟩ := resolving_run
      GetXPubsResolver.toDeviceResolver (GetXPubsResolver.handle fromLocal8Bit)
      (fun s activity ending h hstarted => GetXPubsResolver.Tracked.handle h hstarted ending)
      GetXPubsResolver.endings_handle (GetXPubsResolver.tracked_start fromLocal8Bit result)
      (GetXPubsResolver.endings_resolve _) (((getXPubs fromLocal8Bit).along_append _ _ fs gs).mp hvalid).1
    exact hlog ▸ htracked.stage.mapsOrFails
  · rintro hvalid fs gs rfl
    obtain ⟨htracked, hlog⟩ := resolving_run
      BlindingKeysResolver.toDeviceResolver BlindingKeysResolver.handle
      (fun s activity ending h hstarted => BlindingKeysResolver.Tracked.handle h hstarted ending)
      BlindingKeysResolver.endings_handle (BlindingKeysResolver.tracked_start result)
      (BlindingKeysResolver.endings_resolve _) ((blindingKeys.along_append _ _ fs gs).mp hvalid).1
    exact hlog ▸ htracked.stage.mapsOrFails
  · rintro hvalid fs gs rfl
    obtain ⟨htracked, hlog⟩ := resolving_run
      BlindingNoncesResolver.toDeviceResolver BlindingNoncesResolver.handle
      (fun s activity ending h hstarted => BlindingNoncesResolver.Tracked.handle h hstarted ending)
      BlindingNoncesResolver.endings_handle (BlindingNoncesResolver.tracked_start result)
      (BlindingNoncesResolver.endings_resolve _) ((blindingNonces.along_append _ _ fs gs).mp hvalid).1
    exact hlog ▸ htracked.stage.mapsOrFails

/-- What is asked for one script, with its key. -/
def noncesResult : JsonObject :=
  [("required_data", .object [("scripts", .array [.string "0014"]),
    ("public_keys", .array [.string "02"]), ("blinding_keys_required", .bool true)])]

/-- The nonce has been obtained, and getting the key has failed. -/
theorem resolvers_map_nonces :
    MapsOrFails (BlindingNoncesResolver.ofResult noncesResult).activities
      (BlindingNoncesResolver.ofResult noncesResult).Complete
      [(.getBlindingNonce (fromHex "02") (fromHex "0014"), .ok [7]),
        (.getBlindingKey "0014", .error [])]
      (blindingNonces.run (BlindingNoncesResolver.ofResult noncesResult).resolve
        [.ok [7], .error []]).toDeviceResolver := by
  refine (resolvers_map (fun _ => "") noncesResult [.ok [7], .error []]).2.2 ⟨?_, ?_, trivial⟩
    [.ok [7], .error []] [] rfl
  · exact Option.some_ne_none _
  · exact Option.some_ne_none _

end GreenWallet.Devices
