import Mathlib.Data.List.Lex
import Mathlib.Data.Nat.Basic
import Mathlib.Order.Lattice
import GreenWallet.Jade.Variant

/-!
# The choice of a firmware

The index lists, for each type of board and each channel, the full firmwares and those that a
difference to another one leads to. `check` marks every entry that applies to the device, and
makes available the last one that it takes for an upgrade.
-/
namespace GreenWallet.Jade

/-- A version is compared segment by segment; of two that agree as far as both go the longer one
is greater. -/
structure QVersionNumber where
  segments : List ℕ
deriving DecidableEq, Repr

namespace QVersionNumber

instance : LinearOrder QVersionNumber :=
  LinearOrder.lift' segments fun v w h => by cases v; cases w; cases h; rfl

def majorVersion (v : QVersionNumber) : ℕ := v.segments.getD 0 0

def minorVersion (v : QVersionNumber) : ℕ := v.segments.getD 1 0

def microVersion (v : QVersionNumber) : ℕ := v.segments.getD 2 0

end QVersionNumber

namespace Variant

/-- `QJsonValue::toString`: only texts are. -/
def toJsonText : Variant → String
  | .text value => value
  | _ => ""

def toList : Variant → List Variant
  | .list values => values
  | _ => []

/-- `QVariant::toStringList`. -/
def toStringList : Variant → List String
  | .list values => values.map toText
  | .text value => [value]
  | _ => []

end Variant

/-- `JADE_MIN_ALLOWED_FW_VERSION`. -/
def minimumRequiredVersion : QVersionNumber := ⟨[1, 0, 37]⟩

def typeFromVersionInfo (version_info : Fields) : String :=
  let board_type :=
    if version_info.contains "BOARD_TYPE" then (version_info.value "BOARD_TYPE").toText else "JADE"
  let secure_boot := (version_info.value "JADE_FEATURES").toStringList.contains "SB"
  if board_type = "JADE" then (if secure_boot then "jade" else "jadedev")
  else if board_type = "JADE_V1.1" then (if secure_boot then "jade1.1" else "jade1.1dev")
  else if board_type = "JADE_V2" then (if secure_boot then "jade2.0" else "jade2.0dev")
  else if board_type = "JADE_V2C" then (if secure_boot then "jade2.0c" else "jade2.0cdev")
  else ""

/-- What `check` knows of the device. -/
structure Installed where
  type : String
  version : String
  config : String

/-- What `check` has so far. -/
structure Listing where
  /-- The versions and configs that a difference leads to. -/
  deltaAvailable : List (String × String) := []
  firmwares : List Fields := []

section
variable (fromString : String → QVersionNumber) (toLower : String → String)

def Installed.ofVersionInfo (version_info : Fields) : Installed where
  type := typeFromVersionInfo version_info
  version := (version_info.value "JADE_VERSION").toText
  config := toLower (version_info.value "JADE_CONFIG").toText

/-- The version of an entry. -/
def versionOf (firmware : Fields) : QVersionNumber :=
  fromString (firmware.value "version").toJsonText

namespace Installed
variable (device : Installed) (firmware : Fields)

def versionNumber : QVersionNumber := fromString device.version

def sameVersion : Bool := device.versionNumber fromString = versionOf fromString firmware

def newerVersion : Bool := device.versionNumber fromString ≤ versionOf fromString firmware

def sameConfig : Bool := device.config = (firmware.value "config").toJsonText

def upgrade : Bool :=
  device.newerVersion fromString firmware ||
    (device.sameVersion fromString firmware && !device.sameConfig firmware)

def downgrade : Bool := versionOf fromString firmware < device.versionNumber fromString

def installed : Bool :=
  device.sameVersion fromString firmware && device.sameConfig firmware &&
    device.version == (firmware.value "version").toJsonText

/-- What is inserted into an entry. -/
def marked (latest_version : QVersionNumber) (channel : String) (delta : Bool) : Fields :=
  let firmware_version := versionOf fromString firmware
  ((((((((((firmware.insert "type" (.text device.type)).insert "channel" (.text channel)).insert
    "newer_version" (.bool (device.newerVersion fromString firmware))).insert
    "same_config" (.bool (device.sameConfig firmware))).insert
    "delta" (.bool delta)).insert
    "installed" (.bool (device.installed fromString firmware))).insert
    "downgrade" (.bool (device.downgrade fromString firmware))).insert
    "upgrade" (.bool (device.upgrade fromString firmware))).insert
    "compatible" (.bool (minimumRequiredVersion ≤ firmware_version))).insert
    "latest" (.bool (firmware_version = latest_version))).insert
    "index" (.int (firmware_version.majorVersion * 10000 + firmware_version.minorVersion * 100 +
      firmware_version.microVersion))

end Installed

variable (device : Installed) (latest_version : QVersionNumber)

/-- The lambda `process`. -/
def process (channel : String) (delta : Bool) (firmware : Fields) (s : Listing) : Listing :=
  if delta && device.installed fromString firmware then s
  else { s with
    firmwares := s.firmwares ++ [device.marked fromString firmware latest_version channel delta] }

/-- A round of the loop over `delta`. -/
def listDelta (channel : String) (s : Listing) (value : Variant) : Listing :=
  let firmware := value.toMap
  if device.version ≠ (firmware.value "from_version").toJsonText then s
  else if device.config ≠ (firmware.value "from_config").toJsonText then s
  else
    let firmware := firmware.insert "has_delta" (.bool false)
    process fromString device latest_version channel true firmware
      { s with
        deltaAvailable := ((firmware.value "version").toJsonText,
          (firmware.value "config").toJsonText) :: s.deltaAvailable }

/-- A round of the loop over `full`. -/
def listFull (channel : String) (s : Listing) (value : Variant) : Listing :=
  let firmware := value.toMap
  let has_delta := s.deltaAvailable.contains
    ((firmware.value "version").toJsonText, (firmware.value "config").toJsonText)
  process fromString device latest_version channel false
    (firmware.insert "has_delta" (.bool has_delta)) s

def channelOf (index : Fields) (channel : String) : Fields :=
  ((index.value device.type).toMap.value channel).toMap

def listChannel (index : Fields) (s : Listing) (channel : String) : Listing :=
  let index := channelOf device index channel
  let s := (index.value "delta").toList.foldl
    (listDelta fromString device latest_version channel) s
  (index.value "full").toList.foldl (listFull fromString device latest_version channel) s

/-- The latest version among the full firmwares of the stable channel. -/
def latestVersion (index : Fields) : QVersionNumber :=
  ((channelOf device index "stable").value "full").toList.foldl
    (fun latest_version value =>
      if latest_version < versionOf fromString value.toMap then versionOf fromString value.toMap
      else latest_version) ⟨[]⟩

end

/-- `debug_jade` is an argument of the application. -/
def channels (debug_jade : Bool) : List String :=
  (if debug_jade then ["beta"] else []) ++ ["stable"] ++ (if debug_jade then ["previous"] else [])

structure JadeFirmwareCheckController where
  firmwares : List Fields := []
  firmwareAvailable : Option Fields := none

/-- The condition of the last loop. -/
def isAvailable (firmware : Fields) : Bool :=
  (firmware.value "channel").toText == "stable" && (firmware.value "same_config").toBool &&
    (firmware.value "newer_version").toBool

/-- `check`, for the version info of the device if there is one. -/
def check (fromString : String → QVersionNumber) (toLower : String → String) (debug_jade : Bool)
    (version_info : Option Fields) (index : Fields) : JadeFirmwareCheckController :=
  match version_info with
  | none => {}
  | some version_info =>
      let device := Installed.ofVersionInfo toLower version_info
      if index.isEmpty || device.type.isEmpty then {}
      else
        let latest_version := latestVersion fromString device index
        let listing := (channels debug_jade).foldl
          (listChannel fromString device latest_version index) {}
        { firmwares := listing.firmwares
          firmwareAvailable := listing.firmwares.foldl
            (fun available firmware => if isAvailable firmware then some firmware else available)
            none }

/-! ## What a choice is -/

/-- The last of the versions is the greatest. -/
def LastGreatest (versions : List QVersionNumber) : Prop :=
  ∀ last ∈ versions.getLast?, ∀ version ∈ versions, version ≤ last

section
variable (fromString : String → QVersionNumber) (device : Installed)

/-- An entry of the device's configuration on the stable channel, newer than what is installed. -/
def IsNewerStable (firmware : Fields) : Prop :=
  (firmware.value "channel").toText = "stable" ∧ device.sameConfig firmware = true ∧
    device.versionNumber fromString < versionOf fromString firmware

instance : DecidablePred (IsNewerStable fromString device) := fun firmware =>
  inferInstanceAs (Decidable ((firmware.value "channel").toText = "stable" ∧
    device.sameConfig firmware = true ∧
      device.versionNumber fromString < versionOf fromString firmware))

/-- The flags of the entries mean what they say, and the greatest version is available. -/
structure SelectsSoundly (s : JadeFirmwareCheckController) : Prop where
  newer : ∀ firmware ∈ s.firmwares, (firmware.value "newer_version").toBool = true →
    device.versionNumber fromString < versionOf fromString firmware
  installed : ∀ firmware ∈ s.firmwares, (firmware.value "installed").toBool = true →
    (firmware.value "upgrade").toBool = false
  apart : ∀ firmware ∈ s.firmwares,
    ¬ ((firmware.value "upgrade").toBool = true ∧ (firmware.value "downgrade").toBool = true)
  greatest : ∀ available, s.firmwareAvailable = some available →
    available ∈ s.firmwares ∧ IsNewerStable fromString device available ∧
      ∀ firmware ∈ s.firmwares, IsNewerStable fromString device firmware →
        versionOf fromString firmware ≤ versionOf fromString available
  none : s.firmwareAvailable = none →
    ∀ firmware ∈ s.firmwares, ¬ IsNewerStable fromString device firmware

end

/-! ## The entries that apply -/

/-- An entry of the index that applies to the device. -/
structure FirmwareEntry where
  channel : String
  delta : Bool
  firmware : Fields

section
variable (fromString : String → QVersionNumber) (device : Installed)

/-- A difference applies to what is installed. -/
def appliesDelta (firmware : Fields) : Bool :=
  device.version = (firmware.value "from_version").toJsonText ∧
    device.config = (firmware.value "from_config").toJsonText

def channelEntries (index : Fields) (channel : String) : List FirmwareEntry :=
  let index := channelOf device index channel
  (index.value "delta").toList.flatMap (fun value =>
      if appliesDelta device value.toMap then [⟨channel, true, value.toMap⟩] else []) ++
    (index.value "full").toList.map fun value => ⟨channel, false, value.toMap⟩

def entries (debug_jade : Bool) (index : Fields) : List FirmwareEntry :=
  if device.type.isEmpty then [] else (channels debug_jade).flatMap (channelEntries device index)

/-- The difference leads to what is installed. -/
def FirmwareEntry.isDropped (entry : FirmwareEntry) : Bool :=
  entry.delta && device.installed fromString entry.firmware

def FirmwareEntry.isNewerStable (entry : FirmwareEntry) : Bool :=
  entry.channel = "stable" ∧ device.sameConfig entry.firmware = true ∧
    device.versionNumber fromString < versionOf fromString entry.firmware

/-- No entry is of the installed version, besides differences that lead to it, and of the newer
ones that may become available the last is the greatest. -/
structure Orderly (debug_jade : Bool) (index : Fields) : Prop where
  others : ∀ entry ∈ entries device debug_jade index,
    versionOf fromString entry.firmware = device.versionNumber fromString →
      entry.isDropped fromString device = true
  last : LastGreatest (((entries device debug_jade index).filter
    (FirmwareEntry.isNewerStable fromString device)).map
      fun entry => versionOf fromString entry.firmware)

end

/-! ## What is read of a marked entry -/

namespace Fields

theorem value_insert_of_ne (fields : Fields) {key other : String} (v : Variant) (h : other ≠ key) :
    (fields.insert key v).value other = fields.value other := by
  rw [value, value, lookup_insert_of_ne fields v h]

end Fields

/-- What the laws of an entry depend on. -/
structure Marks where
  version : QVersionNumber
  config : String
  channel : String
  sameConfig : Bool
  newerVersion : Bool
  upgrade : Bool
  downgrade : Bool
  installed : Bool

section
variable (fromString : String → QVersionNumber) (device : Installed)

def marks (firmware : Fields) : Marks where
  version := versionOf fromString firmware
  config := (firmware.value "config").toJsonText
  channel := (firmware.value "channel").toText
  sameConfig := (firmware.value "same_config").toBool
  newerVersion := (firmware.value "newer_version").toBool
  upgrade := (firmware.value "upgrade").toBool
  downgrade := (firmware.value "downgrade").toBool
  installed := (firmware.value "installed").toBool

def FirmwareEntry.marks (entry : FirmwareEntry) : Marks where
  version := versionOf fromString entry.firmware
  config := (entry.firmware.value "config").toJsonText
  channel := entry.channel
  sameConfig := device.sameConfig entry.firmware
  newerVersion := device.newerVersion fromString entry.firmware
  upgrade := device.upgrade fromString entry.firmware
  downgrade := device.downgrade fromString entry.firmware
  installed := device.installed fromString entry.firmware

/-- The entry is of the version and the config of another one. -/
structure SameEntry (firmware firmware' : Fields) : Prop where
  version : firmware'.value "version" = firmware.value "version"
  config : firmware'.value "config" = firmware.value "config"

variable {fromString device} {firmware firmware' : Fields}

theorem SameEntry.versionOf (h : SameEntry firmware firmware') :
    versionOf fromString firmware' = versionOf fromString firmware := by
  rw [Jade.versionOf, h.version, Jade.versionOf]

theorem SameEntry.sameConfig (h : SameEntry firmware firmware') :
    device.sameConfig firmware' = device.sameConfig firmware := by
  rw [Installed.sameConfig, h.config, Installed.sameConfig]

theorem SameEntry.marks (h : SameEntry firmware firmware') (channel : String) (delta : Bool) :
    (⟨channel, delta, firmware'⟩ : FirmwareEntry).marks fromString device =
      (⟨channel, delta, firmware⟩ : FirmwareEntry).marks fromString device := by
  simp only [FirmwareEntry.marks, Installed.newerVersion, Installed.upgrade, Installed.downgrade,
    Installed.installed, Installed.sameVersion, h.versionOf, h.sameConfig, h.version, h.config]

theorem sameEntry_marked (latest_version : QVersionNumber) (channel : String) (delta : Bool) :
    SameEntry firmware (device.marked fromString firmware latest_version channel delta) := by
  constructor <;> simp (disch := decide) only [Installed.marked, Fields.value_insert_of_ne]

theorem marks_marked (latest_version : QVersionNumber) (channel : String) (delta : Bool) :
    marks fromString (device.marked fromString firmware latest_version channel delta) =
      (⟨channel, delta, firmware⟩ : FirmwareEntry).marks fromString device := by
  have hsame : SameEntry firmware
      (device.marked fromString firmware latest_version channel delta) :=
    sameEntry_marked latest_version channel delta
  rw [marks, hsame.versionOf, hsame.config]
  simp (disch := decide) only [Installed.marked, Fields.value_insert_of_ne,
    Fields.value_insert_self, FirmwareEntry.marks, Variant.toText, Variant.toBool]

/-- What the entries that are not dropped are marked with. -/
def keptMarks (fromString : String → QVersionNumber) (device : Installed)
    (entries : List FirmwareEntry) : List Marks :=
  (entries.filter fun entry => !entry.isDropped fromString device).map
    (FirmwareEntry.marks fromString device)

theorem keptMarks_append (entries entries' : List FirmwareEntry) :
    keptMarks fromString device (entries ++ entries') =
      keptMarks fromString device entries ++ keptMarks fromString device entries' := by
  simp only [keptMarks, List.filter_append, List.map_append]

/-- The marks of a listing. -/
def Listing.marks (fromString : String → QVersionNumber) (s : Listing) : List Marks :=
  s.firmwares.map (Jade.marks fromString)

/-- A loop whose rounds add entries. -/
theorem foldl_marks {α : Type} {body : Listing → α → Listing} {added : α → List FirmwareEntry}
    (hbody : ∀ s x, (body s x).marks fromString =
      s.marks fromString ++ keptMarks fromString device (added x)) (xs : List α) (s : Listing) :
    (xs.foldl body s).marks fromString =
      s.marks fromString ++ keptMarks fromString device (xs.flatMap added) := by
  induction xs generalizing s with
  | nil => simp [keptMarks]
  | cons x xs ih =>
      rw [List.foldl_cons, ih, hbody, List.append_assoc, ← keptMarks_append, List.flatMap_cons]

variable {latest_version : QVersionNumber}

theorem process_marks (channel : String) (delta : Bool) (h : SameEntry firmware firmware')
    (s : Listing) :
    (process fromString device latest_version channel delta firmware' s).marks fromString =
      s.marks fromString ++ keptMarks fromString device [⟨channel, delta, firmware⟩] := by
  have hinstalled : device.installed fromString firmware' = device.installed fromString firmware := by
    have hmarks : (⟨channel, delta, firmware'⟩ : FirmwareEntry).marks fromString device = _ :=
      h.marks channel delta
    exact congrArg Marks.installed hmarks
  unfold process Listing.marks keptMarks
  rw [hinstalled]
  by_cases hdropped : (delta && device.installed fromString firmware) = true
  · have hfilter : FirmwareEntry.isDropped fromString device ⟨channel, delta, firmware⟩ = true :=
      hdropped
    simp [hdropped, hfilter]
  · have hfilter : FirmwareEntry.isDropped fromString device ⟨channel, delta, firmware⟩ = false := by
      simpa [FirmwareEntry.isDropped] using hdropped
    simp only [hdropped, Bool.false_eq_true, if_false, List.map_append, List.map_cons, List.map_nil,
      List.filter_cons, hfilter, Bool.not_false, if_true, List.filter_nil, marks_marked, h.marks]

theorem sameEntry_insert (firmware : Fields) (has_delta : Bool) :
    SameEntry firmware (firmware.insert "has_delta" (.bool has_delta)) := by
  constructor <;> exact Fields.value_insert_of_ne _ _ (by decide)

theorem listDelta_marks (channel : String) (s : Listing) (value : Variant) :
    (listDelta fromString device latest_version channel s value).marks fromString =
      s.marks fromString ++ keptMarks fromString device
        (if appliesDelta device value.toMap then [⟨channel, true, value.toMap⟩] else []) := by
  unfold listDelta appliesDelta
  by_cases hversion : device.version = (value.toMap.value "from_version").toJsonText
  · by_cases hconfig : device.config = (value.toMap.value "from_config").toJsonText
    · simp only [hversion, hconfig, ne_eq, not_true_eq_false, if_false, and_self, decide_true,
        if_true]
      exact process_marks channel true (sameEntry_insert _ _) _
    · simp [hversion, hconfig, keptMarks]
  · simp [hversion, keptMarks]

theorem listFull_marks (channel : String) (s : Listing) (value : Variant) :
    (listFull fromString device latest_version channel s value).marks fromString =
      s.marks fromString ++ keptMarks fromString device [⟨channel, false, value.toMap⟩] :=
  process_marks channel false (sameEntry_insert _ _) s

theorem listChannel_marks (index : Fields) (s : Listing) (channel : String) :
    (listChannel fromString device latest_version index s channel).marks fromString =
      s.marks fromString ++ keptMarks fromString device (channelEntries device index channel) := by
  unfold listChannel channelEntries
  rw [foldl_marks (listFull_marks channel), foldl_marks (listDelta_marks channel),
    List.append_assoc, ← keptMarks_append]
  simp only [List.map_eq_flatMap]

variable (fromString) in
/-- The firmwares are marked as the entries that apply, in their order. -/
theorem check_marks (toLower : String → String) (debug_jade : Bool) (version_info index : Fields) :
    (check fromString toLower debug_jade (some version_info) index).firmwares.map
        (marks fromString) =
      keptMarks fromString (.ofVersionInfo toLower version_info)
        (entries (.ofVersionInfo toLower version_info) debug_jade index) := by
  generalize hdevice : Installed.ofVersionInfo toLower version_info = device
  unfold check entries
  simp only [hdevice]
  by_cases htype : device.type.isEmpty = true
  · simp [htype, keptMarks]
  · by_cases hindex : index.isEmpty = true
    · have hnone : ∀ channel, channelEntries device index channel = [] := by
        intro channel
        obtain rfl := List.isEmpty_iff.mp hindex
        rfl
      simp [hindex, hnone, keptMarks]
    · simp only [htype, hindex, Bool.or_self, Bool.false_eq_true, if_false]
      exact foldl_marks (listChannel_marks index) (channels debug_jade) {}

end

/-! ## What is available -/

theorem foldl_last {α : Type} (p : α → Bool) (xs : List α) (available : Option α) :
    xs.foldl (fun available x => if p x then some x else available) available =
      (xs.filter p).getLast?.or available := by
  induction xs generalizing available with
  | nil => rfl
  | cons x xs ih =>
      rw [List.foldl_cons, ih]
      by_cases hx : p x = true
      · rw [if_pos hx, List.filter_cons_of_pos hx, List.getLast?_cons]
        cases (xs.filter p).getLast? <;> rfl
      · rw [if_neg hx, List.filter_cons_of_neg hx]

theorem check_available (fromString : String → QVersionNumber) (toLower : String → String)
    (debug_jade : Bool) (version_info index : Fields) :
    (check fromString toLower debug_jade (some version_info) index).firmwareAvailable =
      ((check fromString toLower debug_jade (some version_info) index).firmwares.filter
        isAvailable).getLast? := by
  unfold check
  simp only
  split_ifs
  · rfl
  · rw [foldl_last, Option.or_none]

section
variable {fromString : String → QVersionNumber} {device : Installed}

/-- Among entries that mean to be newer what they are, those that are last are greatest. -/
theorem greatest_iff {s : JadeFirmwareCheckController}
    (havailable : s.firmwareAvailable = (s.firmwares.filter isAvailable).getLast?)
    (hfilter : ∀ firmware ∈ s.firmwares,
      isAvailable firmware = true ↔ IsNewerStable fromString device firmware) :
    ((∀ available, s.firmwareAvailable = some available →
        available ∈ s.firmwares ∧ IsNewerStable fromString device available ∧
          ∀ firmware ∈ s.firmwares, IsNewerStable fromString device firmware →
            versionOf fromString firmware ≤ versionOf fromString available) ∧
      (s.firmwareAvailable = none →
        ∀ firmware ∈ s.firmwares, ¬ IsNewerStable fromString device firmware)) ↔
      LastGreatest ((s.firmwares.filter isAvailable).map (versionOf fromString)) := by
  have hmem : ∀ firmware, firmware ∈ s.firmwares.filter isAvailable ↔
      firmware ∈ s.firmwares ∧ IsNewerStable fromString device firmware := by
    intro firmware
    rw [List.mem_filter]
    exact and_congr_right (hfilter firmware)
  rw [havailable]
  constructor
  · intro ⟨hgreatest, _⟩ last hlast version hversion
    rw [List.getLast?_map, Option.mem_def, Option.map_eq_some_iff] at hlast
    obtain ⟨available, hlast, rfl⟩ := hlast
    obtain ⟨firmware, hfirmware, rfl⟩ := List.mem_map.mp hversion
    obtain ⟨hlisted, hnewer⟩ := (hmem firmware).mp hfirmware
    exact (hgreatest available hlast).2.2 firmware hlisted hnewer
  · intro hlast
    refine ⟨fun available hsome => ?_, fun hnone firmware hfirmware hnewer => ?_⟩
    · obtain ⟨hlisted, hnewer⟩ := (hmem available).mp (List.mem_of_getLast? hsome)
      refine ⟨hlisted, hnewer, fun firmware hfirmware hother => ?_⟩
      refine hlast _ ?_ _ (List.mem_map_of_mem ((hmem firmware).mpr ⟨hfirmware, hother⟩))
      rw [List.getLast?_map, hsome]
      rfl
    · rw [List.getLast?_eq_none_iff] at hnone
      have hin := (hmem firmware).mpr ⟨hfirmware, hnewer⟩
      rw [hnone] at hin
      cases hin

/-- What `isAvailable` looks at. -/
def Marks.isAvailable (m : Marks) : Bool := m.channel == "stable" && m.sameConfig && m.newerVersion

theorem isAvailable_eq (fromString : String → QVersionNumber) (firmware : Fields) :
    isAvailable firmware = (marks fromString firmware).isAvailable := rfl

theorem apart_marks (entry : FirmwareEntry) :
    ¬ ((entry.marks fromString device).upgrade = true ∧
      (entry.marks fromString device).downgrade = true) := by
  simp only [FirmwareEntry.marks, Installed.upgrade, Installed.downgrade, Installed.newerVersion,
    Installed.sameVersion, Bool.or_eq_true, Bool.and_eq_true, decide_eq_true_eq, not_and, not_lt]
  rintro (hnewer | ⟨hsame, -⟩)
  · exact hnewer
  · exact hsame.le

/-- An entry is dropped or installed only if it is of the installed version. -/
theorem sameVersion_of_installed {firmware : Fields}
    (h : device.installed fromString firmware = true) :
    versionOf fromString firmware = device.versionNumber fromString := by
  simp only [Installed.installed, Installed.sameVersion, Bool.and_eq_true, decide_eq_true_eq] at h
  exact h.1.1.symm

variable {entries : List FirmwareEntry}

theorem mem_keptMarks {m : Marks} :
    m ∈ keptMarks fromString device entries ↔
      ∃ entry ∈ entries, entry.isDropped fromString device = false ∧
        entry.marks fromString device = m := by
  simp only [keptMarks, List.mem_map, List.mem_filter, Bool.not_eq_true', and_assoc]

/-- The flag means newer exactly if nothing of the installed version is kept. -/
theorem newer_keptMarks_iff :
    (∀ m ∈ keptMarks fromString device entries,
        m.newerVersion = true → device.versionNumber fromString < m.version) ↔
      ∀ entry ∈ entries, versionOf fromString entry.firmware = device.versionNumber fromString →
        entry.isDropped fromString device = true := by
  constructor
  · intro hnewer entry hentry hversion
    by_contra hdropped
    have hmem : entry.marks fromString device ∈ keptMarks fromString device entries :=
      mem_keptMarks.mpr ⟨entry, hentry, by simpa using hdropped, rfl⟩
    have hlt := hnewer _ hmem (decide_eq_true hversion.ge)
    exact hlt.ne hversion.symm
  · intro hothers m hm hnewer
    obtain ⟨entry, hentry, hdropped, rfl⟩ := mem_keptMarks.mp hm
    have hle : device.versionNumber fromString ≤ versionOf fromString entry.firmware :=
      of_decide_eq_true hnewer
    refine lt_of_le_of_ne hle fun heq => ?_
    rw [hothers entry hentry heq.symm] at hdropped
    cases hdropped

/-- With nothing else of the installed version, what may become available is newer. -/
theorem versions_available (hothers : ∀ entry ∈ entries,
      versionOf fromString entry.firmware = device.versionNumber fromString →
        entry.isDropped fromString device = true) :
    ((keptMarks fromString device entries).filter Marks.isAvailable).map Marks.version =
      (entries.filter (FirmwareEntry.isNewerStable fromString device)).map
        fun entry => versionOf fromString entry.firmware := by
  rw [keptMarks, List.filter_map, List.map_map, List.filter_filter]
  have hsame : entries.filter (fun entry => (Marks.isAvailable ∘ FirmwareEntry.marks fromString
      device) entry && !entry.isDropped fromString device) =
        entries.filter (FirmwareEntry.isNewerStable fromString device) := by
    apply List.filter_congr
    intro entry hentry
    rw [Bool.eq_iff_iff]
    simp only [Function.comp_apply, Marks.isAvailable, FirmwareEntry.marks,
      FirmwareEntry.isNewerStable, Installed.newerVersion, Bool.and_eq_true, beq_iff_eq,
      decide_eq_true_eq, Bool.not_eq_true', and_assoc]
    refine and_congr_right fun _ => and_congr_right fun _ => ?_
    constructor
    · intro ⟨hle, hdropped⟩
      refine lt_of_le_of_ne hle fun heq => ?_
      rw [hothers entry hentry heq.symm] at hdropped
      cases hdropped
    · intro hlt
      refine ⟨hlt.le, ?_⟩
      by_contra hdropped
      rw [Bool.not_eq_false, FirmwareEntry.isDropped, Bool.and_eq_true] at hdropped
      exact hlt.ne (sameVersion_of_installed hdropped.2).symm
  rw [hsame]
  rfl

end

/-- The choice is sound exactly if the index has no other entry of the installed version, and
lists the newer ones of the stable channel so that the greatest is the last. -/
theorem selectsSoundly_iff (fromString : String → QVersionNumber) (toLower : String → String)
    (debug_jade : Bool) (version_info index : Fields) :
    SelectsSoundly fromString (.ofVersionInfo toLower version_info)
        (check fromString toLower debug_jade (some version_info) index) ↔
      Orderly fromString (.ofVersionInfo toLower version_info) debug_jade index := by
  have hmarks := check_marks fromString toLower debug_jade version_info index
  have havailable := check_available fromString toLower debug_jade version_info index
  generalize check fromString toLower debug_jade (some version_info) index = s at hmarks havailable ⊢
  generalize Installed.ofVersionInfo toLower version_info = device at hmarks ⊢
  have hforall : ∀ P : Marks → Prop, (∀ firmware ∈ s.firmwares, P (marks fromString firmware)) ↔
      ∀ m ∈ keptMarks fromString device (entries device debug_jade index), P m := by
    intro P
    rw [← hmarks]
    exact List.forall_mem_map.symm
  have hnewer := (hforall fun m =>
    m.newerVersion = true → device.versionNumber fromString < m.version).trans newer_keptMarks_iff
  have hlast : (∀ firmware ∈ s.firmwares, (marks fromString firmware).newerVersion = true →
      device.versionNumber fromString < versionOf fromString firmware) →
      (LastGreatest ((s.firmwares.filter isAvailable).map (versionOf fromString)) ↔
        LastGreatest (((entries device debug_jade index).filter
          (FirmwareEntry.isNewerStable fromString device)).map
            fun entry => versionOf fromString entry.firmware)) := by
    intro h
    rw [← versions_available (hnewer.mp h), ← hmarks, List.filter_map, List.map_map]
    rfl
  have hfilter : (∀ firmware ∈ s.firmwares, (marks fromString firmware).newerVersion = true →
      device.versionNumber fromString < versionOf fromString firmware) →
      ∀ firmware ∈ s.firmwares,
        isAvailable firmware = true ↔ IsNewerStable fromString device firmware := by
    intro h firmware hfirmware
    have hflags := (hforall fun m => m.sameConfig = decide (device.config = m.config) ∧
      m.newerVersion = decide (device.versionNumber fromString ≤ m.version)).mpr (by
        intro m hm
        obtain ⟨entry, -, -, rfl⟩ := mem_keptMarks.mp hm
        exact ⟨rfl, rfl⟩) firmware hfirmware
    rw [isAvailable_eq fromString, Marks.isAvailable, Bool.and_eq_true,
      Bool.and_eq_true, hflags.1, beq_iff_eq, and_assoc]
    refine and_congr_right fun _ => and_congr_right fun _ => ⟨h firmware hfirmware, fun hlt => ?_⟩
    rw [hflags.2]
    exact decide_eq_true hlt.le
  constructor
  · intro hs
    exact ⟨hnewer.mp hs.newer,
      (hlast hs.newer).mp ((greatest_iff havailable (hfilter hs.newer)).mp ⟨hs.greatest, hs.none⟩)⟩
  · intro horderly
    have hmeans := hnewer.mpr horderly.others
    obtain ⟨hgreatest, hnone⟩ :=
      (greatest_iff havailable (hfilter hmeans)).mpr ((hlast hmeans).mpr horderly.last)
    refine ⟨hmeans, ?_, ?_, hgreatest, hnone⟩
    · refine (hforall fun m => m.installed = true → m.upgrade = false).mpr fun m hm hinstalled => ?_
      obtain ⟨entry, hentry, hdropped, rfl⟩ := mem_keptMarks.mp hm
      rw [horderly.others entry hentry (sameVersion_of_installed hinstalled)] at hdropped
      cases hdropped
    · refine (hforall fun m => ¬ (m.upgrade = true ∧ m.downgrade = true)).mpr fun m hm => ?_
      obtain ⟨entry, -, -, rfl⟩ := mem_keptMarks.mp hm
      exact apart_marks entry

/-- An index that lists, for the board, full firmwares on the stable channel. -/
def stableIndex (versions : List String) : Fields :=
  [("jade", .map [("stable", .map [("full", .list (versions.map fun version =>
    .map [("version", .text version), ("config", .text "ble")]))])])]

/-- A board with secure boot and a version. -/
def installedVersion (version : String) : Fields :=
  [("JADE_FEATURES", .text "SB"), ("JADE_VERSION", .text version), ("JADE_CONFIG", .text "ble")]

/-- The versions of the indexes below. -/
def someVersions (text : String) : QVersionNumber :=
  if text = "1.0.38" then ⟨[1, 0, 38]⟩
  else if text = "1.0.37" then ⟨[1, 0, 37]⟩
  else if text = "1.0.36" then ⟨[1, 0, 36]⟩
  else ⟨[]⟩

/-- The installed version is flagged as newer, and of two newer ones the last is available. -/
theorem not_selectsSoundly_stableIndex :
    ¬ SelectsSoundly someVersions (.ofVersionInfo id (installedVersion "1.0.37"))
        (check someVersions id false (some (installedVersion "1.0.37")) (stableIndex ["1.0.37"])) ∧
      ¬ SelectsSoundly someVersions (.ofVersionInfo id (installedVersion "1.0.36"))
        (check someVersions id false (some (installedVersion "1.0.36"))
          (stableIndex ["1.0.38", "1.0.37"])) := by
  refine ⟨fun h => absurd h.newer (by decide), fun h => ?_⟩
  have hgreatest : ∀ available ∈ (check someVersions id false (some (installedVersion "1.0.36"))
      (stableIndex ["1.0.38", "1.0.37"])).firmwareAvailable,
        ∀ firmware ∈ (check someVersions id false (some (installedVersion "1.0.36"))
          (stableIndex ["1.0.38", "1.0.37"])).firmwares,
            IsNewerStable someVersions (.ofVersionInfo id (installedVersion "1.0.36")) firmware →
              versionOf someVersions firmware ≤ versionOf someVersions available :=
    fun available havailable => (h.greatest available havailable).2.2
  exact absurd hgreatest (by decide)

end GreenWallet.Jade
