import Mathlib.Data.List.Basic
import Mathlib.Data.Rat.Defs
import Std.Data.ExtTreeSet.Lemmas
import GreenWallet.Library.Keyed

/-!
# The record of a wallet

A wallet is kept as a JSON object: what it is called and known by, and the login data
under a key that says what kind they are. Writer and reader are apart. A document and
its text are taken for the same thing here; a member that is missing reads as
undefined, which is `none`, and so does one of another type than asked for.
-/
namespace GreenWallet.Wallets
open GreenWallet.Library
open Std (ExtTreeSet)

inductive Json where
  | null
  | bool (value : Bool)
  | number (value : ℚ)
  | string (value : String)
  | array (values : List Json)
  | object (members : List (String × Json))

abbrev JsonObject := List (String × Json)

namespace JsonObject

def value (key : String) (data : JsonObject) : Option Json := data.lookup key

def contains (key : String) (data : JsonObject) : Bool := (data.value key).isSome

def insert (key : String) (value : Json) (data : JsonObject) : JsonObject :=
  data.filter (fun member => member.1 != key) ++ [(key, value)]

@[simp] theorem value_nil (key : String) : JsonObject.value key [] = none := rfl

@[simp] theorem value_cons (key other : String) (value : Json) (data : JsonObject) :
    JsonObject.value other ((key, value) :: data) =
      if other = key then some value else data.value other := by
  rw [JsonObject.value, List.lookup_cons]
  split_ifs with h
  · rw [h, beq_self_eq_true]
  · rw [beq_false_of_ne h]
    rfl

@[simp] theorem value_insert_self (key : String) (value : Json) (data : JsonObject) :
    (data.insert key value).value key = some value := by
  simp [JsonObject.value, JsonObject.insert, List.lookup_append, Keyed.lookup_filter_self]

theorem value_insert_of_ne {key other : String} (value : Json) (data : JsonObject)
    (h : other ≠ key) : (data.insert key value).value other = data.value other := by
  have hcons : List.lookup other [(key, value)] = none := by
    rw [List.lookup_cons, beq_false_of_ne h]
    rfl
  rw [JsonObject.value, JsonObject.insert, List.lookup_append, hcons, Option.or_none,
    Keyed.lookup_filter_of_ne _ h]
  rfl

theorem contains_insert (key other : String) (value : Json) (data : JsonObject) :
    (data.insert key value).contains other = (other == key || data.contains other) := by
  by_cases h : other = key
  · simp [contains, h]
  · simp [contains, value_insert_of_ne value data h, h]

end JsonObject

namespace Json

def toString (json : Option Json) (default : String := "") : String :=
  match json with
  | some (.string value) => value
  | _ => default

def toBool (json : Option Json) : Bool :=
  match json with
  | some (.bool value) => value
  | _ => false

def toArray (json : Option Json) : List Json :=
  match json with
  | some (.array values) => values
  | _ => []

def toObject (json : Option Json) : JsonObject :=
  match json with
  | some (.object members) => members
  | _ => []

def toDouble (json : Option Json) : ℚ :=
  match json with
  | some (.number value) => value
  | _ => 0

/-- A number is an `int` if it is whole and not too large. -/
def toInt (json : Option Json) : Int32 :=
  match json with
  | some (.number value) =>
      if value.den = 1 ∧ Int32.minValue.toInt ≤ value.num ∧ value.num ≤ Int32.maxValue.toInt then
        Int32.ofInt value.num
      else 0
  | _ => 0

@[simp] theorem toString_string (value default : String) :
    toString (some (.string value)) default = value := rfl

/-- `QJsonArray::fromStringList`. -/
def fromStringList (list : List String) : Json := .array (list.map .string)

/-- `ToStringList`. -/
def toStringList (json : Option Json) : List String := (toArray json).map fun value => toString (some value)

@[simp] theorem toStringList_fromStringList (list : List String) :
    toStringList (some (fromStringList list)) = list := by
  simp only [toStringList, fromStringList, toArray, List.map_map]
  exact List.map_id list

@[simp] theorem toStringList_none : toStringList none = [] := rfl

@[simp] theorem toInt_number (value : Int32) : toInt (some (.number (value.toInt : ℚ))) = value := by
  have hrange : Int32.minValue.toInt ≤ value.toInt ∧ value.toInt ≤ Int32.maxValue.toInt :=
    ⟨Int32.minValue_le_toInt value, Int32.toInt_le value⟩
  simp only [toInt, Rat.den_intCast, Rat.num_intCast, true_and, if_pos hrange]
  exact Int32.ofInt_toInt value

end Json

structure Network where
  id : String
  isElectrum : Bool
deriving DecidableEq

/-- The networks of the wallet library, which have different ids. -/
structure NetworkManager where
  networks : List Network
  distinct : (networks.map Network.id).Nodup

def NetworkManager.network (manager : NetworkManager) (id : String) : Option Network :=
  manager.networks.find? fun network => network.id == id

theorem NetworkManager.network_id {manager : NetworkManager} {network : Network}
    (h : network ∈ manager.networks) : manager.network network.id = some network := by
  rw [NetworkManager.network, List.find?_eq_some_iff_append]
  obtain ⟨before, after, hsplit⟩ := List.append_of_mem h
  refine ⟨beq_self_eq_true _, before, after, hsplit, ?_⟩
  intro other hother
  have hdistinct := manager.distinct
  rw [hsplit, List.map_append, List.map_cons, List.nodup_append] at hdistinct
  have hne := hdistinct.2.2 other.id (List.mem_map_of_mem hother) network.id List.mem_cons_self
  simpa using hne

structure PinData where
  network : Option Network := none
  passphrase : Bool := false
  data : JsonObject := []
  attempts : Int32 := 3

structure DeviceData where
  device : JsonObject := []

structure WatchonlyData where
  network : Option Network := none
  username : String := ""
  core_descriptors : List String := []
  extended_pubkeys : List String := []

inductive LoginData where
  | pin (pin : PinData)
  | device (device : DeviceData)
  | watchonly (watchonly : WatchonlyData)

/-- What is written of a wallet, apart from its id. -/
structure Record where
  name : String := ""
  deployment : String := ""
  xpub_hash_id : String := ""
  hashes : ExtTreeSet String := ∅
  login : Option LoginData := none

/-! ## Writing

Without a network the writer follows a null pointer, and the program ends there. -/

def PinData.write (pin : PinData) (data : JsonObject) : Option JsonObject :=
  pin.network.map fun network =>
    data.insert "pin" (.object
      [("network", .string network.id), ("data", .object pin.data),
        ("attempts", .number pin.attempts.toInt), ("passphrase", .bool pin.passphrase)])

def DeviceData.write (device : DeviceData) (data : JsonObject) : Option JsonObject :=
  some (data.insert "device" (.object device.device))

/-- What is kept depends on the network: descriptors or public keys, or a name. -/
def WatchonlyData.write (watchonly : WatchonlyData) (data : JsonObject) : Option JsonObject :=
  watchonly.network.map fun network =>
    if network.isElectrum && !watchonly.core_descriptors.isEmpty then
      data.insert "watchonly" (.object
        [("network", .string network.id),
          ("core_descriptors", Json.fromStringList watchonly.core_descriptors)])
    else if network.isElectrum && !watchonly.extended_pubkeys.isEmpty then
      data.insert "watchonly" (.object
        [("network", .string network.id),
          ("extended_pubkeys", Json.fromStringList watchonly.extended_pubkeys)])
    else if !network.isElectrum then
      data.insert "watchonly" (.object
        [("network", .string network.id), ("username", .string watchonly.username)])
    else data

def LoginData.write (data : JsonObject) : LoginData → Option JsonObject
  | .pin login => login.write data
  | .device login => login.write data
  | .watchonly login => login.write data

/-- What is written of every wallet, whatever its login. -/
def Record.common (record : Record) : JsonObject :=
  let data : JsonObject :=
    [("name", .string record.name), ("deployment", .string record.deployment),
      ("hashes", Json.fromStringList record.hashes.toList)]
  if record.xpub_hash_id.isEmpty then data
  else data.insert "xpub_hash_id" (.string record.xpub_hash_id)

/-- The object that `save` writes. -/
def Record.write (record : Record) : Option JsonObject :=
  match record.login with
  | none => some record.common
  | some login => login.write record.common

/-! ## Reading -/

section
variable (manager : NetworkManager) (data : JsonObject)

def PinData.read : PinData :=
  let pin := Json.toObject (data.value "pin")
  { network := manager.network (Json.toString (pin.value "network"))
    data := Json.toObject (pin.value "data")
    attempts := Json.toInt (pin.value "attempts")
    passphrase := Json.toBool (pin.value "passphrase") }

def DeviceData.read : DeviceData := { device := Json.toObject (data.value "device") }

def WatchonlyData.read : WatchonlyData :=
  let watchonly := Json.toObject (data.value "watchonly")
  { network := manager.network (Json.toString (watchonly.value "network"))
    username := Json.toString (watchonly.value "username")
    core_descriptors := Json.toStringList (watchonly.value "core_descriptors")
    extended_pubkeys := Json.toStringList (watchonly.value "extended_pubkeys") }

/-- The login data of a record, by the first of the three keys it has. -/
def LoginData.read : Option LoginData :=
  if data.contains "pin" then some (.pin (PinData.read manager data))
  else if data.contains "watchonly" then some (.watchonly (WatchonlyData.read manager data))
  else if data.contains "device" then some (.device (DeviceData.read data))
  else none

/-- A record without login data is skipped. -/
def Record.read : Option Record :=
  (LoginData.read manager data).map fun login =>
    { deployment := Json.toString (data.value "deployment") "mainnet"
      name := Json.toString (data.value "name")
      xpub_hash_id := Json.toString (data.value "xpub_hash_id")
      hashes :=
        (Json.toArray (data.value "hashes")).foldl
          (fun hashes hash => hashes.insert (Json.toString (some hash))) ∅
      login := some login }

end

/-! ## What the reader makes of what was written -/

/-- The network of a login. -/
def LoginData.network : LoginData → Option Network
  | .pin login => login.network
  | .device _ => none
  | .watchonly login => login.network

/-- The login comes back: it has its network if it needs one, and of the three ways to
watch a wallet just the one that is kept for that network. -/
def LoginData.Restorable : LoginData → Prop
  | .pin login => login.network ≠ none
  | .device _ => True
  | .watchonly login =>
      match login.network with
      | none => False
      | some network =>
          if network.isElectrum then
            login.username = "" ∧ (login.core_descriptors = [] ↔ login.extended_pubkeys ≠ [])
          else login.core_descriptors = [] ∧ login.extended_pubkeys = []

/-- A wallet comes back if it has a login that does. -/
def Record.Restorable (record : Record) : Prop :=
  ∃ login, record.login = some login ∧ login.Restorable

theorem mem_foldl_insert {hash : String} (values : List Json) (hashes : ExtTreeSet String) :
    hash ∈ values.foldl (fun hashes value => hashes.insert (Json.toString (some value))) hashes ↔
      hash ∈ values.map (fun value => Json.toString (some value)) ∨ hash ∈ hashes := by
  have hround (hashes : ExtTreeSet String) (value : Json) :
      hash ∈ hashes.insert (Json.toString (some value)) ↔
        Json.toString (some value) = hash ∨ hash ∈ hashes := by
    rw [ExtTreeSet.mem_insert, Std.LawfulEqCmp.compare_eq_iff_eq]
  rw [List.mem_map]
  exact Keyed.foldl_gains (fun hashes : ExtTreeSet String => hash ∈ hashes) hround values hashes

/-- The hashes come back, whatever order they were written in. -/
theorem foldl_insert_fromStringList (hashes : ExtTreeSet String) :
    (Json.toArray (some (Json.fromStringList hashes.toList))).foldl
      (fun hashes hash => hashes.insert (Json.toString (some hash))) ∅ = hashes := by
  apply ExtTreeSet.ext_mem
  intro hash
  have hlist := Json.toStringList_fromStringList hashes.toList
  rw [Json.toStringList] at hlist
  rw [mem_foldl_insert, hlist, ExtTreeSet.mem_toList]
  simp

namespace LoginData

/-- The key that says what kind a login is. -/
def key : LoginData → String
  | .pin _ => "pin"
  | .device _ => "device"
  | .watchonly _ => "watchonly"

/-- A login is written under its own key. -/
theorem value_write {login : LoginData} {data written : JsonObject} {key : String}
    (hwrite : login.write data = some written) (hkey : key ≠ login.key) :
    written.value key = data.value key := by
  cases login with
  | pin login =>
      obtain ⟨network, _, rfl⟩ := Option.map_eq_some_iff.mp hwrite
      exact JsonObject.value_insert_of_ne _ _ hkey
  | device login =>
      obtain rfl := Option.some.inj hwrite
      exact JsonObject.value_insert_of_ne _ _ hkey
  | watchonly login =>
      obtain ⟨network, _, rfl⟩ := Option.map_eq_some_iff.mp hwrite
      split_ifs
      · exact JsonObject.value_insert_of_ne _ _ hkey
      · exact JsonObject.value_insert_of_ne _ _ hkey
      · exact JsonObject.value_insert_of_ne _ _ hkey
      · rfl

theorem contains_write {login : LoginData} {data written : JsonObject} {key : String}
    (hwrite : login.write data = some written) (hkey : key ≠ login.key) :
    written.contains key = data.contains key := by
  rw [JsonObject.contains, value_write hwrite hkey, JsonObject.contains]

/-- The pin data come back. -/
theorem read_write_pin {manager : NetworkManager} {login : PinData} {network : Network}
    {data written : JsonObject} (hlogin : login.network = some network)
    (hnetwork : network ∈ manager.networks) (hwrite : login.write data = some written) :
    PinData.read manager written = login := by
  rw [PinData.write, hlogin, Option.map_some, Option.some.injEq] at hwrite
  subst hwrite
  have hid := NetworkManager.network_id hnetwork
  obtain ⟨_, passphrase, object, attempts⟩ := login
  cases hlogin
  simp [PinData.read, Json.toObject, Json.toString, Json.toBool, hid]

theorem read_write_device {login : DeviceData} {data written : JsonObject}
    (hwrite : login.write data = some written) : DeviceData.read written = login := by
  obtain rfl := Option.some.inj hwrite
  rw [DeviceData.read, JsonObject.value_insert_self]
  rfl

/-- Nothing is written of a login that watches an Electrum wallet by no key at all. -/
theorem read_write_watchonly {manager : NetworkManager} {login : WatchonlyData}
    {network : Network} {data written : JsonObject} (hlogin : login.network = some network)
    (hnetwork : network ∈ manager.networks) (hdata : data.contains "watchonly" = false)
    (hwrite : login.write data = some written) :
    written.contains "watchonly" = true ∧ WatchonlyData.read manager written = login ↔
      (LoginData.watchonly login).Restorable := by
  rw [WatchonlyData.write, hlogin, Option.map_some, Option.some.injEq] at hwrite
  subst hwrite
  have hid := NetworkManager.network_id hnetwork
  obtain ⟨_, username, descriptors, pubkeys⟩ := login
  cases hlogin
  cases helectrum : network.isElectrum with
  | false =>
      simp [WatchonlyData.read, Restorable, helectrum, hid, JsonObject.contains_insert,
        Json.toObject, Json.toString, Json.toStringList, Json.toArray]
  | true =>
      cases descriptors with
      | nil =>
          cases pubkeys with
          | nil => simp [Restorable, helectrum, hdata]
          | cons pubkey pubkeys =>
              simp [WatchonlyData.read, Restorable, helectrum, hid, JsonObject.contains_insert,
                Json.toObject, Json.toString]
      | cons descriptor descriptors =>
          simp [WatchonlyData.read, Restorable, helectrum, hid, JsonObject.contains_insert,
            Json.toObject, Json.toString]

/-- The logins of a manager's wallets have its networks, or none. -/
def Networked (manager : NetworkManager) (login : LoginData) : Prop :=
  ∀ network, login.network = some network → network ∈ manager.networks

/-- A login is read back from an object that had none before. -/
theorem read_write {manager : NetworkManager} {login : LoginData} {data written : JsonObject}
    (hlogin : login.Networked manager) (hpin : data.contains "pin" = false)
    (hwatchonly : data.contains "watchonly" = false) (hdevice : data.contains "device" = false)
    (hwrite : login.write data = some written) :
    LoginData.read manager written = some login ↔ login.Restorable := by
  cases login with
  | pin login =>
      obtain ⟨network, hnetwork, _⟩ := Option.map_eq_some_iff.mp hwrite
      have hread := read_write_pin hnetwork (hlogin network hnetwork) hwrite
      have hcontains : written.contains "pin" = true := by
        obtain ⟨_, _, rfl⟩ := Option.map_eq_some_iff.mp hwrite
        simp [JsonObject.contains_insert]
      simp [LoginData.read, hcontains, hread, Restorable, hnetwork]
  | device login =>
      have hread := read_write_device hwrite
      have hcontains : written.contains "device" = true := by
        obtain rfl := Option.some.inj hwrite
        simp [JsonObject.contains_insert]
      rw [← contains_write hwrite (by simp [key])] at hpin hwatchonly
      simp [LoginData.read, hcontains, hread, Restorable, hpin, hwatchonly]
  | watchonly login =>
      obtain ⟨network, hnetwork, _⟩ := Option.map_eq_some_iff.mp hwrite
      rw [← read_write_watchonly hnetwork (hlogin network hnetwork) hwatchonly hwrite]
      rw [← contains_write hwrite (by simp [key])] at hpin hdevice
      cases hcontains : written.contains "watchonly" <;>
        simp [LoginData.read, hcontains, hpin, hdevice]

/-- A login that comes back could be written. -/
theorem Restorable.exists_write {login : LoginData} (h : login.Restorable) (data : JsonObject) :
    ∃ written, login.write data = some written := by
  cases login with
  | pin login =>
      obtain ⟨network, hnetwork⟩ := Option.ne_none_iff_exists'.mp h
      simp [LoginData.write, PinData.write, hnetwork]
  | device login => exact ⟨_, rfl⟩
  | watchonly login =>
      cases hnetwork : login.network with
      | none => simp [Restorable, hnetwork] at h
      | some network => simp [LoginData.write, WatchonlyData.write, hnetwork]

end LoginData

namespace Record

/-- The part that has nothing to do with the login. -/
theorem value_common (record : Record) (key : String) :
    record.common.value key =
      if key = "xpub_hash_id" then
        if record.xpub_hash_id = "" then none else some (.string record.xpub_hash_id)
      else if key = "name" then some (.string record.name)
      else if key = "deployment" then some (.string record.deployment)
      else if key = "hashes" then some (Json.fromStringList record.hashes.toList)
      else none := by
  unfold common
  by_cases hid : record.xpub_hash_id = ""
  · have hempty : record.xpub_hash_id.isEmpty := by simpa using hid
    rw [if_pos hempty]
    simp only [JsonObject.value_cons, JsonObject.value_nil]
    grind
  · have hempty : ¬record.xpub_hash_id.isEmpty := by simpa using hid
    rw [if_neg hempty]
    by_cases hkey : key = "xpub_hash_id"
    · simp [hkey, hid]
    · simp [hkey, JsonObject.value_insert_of_ne]

theorem contains_common (record : Record) (login : LoginData) :
    record.common.contains login.key = false := by
  rw [JsonObject.contains, value_common]
  cases login <;> simp [LoginData.key]

/-- The reader of the record, on an object that says what the common part does. -/
theorem read_of_value_eq {manager : NetworkManager} {record : Record} {written : JsonObject}
    (h : ∀ key ∈ ["name", "deployment", "hashes", "xpub_hash_id"],
      written.value key = record.common.value key) :
    Record.read manager written =
      (LoginData.read manager written).map fun login => { record with login := some login } := by
  have hhashes := foldl_insert_fromStringList record.hashes
  simp only [Record.read]
  congr 1
  funext login
  rw [h "name" (by simp), h "deployment" (by simp), h "hashes" (by simp), h "xpub_hash_id" (by simp)]
  have hid : Json.toString (record.common.value "xpub_hash_id") = record.xpub_hash_id := by
    rw [value_common, if_pos rfl]
    split_ifs with hempty
    · exact hempty.symm
    · rfl
  rw [hid]
  simp [value_common, hhashes]

/-- A record comes back from what was written of it just if its login does. -/
theorem read_write {manager : NetworkManager} {record : Record} {written : JsonObject}
    (hlogin : ∀ login, record.login = some login → login.Networked manager)
    (hwrite : record.write = some written) :
    Record.read manager written = some record ↔ record.Restorable := by
  have hpin := contains_common record (.pin {})
  have hwatchonly := contains_common record (.watchonly {})
  have hdevice := contains_common record (.device {})
  cases hrecord : record.login with
  | none =>
      rw [Record.write, hrecord] at hwrite
      obtain rfl := Option.some.inj hwrite
      have hread : LoginData.read manager record.common = none := by
        simp only [LoginData.key] at hpin hwatchonly hdevice
        simp [LoginData.read, hpin, hwatchonly, hdevice]
      rw [read_of_value_eq fun _ _ => rfl, hread]
      simp [Restorable, hrecord]
  | some login =>
      rw [Record.write, hrecord] at hwrite
      have hvalue : ∀ key ∈ ["name", "deployment", "hashes", "xpub_hash_id"],
          written.value key = record.common.value key := by
        intro key hkey
        apply LoginData.value_write hwrite
        intro hsame
        subst hsame
        cases login <;> simp [LoginData.key] at hkey
      have hread := LoginData.read_write (hlogin login hrecord) hpin hwatchonly hdevice hwrite
      have heta : { record with login := some login } = record := by rw [← hrecord]
      have hrestorable : record.Restorable ↔ login.Restorable := by simp [Restorable, hrecord]
      rw [read_of_value_eq hvalue, hrestorable, ← hread, Option.map_eq_some_iff]
      constructor
      · intro ⟨other, hother, hsame⟩
        have hlogin := congrArg Record.login hsame
        rw [hother, ← hrecord]
        exact hlogin
      · intro hsome
        exact ⟨login, hsome, heta⟩

end Record
end GreenWallet.Wallets
