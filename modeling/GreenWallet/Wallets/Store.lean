import Mathlib.Data.List.AList
import Mathlib.Data.List.TakeWhile
import GreenWallet.Library.Crash
import GreenWallet.Wallets.Record

/-!
# The wallets on disk

Every wallet has a file in `wallets2`, named by its id. Earlier versions kept a file in
`wallets`, whose login data are turned into wallets of their own the first time. What a
file says is what it parses as; an empty file does not parse.
-/
namespace GreenWallet.Wallets
open GreenWallet.Library

structure WalletId where
  text : String
  no_dot : '.' ∉ text.toList
deriving DecidableEq

theorem WalletId.text_injective : Function.Injective WalletId.text := by
  rintro ⟨text, _⟩ ⟨_, _⟩ rfl
  rfl

/-- `QFileInfo::baseName`. -/
def baseName (name : String) : WalletId where
  text := String.ofList (name.toList.takeWhile (· ≠ '.'))
  no_dot := by
    intro h
    rw [String.toList_ofList] at h
    have hne := List.mem_takeWhile_imp h
    simp at hne

@[simp] theorem baseName_text (id : WalletId) : baseName id.text = id := by
  have hall : id.text.toList.takeWhile (· ≠ '.') = id.text.toList := by
    rw [List.takeWhile_eq_self_iff]
    intro c hc
    have hne : c ≠ '.' := fun h => id.no_dot (h ▸ hc)
    simpa using hne
  obtain ⟨text, no_dot⟩ := id
  simp only [baseName, WalletId.mk.injEq]
  rw [hall, String.ofList_toList]

abbrev Directory := AList fun _ : String => Option Json

/-- What `GetDataDir` takes for its context. -/
inductive DataDir where
  | wallets
  | wallets2
deriving DecidableEq

structure Disk where
  wallets : Option Directory := none
  wallets2 : Option Directory := none

/-- The steps that reach the disk. The files are those of `wallets2`. -/
inductive FileStep where
  | mkdir (context : DataDir)
  | truncate (name : String)
  | write (name : String) (data : JsonObject)
  | remove (name : String)

namespace Disk

def apply (disk : Disk) : FileStep → Disk
  | .mkdir .wallets => { disk with wallets := some (disk.wallets.getD ∅) }
  | .mkdir .wallets2 => { disk with wallets2 := some (disk.wallets2.getD ∅) }
  | .truncate name => { disk with wallets2 := disk.wallets2.map fun files => files.insert name none }
  | .write name data =>
      { disk with wallets2 := disk.wallets2.map fun files => files.insert name (some (.object data)) }
  | .remove name => { disk with wallets2 := disk.wallets2.map fun files => files.erase name }

def run (disk : Disk) (steps : List FileStep) : Disk := Crash.finished apply disk steps

end Disk

structure Wallet where
  id : WalletId
  persisted : Bool
  record : Record

/-- `GetDataFile`, and the file opened and written. -/
def writeFile (name : String) (data : JsonObject) : List FileStep :=
  [.mkdir .wallets2, .truncate name, .write name data]

/-- `Wallet::save`, up to where the writer finds no network. -/
def Wallet.save (wallet : Wallet) : List FileStep :=
  if wallet.persisted then
    match wallet.record.write with
    | none => []
    | some data => writeFile wallet.id.text data
  else []

/-- The program survives `save`. -/
def Wallet.savable (wallet : Wallet) : Bool := !wallet.persisted || wallet.record.write.isSome

def Wallet.insertWallet (wallet : Wallet) : List FileStep := .mkdir .wallets2 :: wallet.save

def Wallet.removeWallet (wallet : Wallet) : List FileStep :=
  if wallet.persisted then [.mkdir .wallets2, .remove wallet.id.text] else []

/-! ## Wallets of earlier versions -/

/-- `QUuid::createUuid`, which draws no id twice. -/
structure Uuids where
  draw : ℕ → WalletId
  injective : Function.Injective draw

/-- A login of a wallet of an earlier version. -/
structure Conversion where
  data : JsonObject
  type : String
  login : JsonObject

section
variable (decode : String → JsonObject) (manager : NetworkManager)

/-- The wallets to add for a legacy one; `decode` reads its pin data. -/
def conversions (data : JsonObject) : List Conversion :=
  (if data.contains "pin_data" && data.contains "network" &&
      !(Json.toString (data.value "pin_data")).isEmpty then
    [⟨data, "pin",
      [("data", .object (decode (Json.toString (data.value "pin_data")))),
        ("attempts", .number (Json.toInt (data.value "login_attempts_remaining")).toInt),
        ("network", .string (Json.toString (data.value "network")))]⟩]
  else []) ++
  (if data.contains "device_details" then
    [⟨data, "device", Json.toObject (data.value "device_details")⟩]
  else []) ++
  (if data.contains "username" && data.contains "network" then
    [⟨data, "watchonly",
      [("username", .string (Json.toString (data.value "username"))),
        ("network", .string (Json.toString (data.value "network")))]⟩]
  else [])

/-- The object written for a conversion. An undefined name leaves no member. -/
def Conversion.content (conversion : Conversion) (id : WalletId) : JsonObject :=
  let data := conversion.data
  let hash_id := Json.toString (data.value "hash_id")
  ("id", .string id.text) :: (data.value "name").toList.map (fun name => ("name", name)) ++
    [("xpub_hash_id", .string (Json.toString (data.value "xpub_hash_id"))),
      ("deployment", .string (Json.toString (data.value "deployment") "mainnet")),
      ("incognito", .bool (Json.toBool (data.value "incognito"))),
      ("hashes", Json.fromStringList (if hash_id.isEmpty then [] else [hash_id]))] ++
    [(conversion.type, .object conversion.login)]

/-- `ReadWalletRecord`. -/
def readWalletRecord (content : Option Json) : Option JsonObject :=
  match content with
  | some (.object data) => some data
  | _ => none

def Disk.legacy (disk : Disk) : List Conversion :=
  (disk.wallets.getD ∅).entries.flatMap fun file =>
    ((readWalletRecord file.2).map (conversions decode)).getD []

def migrate (uuids : Uuids) : ℕ → List Conversion → List FileStep
  | _, [] => []
  | n, conversion :: rest =>
      writeFile (uuids.draw n).text (conversion.content (uuids.draw n)) ++ migrate uuids (n + 1) rest

/-- What `WalletManager::loadWallets` does to the disk. -/
def Disk.loadSteps (uuids : Uuids) (disk : Disk) : List FileStep :=
  (if disk.wallets2.isNone then .mkdir .wallets :: migrate uuids 0 (disk.legacy decode) else []) ++
    [.mkdir .wallets2]

def Disk.restarted (uuids : Uuids) (disk : Disk) : Disk := disk.run (disk.loadSteps decode uuids)

/-- The wallet that a file of `wallets2` is read as. -/
def loadWallet (name : String) (content : Option Json) : Option Wallet :=
  (readWalletRecord content).bind fun data =>
    (Record.read manager data).map fun record =>
      { id := baseName name, persisted := true, record := record }

/-- The wallets that `WalletManager::loadWallets` adds. -/
def Disk.loaded (disk : Disk) : List Wallet :=
  (disk.wallets2.getD ∅).entries.filterMap fun file => loadWallet manager file.1 file.2

/-- What a file of `wallets2` is read as, if it is there. -/
def Disk.stored (disk : Disk) (name : String) : Option Wallet :=
  ((disk.wallets2.getD ∅).lookup name).bind (loadWallet manager name)

end

/-! ## What the steps do to one file -/

variable {decode : String → JsonObject} {manager : NetworkManager} {disk : Disk}

namespace Disk

theorem run_append (disk : Disk) (steps more : List FileStep) :
    disk.run (steps ++ more) = (disk.run steps).run more := Crash.finished_append apply disk steps more

theorem stored_mkdir (context : DataDir) (name : String) :
    (disk.apply (.mkdir context)).stored manager name = disk.stored manager name := by
  cases context with
  | wallets => rfl
  | wallets2 => rfl

/-- A directory that is there stays as it is. -/
theorem apply_mkdir_wallets2 (h : disk.wallets2.isSome) : disk.apply (.mkdir .wallets2) = disk := by
  obtain ⟨files, hfiles⟩ := Option.isSome_iff_exists.mp h
  simp only [apply, hfiles, Option.getD_some]
  rw [← hfiles]

/-- The migration is only for disks without `wallets2`. -/
theorem restarted_of_isSome (h : disk.wallets2.isSome) (uuids : Uuids) :
    disk.restarted decode uuids = disk := by
  have hnone : disk.wallets2.isNone = false := by rwa [Option.isNone_eq_false_iff]
  rw [restarted, loadSteps, hnone]
  exact apply_mkdir_wallets2 h

/-- A written file says what was written. -/
theorem run_writeFile (disk : Disk) (name : String) (data : JsonObject) :
    disk.run (writeFile name data) =
      { disk with wallets2 := some ((disk.wallets2.getD ∅).insert name (some (.object data))) } := by
  simp [run, writeFile, apply]

/-- What the next start loads is what the files hold. -/
theorem mem_loaded_iff {wallet : Wallet} :
    wallet ∈ disk.loaded manager ↔ ∃ name, disk.stored manager name = some wallet := by
  simp only [loaded, stored, List.mem_filterMap]
  constructor
  · intro ⟨⟨name, content⟩, hfile, hwallet⟩
    have hlookup := AList.mem_lookup_iff.mpr hfile
    exact ⟨name, by rw [hlookup]; exact hwallet⟩
  · intro ⟨name, hstored⟩
    obtain ⟨content, hlookup, hwallet⟩ := Option.bind_eq_some_iff.mp hstored
    exact ⟨⟨name, content⟩, AList.mem_lookup_iff.mp hlookup, hwallet⟩

end Disk

/-! ## A wallet that is saved and read again -/

/-- `save` succeeds, and the next start of the program finds the same wallet in its file. -/
def Restores (decode : String → JsonObject) (manager : NetworkManager) (disk : Disk)
    (wallet : Wallet) : Prop :=
  wallet.savable ∧ ∀ uuids : Uuids,
    ((disk.run wallet.save).restarted decode uuids).stored manager wallet.id.text = some wallet

/-- The wallet that is read for a record written. -/
theorem stored_writeFile (disk : Disk) (id : WalletId) (data : JsonObject) :
    (disk.run (writeFile id.text data)).stored manager id.text =
      (Record.read manager data).map fun record => ⟨id, true, record⟩ := by
  rw [Disk.run_writeFile, Disk.stored]
  simp [loadWallet, readWalletRecord]

theorem stored_restarted_save {wallet : Wallet} {data : JsonObject} (uuids : Uuids)
    (hpersisted : wallet.persisted = true) (hwrite : wallet.record.write = some data) :
    ((disk.run wallet.save).restarted decode uuids).stored manager wallet.id.text =
      (Record.read manager data).map fun record => ⟨wallet.id, true, record⟩ := by
  rw [Wallet.save, if_pos hpersisted, hwrite]
  rw [Disk.restarted_of_isSome (by rw [Disk.run_writeFile]; rfl), stored_writeFile]

theorem Record.Restorable.exists_write {record : Record} (h : record.Restorable) :
    ∃ data, record.write = some data := by
  obtain ⟨login, hlogin, hrestorable⟩ := h
  rw [Record.write, hlogin]
  exact hrestorable.exists_write record.common

/-- Uuids for a start of the program: dashes, more each time. -/
def someUuids : Uuids where
  draw n := ⟨String.ofList (List.replicate n '-'), by simp⟩
  injective := by
    intro n m h
    have hlength := congrArg (fun id => id.text.toList.length) h
    simpa using hlength

theorem restores_iff {wallet : Wallet} (hpersisted : wallet.persisted = true)
    (hlogin : ∀ login, wallet.record.login = some login → login.Networked manager) :
    Restores decode manager disk wallet ↔ wallet.record.Restorable := by
  constructor
  · intro ⟨hsavable, hstored⟩
    rw [Wallet.savable, hpersisted, Bool.not_true, Bool.false_or] at hsavable
    obtain ⟨data, hwrite⟩ := Option.isSome_iff_exists.mp hsavable
    have hread := hstored someUuids
    rw [stored_restarted_save someUuids hpersisted hwrite] at hread
    obtain ⟨record, hrecord, hwallet⟩ := Option.map_eq_some_iff.mp hread
    rw [← Record.read_write hlogin hwrite, hrecord, ← hwallet]
  · intro hrestorable
    obtain ⟨data, hwrite⟩ := hrestorable.exists_write
    have hread := (Record.read_write hlogin hwrite).mpr hrestorable
    refine ⟨?_, ?_⟩
    · rw [Wallet.savable, hwrite, Option.isSome_some, Bool.or_true]
    · intro uuids
      rw [stored_restarted_save uuids hpersisted hwrite, hread, Option.map_some, ← hpersisted]

/-- What is saved of a wallet comes back just if it has a login, the login has its network,
and a login to watch has no more than what is kept for its network. -/
theorem restores_iff_restorable (decode : String → JsonObject) (manager : NetworkManager)
    (disk : Disk) (wallet : Wallet) (hpersisted : wallet.persisted = true)
    (hlogin : ∀ login, wallet.record.login = some login → login.Networked manager) :
    Restores decode manager disk wallet ↔ wallet.record.Restorable :=
  restores_iff hpersisted hlogin

/-- One network, whose wallets are known by descriptors or public keys. -/
def electrumManager : NetworkManager where
  networks := [{ id := "electrum-mainnet", isElectrum := true }]
  distinct := by decide

def watchedWallet (descriptors pubkeys : List String) : Wallet where
  id := ⟨"5e2a", by decide⟩
  persisted := true
  record :=
    { name := "My Wallet"
      deployment := "mainnet"
      login := some (.watchonly
        { network := some { id := "electrum-mainnet", isElectrum := true }
          core_descriptors := descriptors
          extended_pubkeys := pubkeys }) }

theorem watchedWallet_networked (descriptors pubkeys : List String) (login : LoginData)
    (h : (watchedWallet descriptors pubkeys).record.login = some login) :
    login.Networked electrumManager := by
  obtain rfl := Option.some.inj h
  intro network hnetwork
  obtain rfl := Option.some.inj hnetwork
  exact List.mem_cons_self

theorem restores_iff_restorable_watched :
    Restores (fun _ => []) electrumManager {} (watchedWallet ["wpkh"] []) ↔
      (watchedWallet ["wpkh"] []).record.Restorable :=
  restores_iff_restorable (fun _ => []) electrumManager {} (watchedWallet ["wpkh"] []) rfl
    (watchedWallet_networked ["wpkh"] [])

/-- A wallet watched by a descriptor and by a public key comes back with the descriptor only. -/
theorem not_restores_watchedByBoth :
    ¬ Restores (fun _ => []) electrumManager {} (watchedWallet ["wpkh"] ["zpub"]) := by
  rw [restores_iff rfl (watchedWallet_networked ["wpkh"] ["zpub"])]
  intro ⟨login, hlogin, hrestorable⟩
  obtain rfl := Option.some.inj hlogin
  exact absurd (hrestorable.2.mpr (List.cons_ne_nil _ _)) (List.cons_ne_nil _ _)

end GreenWallet.Wallets
