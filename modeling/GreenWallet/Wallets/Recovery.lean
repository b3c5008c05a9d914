import GreenWallet.Library.Reactive
import GreenWallet.Wallets.Store

/-!
# A crash between two steps on the disk

The program starts by loading its wallets, and then saves, inserts and removes them. It can
be cut short between any two steps of any of these, and is then started again. A file is
opened for writing before it is written, and the directory that says that the migration has
been made is made before the first wallet is.
-/
namespace GreenWallet.Wallets
open GreenWallet.Library

inductive Operation where
  | loadWallets (uuids : Uuids)
  | save (wallet : Wallet)
  | insertWallet (wallet : Wallet)
  | removeWallet (wallet : Wallet)

namespace Operation

def steps (decode : String → JsonObject) (disk : Disk) : Operation → List FileStep
  | .loadWallets uuids => disk.loadSteps decode uuids
  | .save wallet => wallet.save
  | .insertWallet wallet => wallet.insertWallet
  | .removeWallet wallet => wallet.removeWallet

/-- The file of the wallet that is saved, inserted or removed. -/
def file : Operation → Option String
  | .loadWallets _ => none
  | .save wallet => some wallet.id.text
  | .insertWallet wallet => some wallet.id.text
  | .removeWallet wallet => some wallet.id.text

/-- A program that does not run starts by loading its wallets, one that does has done so. -/
def fits (running : Bool) : Operation → Bool
  | .loadWallets _ => !running
  | _ => running

/-- The operation does not end the program. -/
def survives : Operation → Bool
  | .save wallet => wallet.savable
  | .insertWallet wallet => wallet.savable
  | _ => true

end Operation

structure Store where
  disk : Disk
  running : Bool := false

inductive StoreEvent where
  | complete (operation : Operation)
  /-- The program ends after so many steps of the operation. -/
  | crash (operation : Operation) (steps : ℕ)

section
variable (decode : String → JsonObject) (manager : NetworkManager)

def Disk.finished (disk : Disk) (operation : Operation) : Disk :=
  disk.run (operation.steps decode disk)

def Disk.crashed (disk : Disk) (operation : Operation) (k : ℕ) : Disk :=
  Crash.crashed Disk.apply disk (operation.steps decode disk) k

def storeSystem : Reactive Store StoreEvent Empty where
  enabled store event :=
    match event with
    | .complete operation => operation.fits store.running ∧ operation.survives
    | .crash operation _ => operation.fits store.running
  next store event :=
    match event with
    | .complete operation => { disk := store.disk.finished decode operation, running := true }
    | .crash operation k => { disk := store.disk.crashed decode operation k, running := false }
  emits _ _ := []

/-- Whatever ids the next start draws: the file of the operation is read as before or as
after it, and any other as before. Of a migration that was cut short, no wallet is missing
that it would have made. -/
def CrashSafe (disk : Disk) (operation : Operation) (k : ℕ) : Prop :=
  ∀ uuids : Uuids,
    let restarted := (disk.crashed decode operation k).restarted decode uuids
    if disk.wallets2.isSome then
      ∀ name,
        (restarted.stored manager name = disk.stored manager name ∨
          restarted.stored manager name =
            (disk.finished decode operation).stored manager name) ∧
        (operation.file ≠ some name → restarted.stored manager name = disk.stored manager name)
    else
      (((disk.finished decode operation).loaded manager).map Wallet.record).Subperm
        ((restarted.loaded manager).map Wallet.record)

def CrashesSafe (store : Store) : StoreEvent → Prop
  | .complete _ => True
  | .crash operation k => CrashSafe decode manager store.disk operation k

/-- A wallet that could be read is written anew, and could be read then. -/
def Wallet.Replaces (disk : Disk) (wallet : Wallet) : Prop :=
  wallet.persisted = true ∧ (disk.stored manager wallet.id.text).isSome ∧
    ∃ data, wallet.record.write = some data ∧ (Record.read manager data).isSome

/-- The crash does not fall between the opening and the writing of a wallet that is replaced,
nor between the making of `wallets2` and the writing of the last wallet that is migrated. -/
def Undisturbed (disk : Disk) (k : ℕ) : Operation → Prop
  | .loadWallets _ => disk.wallets2 = none → ¬ (2 ≤ k ∧ k ≤ 3 * (disk.legacy decode).length)
  | .save wallet => ¬ (k = 2 ∧ wallet.Replaces manager disk)
  | .insertWallet wallet => ¬ (k = 3 ∧ wallet.Replaces manager disk)
  | .removeWallet _ => True

def CrashesUndisturbed (store : Store) : StoreEvent → Prop
  | .complete _ => True
  | .crash operation k => Undisturbed decode manager store.disk k operation

end

variable {decode : String → JsonObject} {manager : NetworkManager} {disk : Disk}

/-! ## Files that a step is not about -/

/-- The file that a step is about. -/
def FileStep.file : FileStep → Option String
  | .mkdir _ => none
  | .truncate name => some name
  | .write name _ => some name
  | .remove name => some name

namespace Disk

theorem stored_apply {step : FileStep} {name : String} (h : step.file ≠ some name)
    (disk : Disk) : (disk.apply step).stored manager name = disk.stored manager name := by
  cases step with
  | mkdir context => exact stored_mkdir context name
  | truncate other =>
      have hne : name ≠ other := fun hname => h (by rw [hname]; rfl)
      cases hfiles : disk.wallets2 with
      | none => simp [stored, apply, hfiles]
      | some files => simp [stored, apply, hfiles, AList.lookup_insert_ne hne]
  | write other data =>
      have hne : name ≠ other := fun hname => h (by rw [hname]; rfl)
      cases hfiles : disk.wallets2 with
      | none => simp [stored, apply, hfiles]
      | some files => simp [stored, apply, hfiles, AList.lookup_insert_ne hne]
  | remove other =>
      have hne : name ≠ other := fun hname => h (by rw [hname]; rfl)
      cases hfiles : disk.wallets2 with
      | none => simp [stored, apply, hfiles]
      | some files => simp [stored, apply, hfiles, AList.lookup_erase_ne hne]

theorem isSome_apply (step : FileStep) (disk : Disk) (h : disk.wallets2.isSome) :
    (disk.apply step).wallets2.isSome := by
  cases step with
  | mkdir context => cases context <;> simp [apply, h]
  | truncate name => simpa [apply] using h
  | write name data => simpa [apply] using h
  | remove name => simpa [apply] using h

end Disk

theorem Wallet.file_of_mem_save {wallet : Wallet} {step : FileStep} (h : step ∈ wallet.save) :
    step.file = none ∨ step.file = some wallet.id.text := by
  unfold Wallet.save at h
  split at h
  · cases hwrite : wallet.record.write with
    | none => simp [hwrite] at h
    | some data =>
        simp only [hwrite, writeFile, List.mem_cons, List.not_mem_nil, or_false] at h
        rcases h with rfl | rfl | rfl
        · exact .inl rfl
        · exact .inr rfl
        · exact .inr rfl
  · cases h

/-- The steps of an operation on a wallet are about the file of that wallet. -/
theorem Operation.file_of_mem_steps {operation : Operation} {step : FileStep}
    (hexists : disk.wallets2.isSome) (hstep : step ∈ operation.steps decode disk) :
    step.file = none ∨ step.file = operation.file := by
  cases operation with
  | loadWallets uuids =>
      have hnone : disk.wallets2.isNone = false := by rwa [Option.isNone_eq_false_iff]
      have hmkdir : step = .mkdir .wallets2 := by
        simpa [Operation.steps, Disk.loadSteps, hnone] using hstep
      rw [hmkdir]
      exact .inl rfl
  | save wallet => exact Wallet.file_of_mem_save hstep
  | insertWallet wallet =>
      rcases List.mem_cons.mp hstep with rfl | hsave
      · exact .inl rfl
      · exact Wallet.file_of_mem_save hsave
  | removeWallet wallet =>
      simp only [Operation.steps, Wallet.removeWallet] at hstep
      split_ifs at hstep with hpersisted
      · rcases List.mem_pair.mp hstep with rfl | rfl
        · exact .inl rfl
        · exact .inr rfl
      · cases hstep

/-! ## Crashes of a program that has loaded its wallets -/

/-- Only the file of the operation can be found otherwise than before and after. -/
theorem crashSafe_iff_file {operation : Operation} {k : ℕ} (hexists : disk.wallets2.isSome) :
    CrashSafe decode manager disk operation k ↔
      ∀ name, operation.file = some name →
        (disk.crashed decode operation k).stored manager name = disk.stored manager name ∨
          (disk.crashed decode operation k).stored manager name =
            (disk.finished decode operation).stored manager name := by
  have hcrashed : (disk.crashed decode operation k).wallets2.isSome :=
    Crash.crashed_invariant (I := fun disk => disk.wallets2.isSome)
      (fun step _ disk => Disk.isSome_apply step disk) hexists k
  simp only [CrashSafe, if_pos hexists, Disk.restarted_of_isSome hcrashed]
  constructor
  · intro hsafe name _
    exact (hsafe someUuids name).1
  · intro hfile _ name
    by_cases hname : operation.file = some name
    · exact ⟨hfile name hname, fun hother => absurd hname hother⟩
    · have hview : ∀ step ∈ operation.steps decode disk, ∀ disk : Disk,
          (disk.apply step).stored manager name = disk.stored manager name := by
        intro step hstep
        apply Disk.stored_apply
        rcases Operation.file_of_mem_steps hexists hstep with hnone | hsome
        · rw [hnone]
          exact (Option.some_ne_none name).symm
        · rwa [hsome]
      have hsame := Crash.view_crashed (fun disk => disk.stored manager name) hview disk k
      exact ⟨.inl hsame, fun _ => hsame⟩

theorem Wallet.save_of_write {wallet : Wallet} {data : JsonObject} (hpersisted : wallet.persisted)
    (hwrite : wallet.record.write = some data) : wallet.save = writeFile wallet.id.text data := by
  rw [Wallet.save, if_pos hpersisted, hwrite]

theorem Wallet.save_of_not {wallet : Wallet}
    (h : ¬ (wallet.persisted = true ∧ ∃ data, wallet.record.write = some data)) :
    wallet.save = [] := by
  unfold Wallet.save
  split_ifs with hpersisted
  · cases hwrite : wallet.record.write with
    | none => rfl
    | some data => exact absurd ⟨hpersisted, data, hwrite⟩ h
  · rfl

/-- A file is as it was, then empty, then written. -/
theorem stored_crashed_writeFile (id : WalletId) (data : JsonObject) (k : ℕ) :
    (Crash.crashed Disk.apply disk (writeFile id.text data) k).stored manager id.text =
      if k < 2 then disk.stored manager id.text
      else if k = 2 then none
      else (disk.run (writeFile id.text data)).stored manager id.text := by
  match k with
  | 0 => rfl
  | 1 => exact Disk.stored_mkdir .wallets2 id.text
  | 2 => simp [Crash.crashed, writeFile, Disk.apply, Disk.stored, loadWallet, readWalletRecord]
  | k + 3 =>
      rw [if_neg (by omega), if_neg (by omega), Crash.crashed_of_length_le _ _ (by simp [writeFile])]
      rfl

/-- The crash that loses a wallet while it is saved. -/
theorem stored_crashed_save (wallet : Wallet) (k : ℕ) :
    (Crash.crashed Disk.apply disk wallet.save k).stored manager wallet.id.text =
          disk.stored manager wallet.id.text ∨
        (Crash.crashed Disk.apply disk wallet.save k).stored manager wallet.id.text =
          (disk.run wallet.save).stored manager wallet.id.text ↔
      ¬ (k = 2 ∧ wallet.Replaces manager disk) := by
  by_cases h : wallet.persisted = true ∧ ∃ data, wallet.record.write = some data
  · obtain ⟨hpersisted, data, hwrite⟩ := h
    rw [Wallet.save_of_write hpersisted hwrite, stored_crashed_writeFile, stored_writeFile]
    have hreplaces : wallet.Replaces manager disk ↔
        (disk.stored manager wallet.id.text).isSome ∧ (Record.read manager data).isSome := by
      simp [Wallet.Replaces, hpersisted, hwrite]
    rw [hreplaces]
    rcases Nat.lt_trichotomy k 2 with hk | rfl | hk
    · simp [hk, hk.ne]
    · cases disk.stored manager wallet.id.text <;> cases Record.read manager data <;> simp
    · simp [hk.ne', Nat.not_lt.mpr hk.le]
  · rw [Wallet.save_of_not h, Crash.crashed_nil]
    apply iff_of_true (.inl rfl)
    intro ⟨_, hpersisted, _, data, hwrite, _⟩
    exact h ⟨hpersisted, data, hwrite⟩

theorem crashed_insertWallet (hexists : disk.wallets2.isSome) (wallet : Wallet) (k : ℕ) :
    Crash.crashed Disk.apply disk wallet.insertWallet (k + 1) =
      Crash.crashed Disk.apply disk wallet.save k := by
  rw [Wallet.insertWallet, Crash.crashed_cons_succ, Disk.apply_mkdir_wallets2 hexists]

theorem run_insertWallet (hexists : disk.wallets2.isSome) (wallet : Wallet) :
    disk.run wallet.insertWallet = disk.run wallet.save := by
  rw [Wallet.insertWallet, Disk.run, Crash.finished_cons, Disk.apply_mkdir_wallets2 hexists,
    Disk.run]

theorem stored_crashed_removeWallet (wallet : Wallet) (k : ℕ) :
    (Crash.crashed Disk.apply disk wallet.removeWallet k).stored manager wallet.id.text =
        disk.stored manager wallet.id.text ∨
      (Crash.crashed Disk.apply disk wallet.removeWallet k).stored manager wallet.id.text =
        (disk.run wallet.removeWallet).stored manager wallet.id.text := by
  unfold Wallet.removeWallet
  split_ifs
  · have hmkdir : ∀ step ∈ [FileStep.mkdir .wallets2], ∀ disk : Disk,
        (disk.apply step).stored manager wallet.id.text =
          disk.stored manager wallet.id.text := by
      intro step hstep disk
      rw [List.mem_singleton.mp hstep]
      exact Disk.stored_mkdir .wallets2 _
    exact Crash.view_crashed_concat (fun disk => disk.stored manager wallet.id.text) hmkdir
      (.remove wallet.id.text) disk k
  · exact .inl (by rw [Crash.crashed_nil])

/-- Once there is a `wallets2`, only the saving of a wallet can lose one. -/
theorem crashSafe_iff_of_exists {operation : Operation} {k : ℕ} (hexists : disk.wallets2.isSome) :
    CrashSafe decode manager disk operation k ↔ Undisturbed decode manager disk k operation := by
  rw [crashSafe_iff_file hexists]
  cases operation with
  | loadWallets uuids =>
      apply iff_of_true
      · rintro name ⟨⟩
      · intro hnone
        rw [hnone] at hexists
        cases hexists
  | save wallet =>
      simp only [Operation.file, Option.some.injEq, forall_eq']
      exact stored_crashed_save wallet k
  | insertWallet wallet =>
      simp only [Operation.file, Option.some.injEq, forall_eq']
      cases k with
      | zero => exact iff_of_true (.inl rfl) (fun h => absurd h.1 (by decide))
      | succ k =>
          have hsave := @stored_crashed_save manager disk wallet k
          rw [← crashed_insertWallet hexists, ← run_insertWallet hexists] at hsave
          simp only [Undisturbed, Nat.reduceEqDiff]
          exact hsave
  | removeWallet wallet =>
      simp only [Operation.file, Option.some.injEq, forall_eq']
      exact iff_of_true (stored_crashed_removeWallet wallet k) trivial

/-! ## Crashes of the migration -/

/-- The reader does not look at the id. -/
theorem Record.read_cons_id (id : Json) (data : JsonObject) :
    Record.read manager (("id", id) :: data) = Record.read manager data := by
  have hvalue : ∀ key ≠ "id", JsonObject.value key (("id", id) :: data) = data.value key := by
    intro key hkey
    rw [JsonObject.value_cons, if_neg hkey]
  have hlogin : LoginData.read manager (("id", id) :: data) = LoginData.read manager data := by
    have hcontains : ∀ key ≠ "id",
        JsonObject.contains key (("id", id) :: data) = data.contains key := by
      intro key hkey
      rw [JsonObject.contains, hvalue key hkey, JsonObject.contains]
    rw [LoginData.read, LoginData.read, hcontains "pin" (by decide),
      hcontains "watchonly" (by decide), hcontains "device" (by decide)]
    simp only [PinData.read, WatchonlyData.read, DeviceData.read, hvalue "pin" (by decide),
      hvalue "watchonly" (by decide), hvalue "device" (by decide)]
  rw [Record.read, hlogin, Record.read, hvalue "name" (by decide), hvalue "deployment" (by decide),
    hvalue "xpub_hash_id" (by decide), hvalue "hashes" (by decide)]

theorem type_of_mem_conversions {data : JsonObject} {conversion : Conversion}
    (h : conversion ∈ conversions decode data) :
    conversion.type ∈ ["pin", "watchonly", "device"] := by
  simp only [conversions, List.mem_append] at h
  rcases h with (h | h) | h
  all_goals
    split_ifs at h
    · rw [List.mem_singleton.mp h]
      simp
    · cases h

theorem type_of_mem_legacy {conversion : Conversion} (h : conversion ∈ disk.legacy decode) :
    conversion.type ∈ ["pin", "watchonly", "device"] := by
  obtain ⟨file, -, hfile⟩ := List.mem_flatMap.mp h
  cases hdata : readWalletRecord file.2 with
  | none => simp [hdata] at hfile
  | some data =>
      rw [hdata] at hfile
      exact type_of_mem_conversions hfile

namespace Conversion

/-- The record of a wallet that is migrated. -/
def record (manager : NetworkManager) (conversion : Conversion) : Record :=
  (Record.read manager (conversion.content (someUuids.draw 0))).getD {}

theorem contains_content {conversion : Conversion} (id : WalletId) :
    (conversion.content id).contains conversion.type = true := by
  rw [content, JsonObject.contains, JsonObject.value, List.lookup_append, List.lookup_cons,
    beq_self_eq_true, Option.isSome_or, Option.isSome_some, Bool.or_true]

/-- A migrated wallet can be read, under any id with the same record. -/
theorem read_content {conversion : Conversion}
    (h : conversion.type ∈ ["pin", "watchonly", "device"]) (id : WalletId) :
    Record.read manager (conversion.content id) = some (conversion.record manager) := by
  have hsame : Record.read manager (conversion.content id) =
      Record.read manager (conversion.content (someUuids.draw 0)) := by
    simp only [content, List.cons_append, Record.read_cons_id]
  have hlogin : ∃ login, LoginData.read manager (conversion.content (someUuids.draw 0)) = some login := by
    have hcontains := conversion.contains_content (someUuids.draw 0)
    rw [LoginData.read]
    split_ifs with hpin hwatchonly hdevice
    · exact ⟨_, rfl⟩
    · exact ⟨_, rfl⟩
    · exact ⟨_, rfl⟩
    · simp only [List.mem_cons, List.not_mem_nil, or_false] at h
      rcases h with h | h | h <;> rw [h] at hcontains <;> contradiction
  obtain ⟨login, hlogin⟩ := hlogin
  rw [hsame, record, Record.read, hlogin]
  rfl

end Conversion

namespace Disk

theorem loaded_writeFile {name : String} (hfresh : name ∉ disk.wallets2.getD ∅)
    (data : JsonObject) :
    (disk.run (writeFile name data)).loaded manager =
      (loadWallet manager name (some (.object data))).toList ++ disk.loaded manager := by
  rw [run_writeFile, loaded, Option.getD_some, AList.entries_insert_of_notMem hfresh,
    List.filterMap_cons]
  cases loadWallet manager name (some (.object data)) <;> rfl

/-- A migration adds the wallets of all its conversions. -/
theorem records_migrate (uuids : Uuids) {n : ℕ} {legacy : List Conversion}
    (hfresh : ∀ m, n ≤ m → (uuids.draw m).text ∉ disk.wallets2.getD ∅)
    (htype : ∀ conversion ∈ legacy, conversion.type ∈ ["pin", "watchonly", "device"]) :
    ((disk.run (migrate uuids n legacy)).loaded manager).map Wallet.record =
      (legacy.map (Conversion.record manager)).reverse ++
        (disk.loaded manager).map Wallet.record := by
  induction legacy generalizing disk n with
  | nil => rfl
  | cons conversion legacy ih =>
      have hread := @Conversion.read_content manager _ (htype conversion List.mem_cons_self)
        (uuids.draw n)
      have hnext : ∀ m, n + 1 ≤ m → (uuids.draw m).text ∉
          (disk.run (writeFile (uuids.draw n).text
            (conversion.content (uuids.draw n)))).wallets2.getD ∅ := by
        intro m hm
        rw [run_writeFile, Option.getD_some, AList.mem_insert]
        rintro (hsame | hmem)
        · exact absurd (uuids.injective (WalletId.text_injective hsame)) (by omega)
        · exact hfresh m (by omega) hmem
      rw [migrate, run_append,
        ih hnext fun other hother => htype other (List.mem_cons_of_mem _ hother),
        loaded_writeFile (hfresh n le_rfl), loadWallet]
      simp [readWalletRecord, hread]

end Disk

/-- How many files a procedure writes. -/
def writes : List FileStep → ℕ
  | [] => 0
  | .write _ _ :: steps => writes steps + 1
  | _ :: steps => writes steps

theorem writes_mkdir (context : DataDir) (steps : List FileStep) :
    writes (.mkdir context :: steps) = writes steps := rfl

theorem writes_cons (step : FileStep) (steps : List FileStep) :
    writes (step :: steps) = writes [step] + writes steps := by
  cases step <;> simp [writes, Nat.add_comm]

/-- Each wallet takes three steps to migrate, and is written by the last. -/
theorem writes_take_migrate (uuids : Uuids) (n : ℕ) (legacy : List Conversion) (k : ℕ) :
    writes ((migrate uuids n legacy).take k) ≤ k / 3 := by
  induction legacy generalizing n k with
  | nil => simp [migrate, writes]
  | cons conversion legacy ih =>
      match k with
      | 0 => simp [writes]
      | 1 => simp [migrate, writeFile, writes]
      | 2 => simp [migrate, writeFile, writes]
      | k + 3 =>
          have hrest := ih (n + 1) k
          simp only [migrate, writeFile, List.cons_append, List.nil_append, List.take_succ_cons,
            writes]
          omega

theorem length_migrate (uuids : Uuids) (n : ℕ) (legacy : List Conversion) :
    (migrate uuids n legacy).length = 3 * legacy.length := by
  induction legacy generalizing n with
  | nil => rfl
  | cons conversion legacy ih =>
      rw [migrate, List.length_append, ih, List.length_cons, writeFile]
      simp only [List.length_cons, List.length_nil]
      omega

namespace Disk

theorem length_loaded_insert {files : Directory} (hfiles : disk.wallets2 = some files)
    (name : String) (content : Option Json) :
    (({ disk with wallets2 := some (files.insert name content) } : Disk).loaded manager).length ≤
      (disk.loaded manager).length + (loadWallet manager name content).toList.length := by
  have hsublist := ((List.kerase_sublist name files.entries).filterMap
    fun file => loadWallet manager file.1 file.2).length_le
  rw [loaded, loaded, hfiles, Option.getD_some, Option.getD_some, AList.entries_insert,
    List.filterMap_cons]
  cases loadWallet manager name content with
  | none => exact hsublist
  | some wallet => exact Nat.succ_le_succ hsublist

/-- A step adds a wallet to read only by writing one. -/
theorem length_loaded_apply (disk : Disk) (step : FileStep) :
    ((disk.apply step).loaded manager).length ≤ (disk.loaded manager).length + writes [step] := by
  cases step with
  | mkdir context => cases context <;> simp [apply, loaded]
  | truncate name =>
      cases hfiles : disk.wallets2 with
      | none => simp [apply, loaded, hfiles]
      | some files =>
          have hinsert := @length_loaded_insert manager disk files hfiles name none
          simpa [apply, hfiles, loadWallet, readWalletRecord, writes] using hinsert
  | write name data =>
      cases hfiles : disk.wallets2 with
      | none => simp [apply, loaded, hfiles]
      | some files =>
          have hinsert := @length_loaded_insert manager disk files hfiles name (some (.object data))
          have hone : (loadWallet manager name (some (.object data))).toList.length ≤ 1 := by
            cases loadWallet manager name (some (.object data)) <;> simp
          simp only [apply, hfiles, Option.map_some, writes]
          omega
  | remove name =>
      cases hfiles : disk.wallets2 with
      | none => simp [apply, loaded, hfiles]
      | some files =>
          have hsublist := ((List.kerase_sublist name files.entries).filterMap
            fun file => loadWallet manager file.1 file.2).length_le
          have herased : (files.erase name).entries = files.entries.kerase name := rfl
          simpa [apply, loaded, hfiles, herased] using hsublist.trans (Nat.le_add_right _ _)

theorem length_loaded_crashed (disk : Disk) (steps : List FileStep) (k : ℕ) :
    ((Crash.crashed apply disk steps k).loaded manager).length ≤
      (disk.loaded manager).length + writes (steps.take k) := by
  induction steps generalizing disk k with
  | nil => simp
  | cons step steps ih =>
      cases k with
      | zero => simp
      | succ k =>
          have hstep := @length_loaded_apply manager disk step
          have hrest := ih (disk.apply step) k
          rw [Crash.crashed_cons_succ, List.take_succ_cons, writes_cons]
          omega

theorem loaded_mkdir (disk : Disk) (context : DataDir) :
    (disk.apply (.mkdir context)).loaded manager = disk.loaded manager := by
  cases context <;> rfl

theorem loadSteps_of_none (hnone : disk.wallets2 = none) (uuids : Uuids) :
    disk.loadSteps decode uuids =
      .mkdir .wallets :: (migrate uuids 0 (disk.legacy decode) ++ [.mkdir .wallets2]) := by
  rw [loadSteps, hnone, Option.isNone_none, if_pos rfl, List.cons_append]

/-- The first start adds the wallets of all conversions. -/
theorem records_restarted (hnone : disk.wallets2 = none) (uuids : Uuids) :
    ((disk.restarted decode uuids).loaded manager).map Wallet.record =
      ((disk.legacy decode).map (Conversion.record manager)).reverse := by
  have hempty : (disk.apply (.mkdir .wallets)).loaded manager = [] := by
    rw [loaded_mkdir, loaded, hnone]
    rfl
  have hfresh : ∀ m, 0 ≤ m →
      (uuids.draw m).text ∉ (disk.apply (.mkdir .wallets)).wallets2.getD ∅ := by
    intro m _
    rw [apply, hnone]
    exact AList.notMem_empty _
  have hmigrate := @records_migrate manager _ uuids 0 (disk.legacy decode) hfresh
    (fun conversion => type_of_mem_legacy)
  rw [hempty, List.map_nil, List.append_nil] at hmigrate
  rw [restarted, loadSteps_of_none hnone, run, Crash.finished_cons, ← run, run_append, ← hmigrate]
  exact congrArg (List.map Wallet.record) (loaded_mkdir _ .wallets2)

theorem isSome_restarted (uuids : Uuids) : (disk.restarted decode uuids).wallets2.isSome := by
  rw [restarted, loadSteps, run_append]
  rfl

theorem legacy_mkdir_wallets (disk : Disk) :
    (disk.apply (.mkdir .wallets)).legacy decode = disk.legacy decode := rfl

end Disk

section
variable {k : ℕ} (hnone : disk.wallets2 = none) (uuids : Uuids)
include hnone

/-- The second step of a migration makes `wallets2`. -/
theorem isSome_crashed_loadWallets (hk : 2 ≤ k) :
    (disk.crashed decode (.loadWallets uuids) k).wallets2.isSome := by
  have hsecond : ∃ rest, disk.loadSteps decode uuids =
      .mkdir .wallets :: .mkdir .wallets2 :: rest := by
    rw [Disk.loadSteps_of_none hnone]
    cases disk.legacy decode with
    | nil => exact ⟨[], rfl⟩
    | cons conversion legacy => exact ⟨_, rfl⟩
  obtain ⟨rest, hsteps⟩ := hsecond
  obtain ⟨j, rfl⟩ := Nat.exists_eq_add_of_le' hk
  rw [Disk.crashed, Operation.steps, hsteps, Crash.crashed_cons_succ, Crash.crashed_cons_succ]
  apply Crash.crashed_invariant (I := fun disk : Disk => disk.wallets2.isSome)
  · exact fun step _ disk => Disk.isSome_apply step disk
  · rfl

/-- Before the last wallet is written, not all of them are. -/
theorem length_loaded_crashed_loadWallets (hk : k ≤ 3 * (disk.legacy decode).length)
    (hlegacy : 2 ≤ k) :
    ((disk.crashed decode (.loadWallets uuids) k).loaded manager).length <
      (disk.legacy decode).length := by
  obtain ⟨j, rfl⟩ := Nat.exists_eq_add_of_le' (Nat.le_of_succ_le hlegacy)
  have hwritten := @Disk.length_loaded_crashed manager disk (disk.loadSteps decode uuids) (j + 1)
  have hempty : disk.loaded manager = [] := by
    rw [Disk.loaded, hnone]
    rfl
  have htake : writes ((disk.loadSteps decode uuids).take (j + 1)) ≤ j / 3 := by
    rw [Disk.loadSteps_of_none hnone, List.take_succ_cons, writes_mkdir,
      List.take_append_of_le_length (by rw [length_migrate]; omega)]
    exact writes_take_migrate uuids 0 _ j
  rw [hempty, List.length_nil] at hwritten
  rw [Disk.crashed, Operation.steps]
  omega

/-- After the last wallet is written, all of them are. -/
theorem loaded_crashed_loadWallets (hk : 3 * (disk.legacy decode).length < k) :
    (disk.crashed decode (.loadWallets uuids) k).loaded manager =
      (disk.restarted decode uuids).loaded manager := by
  have hsteps := @Disk.loadSteps_of_none decode disk hnone uuids
  have hmigrate := length_migrate uuids 0 (disk.legacy decode)
  rw [← List.cons_append] at hsteps
  rw [Disk.crashed, Operation.steps, Disk.restarted, hsteps]
  rcases Nat.lt_or_ge k (3 * (disk.legacy decode).length + 2) with hlast | hall
  · have hlength : k = (FileStep.mkdir .wallets :: migrate uuids 0 (disk.legacy decode)).length := by
      rw [List.length_cons, hmigrate]
      omega
    rw [Crash.crashed, List.take_append_of_le_length hlength.le, hlength, List.take_length,
      Disk.run_append]
    exact (Disk.loaded_mkdir _ .wallets2).symm
  · rw [Crash.crashed_of_length_le]
    · rfl
    · rw [List.length_append, List.length_cons, List.length_singleton, hmigrate]
      omega

/-- A migration may be cut short only before `wallets2` is there, or after its last wallet. -/
theorem crashSafe_loadWallets :
    CrashSafe decode manager disk (.loadWallets uuids) k ↔
      ¬ (2 ≤ k ∧ k ≤ 3 * (disk.legacy decode).length) := by
  have hnot : ¬ disk.wallets2.isSome := by simp [hnone]
  have hfinished := @Disk.records_restarted decode manager disk hnone uuids
  simp only [CrashSafe, if_neg hnot]
  rw [Disk.finished, Operation.steps, ← Disk.restarted, hfinished]
  rcases Nat.lt_or_ge k 2 with hk | hk
  · apply iff_of_true _ (by omega)
    intro others
    have hcrashed : (disk.crashed decode (.loadWallets uuids) k).wallets2 = none ∧
        (disk.crashed decode (.loadWallets uuids) k).legacy decode = disk.legacy decode := by
      rw [Disk.crashed, Operation.steps, Disk.loadSteps_of_none hnone]
      obtain rfl | rfl : k = 0 ∨ k = 1 := by omega
      · exact ⟨hnone, rfl⟩
      · exact ⟨hnone, Disk.legacy_mkdir_wallets disk⟩
    rw [Disk.records_restarted hcrashed.1, hcrashed.2]
  · have hexists := @isSome_crashed_loadWallets decode disk k hnone uuids hk
    simp only [Disk.restarted_of_isSome hexists]
    by_cases hwritten : 3 * (disk.legacy decode).length < k
    · apply iff_of_true _ (by omega)
      intro _
      rw [loaded_crashed_loadWallets hnone uuids hwritten, hfinished]
    · apply iff_of_false _ (by omega)
      intro hsubperm
      have hfewer := @length_loaded_crashed_loadWallets decode manager disk k hnone uuids
        (by omega) hk
      have hlength := (hsubperm someUuids).length_le
      rw [List.length_reverse, List.length_map, List.length_map] at hlength
      omega

end

/-! ## Whole runs -/

/-- Only the loading of the wallets starts a program. -/
theorem Operation.eq_loadWallets {operation : Operation} (h : operation.fits false = true) :
    ∃ uuids, operation = .loadWallets uuids := by
  cases operation with
  | loadWallets uuids => exact ⟨uuids, rfl⟩
  | save wallet => cases h
  | insertWallet wallet => cases h
  | removeWallet wallet => cases h

/-- A program that runs has loaded its wallets, so that `wallets2` is there. -/
def Store.Opened (store : Store) : Prop := store.running = true → store.disk.wallets2.isSome

theorem Store.Opened.not_running {store : Store} (h : store.Opened)
    (hnone : store.disk.wallets2 = none) : store.running = false := by
  rw [Bool.eq_false_iff]
  intro hrunning
  have hexists := h hrunning
  rw [hnone] at hexists
  cases hexists

theorem Store.Opened.next {store : Store} {event : StoreEvent} (h : store.Opened)
    (henabled : (storeSystem decode).enabled store event) :
    ((storeSystem decode).next store event).Opened := by
  cases event with
  | crash operation k => exact fun hrunning => absurd hrunning Bool.false_ne_true
  | complete operation =>
      intro _
      cases hdisk : store.disk.wallets2 with
      | some files =>
          exact Crash.finished_invariant (I := fun disk : Disk => disk.wallets2.isSome)
            (fun step _ disk => Disk.isSome_apply step disk) (by rw [hdisk]; rfl)
      | none =>
          have hfits : operation.fits store.running = true := henabled.1
          rw [h.not_running hdisk] at hfits
          obtain ⟨uuids, rfl⟩ := operation.eq_loadWallets hfits
          exact Disk.isSome_restarted uuids

theorem crashesSafe_iff {store : Store} {event : StoreEvent} (h : store.Opened)
    (henabled : (storeSystem decode).enabled store event) :
    CrashesSafe decode manager store event ↔ CrashesUndisturbed decode manager store event := by
  cases event with
  | complete operation => exact Iff.rfl
  | crash operation k =>
      cases hdisk : store.disk.wallets2 with
      | some files => exact crashSafe_iff_of_exists (by rw [hdisk]; rfl)
      | none =>
          have hfits : operation.fits store.running = true := henabled
          rw [h.not_running hdisk] at hfits
          obtain ⟨uuids, rfl⟩ := operation.eq_loadWallets hfits
          have hmigration := @crashSafe_loadWallets decode manager store.disk k hdisk uuids
          simp only [CrashesSafe, CrashesUndisturbed, Undisturbed, hmigration, hdisk, forall_const]

/-- A run finds every wallet as it was before or after the operation that a crash cut short,
and misses none, just if no crash falls where a file is open that replaces a wallet or while
wallets are migrated. -/
theorem crashSafe_iff_undisturbed (decode : String → JsonObject) (manager : NetworkManager)
    (disk : Disk) (events : List StoreEvent) (hvalid : (storeSystem decode).Valid ⟨disk, false⟩ events) :
    (storeSystem decode).Along (CrashesSafe decode manager) ⟨disk, false⟩ events ↔
      (storeSystem decode).Along (CrashesUndisturbed decode manager) ⟨disk, false⟩ events :=
  Reactive.along_congr (I := Store.Opened) (fun _ _ hopened => hopened.next)
    (fun _ _ hopened => crashesSafe_iff hopened) (fun h => by cases h) hvalid

theorem deviceWallet_no_dot : '.' ∉ "5e2a".toList := by decide

def deviceWallet (name : String) : Wallet where
  id := ⟨"5e2a", deviceWallet_no_dot⟩
  persisted := true
  record := { name := name, deployment := "mainnet", login := some (.device {}) }

theorem deviceWallet_read (name : String) :
    ∃ data, (deviceWallet name).record.write = some data ∧
      (Record.read electrumManager data).isSome := by
  have hrestorable : (deviceWallet name).record.Restorable := ⟨_, rfl, trivial⟩
  have hlogin : ∀ login, (deviceWallet name).record.login = some login →
      login.Networked electrumManager := by
    intro login hlogin network hnetwork
    obtain rfl := Option.some.inj hlogin
    cases hnetwork
  obtain ⟨data, hwrite⟩ := hrestorable.exists_write
  have hread := (Record.read_write hlogin hwrite).mpr hrestorable
  exact ⟨data, hwrite, by rw [hread]; rfl⟩

/-- The first start, a wallet that is inserted, and a crash while it is saved under another name. -/
def crashedRename : List StoreEvent :=
  [.complete (.loadWallets someUuids), .complete (.insertWallet (deviceWallet "My Wallet")),
    .crash (.save (deviceWallet "Savings")) 2]

theorem crashSafe_iff_undisturbed_crashedRename :
    (storeSystem fun _ => []).Along (CrashesSafe (fun _ => []) electrumManager) ⟨{}, false⟩
        crashedRename ↔
      (storeSystem fun _ => []).Along (CrashesUndisturbed (fun _ => []) electrumManager)
        ⟨{}, false⟩ crashedRename :=
  crashSafe_iff_undisturbed (fun _ => []) electrumManager {} crashedRename
    ⟨⟨rfl, rfl⟩, ⟨rfl, rfl⟩, rfl, trivial⟩

/-- The wallet that is renamed is lost. -/
theorem not_crashSafe_crashedRename :
    ¬ (storeSystem fun _ => []).Along (CrashesSafe (fun _ => []) electrumManager) ⟨{}, false⟩
        crashedRename := by
  intro ⟨_, _, hcrash, _⟩
  have hundisturbed := (crashSafe_iff_of_exists rfl).mp hcrash
  obtain ⟨data, hwrite, hread⟩ := deviceWallet_read "My Wallet"
  have hinserted := Wallet.save_of_write rfl hwrite
  apply hundisturbed
  refine ⟨rfl, rfl, ?_, deviceWallet_read "Savings"⟩
  change ((Disk.run _ (FileStep.mkdir .wallets2 :: (deviceWallet "My Wallet").save)).stored
    electrumManager (deviceWallet "My Wallet").id.text).isSome
  rw [hinserted, Disk.run, Crash.finished_cons, ← Disk.run, stored_writeFile, Option.isSome_map]
  exact hread

end GreenWallet.Wallets
