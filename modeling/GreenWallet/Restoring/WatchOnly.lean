import Mathlib.Data.List.Nodup
import GreenWallet.Library.Once
import GreenWallet.Library.Reactive

/-!
# Wallets that are watched only

A watch-only login without a wallet looks for one in the list of the manager, by the hash and the
network. If there is none it makes one and saves it. The wallet is put into the list only when its
accounts have been loaded, and until then it is not found. The end of a load saves the wallet once
more, also if it has been removed meanwhile.
-/
namespace GreenWallet.Restoring.WatchOnly
open GreenWallet.Library

structure WatchonlyData where
  network : String
  username : String := ""
  extendedPubkeys : List String := []
  coreDescriptors : List String := []
deriving DecidableEq

inductive Login where
  | watchonly (data : WatchonlyData)
  /-- A PIN or a device. -/
  | other
deriving DecidableEq

structure Wallet where
  /-- In place of the UUID. -/
  id : ℕ
  xpubHashId : String
  persisted : Bool := true
  login : Option Login
deriving DecidableEq

/-- What the lookup compares. -/
def Wallet.key (w : Wallet) : Option (String × String) :=
  match w.login with
  | some (.watchonly data) => some (w.xpubHashId, data.network)
  | _ => none

/-- The list of the manager, the files in `wallets2`, and the wallets that there are. -/
structure WalletManager where
  wallets : List Wallet := []
  files : ℕ → Option Wallet := fun _ => none
  objects : ℕ → Option Wallet := fun _ => none
  /-- The ids that have been drawn are those below. -/
  drawn : ℕ := 0

/-- What is entered on the page of a login. -/
structure WatchOnlyLoginController where
  network : String
  username : String := ""
  extendedPubkeys : List String := []
  coreDescriptors : List String := []
  saveWallet : Bool

inductive WatchEvent where
  /-- `WatchOnlyCreateWalletTask` of a page without a wallet, after its login. -/
  | login (controller : WatchOnlyLoginController) (xpubHashId : String)
  /-- `LoadController`, once the accounts have been loaded. -/
  | loadFinished (id : ℕ)
  /-- The wallet has lost its context. -/
  | closed (w : Wallet)
  | removeWallet (w : Wallet)
  /-- The program is started again. -/
  | loadWallets

namespace WalletManager

def save (w : Wallet) (m : WalletManager) : WalletManager :=
  if w.persisted then { m with files := Function.update m.files w.id (some w) } else m

def find (m : WalletManager) (xpubHashId network : String) : Option Wallet :=
  m.wallets.find? fun w => w.key == some (xpubHashId, network)

def made (m : WalletManager) (controller : WatchOnlyLoginController) (xpubHashId : String) :
    Wallet where
  id := m.drawn
  xpubHashId := xpubHashId
  persisted := controller.saveWallet
  login := some (.watchonly
    { network := controller.network
      username := controller.username
      extendedPubkeys := controller.extendedPubkeys
      coreDescriptors := controller.coreDescriptors })

/-- `WatchOnlyCreateWalletTask::update`. Without a hash it waits. -/
def createWallet (controller : WatchOnlyLoginController) (xpubHashId : String) (m : WalletManager) :
    WalletManager :=
  if xpubHashId = "" then m
  else
    match m.find xpubHashId controller.network with
    | some w => m.save w
    | none =>
        let w := m.made controller xpubHashId
        save w { m with objects := Function.update m.objects w.id (some w), drawn := m.drawn + 1 }

def addWallet (w : Wallet) (m : WalletManager) : WalletManager :=
  if w ∈ m.wallets then m else { m with wallets := m.wallets ++ [w] }

/-- The wallet is there to be added and saved also if it has been removed. -/
def loadFinished (id : ℕ) (m : WalletManager) : WalletManager :=
  match m.objects id with
  | some w => (m.addWallet w).save w
  | none => m

/-- The object stays. -/
def removeWallet (w : Wallet) (m : WalletManager) : WalletManager :=
  { m with
    wallets := m.wallets.erase w
    files := if w.persisted then Function.update m.files w.id none else m.files }

/-- A wallet that is not persisted is removed. -/
def contextChanged (w : Wallet) (m : WalletManager) : WalletManager :=
  if w.persisted then m else m.removeWallet w

/-- What has no login is skipped. -/
def loadWallets (m : WalletManager) : WalletManager :=
  { m with
    wallets := ((List.range m.drawn).filterMap m.files).filter fun w => w.login.isSome
    objects := fun id => (m.files id).filter fun w => w.login.isSome }

def next (m : WalletManager) : WatchEvent → WalletManager
  | .login controller xpubHashId => m.createWallet controller xpubHashId
  | .loadFinished id => m.loadFinished id
  | .closed w => m.contextChanged w
  | .removeWallet w => m.removeWallet w
  | .loadWallets => m.loadWallets

/-- The manager hears of the contexts of the wallets in its list, and these can be removed. -/
def enabled (m : WalletManager) : WatchEvent → Prop
  | .loadFinished id => (m.objects id).isSome = true
  | .closed w | .removeWallet w => w ∈ m.wallets
  | .login .. | .loadWallets => True

instance (m : WalletManager) : (e : WatchEvent) → Decidable (m.enabled e)
  | .loadFinished id => inferInstanceAs (Decidable ((m.objects id).isSome = true))
  | .closed w | .removeWallet w => inferInstanceAs (Decidable (w ∈ m.wallets))
  | .login .. | .loadWallets => isTrue trivial

def watching : Reactive WalletManager WatchEvent Empty where
  enabled := enabled
  next := next
  emits := fun _ _ => []

instance (m : WalletManager) (e : WatchEvent) : Decidable (watching.enabled m e) :=
  inferInstanceAs (Decidable (m.enabled e))

/-- The key that the file has. -/
def keyAt (m : WalletManager) (id : ℕ) : Option (String × String) := (m.files id).bind Wallet.key

/-- No two files are of one wallet to watch. -/
def Apart (m : WalletManager) : Prop := Once m.keyAt

/-- No file has the key of the wallet. -/
def Unfiled (m : WalletManager) (w : Wallet) : Prop := ∀ key, w.key = some key → ∀ id, m.keyAt id ≠ some key

/-- What is saved without having a file has a key that no file has: a wallet that a login makes to be
saved, and one that has been removed while its accounts were loaded. -/
def Anew (m : WalletManager) : WatchEvent → Prop
  | .login controller xpubHashId =>
      xpubHashId ≠ "" → m.find xpubHashId controller.network = none → controller.saveWallet = true →
        m.Unfiled (m.made controller xpubHashId)
  | .loadFinished id => ∀ w, m.objects id = some w → w.persisted = true → m.files id = none →
      m.Unfiled w
  | _ => True

/-- The list is of wallets that there are, and those of them that are persisted have their files. The
files are of persisted wallets, each as it is. -/
structure Stored (m : WalletManager) : Prop where
  nodup : m.wallets.Nodup
  listed : ∀ w ∈ m.wallets, m.objects w.id = some w ∧ (w.persisted = true → m.files w.id = some w)
  drawn : ∀ id w, m.objects id = some w → w.id = id ∧ id < m.drawn
  filed : ∀ id w, m.files id = some w → w.id = id ∧ id < m.drawn ∧ w.persisted = true
  same : ∀ id v w, m.objects id = some v → m.files id = some w → w = v

theorem save_eq (m : WalletManager) (w : Wallet) :
    m.save w =
      { m with files := if w.persisted then Function.update m.files w.id (some w) else m.files } := by
  unfold save
  split_ifs
  · rfl
  · rfl

theorem Stored.files_drawn {m : WalletManager} (h : m.Stored) : m.files m.drawn = none := by
  cases hfile : m.files m.drawn with
  | none => rfl
  | some w => exact absurd (h.filed _ w hfile).2.1 (Nat.lt_irrefl _)

theorem save_of_stored {m : WalletManager} (h : m.Stored) {w : Wallet} (hw : w ∈ m.wallets) :
    m.save w = m := by
  rw [save_eq]
  split_ifs with hpersisted
  · rw [← (h.listed w hw).2 hpersisted, Function.update_eq_self]
  · rfl

/-- With a new wallet, under an id drawn for it. -/
def draw (w : Wallet) (m : WalletManager) : WalletManager :=
  { m with objects := Function.update m.objects m.drawn (some w), drawn := m.drawn + 1 }

theorem objects_draw (w : Wallet) (m : WalletManager) :
    (m.draw w).objects = Function.update m.objects m.drawn (some w) := rfl

theorem objects_draw_self {m : WalletManager} {w : Wallet} (hid : w.id = m.drawn) :
    (m.draw w).objects w.id = some w := by
  rw [objects_draw, hid, Function.update_self]

/-- A login finds a wallet in the list, or makes one that it may save. -/
theorem createWallet_cases {m : WalletManager} (h : m.Stored) (controller : WatchOnlyLoginController)
    (xpubHashId : String) :
    (m.createWallet controller xpubHashId = m ∧
      (xpubHashId = "" ∨ m.find xpubHashId controller.network ≠ none)) ∨
    (xpubHashId ≠ "" ∧ m.find xpubHashId controller.network = none ∧
      m.createWallet controller xpubHashId =
        (m.draw (m.made controller xpubHashId)).save (m.made controller xpubHashId)) := by
  unfold createWallet
  split
  · next hempty => exact .inl ⟨rfl, .inl hempty⟩
  · next hhash =>
      cases hfound : m.find xpubHashId controller.network with
      | some w =>
          left
          refine ⟨save_of_stored h (List.mem_of_find?_eq_some hfound), .inr ?_⟩
          simp
      | none => exact .inr ⟨hhash, rfl, rfl⟩

/-! ### What each call keeps -/

theorem Stored.draw {m : WalletManager} (h : m.Stored) {w : Wallet} (hid : w.id = m.drawn) :
    (m.draw w).Stored := by
  have hold : ∀ id v, id ≠ m.drawn → (m.draw w).objects id = some v → m.objects id = some v := by
    intro id v hne hobject
    rwa [objects_draw, Function.update_of_ne hne] at hobject
  constructor
  · exact h.nodup
  · intro v hv
    have hlisted := h.listed v hv
    refine ⟨?_, hlisted.2⟩
    rw [objects_draw, Function.update_of_ne (Nat.ne_of_lt (h.drawn _ _ hlisted.1).2)]
    exact hlisted.1
  · intro id v hobject
    by_cases hne : id = m.drawn
    · rw [hne, objects_draw, Function.update_self] at hobject
      obtain rfl := Option.some.inj hobject
      exact ⟨hid.trans hne.symm, Nat.lt_succ_of_le (Nat.le_of_eq hne)⟩
    · have hdrawn := h.drawn id v (hold id v hne hobject)
      exact ⟨hdrawn.1, Nat.lt_succ_of_lt hdrawn.2⟩
  · intro id v hfile
    have hfiled := h.filed id v hfile
    exact ⟨hfiled.1, Nat.lt_succ_of_lt hfiled.2.1, hfiled.2.2⟩
  · intro id u v hobject hfile
    exact h.same id u v (hold id u (Nat.ne_of_lt (h.filed id v hfile).2.1) hobject) hfile

/-- A wallet that there is may be saved at any time. -/
theorem Stored.save {m : WalletManager} (h : m.Stored) {w : Wallet} (hw : m.objects w.id = some w) :
    (m.save w).Stored ∧ (w.persisted = true → (m.save w).files w.id = some w) := by
  rw [save_eq]
  cases hpersisted : w.persisted with
  | false => exact ⟨h, nofun⟩
  | true =>
      refine ⟨?_, fun _ => Function.update_self ..⟩
      have hfiles : ∀ id v, Function.update m.files w.id (some w) id = some v →
          m.files id = some v ∨ id = w.id ∧ v = w := by
        intro id v hfile
        by_cases hid : id = w.id
        · rw [hid, Function.update_self] at hfile
          exact .inr ⟨hid, (Option.some.inj hfile).symm⟩
        · rw [Function.update_of_ne hid] at hfile
          exact .inl hfile
      constructor
      · exact h.nodup
      · intro v hv
        have hlisted := h.listed v hv
        refine ⟨hlisted.1, ?_⟩
        intro hsaved
        by_cases hid : v.id = w.id
        · rw [hid, hw] at hlisted
          simp only [if_true, hid, Function.update_self]
          exact hlisted.1
        · simp only [if_true, Function.update_of_ne hid]
          exact hlisted.2 hsaved
      · exact h.drawn
      · intro id v hfile
        rcases hfiles id v hfile with hold | ⟨rfl, rfl⟩
        · exact h.filed id v hold
        · exact ⟨rfl, (h.drawn _ _ hw).2, hpersisted⟩
      · intro id u v hobject hfile
        rcases hfiles id v hfile with hold | ⟨rfl, rfl⟩
        · exact h.same id u v hobject hold
        · exact Option.some.inj (hw.symm.trans hobject)

/-- So may one that has its file be put into the list. -/
theorem Stored.addWallet {m : WalletManager} (h : m.Stored) {w : Wallet}
    (hw : m.objects w.id = some w) (hfile : w.persisted = true → m.files w.id = some w) :
    (m.addWallet w).Stored := by
  unfold WalletManager.addWallet
  split_ifs with hmem
  · exact h
  · constructor
    · apply h.nodup.append (List.nodup_singleton w)
      rwa [List.disjoint_singleton]
    · intro v hv
      rcases List.mem_append.mp hv with hold | hnew
      · exact h.listed v hold
      · rw [List.mem_singleton.mp hnew]
        exact ⟨hw, hfile⟩
    · exact h.drawn
    · exact h.filed
    · exact h.same

theorem save_addWallet (m : WalletManager) (w v : Wallet) :
    (m.addWallet w).save v = (m.save v).addWallet w := by
  rw [save_eq, save_eq]
  unfold addWallet
  split_ifs
  · rfl
  · rfl
  · rfl
  · rfl

theorem objects_save (m : WalletManager) (w : Wallet) : (m.save w).objects = m.objects := by
  rw [save_eq]

theorem Stored.createWallet {m : WalletManager} (h : m.Stored)
    (controller : WatchOnlyLoginController) (xpubHashId : String) :
    (m.createWallet controller xpubHashId).Stored := by
  cases createWallet_cases h controller xpubHashId with
  | inl hsame =>
      rw [hsame.1]
      exact h
  | inr hmade =>
      rw [hmade.2.2]
      exact ((h.draw rfl).save (objects_draw_self rfl)).1

theorem Stored.loadFinished {m : WalletManager} (h : m.Stored) (id : ℕ) :
    (m.loadFinished id).Stored := by
  unfold WalletManager.loadFinished
  cases hobject : m.objects id with
  | none => exact h
  | some w =>
      obtain ⟨rfl, -⟩ := h.drawn id w hobject
      have hsaved := h.save hobject
      dsimp only
      rw [save_addWallet]
      apply hsaved.1.addWallet _ hsaved.2
      rw [objects_save]
      exact hobject

theorem Stored.removeWallet {m : WalletManager} (h : m.Stored) {w : Wallet} (hw : w ∈ m.wallets) :
    (m.removeWallet w).Stored := by
  have hfiles : ∀ i v, (m.removeWallet w).files i = some v → m.files i = some v := by
    intro i v hfile
    unfold WalletManager.removeWallet at hfile
    dsimp only at hfile
    split_ifs at hfile
    · by_cases hi : i = w.id
      · rw [hi, Function.update_self] at hfile
        cases hfile
      · rwa [Function.update_of_ne hi] at hfile
    · exact hfile
  constructor
  · exact h.nodup.erase w
  · intro v hv
    obtain ⟨hne, hv⟩ := h.nodup.mem_erase_iff.mp hv
    have hold := h.listed v hv
    -- Another wallet of the list has another id.
    have hid : v.id ≠ w.id := by
      intro hid
      rw [hid, (h.listed w hw).1] at hold
      exact hne (Option.some.inj hold.1).symm
    refine ⟨hold.1, ?_⟩
    intro hpersisted
    unfold WalletManager.removeWallet
    dsimp only
    split_ifs
    · rw [Function.update_of_ne hid]
      exact hold.2 hpersisted
    · exact hold.2 hpersisted
  · exact h.drawn
  · intro i v hfile
    exact h.filed i v (hfiles i v hfile)
  · intro i u v hu hfile
    exact h.same i u v hu (hfiles i v hfile)

theorem Stored.contextChanged {m : WalletManager} (h : m.Stored) {w : Wallet} (hw : w ∈ m.wallets) :
    (m.contextChanged w).Stored := by
  unfold WalletManager.contextChanged
  split_ifs
  · exact h
  · exact h.removeWallet hw

/-- A restart reads the list from the files. -/
theorem Stored.loadWallets {m : WalletManager} (h : m.Stored) : m.loadWallets.Stored := by
  constructor
  · apply List.Nodup.filter
    apply List.Nodup.filterMap _ List.nodup_range
    intro i j w hi hj
    exact (h.filed i w hi).1.symm.trans (h.filed j w hj).1
  · intro w hw
    simp only [WalletManager.loadWallets, List.mem_filter, List.mem_filterMap] at hw ⊢
    obtain ⟨⟨id, -, hfile⟩, hlogin⟩ := hw
    rw [(h.filed id w hfile).1, hfile, Option.filter_some, if_pos hlogin]
    exact ⟨rfl, fun _ => rfl⟩
  · intro id w hobject
    have hfiled := h.filed id w (Option.filter_eq_some_iff.mp hobject).1
    exact ⟨hfiled.1, hfiled.2.1⟩
  · exact h.filed
  · intro id v w hobject hfile
    exact Option.some.inj (hfile.symm.trans (Option.filter_eq_some_iff.mp hobject).1)

theorem Stored.next {m : WalletManager} (h : m.Stored) {e : WatchEvent} (he : m.enabled e) :
    (m.next e).Stored := by
  cases e with
  | login controller xpubHashId => exact h.createWallet controller xpubHashId
  | loadFinished id => exact h.loadFinished id
  | closed w => exact h.contextChanged he
  | removeWallet w => exact h.removeWallet he
  | loadWallets => exact h.loadWallets

/-! ### The keys of the files -/

theorem keyAt_of_files {m m' : WalletManager} {id : ℕ} {file : Option Wallet}
    (h : m'.files = Function.update m.files id file) :
    m'.keyAt = Function.update m.keyAt id (file.bind Wallet.key) := by
  funext i
  rw [keyAt, h]
  by_cases hi : i = id
  · rw [hi, Function.update_self, Function.update_self]
  · rw [Function.update_of_ne hi, Function.update_of_ne hi, keyAt]

/-- A file where there was none keeps the files apart exactly if its key is new. -/
theorem apart_update_iff {m m' : WalletManager} (hapart : m.Apart) {w : Wallet}
    (hfree : m.files w.id = none) (h : m'.files = Function.update m.files w.id (some w)) :
    m'.Apart ↔ m.Unfiled w := by
  have hnone : m.keyAt w.id = none := by rw [keyAt, hfree]; rfl
  rw [Apart, keyAt_of_files h, Option.bind_some, Unfiled]
  cases hkey : w.key with
  | none => exact iff_of_true (hapart.update_none w.id) nofun
  | some key =>
      rw [Once.update_some_iff hnone]
      constructor
      · rintro hnew _ ⟨⟩
        exact hnew.2
      · exact fun hunfiled => ⟨hapart, hunfiled key rfl⟩

theorem Apart.of_files {m m' : WalletManager} (hapart : m.Apart) (h : m'.files = m.files) :
    m'.Apart := by
  unfold Apart keyAt at hapart ⊢
  rw [h]
  exact hapart

/-- What is saved anew has its file, or its key is new. -/
theorem apart_save_iff {m : WalletManager} (h : m.Stored) (hapart : m.Apart) {w : Wallet}
    (hw : m.objects w.id = some w) :
    (m.save w).Apart ↔ (w.persisted = true → m.files w.id = none → m.Unfiled w) := by
  rw [save_eq]
  cases hpersisted : w.persisted with
  | false => exact iff_of_true (hapart.of_files rfl) nofun
  | true =>
      cases hfile : m.files w.id with
      | some v =>
          obtain rfl := h.same w.id w v hw hfile
          refine iff_of_true (hapart.of_files ?_) nofun
          exact Function.update_eq_self_iff.mpr hfile.symm
      | none =>
          rw [apart_update_iff hapart hfile rfl]
          constructor
          · exact fun hunfiled _ _ => hunfiled
          · exact fun hanew => hanew rfl rfl

theorem apart_login_iff {m : WalletManager} (h : m.Stored) (hapart : m.Apart)
    (controller : WatchOnlyLoginController) (xpubHashId : String) :
    (m.createWallet controller xpubHashId).Apart ↔ m.Anew (.login controller xpubHashId) := by
  cases createWallet_cases h controller xpubHashId with
  | inl hsame =>
      rw [hsame.1]
      apply iff_of_true hapart
      intro hhash hnone
      cases hsame.2 with
      | inl hempty => exact absurd hempty hhash
      | inr hfound => exact absurd hnone hfound
  | inr hmade =>
      obtain ⟨hhash, hnone, hmade⟩ := hmade
      have hdrawn : (m.draw (m.made controller xpubHashId)).Stored := h.draw rfl
      rw [hmade, apart_save_iff hdrawn (hapart.of_files rfl) (objects_draw_self rfl)]
      constructor
      · exact fun hunfiled _ _ hsave => hunfiled hsave h.files_drawn
      · exact fun hanew hsave _ => hanew hhash hnone hsave

theorem apart_loadFinished_iff {m : WalletManager} (h : m.Stored) (hapart : m.Apart) (id : ℕ) :
    (m.loadFinished id).Apart ↔ m.Anew (.loadFinished id) := by
  unfold loadFinished Anew
  dsimp only
  cases hobject : m.objects id with
  | none => exact iff_of_true hapart nofun
  | some w =>
      obtain ⟨rfl, -⟩ := h.drawn id w hobject
      have hfiles : ((m.save w).addWallet w).files = (m.save w).files := by
        unfold addWallet
        split_ifs
        · rfl
        · rfl
      have hsaved : ((m.save w).addWallet w).Apart ↔ (m.save w).Apart :=
        ⟨fun hafter => hafter.of_files hfiles.symm, fun hbefore => hbefore.of_files hfiles⟩
      dsimp only
      rw [save_addWallet, hsaved, apart_save_iff h hapart hobject]
      constructor
      · rintro hunfiled _ ⟨⟩
        exact hunfiled
      · exact fun hanew => hanew w rfl

theorem Apart.removeWallet {m : WalletManager} (hapart : m.Apart) (w : Wallet) :
    (m.removeWallet w).Apart := by
  by_cases hpersisted : w.persisted = true
  · have hfiles : (m.removeWallet w).files = Function.update m.files w.id none := if_pos hpersisted
    rw [Apart, keyAt_of_files hfiles]
    exact hapart.update_none w.id
  · exact hapart.of_files (if_neg hpersisted)

/-- A step keeps the files apart exactly if what it saves without a file is new. -/
theorem apart_next_iff {m : WalletManager} (h : m.Stored) (hapart : m.Apart) (e : WatchEvent) :
    (m.next e).Apart ↔ m.Anew e := by
  cases e with
  | login controller xpubHashId => exact apart_login_iff h hapart controller xpubHashId
  | loadFinished id => exact apart_loadFinished_iff h hapart id
  | closed w =>
      apply iff_of_true _ trivial
      unfold next contextChanged
      dsimp only
      split_ifs
      · exact hapart
      · exact hapart.removeWallet w
  | removeWallet w => exact iff_of_true (hapart.removeWallet w) trivial
  | loadWallets => exact iff_of_true hapart trivial

theorem stored_empty : Stored {} := by
  constructor
  · exact List.nodup_nil
  · exact List.forall_mem_nil _
  · intro id w hobject
    cases hobject
  · intro id w hfile
    cases hfile
  · intro id v w hobject
    cases hobject

theorem apart_empty : Apart {} := by
  intro i j key hi
  cases hi

/-- In every state of a run from a store in which this holds no two files are of one wallet to watch,
exactly if what is saved without having a file is of a key that no file has: a login that finds none
in the list makes such a wallet, and the end of the load of a wallet removed meanwhile saves such a
one. A second login before the accounts of the first have been loaded does not. -/
theorem apart_iff_anew {m : WalletManager} (hstored : m.Stored) (hapart : m.Apart)
    {es : List WatchEvent} (hes : watching.Valid m es) :
    watching.Always Apart m es ↔ watching.Along Anew m es :=
  Reactive.always_iff_along (J := Stored) (R := watching) (fun _ _ h he => h.next he)
    (fun _ e h _ hapart => apart_next_iff h hapart e) hstored hapart hes

/-- Logged in again before the accounts have been loaded. -/
def watchedTwice : List WatchEvent :=
  let controller : WatchOnlyLoginController :=
    { network := "electrum-mainnet", extendedPubkeys := ["zpub6r"], saveWallet := true }
  [.login controller "7b3f", .login controller "7b3f"]

theorem apart_iff_anew_watchedTwice : ¬ watching.Always Apart {} watchedTwice := by
  have hes : watching.Valid {} watchedTwice := by decide
  rw [apart_iff_anew stored_empty apart_empty hes]
  intro ⟨_, hanew, _⟩
  exact hanew (by decide) (by decide) rfl _ rfl 0 (by decide)

end WalletManager
end GreenWallet.Restoring.WatchOnly
