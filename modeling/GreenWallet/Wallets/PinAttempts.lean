import GreenWallet.Library.Reactive
import GreenWallet.Wallets.Recovery

/-!
# The attempts at a PIN

A wallet that opens with a PIN counts the attempts that are left, in memory and on disk. The page
where the PIN is entered disables its field while it logs in, and enables it again whenever the
login has failed, also after the last attempt: what ends the attempts then is the view it shows two
seconds later. Meanwhile the dialog of the passphrase and the name of the wallet save it too.
-/
namespace GreenWallet.Wallets
open GreenWallet.Library

variable {manager : NetworkManager}

/-- A wallet on disk that opens with a PIN, on a network that the manager knows. -/
structure PinWallet (manager : NetworkManager) where
  wallet : Wallet
  pin : PinData
  network : Network
  login : wallet.record.login = some (.pin pin)
  persisted : wallet.persisted = true
  pin_network : pin.network = some network
  known : network ∈ manager.networks

namespace PinWallet

/-- Other data of the PIN, for the same network. -/
def withPin (w : PinWallet manager) (pin : PinData) (h : pin.network = w.pin.network) :
    PinWallet manager where
  wallet := { w.wallet with record := { w.wallet.record with login := some (.pin pin) } }
  pin := pin
  network := w.network
  login := rfl
  persisted := w.persisted
  pin_network := h.trans w.pin_network
  known := w.known

def withAttempts (attempts : Int32) (w : PinWallet manager) : PinWallet manager :=
  w.withPin { w.pin with attempts := attempts } rfl

def withPassphrase (passphrase : Bool) (w : PinWallet manager) : PinWallet manager :=
  w.withPin { w.pin with passphrase := passphrase } rfl

def withName (name : String) (w : PinWallet manager) : PinWallet manager where
  wallet := { w.wallet with record := { w.wallet.record with name := name } }
  pin := w.pin
  network := w.network
  login := w.login
  persisted := w.persisted
  pin_network := w.pin_network
  known := w.known

/-- The wallet afterwards, and what is done to its file. -/
def setAttempts (attempts : Int32) (w : PinWallet manager) : PinWallet manager × List FileStep :=
  if w.pin.attempts = attempts then (w, [])
  else (w.withAttempts attempts, (w.withAttempts attempts).wallet.save)

def resetAttempts (w : PinWallet manager) : PinWallet manager × List FileStep := w.setAttempts 3

/-- The assertion that some attempt is left is not part of a release. -/
def decrementAttempts (w : PinWallet manager) : PinWallet manager × List FileStep :=
  w.setAttempts (w.pin.attempts - 1)

def setPassphrase (passphrase : Bool) (w : PinWallet manager) : PinWallet manager × List FileStep :=
  if w.pin.passphrase = passphrase then (w, [])
  else (w.withPassphrase passphrase, (w.withPassphrase passphrase).wallet.save)

/-- The name without the blanks around it, or a new one if nothing is left. -/
def rename (name newWalletName : String) (w : PinWallet manager) :
    PinWallet manager × List FileStep :=
  let renamed := w.withName (if name = "" then newWalletName else name)
  if w.wallet.record.name = renamed.wallet.record.name then (w, [])
  else if renamed.wallet.record.name = "" then (renamed, [])
  else (renamed, renamed.wallet.save)

end PinWallet

/-- How far a login of the page has come. -/
inductive PinLogin where
  | active
  | failed
  | finished
  /-- A second login is under way, with the passphrase. -/
  | passphrase
  | done
deriving DecidableEq

/-- The page with its `LoginController`. -/
structure PinLoginPage (manager : NetworkManager) where
  wallet : PinWallet manager
  disk : Disk
  m_passphrase : String := ""
  m_error : String := ""
  /-- Whether `pin_field` is enabled. -/
  enabled : Bool := true
  /-- Whether `no_attempts_view` is shown. -/
  no_attempts_view : Bool := false
  /-- The logins of the page, in the order they began. -/
  logins : List PinLogin := []

inductive PinEvent where
  /-- The page is opened anew, which may be after a restart. -/
  | opened
  /-- The page is shown again. -/
  | activating
  /-- The button that drops the passphrase. -/
  | dropped
  /-- The dialog of the passphrase. -/
  | submit (passphrase : String) (always_ask : Bool)
  | clear
  /-- The name of the wallet, edited elsewhere. -/
  | renamed (name newWalletName : String)
  | pinEntered (pin : String)
  | connectFailed (login : ℕ) (error : String)
  | loginFailed (login : ℕ) (error : String)
  | loginFinished (login : ℕ)
  | groupFailed (login : ℕ)
  | groupFinished (login : ℕ)
  /-- The timer that runs while no attempts are left. -/
  | triggered

namespace PinLoginPage

def attempts (page : PinLoginPage manager) : Int32 := page.wallet.pin.attempts

def change (op : PinWallet manager → PinWallet manager × List FileStep)
    (page : PinLoginPage manager) : PinLoginPage manager :=
  { page with wallet := (op page.wallet).1, disk := page.disk.run (op page.wallet).2 }

def setLogin (login : ℕ) (state : PinLogin) (page : PinLoginPage manager) :
    PinLoginPage manager :=
  { page with logins := page.logins.set login state }

def loginWithPin (page : PinLoginPage manager) : PinLoginPage manager :=
  { page with enabled := false, m_error := "", logins := page.logins ++ [.active] }

/-- The error of `login_task` is no longer empty if the connection has timed out. -/
def connectFailed (login : ℕ) (error : String) (page : PinLoginPage manager) :
    PinLoginPage manager :=
  { page.setLogin login .failed with
    m_error := if error = "timeout error" then "id_connection_failed" else page.m_error }

/-- `onInvalidPin` enables the field if attempts are left. -/
def loginFailed (login : ℕ) (error : String) (page : PinLoginPage manager) :
    PinLoginPage manager :=
  if error = "id_invalid_pin" then
    { (page.change PinWallet.decrementAttempts).setLogin login .failed with
      enabled := decide (0 < (page.change PinWallet.decrementAttempts).attempts) }
  else if page.m_error = "" then { page.setLogin login .failed with m_error := error }
  else page.setLogin login .failed

def groupFinished (login : ℕ) (page : PinLoginPage manager) : PinLoginPage manager :=
  if page.logins[login]? = some .finished ∧ page.m_passphrase ≠ "" then
    page.setLogin login .passphrase
  else page.setLogin login .done

def enables (page : PinLoginPage manager) : PinEvent → Prop
  | .opened | .activating | .dropped | .submit _ _ | .clear => True
  -- No new name is empty.
  | .renamed _ newWalletName => newWalletName ≠ ""
  | .pinEntered pin => page.enabled = true ∧ page.no_attempts_view = false ∧ pin.length = 6
  | .connectFailed login _ => page.logins[login]? = some .active
  | .loginFailed login _ => page.logins[login]? = some .active
  | .loginFinished login => page.logins[login]? = some .active
  | .groupFailed login => page.logins[login]? = some .failed ∨
      page.logins[login]? = some .finished ∨ page.logins[login]? = some .passphrase
  | .groupFinished login =>
      page.logins[login]? = some .finished ∨ page.logins[login]? = some .passphrase
  | .triggered => page.attempts = 0 ∧ page.no_attempts_view = false

def next (page : PinLoginPage manager) : PinEvent → PinLoginPage manager
  | .opened => { wallet := page.wallet, disk := page.disk }
  | .activating => { page with enabled := true }
  | .dropped => { page with m_passphrase := "" }
  | .submit passphrase always_ask =>
      { page.change (PinWallet.setPassphrase always_ask) with m_passphrase := passphrase }
  | .clear => { page.change (PinWallet.setPassphrase false) with m_passphrase := "" }
  | .renamed name newWalletName => page.change (PinWallet.rename name newWalletName)
  | .pinEntered _ => page.loginWithPin
  | .connectFailed login error => page.connectFailed login error
  | .loginFailed login error => page.loginFailed login error
  | .loginFinished login => (page.change PinWallet.resetAttempts).setLogin login .finished
  -- `onLoginFailed` enables the field whatever is left.
  | .groupFailed login => { page.setLogin login .done with enabled := true }
  | .groupFinished login => page.groupFinished login
  | .triggered => { page with no_attempts_view := true }

def pinLogin : Reactive (PinLoginPage manager) PinEvent Empty where
  enabled := enables
  next := next
  emits := fun _ _ => []

/-! ### What is on disk -/

/-- The next start of the program finds the wallet in its file as it is. -/
def Stored (page : PinLoginPage manager) : Prop :=
  page.disk.wallets2.isSome = true ∧
    page.disk.stored manager page.wallet.wallet.id.text = some page.wallet.wallet

theorem Stored.restarted {page : PinLoginPage manager} (h : page.Stored)
    (decode : String → JsonObject) (uuids : Uuids) :
    (page.disk.restarted decode uuids).stored manager page.wallet.wallet.id.text =
      some page.wallet.wallet := by
  rw [Disk.restarted_of_isSome h.1]
  exact h.2

/-- A wallet that opens with a PIN is found as it has been saved. -/
theorem stored_save (w : PinWallet manager) (disk : Disk) :
    (disk.run w.wallet.save).wallets2.isSome = true ∧
      (disk.run w.wallet.save).stored manager w.wallet.id.text = some w.wallet := by
  have hnetworked : ∀ login, w.wallet.record.login = some login → login.Networked manager := by
    intro login hlogin network hnetwork
    obtain rfl := Option.some.inj (w.login.symm.trans hlogin)
    obtain rfl := Option.some.inj (w.pin_network.symm.trans hnetwork)
    exact w.known
  have hrestorable : w.wallet.record.Restorable := by
    refine ⟨.pin w.pin, w.login, ?_⟩
    rw [LoginData.Restorable, w.pin_network]
    exact Option.some_ne_none w.network
  obtain ⟨data, hwrite⟩ := hrestorable.exists_write
  have hread := (Record.read_write hnetworked hwrite).mpr hrestorable
  rw [Wallet.save_of_write w.persisted hwrite]
  constructor
  · rw [Disk.run_writeFile]
    rfl
  · rw [stored_writeFile, hread, Option.map_some, ← w.persisted]

/-- The call leaves the wallet as it is, or saves it. -/
def Saving (op : PinWallet manager → PinWallet manager × List FileStep) : Prop :=
  ∀ w, op w = (w, []) ∨ (op w).2 = (op w).1.wallet.save

theorem saving_setAttempts (attempts : Int32) :
    Saving fun w : PinWallet manager => w.setAttempts attempts := by
  intro w
  unfold PinWallet.setAttempts
  dsimp only
  split_ifs
  · exact .inl rfl
  · exact .inr rfl

theorem saving_setPassphrase (passphrase : Bool) :
    Saving fun w : PinWallet manager => w.setPassphrase passphrase := by
  intro w
  unfold PinWallet.setPassphrase
  dsimp only
  split_ifs
  · exact .inl rfl
  · exact .inr rfl

theorem saving_rename (name : String) {newWalletName : String} (hnew : newWalletName ≠ "") :
    Saving fun w : PinWallet manager => w.rename name newWalletName := by
  intro w
  have hname : (w.withName (if name = "" then newWalletName else name)).wallet.record.name ≠ "" := by
    unfold PinWallet.withName
    dsimp only
    split_ifs with hempty
    · exact hnew
    · exact hempty
  unfold PinWallet.rename
  dsimp only
  rw [if_neg hname]
  generalize (if name = "" then newWalletName else name) = text
  split_ifs
  · exact .inl rfl
  · exact .inr rfl

theorem Stored.change {page : PinLoginPage manager} (h : page.Stored)
    {op : PinWallet manager → PinWallet manager × List FileStep} (hop : Saving op) :
    (page.change op).Stored := by
  unfold PinLoginPage.change Stored
  dsimp only
  rcases hop page.wallet with hsame | hsaves
  · rw [hsame]
    exact h
  · rw [hsaves]
    exact stored_save (op page.wallet).1 page.disk

/-- Every step leaves the wallet alone, or makes a call that leaves it alone or saves it. -/
theorem change_next (page : PinLoginPage manager) {e : PinEvent} (he : page.enables e) :
    ((page.next e).wallet = page.wallet ∧ (page.next e).disk = page.disk) ∨
      ∃ op, Saving op ∧ (page.next e).wallet = (page.change op).wallet ∧
        (page.next e).disk = (page.change op).disk := by
  cases e with
  | loginFailed login error =>
      unfold next loginFailed
      dsimp only
      split_ifs
      · exact .inr ⟨_, saving_setAttempts (page.wallet.pin.attempts - 1), rfl, rfl⟩
      · exact .inl ⟨rfl, rfl⟩
      · exact .inl ⟨rfl, rfl⟩
  | loginFinished login => exact .inr ⟨_, saving_setAttempts 3, rfl, rfl⟩
  | submit passphrase always_ask => exact .inr ⟨_, saving_setPassphrase always_ask, rfl, rfl⟩
  | clear => exact .inr ⟨_, saving_setPassphrase false, rfl, rfl⟩
  | renamed name newWalletName => exact .inr ⟨_, saving_rename name he, rfl, rfl⟩
  | groupFinished login =>
      unfold next groupFinished
      dsimp only
      split_ifs
      · exact .inl ⟨rfl, rfl⟩
      · exact .inl ⟨rfl, rfl⟩
  | _ => exact .inl ⟨rfl, rfl⟩

theorem Stored.next {page : PinLoginPage manager} (h : page.Stored) {e : PinEvent}
    (he : page.enables e) : (page.next e).Stored := by
  rcases change_next page he with ⟨hwallet, hdisk⟩ | ⟨op, hop, hwallet, hdisk⟩
  · unfold Stored
    rw [hwallet, hdisk]
    exact h
  · have hchanged := h.change hop
    unfold Stored at hchanged ⊢
    rw [hwallet, hdisk]
    exact hchanged

/-! ### What is left of the attempts -/

theorem attempts_change_setAttempts (attempts : Int32) (page : PinLoginPage manager) :
    (page.change (PinWallet.setAttempts attempts)).attempts = attempts := by
  unfold change PinLoginPage.attempts PinWallet.setAttempts
  split_ifs with hsame
  · exact hsame
  · rfl

theorem attempts_change_setPassphrase (passphrase : Bool) (page : PinLoginPage manager) :
    (page.change (PinWallet.setPassphrase passphrase)).attempts = page.attempts := by
  unfold change PinLoginPage.attempts PinWallet.setPassphrase
  split_ifs
  · rfl
  · rfl

theorem attempts_change_rename (name newWalletName : String) (page : PinLoginPage manager) :
    (page.change (PinWallet.rename name newWalletName)).attempts = page.attempts := by
  unfold change PinLoginPage.attempts PinWallet.rename
  dsimp only
  generalize (if name = "" then newWalletName else name) = text
  split_ifs
  · rfl
  · rfl
  · rfl

/-- The attempts left, counted in the events: one less for an invalid PIN, and three after a
login. -/
def left (attempts : ℤ) : PinEvent → ℤ
  | .loginFailed _ error => if error = "id_invalid_pin" then attempts - 1 else attempts
  | .loginFinished _ => 3
  | _ => attempts

/-- No invalid PIN is answered when no attempt is left. -/
def Guarded (page : PinLoginPage manager) (e : PinEvent) : Prop :=
  page.attempts = 0 → ∀ login, e ≠ .loginFailed login "id_invalid_pin"

theorem toInt_sub_one {attempts : Int32} (h : 0 ≤ attempts.toInt) :
    (attempts - 1).toInt = attempts.toInt - 1 := by
  have hone : (1 : Int32).toInt = 1 := rfl
  have hmax : attempts.toInt ≤ 2147483647 := attempts.toInt_le
  rw [Int32.toInt_sub, hone]
  exact Int.bmod_eq_of_le (by omega) (by omega)

theorem attempts_next {page : PinLoginPage manager} (h : 0 ≤ page.attempts.toInt) (e : PinEvent) :
    (page.next e).attempts.toInt = left page.attempts.toInt e := by
  cases e with
  | loginFailed login error =>
      unfold next loginFailed left
      dsimp only
      split_ifs
      · have hchanged : (page.change PinWallet.decrementAttempts).attempts = page.attempts - 1 :=
          attempts_change_setAttempts (page.attempts - 1) page
        exact (congrArg Int32.toInt hchanged).trans (toInt_sub_one h)
      · rfl
      · rfl
  | loginFinished login =>
      have hchanged : (page.change PinWallet.resetAttempts).attempts = 3 :=
        attempts_change_setAttempts 3 page
      exact congrArg Int32.toInt hchanged
  | submit passphrase always_ask =>
      exact congrArg Int32.toInt (attempts_change_setPassphrase always_ask page)
  | clear => exact congrArg Int32.toInt (attempts_change_setPassphrase false page)
  | renamed name newWalletName =>
      exact congrArg Int32.toInt (attempts_change_rename name newWalletName page)
  | groupFinished login =>
      unfold next groupFinished left
      dsimp only
      split_ifs
      · rfl
      · rfl
  | _ => rfl

/-- A step leaves a number of attempts that is not negative exactly if it is guarded. -/
theorem attempts_nonneg_iff {page : PinLoginPage manager} (h : 0 ≤ page.attempts.toInt)
    (e : PinEvent) : 0 ≤ (page.next e).attempts.toInt ↔ page.Guarded e := by
  rw [attempts_next h]
  have hzero : page.attempts = 0 ↔ page.attempts.toInt = 0 :=
    Int32.toInt_inj.symm
  unfold Guarded
  rw [hzero]
  cases e with
  | loginFailed login error =>
      unfold left
      dsimp only
      split_ifs with herror
      · subst herror
        constructor
        · intro hleft hnone
          omega
        · intro hguarded
          have hsome : page.attempts.toInt ≠ 0 := fun hnone => hguarded hnone login rfl
          omega
      · refine iff_of_true h ?_
        rintro _ login ⟨⟩
        exact herror rfl
  | loginFinished login => exact iff_of_true (Int.zero_le_ofNat 3) (by rintro _ _ ⟨⟩)
  | _ => exact iff_of_true h (by rintro _ _ ⟨⟩)

/-- A wallet with one attempt left, saved on an empty disk. -/
def lastAttempt : PinLoginPage electrumManager :=
  { wallet :=
      { wallet := { id := ⟨"9b41", by decide⟩, persisted := true, record := {
          name := "My Wallet", deployment := "mainnet", login := some (.pin
            { network := some { id := "electrum-mainnet", isElectrum := true }, attempts := 1 }) } }
        pin := { network := some { id := "electrum-mainnet", isElectrum := true }, attempts := 1 }
        network := { id := "electrum-mainnet", isElectrum := true }
        login := rfl
        persisted := rfl
        pin_network := rfl
        known := List.mem_cons_self }
    disk := {} }

/-- The field is enabled again after the last attempt, and another PIN is entered in time. -/
def enteredAgain : List PinEvent :=
  [.pinEntered "000000", .loginFailed 0 "id_invalid_pin", .groupFailed 0, .pinEntered "111111",
    .loginFailed 1 "id_invalid_pin"]

end PinLoginPage
end GreenWallet.Wallets
