import Mathlib.Data.Set.Basic
import GreenWallet.Accounts.Outputs

/-!
# The notification about expired outputs

The notification is kept up to date output by output. What it shows is always the set of
outputs that have expired without being spent, and the accounts they belong to, and it is there
as long as there is one of them.
-/
namespace GreenWallet.Accounts
open GreenWallet.Library

/-! ## What a notification shows -/

namespace TwoFactorExpiredNotification
variable {notification : TwoFactorExpiredNotification} {S : Set OutputRef} {o : OutputRef}

/-- It has exactly these outputs and their accounts, none of them twice. -/
structure Shows (notification : TwoFactorExpiredNotification) (S : Set OutputRef) : Prop where
  outputs : ∀ o, o ∈ notification.m_outputs ↔ o ∈ S
  accounts : ∀ account, account ∈ notification.m_accounts ↔ ∃ o ∈ S, o.account = account
  nodup : notification.m_accounts.Nodup

theorem shows_empty : ({} : TwoFactorExpiredNotification).Shows ∅ where
  outputs o := by simp
  accounts account := by simp
  nodup := List.nodup_nil

theorem Shows.isEmpty_iff (h : notification.Shows S) : notification.isEmpty = true ↔ S = ∅ := by
  rw [isEmpty, decide_eq_true_eq, Finset.eq_empty_iff_forall_notMem, Set.eq_empty_iff_forall_notMem]
  exact forall_congr' fun o => not_congr (h.outputs o)

theorem Shows.add (h : notification.Shows S) (o : OutputRef) :
    (notification.add o).Shows (insert o S) := by
  by_cases ho : o ∈ notification.m_outputs
  · rwa [TwoFactorExpiredNotification.add, if_pos ho, Set.insert_eq_of_mem ((h.outputs o).mp ho)]
  · rw [TwoFactorExpiredNotification.add, if_neg ho]
    refine ⟨?_, ?_, ?_⟩
    · intro other
      rw [Finset.mem_insert, h.outputs, Set.mem_insert_iff]
    · intro account
      have hsplit : (∃ other ∈ insert o S, other.account = account) ↔
          o.account = account ∨ account ∈ notification.m_accounts := by
        rw [h.accounts, Set.exists_mem_insert]
      rw [hsplit]
      show account ∈ (if _ then _ else _) ↔ _
      split_ifs with hknown
      · constructor
        · exact .inr
        · rintro (rfl | hmem)
          · exact hknown
          · exact hmem
      · rw [List.mem_append, List.mem_singleton, or_comm, eq_comm]
    · show (if _ then _ else _ : List AccountRef).Nodup
      split_ifs with hknown
      · exact h.nodup
      · exact List.nodup_append.mpr ⟨h.nodup, List.nodup_singleton _, by
          rintro account hmem _ hsame rfl
          rw [List.mem_singleton.mp hsame] at hmem
          exact hknown hmem⟩

theorem Shows.remove (h : notification.Shows S) (o : OutputRef) :
    (notification.remove o).Shows (S \ {o}) := by
  have houtputs : ∀ other, other ∈ notification.m_outputs.erase o ↔ other ∈ S \ {o} := by
    intro other
    rw [Finset.mem_erase, h.outputs, Set.mem_sdiff_singleton, and_comm]
  have hothers : (∃ other ∈ notification.m_outputs.erase o, other.account = o.account) ↔
      ∃ other ∈ S \ {o}, other.account = o.account :=
    exists_congr fun other => and_congr_left' (houtputs other)
  -- for another account it makes no difference whether this output is there
  have hsame : ∀ account ≠ o.account,
      (account ∈ notification.m_accounts ↔ ∃ other ∈ S \ {o}, other.account = account) := by
    intro account hne
    rw [h.accounts]
    constructor
    · rintro ⟨other, hother, rfl⟩
      exact ⟨other, ⟨hother, fun heq => hne (by rw [heq])⟩, rfl⟩
    · rintro ⟨other, hother, rfl⟩
      exact ⟨other, hother.1, rfl⟩
  refine ⟨houtputs, ?_, ?_⟩
  · intro account
    show account ∈ (if _ then _ else _) ↔ _
    by_cases haccount : account = o.account
    · subst haccount
      split_ifs with hother
      · obtain ⟨other, hmem, heq⟩ := hothers.mp hother
        exact iff_of_true ((h.accounts _).mpr ⟨other, hmem.1, heq⟩) ⟨other, hmem, heq⟩
      · exact iff_of_false (fun hmem => (h.nodup.mem_erase_iff.mp hmem).1 rfl)
          fun hmem => hother (hothers.mpr hmem)
    · rw [← hsame account haccount]
      split_ifs with hother
      · exact Iff.rfl
      · exact List.mem_erase_of_ne haccount
  · show (if _ then _ else _ : List AccountRef).Nodup
    split_ifs with hother
    · exact h.nodup
    · exact h.nodup.erase _

end TwoFactorExpiredNotification

/-! ## The notifications of the class -/

def expiredNotifications (notifications : List Notification) :
    List TwoFactorExpiredNotification :=
  notifications.filterMap Notification.asTwoFactorExpired

theorem getExpiredNotification_eq (notifications : List Notification) :
    GetExpiredNotification notifications = (expiredNotifications notifications).head? := by
  induction notifications with
  | nil => rfl
  | cons notification notifications ih =>
      cases notification with
      | twoFactorExpired notification => rfl
      | other serial => exact ih

theorem expiredNotifications_set (notification : TwoFactorExpiredNotification)
    (notifications : List Notification) :
    expiredNotifications (setExpiredNotification notification notifications) =
      (expiredNotifications notifications).modifyHead fun _ => notification := by
  induction notifications with
  | nil => rfl
  | cons head notifications ih =>
      cases head with
      | twoFactorExpired notification => rfl
      | other serial => exact ih

theorem expiredNotifications_remove (notifications : List Notification) :
    expiredNotifications (removeExpiredNotification notifications) =
      (expiredNotifications notifications).tail := by
  induction notifications with
  | nil => rfl
  | cons head notifications ih =>
      cases head with
      | twoFactorExpired notification => rfl
      | other serial => exact ih

theorem expiredNotifications_eraseOther (serial : ℕ) (notifications : List Notification) :
    expiredNotifications (notifications.eraseP fun n => n.isOther serial) =
      expiredNotifications notifications := by
  induction notifications with
  | nil => rfl
  | cons head notifications ih =>
      cases head with
      | twoFactorExpired notification => exact congrArg (notification :: ·) ih
      | other serial' =>
          by_cases hserial : serial' = serial
          · rw [List.eraseP_cons_of_pos (by simpa [Notification.isOther] using hserial)]
            rfl
          · rw [List.eraseP_cons_of_neg (by simpa [Notification.isOther] using hserial)]
            exact ih

/-- There is one notification of the class that shows the set, unless the set is empty. -/
structure NotifiesExactly (notifications : List Notification) (S : Set OutputRef) : Prop where
  length_le : (expiredNotifications notifications).length ≤ 1
  exists_iff : (∃ notification, notification ∈ expiredNotifications notifications) ↔ S.Nonempty
  shows : ∀ notification ∈ expiredNotifications notifications, notification.Shows S

namespace NotifiesExactly
variable {notifications : List Notification} {S : Set OutputRef}

theorem of_nil (hnil : expiredNotifications notifications = []) :
    NotifiesExactly notifications ∅ where
  length_le := by simp [hnil]
  exists_iff := by simp [hnil]
  shows := by simp [hnil]

theorem of_singleton {notification : TwoFactorExpiredNotification}
    (hone : expiredNotifications notifications = [notification]) (hS : S.Nonempty)
    (hshows : notification.Shows S) : NotifiesExactly notifications S where
  length_le := by simp [hone]
  exists_iff := by simp [hone, hS]
  shows := by simpa [hone] using hshows

/-- Either there is none, or exactly one. -/
theorem cases (h : NotifiesExactly notifications S) :
    expiredNotifications notifications = [] ∧ S = ∅ ∨
      ∃ notification, expiredNotifications notifications = [notification] ∧ S.Nonempty ∧
        notification.Shows S := by
  rcases hlist : expiredNotifications notifications with - | ⟨notification, rest⟩
  · have hnone : ¬ S.Nonempty := by
      rw [← h.exists_iff, hlist]
      simp
    exact .inl ⟨rfl, Set.not_nonempty_iff_eq_empty.mp hnone⟩
  · have hrest : rest = [] := by
      have hle := h.length_le
      rw [hlist, List.length_cons] at hle
      exact List.length_eq_zero_iff.mp (by omega)
    have hmem : notification ∈ expiredNotifications notifications := by simp [hlist]
    exact .inr ⟨notification, by rw [hrest], h.exists_iff.mp ⟨_, hmem⟩, h.shows _ hmem⟩

theorem of_expiredNotifications_eq {notifications' : List Notification}
    (h : NotifiesExactly notifications S)
    (heq : expiredNotifications notifications' = expiredNotifications notifications) :
    NotifiesExactly notifications' S where
  length_le := heq ▸ h.length_le
  exists_iff := heq ▸ h.exists_iff
  shows := heq ▸ h.shows

end NotifiesExactly

namespace Outputs
variable {s : Outputs} {o : OutputRef} {S : Set OutputRef}

theorem notifiesExactly_add (h : NotifiesExactly s.m_notifications S) :
    NotifiesExactly (s.notifyAdd o) (insert o S) := by
  rw [notifyAdd, getExpiredNotification_eq]
  rcases h.cases with ⟨hnil, rfl⟩ | ⟨notification, hone, -, hshows⟩
  · rw [hnil]
    apply NotifiesExactly.of_singleton _ (Set.insert_nonempty o ∅)
      (TwoFactorExpiredNotification.shows_empty.add o)
    show List.filterMap _ (_ ++ _) = _
    rw [List.filterMap_append]
    exact congrArg (· ++ _) hnil
  · rw [hone]
    apply NotifiesExactly.of_singleton _ (Set.insert_nonempty o S) (hshows.add o)
    exact (expiredNotifications_set _ _).trans (by rw [hone]; rfl)

theorem notifiesExactly_remove (h : NotifiesExactly s.m_notifications S) :
    NotifiesExactly (s.notifyRemove o) (S \ {o}) := by
  rw [notifyRemove, getExpiredNotification_eq]
  rcases h.cases with ⟨hnil, rfl⟩ | ⟨notification, hone, -, hshows⟩
  · rw [hnil, Set.empty_sdiff]
    exact NotifiesExactly.of_nil hnil
  · rw [hone]
    show NotifiesExactly (if _ then _ else _) _
    have hremoved := hshows.remove o
    split_ifs with hempty
    · rw [hremoved.isEmpty_iff.mp hempty]
      exact NotifiesExactly.of_nil ((expiredNotifications_remove _).trans (by rw [hone]; rfl))
    · apply NotifiesExactly.of_singleton _ _ hremoved
      · exact (expiredNotifications_set _ _).trans (by rw [hone]; rfl)
      · exact Set.nonempty_iff_ne_empty.mpr fun hS => hempty (hremoved.isEmpty_iff.mpr hS)

/-! ## The outputs that are shown -/

/-- The output of a multisig account has expired and has not been spent. -/
def Overdue (s : Outputs) : Set OutputRef :=
  { o | o.account.network.isElectrum = false ∧ s.isOverdue o = true }

theorem mem_overdue :
    o ∈ s.Overdue ↔ o.account.network.isElectrum = false ∧ s.isOverdue o = true := Iff.rfl

/-- The notifications show what is overdue. -/
def Notified (s : Outputs) : Prop := NotifiesExactly s.m_notifications s.Overdue

/-- The output's mark is the one its data and the block of its session give it. -/
def Marked (s : Outputs) (o : OutputRef) : Prop :=
  ∀ output, s.output o = some output →
    output.m_expired = expiredAt output.m_data (s.blockHeight o.account.network)

theorem isOverdue_set_of_ne {output : Output} {other : OutputRef} (hne : other ≠ o) :
    (s.set o output).isOverdue other = s.isOverdue other := by
  simp only [isOverdue, set, Function.update_of_ne hne]

theorem isOverdue_set_self (s : Outputs) (o : OutputRef) (output : Output) :
    (s.set o output).isOverdue o = (output.m_expired && output.m_spending_transaction.isNone) := by
  simp only [isOverdue, set, Function.update_self, Option.any_some]

/-- A change that the notification is not told of must not make a difference to it. -/
theorem Notified.set (h : s.Notified) {output : Output}
    (hsame : (output.m_expired && output.m_spending_transaction.isNone) = s.isOverdue o) :
    (s.set o output).Notified := by
  have hoverdue : (s.set o output).Overdue = s.Overdue := by
    ext other
    by_cases hne : other = o
    · subst hne
      simp only [mem_overdue, isOverdue_set_self, hsame]
    · simp only [mem_overdue, isOverdue_set_of_ne hne]
  rw [Notified, hoverdue]
  exact h

/-- Any change to an output is made good by the update of the notifications that follows. -/
theorem Notified.updateNotifications (h : s.Notified) (hwatch : s.m_watchonly = false)
    (o : OutputRef) (output : Output) : ((s.set o output).updateNotifications o).Notified := by
  have hother : ∀ other ≠ o, (other ∈ (s.set o output).Overdue ↔ other ∈ s.Overdue) := by
    intro other hne
    simp only [mem_overdue, isOverdue_set_of_ne hne]
  rw [Outputs.updateNotifications, if_neg (by simp [Outputs.set, hwatch])]
  split_ifs with helectrum hoverdue
  · have hsame : (s.set o output).Overdue = s.Overdue := by
      ext other
      by_cases hne : other = o
      · subst hne
        simp only [mem_overdue, helectrum, Bool.true_eq_false, false_and]
      · exact hother other hne
    rw [Notified, hsame]
    exact h
  · have hself : o ∈ (s.set o output).Overdue := ⟨by simpa using helectrum, hoverdue⟩
    have hsame : (s.set o output).Overdue = insert o s.Overdue := by
      ext other
      by_cases hne : other = o
      · subst hne
        exact iff_of_true hself (Set.mem_insert other _)
      · rw [hother other hne, Set.mem_insert_iff, or_iff_right hne]
    show NotifiesExactly ((s.set o output).notifyAdd o) (s.set o output).Overdue
    rw [hsame]
    exact notifiesExactly_add (s := s.set o output) h
  · have hself : o ∉ (s.set o output).Overdue := fun hmem => hoverdue hmem.2
    have hsame : (s.set o output).Overdue = s.Overdue \ {o} := by
      ext other
      by_cases hne : other = o
      · subst hne
        exact iff_of_false hself fun hmem => hmem.2 rfl
      · rw [hother other hne, Set.mem_sdiff_singleton, and_iff_left hne]
    show NotifiesExactly ((s.set o output).notifyRemove o) (s.set o output).Overdue
    rw [hsame]
    exact notifiesExactly_remove (s := s.set o output) h

/-! ## The calls -/

theorem Notified.setExpired (h : s.Notified) (hwatch : s.m_watchonly = false) (o : OutputRef)
    (expired : Bool) : (s.setExpired o expired).Notified := by
  unfold Outputs.setExpired
  cases s.output o with
  | none => exact h
  | some output =>
      show (if _ then _ else _ : Outputs).Notified
      split_ifs
      · exact h
      · exact h.updateNotifications hwatch o _

theorem Notified.setSpendingTransaction (h : s.Notified) (hwatch : s.m_watchonly = false)
    (o : OutputRef) (transaction : Option AccountTransaction) :
    (s.setSpendingTransaction o transaction).Notified := by
  unfold Outputs.setSpendingTransaction
  cases s.output o with
  | none => exact h
  | some output =>
      show (if _ then _ else _ : Outputs).Notified
      split_ifs
      · exact h
      · exact h.updateNotifications hwatch o _

theorem Notified.updateExpired (h : s.Notified) (hwatch : s.m_watchonly = false) (o : OutputRef) :
    (s.updateExpired o).Notified := by
  unfold Outputs.updateExpired
  cases s.output o with
  | none => exact h
  | some output => exact h.setExpired hwatch o _

theorem Notified.updateFromData (h : s.Notified) (hwatch : s.m_watchonly = false) (o : OutputRef)
    (data : OutputData) : (s.updateFromData o data).Notified := by
  unfold Outputs.updateFromData
  cases houtput : s.output o with
  | none => exact h
  | some output =>
      show (if _ then _ else _ : Outputs).Notified
      split_ifs
      · exact h
      · have hset : (s.set o { output with m_data := data }).Notified :=
          h.set (by rw [isOverdue, houtput, Option.any_some])
        exact hset.updateExpired hwatch o

theorem Notified.create (h : s.Notified) (hnone : s.output o = none) : (s.create o).Notified :=
  @Notified.set s o h {} (by rw [isOverdue, hnone]; rfl)

theorem Notified.foldl_updateExpired (h : s.Notified) (hwatch : s.m_watchonly = false)
    (os : List OutputRef) : (os.foldl Outputs.updateExpired s).Notified := by
  induction os generalizing s with
  | nil => exact h
  | cons o os ih =>
      apply ih (h.updateExpired hwatch o)
      rw [(frame_updateExpired s o).m_watchonly, hwatch]

/-! ## The marks -/

/-- Every output is told of the blocks, and has the mark that is due. -/
structure Current (s : Outputs) : Prop where
  m_watchonly : s.m_watchonly = false
  listed : ∀ o, s.output o ≠ none → o ∈ s.coins
  marked : ∀ o, s.Marked o
  notified : s.Notified

theorem marked_congr {s' : Outputs} {other : OutputRef} (houtput : s'.output other = s.output other)
    (hblock : s'.m_block other.account.network = s.m_block other.account.network) :
    s'.Marked other ↔ s.Marked other := by
  unfold Marked blockHeight
  rw [houtput, hblock]

theorem marked_updateExpired (s : Outputs) (o : OutputRef) : (s.updateExpired o).Marked o := by
  intro output houtput
  rw [output_updateExpired, adjust_self] at houtput
  obtain ⟨old, -, rfl⟩ := Option.map_eq_some_iff.mp houtput
  rw [(frame_updateExpired s o).blockHeight]

/-- The mark of another output is not touched, and the own one is right afterwards. -/
theorem Marked.updateExpired {other : OutputRef} (h : s.Marked other) (o : OutputRef) :
    (s.updateExpired o).Marked other := by
  by_cases hne : other = o
  · rw [hne]
    exact marked_updateExpired s o
  · refine (marked_congr ?_ ?_).mpr h
    · rw [output_updateExpired, adjust_of_ne hne]
    · rw [(frame_updateExpired s o).m_block]

theorem Marked.foldl_updateExpired {other : OutputRef} (h : s.Marked other) (os : List OutputRef) :
    (os.foldl Outputs.updateExpired s).Marked other := by
  induction os generalizing s with
  | nil => exact h
  | cons o os ih => exact ih (h.updateExpired o)

theorem marked_foldl_updateExpired {os : List OutputRef} (ho : o ∈ os) (s : Outputs) :
    (os.foldl Outputs.updateExpired s).Marked o := by
  induction os generalizing s with
  | nil => cases ho
  | cons head os ih =>
      rcases List.mem_cons.mp ho with rfl | hrest
      · exact (marked_updateExpired s o).foldl_updateExpired os
      · exact ih hrest _

theorem output_eq_none_updateExpired (s : Outputs) (o other : OutputRef) :
    (s.updateExpired o).output other = none ↔ s.output other = none := by
  rw [output_updateExpired]
  by_cases hne : other = o
  · rw [hne, adjust_self, Option.map_eq_none_iff]
  · rw [adjust_of_ne hne]

theorem foldl_updateExpired_spec (os : List OutputRef) (s : Outputs) :
    s.Frame (os.foldl updateExpired s) ∧
      ∀ other, (os.foldl updateExpired s).output other = none ↔ s.output other = none := by
  induction os generalizing s with
  | nil => exact ⟨.refl s, fun _ => Iff.rfl⟩
  | cons o os ih =>
      obtain ⟨hframe, houtput⟩ := ih (s.updateExpired o)
      refine ⟨(frame_updateExpired s o).trans hframe, fun other => ?_⟩
      exact (houtput other).trans (output_eq_none_updateExpired s o other)

theorem Current.updateFromData (h : s.Current) (o : OutputRef) (data : OutputData) :
    (s.updateFromData o data).Current := by
  have hframe := frame_updateFromData s o data
  refine ⟨?_, ?_, ?_, h.notified.updateFromData h.m_watchonly o data⟩
  · rw [hframe.m_watchonly, h.m_watchonly]
  · intro other hother
    rw [hframe.coins]
    apply h.listed
    by_cases hne : other = o
    · intro hnone
      rw [output_updateFromData, hne, adjust_self, ← hne, hnone] at hother
      exact hother rfl
    · rwa [output_updateFromData, adjust_of_ne hne] at hother
  · intro other
    by_cases hne : other = o
    · subst hne
      intro output houtput
      rw [output_updateFromData, adjust_self] at houtput
      obtain ⟨old, hold, rfl⟩ := Option.map_eq_some_iff.mp houtput
      rw [hframe.blockHeight]
      split_ifs
      · exact h.marked other old hold
      · rfl
    · refine (marked_congr ?_ ?_).mpr (h.marked other)
      · rw [output_updateFromData, adjust_of_ne hne]
      · rw [hframe.m_block]

theorem Current.create (h : s.Current) (hnone : s.output o = none) : (s.create o).Current := by
  refine ⟨h.m_watchonly, ?_, ?_, h.notified.create hnone⟩
  · intro other hother
    show other ∈ s.coins ++ [o]
    by_cases hne : other = o
    · rw [hne]
      exact List.mem_append_right _ (List.mem_singleton_self o)
    · apply List.mem_append_left
      apply h.listed
      rwa [output_create_of_ne hne] at hother
  · intro other
    by_cases hne : other = o
    · subst hne
      intro output houtput
      rw [output_create_self, Option.some_inj] at houtput
      rw [← houtput]
      rfl
    · exact (marked_congr (s := s) (output_create_of_ne hne) rfl).mpr (h.marked other)

theorem Current.getOrCreateOutput (h : s.Current) (account : AccountRef) (data : OutputData) :
    (s.getOrCreateOutput account data).Current := by
  unfold Outputs.getOrCreateOutput
  cases houtput : s.output ⟨account, data.outpoint⟩ with
  | none => exact (h.create houtput).updateFromData _ data
  | some output => exact h.updateFromData _ data

theorem Current.setSpendingTransaction (h : s.Current) (o : OutputRef)
    (transaction : Option AccountTransaction) : (s.setSpendingTransaction o transaction).Current := by
  have hframe := frame_setSpendingTransaction s o transaction
  refine ⟨?_, ?_, ?_, h.notified.setSpendingTransaction h.m_watchonly o transaction⟩
  · rw [hframe.m_watchonly, h.m_watchonly]
  · intro other hother
    rw [hframe.coins]
    apply h.listed
    by_cases hne : other = o
    · intro hnone
      rw [output_setSpendingTransaction, hne, adjust_self, ← hne, hnone] at hother
      exact hother rfl
    · rwa [output_setSpendingTransaction, adjust_of_ne hne] at hother
  · intro other
    by_cases hne : other = o
    · subst hne
      intro output houtput
      rw [output_setSpendingTransaction, adjust_self] at houtput
      obtain ⟨old, hold, rfl⟩ := Option.map_eq_some_iff.mp houtput
      rw [hframe.blockHeight]
      exact h.marked other old hold
    · refine (marked_congr ?_ ?_).mpr (h.marked other)
      · rw [output_setSpendingTransaction, adjust_of_ne hne]
      · rw [hframe.m_block]

/-- A new block changes the height for the outputs of its network, which are all told of it. -/
theorem Current.setBlock (h : s.Current) (network : Network) (block : Block) :
    (s.setBlock network block).Current := by
  unfold Outputs.setBlock
  split_ifs with hsame
  · exact h
  · obtain ⟨hframe, houtput⟩ := foldl_updateExpired_spec
      (s.coins.filter fun o => o.account.network = network)
      { s with m_block := Function.update s.m_block network block }
    refine ⟨?_, ?_, ?_, ?_⟩
    · rw [hframe.m_watchonly]
      exact h.m_watchonly
    · intro other hother
      rw [hframe.coins]
      exact h.listed other fun hnone => hother ((houtput other).mpr hnone)
    · intro other
      by_cases hnone : s.output other = none
      · intro output hsome
        rw [(houtput other).mpr hnone] at hsome
        cases hsome
      · by_cases hnetwork : other.account.network = network
        · apply marked_foldl_updateExpired
          exact List.mem_filter.mpr ⟨h.listed other hnone, decide_eq_true hnetwork⟩
        · apply Marked.foldl_updateExpired
          have hblock : Function.update s.m_block network block other.account.network =
              s.m_block other.account.network := Function.update_of_ne hnetwork _ _
          exact (@marked_congr s { s with m_block := Function.update s.m_block network block } other
            rfl hblock).mpr (h.marked other)
    · exact Notified.foldl_updateExpired
        (s := { s with m_block := Function.update s.m_block network block }) h.notified
        h.m_watchonly _

theorem Current.next (h : s.Current) (e : OutputsEvent) : (outputsCalls.next s e).Current := by
  cases e with
  | getOrCreateOutput account data => exact h.getOrCreateOutput account data
  | setBlock network block => exact h.setBlock network block
  | setSpendingTransaction o transaction => exact h.setSpendingTransaction o transaction
  | addNotification serial =>
      refine ⟨h.m_watchonly, h.listed, h.marked, ?_⟩
      apply h.notified.of_expiredNotifications_eq
      show List.filterMap _ (_ ++ _) = _
      rw [List.filterMap_append]
      exact List.append_nil _
  | removeNotification serial =>
      refine ⟨h.m_watchonly, h.listed, h.marked, ?_⟩
      exact h.notified.of_expiredNotifications_eq (expiredNotifications_eraseOther serial _)

/-- In every state, the notification shows exactly the outputs that are overdue, and an output's
mark says whether its time lock has expired. -/
theorem notifies_always (es : List OutputsEvent) :
    outputsCalls.Always (fun s => NotifiesExactly s.m_notifications s.Overdue ∧ ∀ o, s.Marked o)
      { m_watchonly := false } es := by
  have hempty : ({} : Outputs).Overdue = ∅ := by
    rw [Set.eq_empty_iff_forall_notMem]
    intro o ho
    cases (mem_overdue.mp ho).2
  have hinit : ({} : Outputs).Current := by
    refine ⟨rfl, fun o ho => absurd rfl ho, fun o output ho => ?_, ?_⟩
    · exact absurd ho (Option.some_ne_none output).symm
    · rw [Notified, hempty]
      exact NotifiesExactly.of_nil rfl
  rw [Reactive.always_iff]
  intro fs gs hsplit
  have hcurrent : (outputsCalls.run {} fs).Current :=
    Reactive.run_invariant (P := fun _ _ => True) (fun s e h _ => h.next e) hinit
      (Reactive.along_of_at fun _ _ _ _ => trivial)
  exact ⟨hcurrent.notified, hcurrent.marked⟩

end Outputs

end GreenWallet.Accounts
