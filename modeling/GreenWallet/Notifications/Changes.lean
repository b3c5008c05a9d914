import GreenWallet.Notifications.Raised

/-!
# What a context tells its views

Every step of a context leaves its list of notifications alone, adds one at the end, or takes some
out, and the signals it emits say which.
-/
namespace GreenWallet.Notifications
open GreenWallet.Library GreenWallet.Wallets

namespace Context
variable {ι : Type}

/-- The numbers of the notifications, in the order of the list. -/
def ids (context : Context ι) : List ℕ := context.m_notifications.map Notification.id

/-- What a step does to the list, and what it tells the views of it. -/
inductive Change (context context' : Context ι) : Prop where
  | same (hids : context'.ids = context.ids) (hemitted : context'.emitted = context.emitted)
  | added (hids : context'.ids = context.ids ++ [context.made])
      (hemitted : context'.emitted = context.emitted ++ [.notificationAdded context.made])
  | removed (gone : List ℕ) (hids : context'.ids = context.ids.filter fun id => decide (id ∉ gone))
      (hemitted : context'.emitted = context.emitted ++ gone.map .notificationRemoved)

theorem change_addNotification (kind : Kind ι) (context : Context ι) :
    Change context (context.addNotification kind) := .added (List.map_append) rfl

theorem ids_removeNotification {context : Context ι} (h : context.Numbered) (id : ℕ) :
    (context.removeNotification id).ids = context.ids.filter fun other => decide (other ∉ [id]) := by
  unfold ids removeNotification
  have hmap : (context.m_notifications.eraseP (·.id == id)).map Notification.id =
      (context.m_notifications.map Notification.id).erase id := by
    rw [List.erase_eq_eraseP', List.eraseP_map]
    rfl
  rw [hmap, h.nodup.erase_eq_filter]
  apply List.filter_congr
  intro other _
  by_cases hsame : other = id
  · simp [hsame]
  · simp [hsame, bne_iff_ne.mpr hsame]

theorem change_removeNotification {context : Context ι} (h : context.Numbered) (id : ℕ) :
    Change context (context.removeNotification id) :=
  .removed [id] (ids_removeNotification h id) rfl

theorem change_removeListening {context : Context ι} (h : context.Numbered) (session : ℕ) :
    Change context (context.removeListening session) := by
  refine .removed ((context.m_notifications.filter (·.listens session)).map Notification.id) ?_ ?_
  · unfold ids removeListening
    dsimp only
    rw [List.filter_map]
    congr 1
    apply List.filter_congr
    intro notification hmem
    cases hlistens : notification.listens session with
    | true =>
        have hgone : notification.id ∈
            (context.m_notifications.filter (·.listens session)).map Notification.id :=
          List.mem_map.mpr ⟨notification, List.mem_filter.mpr ⟨hmem, hlistens⟩, rfl⟩
        simp only [Function.comp_apply, hgone, not_true_eq_false, decide_false, Bool.not_true]
    | false =>
        have hkept : notification.id ∉
            (context.m_notifications.filter (·.listens session)).map Notification.id := by
          intro hgone
          obtain ⟨other, hother, hid⟩ := List.mem_map.mp hgone
          obtain ⟨hin, hof⟩ := List.mem_filter.mp hother
          rw [List.inj_on_of_nodup_map h.nodup hin hmem hid, hlistens] at hof
          cases hof
        simp only [Function.comp_apply, hkept, not_false_eq_true, decide_true, Bool.not_false]
  · simp [removeListening]

variable [DecidableEq ι]

theorem change_addTwoFactorReset (network : ι) (context : Context ι) :
    Change context (context.addTwoFactorReset network) := by
  have hsame : (context.getOrCreateSession network).1.ids = context.ids ∧
      (context.getOrCreateSession network).1.emitted = context.emitted ∧
      (context.getOrCreateSession network).1.made = context.made := by
    unfold getOrCreateSession
    split
    · exact ⟨rfl, rfl, rfl⟩
    · exact ⟨rfl, rfl, rfl⟩
  obtain ⟨hids, hemitted, hmade⟩ := hsame
  refine .added ?_ ?_
  · rw [← hids, ← hmade]
    exact List.map_append
  · rw [← hemitted, ← hmade]
    rfl

theorem change_of_reset {context context' : Context ι} (h : context.Numbered)
    (hreset : context.Reset context') : Change context context' := by
  cases hreset with
  | nothing => exact .same rfl rfl
  | raised network => exact change_addTwoFactorReset network context
  | withdrawn session => exact change_removeListening h session

theorem change_next {context : Context ι} (h : context.Numbered) (e : Event ι) :
    Change context (context.next e) := by
  cases e with
  | wanted network =>
      unfold next getOrCreateSession
      dsimp only
      split
      · exact .same rfl rfl
      · exact .same rfl rfl
  | twoFactorResetEvent session event =>
      exact change_of_reset h (reset_twoFactorResetEvent session event context)
  | configChanged session config =>
      exact change_of_reset h (reset_configChanged session config context)
  | resetRequested session => exact change_of_reset h (reset_resetRequested session context)
  | connectFailed network error =>
      unfold next connectFailed outageNotification
      dsimp only
      split_ifs
      · split
        · exact .same rfl rfl
        · exact .added List.map_append rfl
      · exact .same rfl rfl
  | loginFinished network =>
      unfold next loginFinished
      dsimp only
      split
      · exact .same rfl rfl
      · next outage _ =>
          split_ifs
          · exact .removed [outage.notification] (ids_removeNotification h _) rfl
          · exact .same rfl rfl
  | released network => exact .same rfl rfl
  | backupChecked pin registered =>
      unfold next checkAndAddBackupWarningNotification
      dsimp only
      split_ifs
      · split
        · exact change_addNotification .backup context
        · exact .same rfl rfl
      · split
        · exact .same rfl rfl
        · exact change_removeNotification h _
      · exact .same rfl rfl
  | added => exact change_addNotification .other context
  | removed id => exact change_removeNotification h id

end Context

end GreenWallet.Notifications
