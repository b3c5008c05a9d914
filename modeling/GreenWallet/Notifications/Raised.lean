import GreenWallet.Notifications.Context

/-!
# Notifications that are raised once

The notification about an outage is there once as long as some network has not logged in again
since its connection timed out. The reminder of the backup is there once if the last check found
the backup pending.
-/
namespace GreenWallet.Notifications
open GreenWallet.Library GreenWallet.Wallets

namespace Context
variable {ι : Type}

/-- The notifications of one kind. -/
def shown (kind : Notification ι → Bool) (context : Context ι) : List (Notification ι) :=
  context.m_notifications.filter kind

/-- The notifications are numbered apart. -/
structure Numbered (context : Context ι) : Prop where
  nodup : (context.m_notifications.map Notification.id).Nodup
  made : ∀ notification ∈ context.m_notifications, notification.id < context.made

theorem Numbered.empty : ({} : Context ι).Numbered where
  nodup := List.nodup_nil
  made := by simp

theorem Numbered.of_sublist {context context' : Context ι} (h : context.Numbered)
    (hlist : List.Sublist context'.m_notifications context.m_notifications)
    (hmade : context'.made = context.made) : context'.Numbered where
  nodup := h.nodup.sublist (hlist.map _)
  made := fun notification hmem => hmade ▸ h.made notification (hlist.subset hmem)

theorem Numbered.addNotification {context : Context ι} (h : context.Numbered) (kind : Kind ι) :
    (context.addNotification kind).Numbered where
  nodup := by
    rw [Context.addNotification, List.map_append, List.nodup_append]
    refine ⟨h.nodup, List.nodup_singleton _, ?_⟩
    intro id hid new hnew heq
    obtain ⟨notification, hmem, rfl⟩ := List.mem_map.mp hid
    rw [List.map_singleton, List.mem_singleton] at hnew
    exact (h.made notification hmem).ne (heq.trans hnew)
  made := by
    intro notification hmem
    rcases List.mem_append.mp hmem with hold | hnew
    · exact Nat.lt_succ_of_lt (h.made notification hold)
    · rw [List.mem_singleton.mp hnew]
      exact Nat.lt_succ_self _

theorem Numbered.removeNotification {context : Context ι} (h : context.Numbered) (id : ℕ) :
    (context.removeNotification id).Numbered :=
  h.of_sublist List.eraseP_sublist rfl

/-! ### What is shown of one kind -/

theorem shown_addNotification (kind : Notification ι → Bool) (added : Kind ι)
    (context : Context ι) :
    (context.addNotification added).shown kind =
      context.shown kind ++ [⟨context.made, added⟩].filter kind := List.filter_append _ _

theorem filter_eraseP_of_nodup {list : List (Notification ι)} (kind : Notification ι → Bool)
    (h : (list.map Notification.id).Nodup) (id : ℕ) :
    (list.eraseP (·.id == id)).filter kind = (list.filter kind).eraseP (·.id == id) := by
  induction list with
  | nil => rfl
  | cons notification rest ih =>
      obtain ⟨hnew, hrest⟩ := List.nodup_cons.mp h
      by_cases hid : notification.id = id
      · have hgone : ∀ other ∈ rest, ¬ (other.id == id) = true := by
          intro other hother heq
          exact hnew (List.mem_map.mpr ⟨other, hother, by rw [hid]; exact beq_iff_eq.mp heq⟩)
        rw [List.eraseP_cons_of_pos (by simpa using hid), List.filter_cons]
        split_ifs
        · rw [List.eraseP_cons_of_pos (by simpa using hid)]
        · rw [List.eraseP_of_forall_not]
          intro other hother
          exact hgone other (List.mem_of_mem_filter hother)
      · rw [List.eraseP_cons_of_neg (by simpa using hid), List.filter_cons, List.filter_cons,
          ih hrest]
        split_ifs
        · rw [List.eraseP_cons_of_neg (by simpa using hid)]
        · rfl

theorem shown_removeNotification {context : Context ι} (h : context.Numbered)
    (kind : Notification ι → Bool) (id : ℕ) :
    (context.removeNotification id).shown kind =
      (context.shown kind).eraseP (·.id == id) := filter_eraseP_of_nodup kind h.nodup id

/-- Of what is shown of another kind, nothing is removed. -/
theorem shown_removeNotification_of_ne {context : Context ι} (h : context.Numbered)
    {kind : Notification ι → Bool} {notification : Notification ι}
    (hmem : notification ∈ context.m_notifications) (hkind : kind notification = false) :
    (context.removeNotification notification.id).shown kind = context.shown kind := by
  rw [shown_removeNotification h, List.eraseP_of_forall_not]
  intro other hother heq
  obtain ⟨hin, hother⟩ := List.mem_filter.mp hother
  have hsame := List.inj_on_of_nodup_map h.nodup hin hmem (beq_iff_eq.mp heq)
  rw [hsame, hkind] at hother
  cases hother

theorem shown_removeListening {kind : Notification ι → Bool} {session : ℕ}
    (hkind : ∀ notification, kind notification = true → notification.listens session = false)
    (context : Context ι) : (context.removeListening session).shown kind = context.shown kind := by
  unfold shown removeListening
  rw [List.filter_filter]
  apply List.filter_congr
  intro notification _
  cases hof : kind notification with
  | false => rfl
  | true => simp [hkind notification hof]

/-- Neither a two-factor reset nor another component raises notifications of this kind. -/
structure Apart (kind : Notification ι → Bool) : Prop where
  reset : ∀ id network session, kind ⟨id, .twoFactorReset network session⟩ = false
  other : ∀ id, kind ⟨id, .other⟩ = false

theorem apart_isOutage : Apart (Notification.isOutage (ι := ι)) := ⟨fun _ _ _ => rfl, fun _ => rfl⟩

theorem apart_isBackup : Apart (Notification.isBackup (ι := ι)) := ⟨fun _ _ _ => rfl, fun _ => rfl⟩

/-- What is shown of the kind is the same, and the context knows of the same outage. -/
structure Kept (kind : Notification ι → Bool) (context context' : Context ι) : Prop where
  shown : context'.shown kind = context.shown kind
  outage : context'.m_outage_notification = context.m_outage_notification

/-- The events that neither tell of an outage nor check the backup. -/
def Elsewhere : Event ι → Prop
  | .connectFailed _ _ => False
  | .loginFinished _ => False
  | .backupChecked _ _ => False
  | _ => True

variable [DecidableEq ι]

theorem notifications_getOrCreateSession (network : ι) (context : Context ι) :
    (context.getOrCreateSession network).1.m_notifications = context.m_notifications ∧
      (context.getOrCreateSession network).1.m_outage_notification =
        context.m_outage_notification ∧
      (context.getOrCreateSession network).1.made = context.made := by
  unfold getOrCreateSession
  split
  · exact ⟨rfl, rfl, rfl⟩
  · exact ⟨rfl, rfl, rfl⟩

theorem Numbered.getOrCreateSession {context : Context ι} (h : context.Numbered) (network : ι) :
    (context.getOrCreateSession network).1.Numbered := by
  obtain ⟨hlist, -, hmade⟩ := notifications_getOrCreateSession network context
  exact h.of_sublist (hlist ▸ List.Sublist.refl _) hmade

/-- What a report about a two-factor reset can come to. -/
inductive Reset (context : Context ι) : Context ι → Prop where
  | nothing : Reset context context
  | raised (network : ι) : Reset context (context.addTwoFactorReset network)
  | withdrawn (session : ℕ) : Reset context (context.removeListening session)

theorem reset_twoFactorResetEvent (session : ℕ) (event : JsonObject) (context : Context ι) :
    context.Reset (context.twoFactorResetEvent session event) := by
  unfold twoFactorResetEvent
  split_ifs
  · split
    · exact .raised _
    · exact .nothing
  · exact .withdrawn session

theorem reset_configChanged (session : ℕ) (config : JsonObject) (context : Context ι) :
    context.Reset (context.configChanged session config) := by
  unfold configChanged
  split_ifs
  · exact .nothing
  · exact .withdrawn session

theorem reset_resetRequested (session : ℕ) (context : Context ι) :
    context.Reset (context.resetRequested session) := by
  unfold resetRequested
  split
  · exact .raised _
  · exact .nothing

theorem Numbered.of_reset {context context' : Context ι} (h : context.Numbered)
    (hreset : context.Reset context') : context'.Numbered := by
  cases hreset with
  | nothing => exact h
  | raised network => exact (h.getOrCreateSession network).addNotification _
  | withdrawn session => exact h.of_sublist List.filter_sublist rfl

theorem Numbered.connectFailed {context : Context ι} (h : context.Numbered) (network : ι)
    (error : String) : (context.connectFailed network error).Numbered := by
  have hreleased : (context.releaseSession network).Numbered := h.of_sublist (.refl _) rfl
  unfold Context.connectFailed
  split_ifs
  · unfold outageNotification
    split
    · exact hreleased.of_sublist (.refl _) rfl
    · exact (hreleased.addNotification .outage).of_sublist (.refl _) rfl
  · exact h

theorem Numbered.loginFinished {context : Context ι} (h : context.Numbered) (network : ι) :
    (context.loginFinished network).Numbered := by
  unfold Context.loginFinished
  split
  · exact h
  · split_ifs
    · exact (h.removeNotification _).of_sublist (.refl _) rfl
    · exact h.of_sublist (.refl _) rfl

omit [DecidableEq ι] in
theorem Numbered.checkBackup {context : Context ι} (h : context.Numbered) (pin registered : Bool) :
    (context.checkAndAddBackupWarningNotification pin registered).Numbered := by
  unfold checkAndAddBackupWarningNotification
  split_ifs
  · split
    · exact h.addNotification .backup
    · exact h
  · split
    · exact h
    · exact h.removeNotification _
  · exact h

theorem Numbered.next {context : Context ι} (h : context.Numbered) (e : Event ι) :
    (context.next e).Numbered := by
  cases e with
  | wanted network => exact h.getOrCreateSession network
  | twoFactorResetEvent session event =>
      exact h.of_reset (reset_twoFactorResetEvent session event context)
  | configChanged session config => exact h.of_reset (reset_configChanged session config context)
  | resetRequested session => exact h.of_reset (reset_resetRequested session context)
  | connectFailed network error => exact h.connectFailed network error
  | loginFinished network => exact h.loginFinished network
  | released network => exact h.of_sublist (.refl _) rfl
  | backupChecked pin registered => exact h.checkBackup pin registered
  | added => exact h.addNotification .other
  | removed id => exact h.removeNotification id

/-! ### What the other events leave alone -/

theorem Kept.of_reset {kind : Notification ι → Bool} (hkind : Apart kind)
    {context context' : Context ι} (hreset : context.Reset context') :
    Kept kind context context' := by
  cases hreset with
  | nothing => exact ⟨rfl, rfl⟩
  | raised network =>
      obtain ⟨hlist, hout, -⟩ := notifications_getOrCreateSession network context
      constructor
      · rw [addTwoFactorReset, shown_addNotification, List.filter_singleton, hkind.reset,
          Bool.cond_false, List.append_nil]
        exact congrArg (List.filter kind) hlist
      · exact hout
  | withdrawn session =>
      constructor
      · apply shown_removeListening
        intro ⟨id, about⟩ hof
        cases about with
        | twoFactorReset network session => cases (hkind.reset id network session).symm.trans hof
        | outage => rfl
        | backup => rfl
        | other => rfl
      · rfl

theorem kept_next {kind : Notification ι → Bool} (hkind : Apart kind) {context : Context ι}
    (h : context.Numbered) {e : Event ι} (he : context.enabled e) (helse : Elsewhere e) :
    Kept kind context (context.next e) := by
  cases e with
  | wanted network =>
      obtain ⟨hlist, hout, -⟩ := notifications_getOrCreateSession network context
      exact ⟨congrArg (List.filter kind) hlist, hout⟩
  | twoFactorResetEvent session event =>
      exact .of_reset hkind (reset_twoFactorResetEvent session event context)
  | configChanged session config =>
      exact .of_reset hkind (reset_configChanged session config context)
  | resetRequested session => exact .of_reset hkind (reset_resetRequested session context)
  | connectFailed network error => exact helse.elim
  | loginFinished network => exact helse.elim
  | released network => exact ⟨rfl, rfl⟩
  | backupChecked pin registered => exact helse.elim
  | added =>
      constructor
      · rw [next, shown_addNotification, List.filter_singleton, hkind.other, Bool.cond_false,
          List.append_nil]
      · rfl
  | removed id =>
      obtain ⟨notification, hmem, rfl, hof⟩ := he
      constructor
      · apply shown_removeNotification_of_ne h hmem
        have hother := hkind.other notification.id
        rwa [← hof] at hother
      · rfl

/-! ### The outage -/

/-- The notification about an outage is the one the context knows of, and has some network. -/
structure Outages (context : Context ι) : Prop extends context.Numbered where
  shown : context.shown Notification.isOutage =
    context.m_outage_notification.toList.map fun outage => ⟨outage.notification, .outage⟩
  networks : ∀ outage ∈ context.m_outage_notification,
    outage.m_networks ≠ [] ∧ outage.m_networks.Nodup

/-- The network is among those that cannot be reached. -/
def Unreachable (context : Context ι) (network : ι) : Prop :=
  ∃ outage ∈ context.m_outage_notification, network ∈ outage.m_networks

omit [DecidableEq ι] in
theorem Outages.empty : ({} : Context ι).Outages := ⟨.empty, rfl, by simp⟩

omit [DecidableEq ι] in
theorem Outages.of_kept {context context' : Context ι} (h : context.Outages)
    (hnumbered : context'.Numbered) (hkept : Kept Notification.isOutage context context') :
    context'.Outages where
  toNumbered := hnumbered
  shown := by rw [hkept.shown, hkept.outage, h.shown]
  networks := hkept.outage ▸ h.networks

theorem mem_add {network other : ι} {outage : Outage ι} :
    other ∈ (outage.add network).m_networks ↔ other = network ∨ other ∈ outage.m_networks := by
  unfold Outage.add
  split_ifs with hmem
  · constructor
    · exact .inr
    · rintro (rfl | hother)
      · exact hmem
      · exact hother
  · simp [or_comm]

theorem nodup_add {network : ι} {outage : Outage ι} (h : outage.m_networks.Nodup) :
    (outage.add network).m_networks.Nodup := by
  unfold Outage.add
  split_ifs with hmem
  · exact h
  · exact List.nodup_append.mpr ⟨h, List.nodup_singleton _, by
      intro other hother new hnew heq
      rw [heq, List.mem_singleton.mp hnew] at hother
      exact hmem hother⟩

/-- What the context knows and shows after a connection has timed out. -/
theorem outage_connectFailed {context : Context ι} (h : context.Outages) (network : ι) :
    ∃ outage, (context.connectFailed network "timeout error").m_outage_notification = some outage ∧
      (context.connectFailed network "timeout error").shown Notification.isOutage =
        [⟨outage.notification, .outage⟩] ∧
      outage.m_networks.Nodup ∧
      ∀ other, other ∈ outage.m_networks ↔ other = network ∨ context.Unreachable other := by
  have hshown := h.shown
  rw [connectFailed, if_pos rfl]
  cases hout : context.m_outage_notification with
  | none =>
      have hnone : (context.releaseSession network).m_outage_notification = none := hout
      rw [hout] at hshown
      simp only [outageNotification, hnone]
      refine ⟨_, rfl, ?_, nodup_add List.nodup_nil, ?_⟩
      · have hempty : (context.releaseSession network).shown Notification.isOutage = [] := hshown
        have hadd := shown_addNotification Notification.isOutage .outage
          (context.releaseSession network)
        rw [hempty] at hadd
        exact hadd
      · intro other
        rw [mem_add]
        simp [Unreachable, hout]
  | some outage =>
      have hsome : (context.releaseSession network).m_outage_notification = some outage := hout
      rw [hout] at hshown
      simp only [outageNotification, hsome]
      refine ⟨_, rfl, ?_, nodup_add (h.networks outage hout).2, ?_⟩
      · have hid : (outage.add network).notification = outage.notification := by
          unfold Outage.add
          split_ifs <;> rfl
        rw [hid]
        exact hshown
      · intro other
        rw [mem_add]
        simp [Unreachable, hout]

theorem Outages.connectFailed {context : Context ι} (h : context.Outages) (network : ι)
    (error : String) : (context.connectFailed network error).Outages := by
  by_cases herror : error = "timeout error"
  · subst herror
    obtain ⟨outage, hout, hshown, hnodup, hmem⟩ := outage_connectFailed h network
    refine ⟨h.toNumbered.connectFailed network _, ?_, ?_⟩
    · rw [hshown, hout]
      rfl
    · rw [hout]
      rintro found ⟨⟩
      exact ⟨List.ne_nil_of_mem ((hmem network).mpr (.inl rfl)), hnodup⟩
  · rw [Context.connectFailed, if_neg herror]
    exact h

/-- What the context knows and shows after a network has logged in. -/
theorem loginFinished_cases {context : Context ι} (h : context.Outages) (network : ι) :
    (context.m_outage_notification = none ∧ context.loginFinished network = context) ∨
    (∃ outage, context.m_outage_notification = some outage ∧
      (outage.remove network).m_networks = [] ∧
      (context.loginFinished network).m_outage_notification = none ∧
      (context.loginFinished network).shown Notification.isOutage = []) ∨
    ∃ outage, context.m_outage_notification = some outage ∧
      (outage.remove network).m_networks ≠ [] ∧
      (context.loginFinished network).m_outage_notification = some (outage.remove network) ∧
      (context.loginFinished network).shown Notification.isOutage =
        [⟨outage.notification, .outage⟩] := by
  have hshown := h.shown
  cases hout : context.m_outage_notification with
  | none =>
      refine .inl ⟨rfl, ?_⟩
      simp [loginFinished, hout]
  | some outage =>
      rw [hout] at hshown
      refine .inr ?_
      by_cases hempty : (outage.remove network).m_networks = []
      · refine .inl ⟨outage, rfl, hempty, ?_, ?_⟩
        · simp [loginFinished, hout, Outage.isEmpty, hempty]
        · simp only [loginFinished, hout, Outage.isEmpty, hempty, List.isEmpty_nil, if_true]
          have hgone := shown_removeNotification h.toNumbered Notification.isOutage
            outage.notification
          rw [hshown] at hgone
          exact hgone.trans (by simp)
      · refine .inr ⟨outage, rfl, hempty, ?_, ?_⟩
        · simp [loginFinished, hout, Outage.isEmpty, hempty]
        · simp only [loginFinished, hout, Outage.isEmpty, List.isEmpty_iff, hempty, if_false]
          exact hshown

theorem Outages.loginFinished {context : Context ι} (h : context.Outages) (network : ι) :
    (context.loginFinished network).Outages := by
  have hnumbered := h.toNumbered.loginFinished network
  rcases loginFinished_cases h network with ⟨-, hsame⟩ | ⟨outage, hout, -, hnone, hshown⟩ |
    ⟨outage, hout, hsome, hleft, hshown⟩
  · rw [hsame]
    exact h
  · refine ⟨hnumbered, ?_, ?_⟩
    · rw [hshown, hnone]
      rfl
    · rw [hnone]
      rintro _ ⟨⟩
  · refine ⟨hnumbered, ?_, ?_⟩
    · rw [hshown, hleft]
      rfl
    · rw [hleft]
      rintro _ ⟨⟩
      exact ⟨hsome, (h.networks outage hout).2.erase network⟩

theorem unreachable_loginFinished {context : Context ι} (h : context.Outages) (network other : ι) :
    (context.loginFinished network).Unreachable other ↔
      context.Unreachable other ∧ network ≠ other := by
  have hmem : ∀ outage ∈ context.m_outage_notification,
      (other ∈ (outage.remove network).m_networks ↔ other ∈ outage.m_networks ∧ network ≠ other) := by
    intro outage hout
    rw [Outage.remove, (h.networks outage hout).2.mem_erase_iff, and_comm, ne_comm]
  unfold Unreachable
  rcases loginFinished_cases h network with ⟨hnone, hsame⟩ | ⟨outage, hout, hempty, hnone, -⟩ |
    ⟨outage, hout, -, hleft, -⟩
  · rw [hsame, hnone]
    simp
  · have hgone := hmem outage hout
    rw [hempty] at hgone
    rw [hnone, hout]
    simpa using hgone
  · have hkept := hmem outage hout
    rw [hleft, hout]
    simpa using hkept

omit [DecidableEq ι] in
theorem kept_backupChecked {kind : Notification ι → Bool}
    (hkind : ∀ id, kind ⟨id, .backup⟩ = false) {context : Context ι} (h : context.Numbered)
    (pin registered : Bool) :
    Kept kind context (context.checkAndAddBackupWarningNotification pin registered) := by
  unfold checkAndAddBackupWarningNotification
  split_ifs
  · split
    · refine ⟨?_, rfl⟩
      rw [shown_addNotification, List.filter_singleton, hkind, Bool.cond_false, List.append_nil]
    · exact ⟨rfl, rfl⟩
  · split
    · exact ⟨rfl, rfl⟩
    · next notification hfound =>
        refine ⟨shown_removeNotification_of_ne h (List.mem_of_find?_eq_some hfound) ?_, rfl⟩
        have hbackup := List.find?_some hfound
        obtain ⟨id, about⟩ := notification
        cases about with
        | backup => exact hkind id
        | twoFactorReset network session => cases hbackup
        | outage => cases hbackup
        | other => cases hbackup
  · exact ⟨rfl, rfl⟩

omit [DecidableEq ι] in
theorem unreachable_of_kept {context context' : Context ι} {kind : Notification ι → Bool}
    (h : Kept kind context context') (network : ι) :
    context'.Unreachable network ↔ context.Unreachable network := by
  unfold Unreachable
  rw [h.outage]

theorem Outages.next {context : Context ι} (h : context.Outages) {e : Event ι}
    (he : context.enabled e) : (context.next e).Outages := by
  cases e with
  | connectFailed network error => exact h.connectFailed network error
  | loginFinished network => exact h.loginFinished network
  | backupChecked pin registered =>
      exact h.of_kept (h.checkBackup pin registered)
        (kept_backupChecked (fun _ => rfl) h.toNumbered pin registered)
  | _ => exact h.of_kept (h.toNumbered.next _) (kept_next apart_isOutage h.toNumbered he trivial)

/-- A network cannot be reached from the time its connection times out until it logs in. -/
theorem unreachable_next {context : Context ι} (h : context.Outages) {e : Event ι}
    (he : context.enabled e) (network : ι) :
    (context.next e).Unreachable network ↔
      e = .connectFailed network "timeout error" ∨
        context.Unreachable network ∧ ¬ e = .loginFinished network := by
  cases e with
  | connectFailed failed error =>
      by_cases herror : error = "timeout error"
      · subst herror
        obtain ⟨outage, hout, -, -, hmem⟩ := outage_connectFailed h failed
        unfold next Unreachable
        rw [hout]
        simp [hmem, Unreachable, eq_comm]
      · rw [next, Context.connectFailed, if_neg herror]
        simp [herror]
  | loginFinished finished =>
      rw [next, unreachable_loginFinished h]
      simp
  | backupChecked pin registered =>
      have hkept : Kept Notification.isOutage context _ :=
        kept_backupChecked (fun _ => rfl) h.toNumbered pin registered
      rw [next, unreachable_of_kept hkept]
      simp
  | _ =>
      rw [unreachable_of_kept (kept_next apart_isOutage h.toNumbered he trivial)]
      simp

omit [DecidableEq ι] in
theorem Outages.shown_iff {context : Context ι} (h : context.Outages) :
    context.shown Notification.isOutage ≠ [] ↔ ∃ network, context.Unreachable network := by
  rw [h.shown]
  cases hout : context.m_outage_notification with
  | none => simp [Unreachable, hout]
  | some outage =>
      obtain ⟨network, hnetwork⟩ := List.exists_mem_of_ne_nil _ (h.networks outage hout).1
      constructor
      · intro _
        exact ⟨network, outage, hout, hnetwork⟩
      · simp

omit [DecidableEq ι] in
theorem Outages.shown_length {context : Context ι} (h : context.Outages) :
    (context.shown Notification.isOutage).length ≤ 1 := by
  rw [h.shown]
  cases context.m_outage_notification with
  | none => exact Nat.zero_le 1
  | some outage => exact Nat.le_refl 1

/-! ### The backup -/

theorem kept_connectFailed {kind : Notification ι → Bool}
    (hkind : ∀ id, kind ⟨id, .outage⟩ = false) (network : ι) (error : String)
    (context : Context ι) :
    (context.connectFailed network error).shown kind = context.shown kind := by
  unfold connectFailed
  split_ifs
  · unfold outageNotification
    split
    · rfl
    · apply (shown_addNotification _ _ _).trans
      rw [List.filter_singleton, hkind, Bool.cond_false, List.append_nil]
      rfl
  · rfl

theorem kept_loginFinished {kind : Notification ι → Bool}
    (hkind : ∀ id, kind ⟨id, .outage⟩ = false) {context : Context ι} (h : context.Outages)
    (network : ι) : (context.loginFinished network).shown kind = context.shown kind := by
  have hshown := h.shown
  unfold loginFinished
  cases hout : context.m_outage_notification with
  | none => rfl
  | some outage =>
      rw [hout] at hshown
      simp only
      split_ifs
      · have hmem : (⟨outage.notification, .outage⟩ : Notification ι) ∈
            context.shown Notification.isOutage := by
          rw [hshown]
          exact List.mem_singleton_self _
        exact shown_removeNotification_of_ne h.toNumbered (List.mem_of_mem_filter hmem)
          (hkind outage.notification)
      · rfl

omit [DecidableEq ι] in
/-- A check shows the reminder or takes it back, as far as there is a PIN. -/
theorem shown_backupChecked {context : Context ι} (h : context.Numbered)
    (hone : (context.shown Notification.isBackup).length ≤ 1) (pin registered : Bool) :
    ((context.checkAndAddBackupWarningNotification pin registered).shown
        Notification.isBackup).length ≤ 1 ∧
      ((context.checkAndAddBackupWarningNotification pin registered).shown
          Notification.isBackup ≠ [] ↔
        (pin = true ∧ registered = true) ∨
          context.shown Notification.isBackup ≠ [] ∧ ¬ (pin = true ∧ registered = false)) := by
  unfold checkAndAddBackupWarningNotification
  have hfound : context.m_notifications.find? Notification.isBackup =
      (context.shown Notification.isBackup).head? := List.head?_filter.symm
  rw [hfound]
  cases hlist : context.shown Notification.isBackup with
  | nil =>
      cases pin <;> cases registered <;>
        simp [hlist, shown_addNotification, List.filter_singleton, Notification.isBackup]
  | cons notification rest =>
      have hrest : rest = [] := by simpa [hlist] using hone
      subst hrest
      have hgone := shown_removeNotification h Notification.isBackup notification.id
      rw [hlist] at hgone
      cases pin <;> cases registered <;> simp [hlist, hgone]

omit [DecidableEq ι] in
/-- The outage notification as it should be, and the reminder there at most once. -/
structure Tidy (context : Context ι) : Prop extends context.Outages where
  backup : (context.shown Notification.isBackup).length ≤ 1

theorem backup_next {context : Context ι} (h : context.Tidy) {e : Event ι}
    (he : context.enabled e) :
    ((context.next e).shown Notification.isBackup).length ≤ 1 ∧
      ((context.next e).shown Notification.isBackup ≠ [] ↔
        e = .backupChecked true true ∨
          context.shown Notification.isBackup ≠ [] ∧ ¬ e = .backupChecked true false) := by
  cases e with
  | connectFailed network error =>
      rw [next, kept_connectFailed fun _ => rfl]
      simpa using h.backup
  | loginFinished network =>
      rw [next, kept_loginFinished (fun _ => rfl) h.toOutages]
      simpa using h.backup
  | backupChecked pin registered =>
      rw [next]
      simpa using shown_backupChecked h.toNumbered h.backup pin registered
  | _ =>
      rw [(kept_next apart_isBackup h.toNumbered he trivial).shown]
      simpa using h.backup

theorem Tidy.next {context : Context ι} (h : context.Tidy) {e : Event ι}
    (he : context.enabled e) : (context.next e).Tidy :=
  ⟨h.toOutages.next he, (backup_next h he).1⟩

omit [DecidableEq ι] in
theorem Tidy.empty : ({} : Context ι).Tidy := ⟨.empty, Nat.zero_le 1⟩

/-- The notification about an outage is there, once, as long as some network has not logged in
again since its connection timed out. It is the one that the context keeps the networks of, and
these are the networks it lists. The reminder is there, once, as long as the wallet's backup has not
been found done since it was found pending. -/
theorem outage_and_backup_exact {es : List (Event ι)} (hes : notifying.Valid {} es) :
    (∀ network, (notifying.run {} es).Unreachable network ↔
      notifying.Since (fun _ e => e = .connectFailed network "timeout error")
        (fun _ e => e = .loginFinished network) {} es) ∧
    ((notifying.run {} es).shown Notification.isOutage).length ≤ 1 ∧
    ((notifying.run {} es).shown Notification.isOutage =
      (notifying.run {} es).m_outage_notification.toList.map fun outage =>
        ⟨outage.notification, .outage⟩) ∧
    ((notifying.run {} es).shown Notification.isOutage ≠ [] ↔
      ∃ network, notifying.Since (fun _ e => e = .connectFailed network "timeout error")
        (fun _ e => e = .loginFinished network) {} es) ∧
    ((notifying.run {} es).shown Notification.isBackup).length ≤ 1 ∧
    ((notifying.run {} es).shown Notification.isBackup ≠ [] ↔
      notifying.Since (fun _ e => e = .backupChecked true true)
        (fun _ e => e = .backupChecked true false) {} es) := by
  have hstep : ∀ (s : Context ι) e, s.Tidy → notifying.enabled s e → (notifying.next s e).Tidy :=
    fun _ _ h he => h.next he
  have htidy : (notifying.run {} es).Tidy := Reactive.run_invariant hstep .empty hes
  have hunreachable : ∀ network, (notifying.run {} es).Unreachable network ↔
      notifying.Since (fun _ e => e = .connectFailed network "timeout error")
        (fun _ e => e = .loginFinished network) {} es := by
    intro network
    apply Reactive.iff_since (I := fun s => s.Unreachable network) hstep _ .empty _ hes
    · intro s e h he
      exact unreachable_next h.toOutages he network
    · rintro ⟨_, ⟨⟩, _⟩
  refine ⟨hunreachable, htidy.shown_length, htidy.shown, ?_, htidy.backup, ?_⟩
  · rw [htidy.shown_iff]
    exact exists_congr hunreachable
  · apply Reactive.iff_since (I := fun s => s.shown Notification.isBackup ≠ []) hstep _ .empty _ hes
    · intro s e h he
      exact (backup_next h he).2
    · intro hshown
      exact hshown rfl

/-- Two networks time out, one logs in again, and the backup is found pending. -/
theorem outage_and_backup_exact_oneLeft :
    (notifying.run {} [.wanted 0, .wanted 1, .connectFailed 0 "timeout error",
      .connectFailed 1 "timeout error", .backupChecked true true, .loginFinished 0]).Unreachable 1 := by
  refine ((outage_and_backup_exact ?_).1 1).mpr ?_
  · exact ⟨trivial, trivial, trivial, trivial, trivial, trivial, trivial⟩
  · refine ⟨[.wanted 0, .wanted 1, .connectFailed 0 "timeout error"], _,
      [.backupChecked true true, .loginFinished 0], rfl, rfl, ?_⟩
    simp

end Context
end GreenWallet.Notifications
