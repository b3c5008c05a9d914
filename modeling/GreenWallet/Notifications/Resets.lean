import GreenWallet.Notifications.Raised

/-!
# Notifications about a two-factor reset

A notification about a two-factor reset listens to the session its network has when it is made,
and removes itself when that session reports that no reset is under way. A session that has been
given up goes on reporting, and its successor does not speak to the notifications it has left.
-/
namespace GreenWallet.Notifications
open GreenWallet.Library GreenWallet.Wallets

/-- The notification is about a two-factor reset of the network. -/
def Notification.isTwoFactorReset {ι : Type} [DecidableEq ι] (network : ι)
    (notification : Notification ι) : Bool :=
  match notification.kind with
  | .twoFactorReset about _ => about == network
  | _ => false

namespace Context
variable {ι : Type}

/-- A session of the network reports that a reset is under way. -/
def Activates (network : ι) (context : Context ι) : Event ι → Prop
  | .twoFactorResetEvent session event =>
      context.networks[session]? = some network ∧ Json.toBool (event.value "is_active") = true
  | .resetRequested session => context.networks[session]? = some network
  | _ => False

/-- A session of the network reports that no reset is under way. -/
def Deactivates (network : ι) (context : Context ι) : Event ι → Prop
  | .twoFactorResetEvent session event =>
      context.networks[session]? = some network ∧ Json.toBool (event.value "is_active") = false
  | .configChanged session config =>
      context.networks[session]? = some network ∧
        Json.toBool ((Json.toObject (config.value "twofactor_reset")).value "is_active") = false
  | _ => False

/-- Sessions belong to their networks, and notifications listen to sessions of their networks. -/
structure Linked (context : Context ι) : Prop where
  current : ∀ network session, context.m_sessions network = some session →
    context.networks[session]? = some network
  listened : ∀ notification ∈ context.m_notifications, ∀ network session,
    notification.kind = .twoFactorReset network session →
      context.networks[session]? = some network

theorem Linked.empty : ({} : Context ι).Linked := by
  constructor
  · rintro _ _ ⟨⟩
  · rintro _ ⟨⟩

theorem Linked.of_subset {context context' : Context ι} (h : context.Linked)
    (hsessions : context'.m_sessions = context.m_sessions)
    (hnetworks : context'.networks = context.networks)
    (hlist : context'.m_notifications ⊆ context.m_notifications) : context'.Linked where
  current := by
    rw [hsessions, hnetworks]
    exact h.current
  listened := by
    rw [hnetworks]
    exact fun notification hmem => h.listened notification (hlist hmem)

theorem Linked.addNotification {context : Context ι} (h : context.Linked) (kind : Kind ι)
    (hkind : ∀ network session, kind = .twoFactorReset network session →
      context.networks[session]? = some network) : (context.addNotification kind).Linked where
  current := h.current
  listened := by
    intro notification hmem
    rcases List.mem_append.mp hmem with hold | hnew
    · exact h.listened notification hold
    · rw [List.mem_singleton.mp hnew]
      exact hkind

variable [DecidableEq ι]

/-- The notifications about the network listen to the session that reports. -/
def Reaches (network : ι) (context : Context ι) : Event ι → Prop
  | .twoFactorResetEvent session _ => ∀ notification ∈
      context.shown (Notification.isTwoFactorReset network), notification.listens session = true
  | .configChanged session _ => ∀ notification ∈
      context.shown (Notification.isTwoFactorReset network), notification.listens session = true
  | _ => True

theorem Linked.create {context : Context ι} (h : context.Linked) (network : ι) :
    (context.create network).Linked := by
  have hgrow : ∀ (session : ℕ) other, context.networks[session]? = some other →
      (context.networks ++ [network])[session]? = some other := by
    intro session other hsession
    rw [List.getElem?_append_left (List.getElem?_eq_some_iff.mp hsession).choose]
    exact hsession
  constructor
  · intro other session hsession
    have hupdated : Function.update context.m_sessions network (some context.networks.length) other =
        some session := hsession
    rw [Function.update_apply] at hupdated
    split_ifs at hupdated with hsame
    · rw [← Option.some.inj hupdated, hsame]
      exact List.getElem?_concat_length
    · exact hgrow session other (h.current other session hupdated)
  · intro notification hmem other session hkind
    exact hgrow session other (h.listened notification hmem other session hkind)

/-- The session that the network has from then on is one of its own. -/
theorem Linked.getOrCreateSession {context : Context ι} (h : context.Linked) (network : ι) :
    (context.getOrCreateSession network).1.Linked ∧
      (context.getOrCreateSession network).1.networks[(context.getOrCreateSession network).2]? =
        some network := by
  unfold Context.getOrCreateSession
  cases hsession : context.m_sessions network with
  | some session => exact ⟨h, h.current network session hsession⟩
  | none => exact ⟨h.create network, List.getElem?_concat_length⟩

theorem Linked.of_reset {context context' : Context ι} (h : context.Linked)
    (hreset : context.Reset context') : context'.Linked := by
  cases hreset with
  | nothing => exact h
  | raised network =>
      obtain ⟨hlinked, hnetwork⟩ := h.getOrCreateSession network
      apply hlinked.addNotification
      rintro other session ⟨⟩
      exact hnetwork
  | withdrawn session => exact h.of_subset rfl rfl (List.filter_subset_self _)

theorem Linked.releaseSession {context : Context ι} (h : context.Linked) (network : ι) :
    (context.releaseSession network).Linked where
  current := by
    intro other session hsession
    have hkept : Function.update context.m_sessions network none other = some session := hsession
    rw [Function.update_apply] at hkept
    split_ifs at hkept
    exact h.current other session hkept
  listened := h.listened

theorem Linked.next {context : Context ι} (h : context.Linked) (e : Event ι) :
    (context.next e).Linked := by
  cases e with
  | wanted network => exact (h.getOrCreateSession network).1
  | twoFactorResetEvent session event =>
      exact h.of_reset (reset_twoFactorResetEvent session event context)
  | configChanged session config => exact h.of_reset (reset_configChanged session config context)
  | resetRequested session => exact h.of_reset (reset_resetRequested session context)
  | connectFailed network error =>
      unfold Context.next Context.connectFailed
      dsimp only
      split_ifs
      · have hreleased := h.releaseSession network
        unfold outageNotification
        split
        · exact hreleased.of_subset rfl rfl (List.Subset.refl _)
        · have hadded := hreleased.addNotification .outage (by rintro _ _ ⟨⟩)
          exact hadded.of_subset rfl rfl (List.Subset.refl _)
      · exact h
  | loginFinished network =>
      unfold Context.next Context.loginFinished
      dsimp only
      split
      · exact h
      · split_ifs
        · exact h.of_subset rfl rfl List.eraseP_subset
        · exact h.of_subset rfl rfl (List.Subset.refl _)
  | released network => exact h.releaseSession network
  | backupChecked pin registered =>
      unfold Context.next checkAndAddBackupWarningNotification
      dsimp only
      split_ifs
      · split
        · exact h.addNotification .backup (by rintro _ _ ⟨⟩)
        · exact h
      · split
        · exact h
        · exact h.of_subset rfl rfl List.eraseP_subset
      · exact h
  | added => exact h.addNotification .other (by rintro _ _ ⟨⟩)
  | removed id => exact h.of_subset rfl rfl List.eraseP_subset

/-! ### What is shown about the network -/

theorem shown_addTwoFactorReset (network about : ι) (context : Context ι) :
    (context.addTwoFactorReset about).shown (Notification.isTwoFactorReset network) ≠ [] ↔
      about = network ∨ context.shown (Notification.isTwoFactorReset network) ≠ [] := by
  have hlist := (notifications_getOrCreateSession about context).1
  have hsame : (context.getOrCreateSession about).1.shown (Notification.isTwoFactorReset network) =
      context.shown (Notification.isTwoFactorReset network) := congrArg (List.filter _) hlist
  rw [addTwoFactorReset, shown_addNotification, hsame, List.filter_singleton]
  by_cases h : about = network
  · simp [Notification.isTwoFactorReset, h]
  · have hapart : (about == network) = false := beq_eq_false_iff_ne.mpr h
    simp [Notification.isTwoFactorReset, h, hapart]

/-- A report that no reset is under way ends what is shown if it reaches all of it. -/
theorem shown_removeListening_reset {context : Context ι} (h : context.Linked) (network : ι)
    (session : ℕ) :
    (context.removeListening session).shown (Notification.isTwoFactorReset network) ≠ [] ↔
      context.shown (Notification.isTwoFactorReset network) ≠ [] ∧
        ¬ (context.networks[session]? = some network ∧
          ∀ notification ∈ context.shown (Notification.isTwoFactorReset network),
            notification.listens session = true) := by
  have hmem : ∀ notification, notification ∈
      (context.removeListening session).shown (Notification.isTwoFactorReset network) ↔
        notification ∈ context.shown (Notification.isTwoFactorReset network) ∧
          notification.listens session = false := by
    intro notification
    simp only [shown, removeListening, List.mem_filter, Bool.not_eq_true']
    exact and_right_comm
  constructor
  · intro hleft
    obtain ⟨notification, hnotification⟩ := List.exists_mem_of_ne_nil _ hleft
    obtain ⟨hshown, hapart⟩ := (hmem notification).mp hnotification
    refine ⟨List.ne_nil_of_mem hshown, ?_⟩
    intro ⟨_, hall⟩
    rw [hall notification hshown] at hapart
    cases hapart
  · intro ⟨hshown, hreaches⟩
    -- Some notification does not listen: one of this network listens to sessions of it only.
    have hapart : ∃ notification ∈ context.shown (Notification.isTwoFactorReset network),
        notification.listens session = false := by
      by_contra hnone
      have hall : ∀ notification ∈ context.shown (Notification.isTwoFactorReset network),
          notification.listens session = true := by
        intro notification hnotification
        by_contra hlistens
        exact hnone ⟨notification, hnotification, Bool.eq_false_iff.mpr hlistens⟩
      obtain ⟨notification, hnotification⟩ := List.exists_mem_of_ne_nil _ hshown
      have hlistens := hall notification hnotification
      obtain ⟨hin, habout⟩ := List.mem_filter.mp hnotification
      refine hreaches ⟨?_, hall⟩
      obtain ⟨id, kind⟩ := notification
      cases kind with
      | twoFactorReset about listened =>
          have hlinked := h.listened _ hin about listened rfl
          rw [beq_iff_eq.mp hlistens, beq_iff_eq.mp habout] at hlinked
          exact hlinked
      | outage => cases habout
      | backup => cases habout
      | other => cases habout
    obtain ⟨notification, hnotification, hnot⟩ := hapart
    exact List.ne_nil_of_mem ((hmem notification).mpr ⟨hnotification, hnot⟩)

omit [DecidableEq ι] in
/-- A tidy context whose sessions and notifications are linked. -/
structure Connected (context : Context ι) : Prop extends context.Tidy, context.Linked

theorem Connected.next {context : Context ι} (h : context.Connected) {e : Event ι}
    (he : context.enabled e) : (context.next e).Connected :=
  ⟨h.toTidy.next he, h.toLinked.next e⟩

theorem reset_next {context : Context ι} (h : context.Connected) {e : Event ι}
    (he : context.enabled e) (network : ι) :
    (context.next e).shown (Notification.isTwoFactorReset network) ≠ [] ↔
      context.Activates network e ∨
        context.shown (Notification.isTwoFactorReset network) ≠ [] ∧
          ¬ (context.Deactivates network e ∧ context.Reaches network e) := by
  cases e with
  | twoFactorResetEvent session event =>
      obtain ⟨about, habout⟩ : ∃ about, context.networks[session]? = some about :=
        ⟨_, List.getElem?_eq_getElem he⟩
      by_cases hactive : Json.toBool (event.value "is_active") = true
      · simp only [next, twoFactorResetEvent, hactive, if_true, habout, Activates, Deactivates]
        rw [shown_addTwoFactorReset]
        simp
      · have hinactive := Bool.eq_false_iff.mpr hactive
        simp only [next, twoFactorResetEvent, hinactive, Activates, Deactivates, Reaches]
        simpa using shown_removeListening_reset h.toLinked network session
  | configChanged session config =>
      by_cases hactive : Json.toBool
          ((Json.toObject (config.value "twofactor_reset")).value "is_active") = true
      · simp [next, configChanged, hactive, Activates, Deactivates]
      · have hinactive := Bool.eq_false_iff.mpr hactive
        simp only [next, configChanged, hinactive, Activates, Deactivates, Reaches]
        simpa using shown_removeListening_reset h.toLinked network session
  | resetRequested session =>
      obtain ⟨about, habout⟩ : ∃ about, context.networks[session]? = some about :=
        ⟨_, List.getElem?_eq_getElem he⟩
      simp only [next, resetRequested, habout, Activates, Deactivates]
      rw [shown_addTwoFactorReset]
      simp
  | wanted asked =>
      have hlist := (notifications_getOrCreateSession asked context).1
      have hsame : (context.getOrCreateSession asked).1.shown
          (Notification.isTwoFactorReset network) =
            context.shown (Notification.isTwoFactorReset network) := congrArg (List.filter _) hlist
      simp [next, hsame, Activates, Deactivates]
  | connectFailed failed error =>
      rw [next, kept_connectFailed fun _ => rfl]
      simp [Activates, Deactivates]
  | loginFinished finished =>
      rw [next, kept_loginFinished (fun _ => rfl) h.toOutages]
      simp [Activates, Deactivates]
  | released given =>
      simp only [Activates, Deactivates]
      simp only [false_or, false_and, not_false_eq_true, and_true]
      exact Iff.rfl
  | backupChecked pin registered =>
      rw [next, (kept_backupChecked (fun _ => rfl) h.toNumbered pin registered).shown]
      simp [Activates, Deactivates]
  | added =>
      rw [next, shown_addNotification]
      simp [Activates, Deactivates, Notification.isTwoFactorReset]
  | removed id =>
      obtain ⟨notification, hmem, rfl, hother⟩ := he
      have hkind : notification.isTwoFactorReset network = false := by
        simp [Notification.isTwoFactorReset, hother]
      rw [next, shown_removeNotification_of_ne h.toNumbered hmem hkind]
      simp [Activates, Deactivates]

omit [DecidableEq ι] in
theorem not_activates_of_deactivates {network : ι} {context : Context ι} {e : Event ι}
    (h : context.Deactivates network e) : ¬ context.Activates network e := by
  cases e with
  | twoFactorResetEvent session event =>
      intro hactive
      cases h.2.symm.trans hactive.2
  | configChanged session config => exact not_false
  | _ => exact h.elim

/-- Where nothing is shown, every report reaches all of it. -/
theorem reaches_of_shown {network : ι} {context : Context ι} {e : Event ι} :
    (context.shown (Notification.isTwoFactorReset network) ≠ [] →
      context.Deactivates network e → context.Reaches network e) ↔
    (context.Deactivates network e → context.Reaches network e) := by
  constructor
  · intro h hends
    by_cases hshown : context.shown (Notification.isTwoFactorReset network) = []
    · cases e with
      | twoFactorResetEvent session event =>
          unfold Reaches
          rw [hshown]
          exact List.forall_mem_nil _
      | configChanged session config =>
          unfold Reaches
          rw [hshown]
          exact List.forall_mem_nil _
      | _ => trivial
    · exact h hshown hends
  · exact fun h _ => h

/-- A two-factor reset of the network is shown at all times exactly from the last report that one is
under way to the next report that none is, if and only if every report that none is under way
reaches all that is shown, which may listen to another session of the network. -/
theorem reset_shown_throughout_iff {es : List (Event ι)} (hes : notifying.Valid {} es) (network : ι) :
    (∀ fs gs, es = fs ++ gs →
      ((notifying.run {} fs).shown (Notification.isTwoFactorReset network) ≠ [] ↔
        notifying.Since (Activates network) (Deactivates network) {} fs)) ↔
      notifying.Along (fun s e => s.Deactivates network e → s.Reaches network e) {} es := by
  have hstep : ∀ (s : Context ι) e, s.Connected → notifying.enabled s e →
      (notifying.next s e).Connected := fun _ _ h he => h.next he
  have hrun := Reactive.iff_since_throughout
    (I := fun s : Context ι => s.shown (Notification.isTwoFactorReset network) ≠ []) hstep
    (fun s e h he => reset_next h he network) (fun _ _ => not_activates_of_deactivates)
    ⟨.empty, .empty⟩ (fun hshown => hshown rfl) hes
  exact hrun.trans (notifying.along_iff_along (fun _ _ => reaches_of_shown) _ _)

/-- A reset is reported, and its session given up. The next session reports that none is under
way, and the notification stays. -/
def leftBehind : List (Event ℕ) :=
  [.wanted 0, .twoFactorResetEvent 0 [("is_active", .bool true)], .released 0, .wanted 0,
    .twoFactorResetEvent 1 []]

theorem reset_shown_throughout_iff_leftBehind :
    ¬ ∀ fs gs, leftBehind = fs ++ gs →
      ((notifying.run {} fs).shown (Notification.isTwoFactorReset 0) ≠ [] ↔
        notifying.Since (Activates 0) (Deactivates 0) {} fs) := by
  have hes : notifying.Valid {} leftBehind :=
    ⟨trivial, Nat.zero_lt_one, trivial, trivial, Nat.one_lt_two, trivial⟩
  rw [reset_shown_throughout_iff hes]
  intro ⟨_, _, _, _, hlast, _⟩
  have hreaches := hlast ⟨rfl, rfl⟩ ⟨0, .twoFactorReset 0 0⟩ (List.mem_singleton_self _)
  cases hreaches

end Context
end GreenWallet.Notifications
