import GreenWallet.Notifications.View

/-!
# Whether the view shows what there is

The rows are the notifications of the context, the latest first, as long as the controller is
given another context only while it shows nothing, and is connected once to the context it shows
and not at all to others when they add a notification. It never disconnects.
-/
namespace GreenWallet.Notifications
open GreenWallet.Library

namespace Showing
variable {κ ι : Type}

/-- What the controller should show. -/
def listed (s : Showing κ ι) : List (κ × ℕ) :=
  match s.view.m_context with
  | none => []
  | some context => ((s.ids context).map fun id => (context, id)).reverse

/-- The controller has not crashed, and shows what there is. -/
def Follows (s : Showing κ ι) : Prop := s.view.crashed = false ∧ s.view.rows = s.listed

/-- The notifications are numbered apart, the controller knows the items of its rows, and it is
connected to the context it shows. -/
structure Good (s : Showing κ ι) : Prop where
  numbered : ∀ context, (s.contexts context).Numbered
  view : s.view.Matched
  connected : ∀ context, s.view.m_context = some context → 0 < s.view.connections context

theorem Good.empty : ({} : Showing κ ι).Good where
  numbered := fun _ => .empty
  view := ⟨rfl, List.nodup_nil, List.nodup_nil, by rintro _ ⟨⟩⟩
  connected := by rintro _ ⟨⟩

theorem listed_of_shown {s : Showing κ ι} {context : κ} (h : s.view.m_context = some context) :
    s.listed = ((s.ids context).map fun id => (context, id)).reverse := by
  rw [listed, h]

/-- What is listed belongs to the context that is shown. -/
theorem shown_of_mem_listed {s : Showing κ ι} {notification : κ × ℕ}
    (h : notification ∈ s.listed) :
    s.view.m_context = some notification.1 ∧ notification.2 ∈ s.ids notification.1 := by
  unfold listed at h
  cases hshown : s.view.m_context with
  | none =>
      rw [hshown] at h
      cases h
  | some shown =>
      rw [hshown] at h
      obtain ⟨id, hid, rfl⟩ := List.mem_map.mp (List.mem_reverse.mp h)
      exact ⟨rfl, hid⟩

theorem Good.lt_made {s : Showing κ ι} (h : s.Good) {context : κ} {id : ℕ}
    (hid : id ∈ s.ids context) : id < (s.contexts context).made := by
  obtain ⟨notification, hmem, rfl⟩ := List.mem_map.mp hid
  exact (h.numbered context).made notification hmem

variable [DecidableEq κ] [DecidableEq ι]

/-- The step neither gives the controller another context while it shows something, nor adds a
notification that it hears of more or less often than it should. -/
def Safe (s : Showing κ ι) : ViewEvent κ ι → Prop
  | .context context event => (∃ id, .notificationAdded id ∈ s.signals context event) →
      s.view.connections context = if s.view.m_context = some context then 1 else 0
  | .setContext context => s.view.m_context = context ∨ s.listed = []

/-! ### A step of a context -/

omit [DecidableEq κ] in
theorem signals_of_emitted {s : Showing κ ι} {context : κ} {event : Event ι} {more : List Signal}
    (h : ((s.contexts context).next event).emitted = (s.contexts context).emitted ++ more) :
    s.signals context event = more := by
  rw [signals, h, List.drop_left]

theorem ids_context (s : Showing κ ι) (context : κ) (event : Event ι) :
    (s.next (.context context event)).ids =
      Function.update s.ids context ((s.contexts context).next event).ids := by
  funext other
  unfold ids next
  dsimp only
  rw [Function.update_apply, Function.update_apply]
  split_ifs
  · rfl
  · rfl

theorem sameElse_context (s : Showing κ ι) (context : κ) (event : Event ι) :
    NotificationsController.SameElse s.view (s.next (.context context event)).view :=
  NotificationsController.sameElse_handleAll context _ s.view

theorem listed_context (s : Showing κ ι) (context : κ) (event : Event ι) :
    (s.next (.context context event)).listed =
      if s.view.m_context = some context then
        (((s.contexts context).next event).ids.map fun id => (context, id)).reverse
      else s.listed := by
  unfold listed
  rw [(sameElse_context s context event).m_context, ids_context]
  cases hshown : s.view.m_context with
  | none => simp
  | some shown =>
      by_cases hsame : shown = context
      · simp [hsame]
      · simp [hsame, Function.update_of_ne]

theorem numbered_context {s : Showing κ ι} (h : s.Good) (context : κ) (event : Event ι)
    (other : κ) : ((s.next (.context context event)).contexts other).Numbered := by
  unfold next
  dsimp only
  rw [Function.update_apply]
  split_ifs
  · exact (h.numbered context).next event
  · exact h.numbered other

/-- The view after a notification has been added. -/
theorem follows_added {s : Showing κ ι} (hgood : s.Good) (h : s.Follows) {context : κ}
    {event : Event ι}
    (hids : ((s.contexts context).next event).ids =
      (s.contexts context).ids ++ [(s.contexts context).made])
    (hsignals : s.signals context event = [.notificationAdded (s.contexts context).made]) :
    ((s.next (.context context event)).Follows ↔
      s.view.connections context = if s.view.m_context = some context then 1 else 0) ∧
    ((s.view.connections context = if s.view.m_context = some context then 1 else 0) →
      (s.next (.context context event)).view.Matched) := by
  have hview : (s.next (.context context event)).view =
      s.view.handleAll context (.notificationAdded (s.contexts context).made) := by
    unfold next
    dsimp only
    rw [hsignals]
    rfl
  have hcrashed : (s.next (.context context event)).view.crashed = false :=
    (sameElse_context s context event).crashed.trans h.1
  have hlisted := listed_context s context event
  unfold Follows
  rw [hcrashed, hview, NotificationsController.rows_added, h.2, hlisted]
  by_cases hshown : s.view.m_context = some context
  · have hnow : s.ids context = (s.contexts context).ids := rfl
    rw [if_pos hshown, if_pos hshown, hids, List.map_append, List.reverse_append,
      listed_of_shown hshown, hnow]
    constructor
    · constructor
      · intro ⟨_, hrows⟩
        have hlength := congrArg List.length hrows
        simp only [List.length_append, List.length_replicate, List.length_reverse, List.length_map,
          List.length_cons, List.length_nil] at hlength
        omega
      · intro hone
        rw [hone]
        exact ⟨rfl, rfl⟩
    · intro hone
      unfold NotificationsController.handleAll
      rw [hone]
      apply hgood.view.insertItem
      rw [h.2]
      intro hmem
      exact Nat.lt_irrefl _ (hgood.lt_made (shown_of_mem_listed hmem).2)
  · rw [if_neg hshown, if_neg hshown]
    constructor
    · constructor
      · intro ⟨_, hrows⟩
        have hlength := congrArg List.length hrows
        simp only [List.length_append, List.length_replicate] at hlength
        omega
      · intro hnone
        rw [hnone]
        exact ⟨rfl, rfl⟩
    · intro hnone
      unfold NotificationsController.handleAll
      rw [hnone]
      exact hgood.view

/-- All connections handle the removals of a step. -/
theorem rows_removals (context : κ) (gone : List ℕ) :
    ∀ {view : NotificationsController κ}, view.Matched →
      ((gone.map Signal.notificationRemoved).foldl (fun view signal =>
        view.handleAll context signal) view).Matched ∧
      ((gone.map Signal.notificationRemoved).foldl (fun view signal =>
        view.handleAll context signal) view).rows =
          if view.connections context = 0 then view.rows
          else view.rows.filter fun other => decide (other ∉ gone.map fun id => (context, id)) := by
  induction gone with
  | nil =>
      intro view h
      refine ⟨h, ?_⟩
      split_ifs
      · rfl
      · exact (List.filter_eq_self.mpr fun _ _ => rfl).symm
  | cons id gone ih =>
      intro view h
      obtain ⟨hmatched, hrows⟩ := NotificationsController.rows_removed h context id
      obtain ⟨hlast, hrest⟩ := ih hmatched
      refine ⟨hlast, ?_⟩
      have hconnections :=
        (NotificationsController.sameElse_handleAll context [.notificationRemoved id] view).connections
      apply hrest.trans
      have hsame : (view.handleAll context (.notificationRemoved id)).connections context =
          view.connections context := congrFun hconnections context
      rw [hsame, hrows]
      split_ifs
      · rfl
      · rw [List.filter_filter]
        apply List.filter_congr
        intro other _
        simp only [List.map_cons, List.mem_cons, ← Bool.decide_and]
        exact decide_eq_decide.mpr ⟨fun ⟨hgone, hne⟩ hmem => hmem.elim hne hgone,
          fun hmem => ⟨fun hgone => hmem (.inr hgone), fun heq => hmem (.inl heq)⟩⟩

/-- The view after notifications have been taken out. -/
theorem follows_removed {s : Showing κ ι} (hgood : s.Good) (h : s.Follows) {context : κ}
    {event : Event ι} {gone : List ℕ}
    (hids : ((s.contexts context).next event).ids =
      (s.contexts context).ids.filter fun id => decide (id ∉ gone))
    (hsignals : s.signals context event = gone.map .notificationRemoved) :
    (s.next (.context context event)).Follows ∧
      (s.next (.context context event)).view.Matched := by
  have hview : (s.next (.context context event)).view =
      (gone.map Signal.notificationRemoved).foldl (fun view signal =>
        view.handleAll context signal) s.view := by
    unfold next
    dsimp only
    rw [hsignals]
  have hcrashed : (s.next (.context context event)).view.crashed = false :=
    (sameElse_context s context event).crashed.trans h.1
  obtain ⟨hmatched, hrows⟩ := rows_removals context gone hgood.view
  have hlisted := listed_context s context event
  refine ⟨⟨hcrashed, ?_⟩, by rw [hview]; exact hmatched⟩
  rw [hview, hrows, hlisted, h.2]
  by_cases hshown : s.view.m_context = some context
  · rw [if_pos hshown, if_neg (hgood.connected context hshown).ne', hids, listed_of_shown hshown,
      List.filter_reverse, List.filter_map]
    apply congrArg fun left : List ℕ => (left.map fun id => (context, id)).reverse
    apply List.filter_congr
    intro id _
    have hmem : (context, id) ∈ gone.map (fun id => (context, id)) ↔ id ∈ gone :=
      List.mem_map_of_injective fun _ _ heq => (Prod.mk.inj heq).2
    simp only [Function.comp_apply, hmem]
  · rw [if_neg hshown]
    split_ifs
    · rfl
    · apply List.filter_eq_self.mpr
      intro notification hmem
      have hfst := (shown_of_mem_listed hmem).1
      apply decide_eq_true
      intro hgone
      obtain ⟨id, -, rfl⟩ := List.mem_map.mp hgone
      exact hshown hfst

/-- The view after a step of a context. -/
theorem follows_context {s : Showing κ ι} (hgood : s.Good) (h : s.Follows) (context : κ)
    (event : Event ι) :
    ((s.next (.context context event)).Follows ↔ s.Safe (.context context event)) ∧
      (s.Safe (.context context event) → (s.next (.context context event)).view.Matched) := by
  cases (s.contexts context).change_next (hgood.numbered context) event with
  | same hids hemitted =>
      have hsignals : s.signals context event = ([] : List ℕ).map .notificationRemoved :=
        signals_of_emitted (hemitted.trans (List.append_nil _).symm)
      have hkept : ((s.contexts context).next event).ids =
          (s.contexts context).ids.filter fun id => decide (id ∉ ([] : List ℕ)) :=
        hids.trans (List.filter_eq_self.mpr fun _ _ => rfl).symm
      obtain ⟨hfollows, hmatched⟩ := follows_removed hgood h hkept hsignals
      refine ⟨iff_of_true hfollows ?_, fun _ => hmatched⟩
      intro ⟨id, hid⟩
      rw [hsignals] at hid
      cases hid
  | added hids hemitted =>
      have hsignals := signals_of_emitted hemitted
      obtain ⟨hfollows, hmatched⟩ := follows_added hgood h hids hsignals
      have hsafe : s.Safe (.context context event) ↔
          s.view.connections context = if s.view.m_context = some context then 1 else 0 := by
        have hmem : Signal.notificationAdded (s.contexts context).made ∈
            s.signals context event := by
          rw [hsignals]
          exact List.mem_singleton_self _
        exact ⟨fun h => h ⟨_, hmem⟩, fun h _ => h⟩
      rw [hsafe]
      exact ⟨hfollows, hmatched⟩
  | removed gone hids hemitted =>
      have hsignals := signals_of_emitted hemitted
      obtain ⟨hfollows, hmatched⟩ := follows_removed hgood h hids hsignals
      refine ⟨iff_of_true hfollows ?_, fun _ => hmatched⟩
      intro ⟨id, hid⟩
      rw [hsignals] at hid
      obtain ⟨_, _, hadded⟩ := List.mem_map.mp hid
      cases hadded

/-! ### Another context -/

omit [DecidableEq κ] [DecidableEq ι] in
theorem clear_crashed {view : NotificationsController κ} (h : view.Matched)
    (halive : view.crashed = false) : view.clear.crashed = false ↔ view.rows = [] := by
  unfold NotificationsController.clear NotificationsController.rows
  rw [halive, h.items]
  cases hmodel : view.m_model with
  | nil => simp
  | cons row rest => simp

omit [DecidableEq ι] in
/-- The controller is given another context, and builds its rows anew. -/
theorem follows_setContext {s : Showing κ ι} (hgood : s.Good) (h : s.Follows) {context : Option κ}
    (hother : s.view.m_context ≠ context) :
    ((s.view.setContext context s.ids).crashed = false ↔ s.listed = []) ∧
      (s.view.setContext context s.ids).Matched ∧
      (s.view.setContext context s.ids).m_context = context ∧
      (∀ shown, context = some shown → 0 < (s.view.setContext context s.ids).connections shown) ∧
      (s.view.setContext context s.ids).rows =
        ({ s with view := { s.view with m_context := context } } : Showing κ ι).listed := by
  have hcleared := clear_crashed hgood.view h.1
  rw [h.2] at hcleared
  have hempty : ∀ connections : κ → ℕ, NotificationsController.Matched
      { s.view.clear with m_context := context, connections := connections } :=
    fun _ => ⟨rfl, List.nodup_nil, List.nodup_nil, by rintro _ ⟨⟩⟩
  unfold NotificationsController.setContext
  rw [if_neg hother]
  cases context with
  | none => exact ⟨hcleared, hempty _, rfl, by rintro _ ⟨⟩, rfl⟩
  | some shown =>
      have hnodup : ((s.ids shown).map fun id => (shown, id)).Nodup :=
        (hgood.numbered shown).nodup.map fun _ _ heq => (Prod.mk.inj heq).2
      have hview := hempty
        (Function.update s.view.connections shown (s.view.connections shown + 1))
      obtain ⟨hmatched, hrows⟩ := NotificationsController.Matched.foldl_insertItem hnodup hview
        (by rintro _ _ ⟨⟩)
      have helse := NotificationsController.sameElse_insertItems ((s.ids shown).map fun id => (shown, id))
        { s.view.clear with
          m_context := some shown
          connections := Function.update s.view.connections shown (s.view.connections shown + 1) }
      refine ⟨?_, hmatched, helse.m_context, ?_, ?_⟩
      · rw [← hcleared]
        exact ⟨fun halive => helse.crashed.symm.trans halive, fun halive => helse.crashed.trans halive⟩
      · rintro _ ⟨⟩
        have hconnections := congrFun helse.connections shown
        apply lt_of_lt_of_eq _ hconnections.symm
        simp
      · apply hrows.trans
        exact List.append_nil _

theorem follows_next {s : Showing κ ι} (hgood : s.Good) (h : s.Follows) (e : ViewEvent κ ι) :
    ((s.next e).Follows ↔ s.Safe e) ∧ (s.Safe e → (s.next e).Good) := by
  cases e with
  | context context event =>
      obtain ⟨hfollows, hmatched⟩ := follows_context hgood h context event
      refine ⟨hfollows, fun hsafe => ?_⟩
      have helse := sameElse_context s context event
      constructor
      · exact numbered_context hgood context event
      · exact hmatched hsafe
      · rw [helse.m_context, helse.connections]
        exact hgood.connected
  | setContext context =>
      by_cases hother : s.view.m_context = context
      · have hsame : s.next (.setContext context) = s := by
          unfold next NotificationsController.setContext
          dsimp only
          rw [if_pos hother]
        rw [hsame]
        exact ⟨iff_of_true h (.inl hother), fun _ => hgood⟩
      · obtain ⟨hcrashed, hmatched, hshown, hconnected, hrows⟩ :=
          follows_setContext hgood h hother
        have hlisted : (s.next (.setContext context)).listed =
            ({ s with view := { s.view with m_context := context } } : Showing κ ι).listed := by
          have hshown : (s.next (.setContext context)).view.m_context = context := hshown
          unfold listed
          rw [hshown]
          rfl
        constructor
        · constructor
          · intro hfollows
            exact .inr (hcrashed.mp hfollows.1)
          · intro hsafe
            exact ⟨hcrashed.mpr (hsafe.resolve_left hother), hrows.trans hlisted.symm⟩
        · intro _
          refine ⟨hgood.numbered, hmatched, ?_⟩
          intro shown hin
          have hshown : (s.view.setContext context s.ids).m_context = context := hshown
          exact hconnected shown (hshown.symm.trans hin)

/-- In every state of a run the controller is alive and shows the notifications of its context, the
latest first, exactly if every step is safe: the context changes only while nothing is shown, and
a notification that is added is heard of once if its context is shown, and not at all if not. -/
theorem view_follows_iff {es : List (ViewEvent κ ι)} (hes : showing.Valid {} es) :
    showing.Always Follows {} es ↔ showing.Along Safe {} es := by
  have hempty : ({} : Showing κ ι).Follows := ⟨rfl, rfl⟩
  apply Reactive.always_iff_along_of_keeps
    (J := fun s : Showing κ ι => s.Good ∧ s.Follows) (R := showing) _ _
    ⟨.empty, hempty⟩ hempty hes
  · intro s e ⟨hgood, h⟩ _ hsafe
    obtain ⟨hfollows, hnext⟩ := follows_next hgood h e
    exact ⟨hnext hsafe, hfollows.mpr hsafe⟩
  · intro s e ⟨hgood, h⟩ _ _
    exact (follows_next hgood h e).1

/-- The controller comes back to a context it has shown before, and a notification that is added
then has two rows. -/
def cameBack : List (ViewEvent Bool ℕ) :=
  [.setContext (some false), .setContext (some true), .setContext (some false),
    .context false .added]

theorem view_follows_iff_cameBack : ¬ showing.Always Follows {} cameBack := by
  have hes : showing.Valid {} cameBack := ⟨rfl, rfl, rfl, ⟨rfl, trivial⟩, trivial⟩
  rw [view_follows_iff hes]
  intro ⟨_, _, _, hadded, _⟩
  have htwice := hadded ⟨0, List.mem_singleton_self _⟩
  cases htwice

end Showing
end GreenWallet.Notifications
