import Mathlib.Logic.Function.Iterate
import GreenWallet.Library.Keyed
import GreenWallet.Notifications.Changes

/-!
# The view of the notifications

A controller shows the notifications of one context, the latest first. It follows the context by
its signals, and builds its rows anew when it is given another one.
-/
namespace GreenWallet.Notifications
open GreenWallet.Library GreenWallet.Wallets

/-- A row of the model, which is an item of its own, and the notification it shows. -/
structure Row (κ : Type) where
  item : ℕ
  notification : κ × ℕ

/-- `NotificationsController`. The items are numbered in the order they are made. -/
structure NotificationsController (κ : Type) where
  m_context : Option κ := none
  /-- The rows of `m_model`. -/
  m_model : List (Row κ) := []
  m_items : List ((κ × ℕ) × ℕ) := []
  made : ℕ := 0
  /-- How often each context is connected. -/
  connections : κ → ℕ := fun _ => 0
  /-- An item has been deleted that the model had deleted before. -/
  crashed : Bool := false

namespace NotificationsController
variable {κ : Type} [DecidableEq κ]

def insertItem (notification : κ × ℕ) (view : NotificationsController κ) :
    NotificationsController κ :=
  { view with
    m_items := (notification, view.made) ::
      view.m_items.filter fun entry => decide (entry.1 ≠ notification)
    m_model := ⟨view.made, notification⟩ :: view.m_model
    made := view.made + 1 }

def takeItem (notification : κ × ℕ) (view : NotificationsController κ) :
    NotificationsController κ :=
  match view.m_items.lookup notification with
  | none => view
  | some item =>
      { view with
        m_items := view.m_items.filter fun entry => decide (entry.1 ≠ notification)
        m_model := view.m_model.filter fun row => decide (row.item ≠ item) }

/-- One connection handles a signal of its context. -/
def handle (context : κ) (view : NotificationsController κ) :
    Signal → NotificationsController κ
  | .notificationAdded id => view.insertItem (context, id)
  | .notificationRemoved id => view.takeItem (context, id)

/-- All connections handle a signal, one after the other. -/
def handleAll (context : κ) (view : NotificationsController κ) (signal : Signal) :
    NotificationsController κ :=
  (fun view => handle context view signal)^[view.connections context] view

/-- The model deletes the items of its rows, and the controller those it knows of. -/
def clear (view : NotificationsController κ) : NotificationsController κ :=
  { view with
    m_model := []
    m_items := []
    crashed := view.crashed ||
      view.m_items.any fun entry => decide (entry.2 ∈ view.m_model.map Row.item) }

/-- Builds the rows for the context anew; `notifications` are those of each context. -/
def reset (notifications : κ → List ℕ) (view : NotificationsController κ) :
    NotificationsController κ :=
  match view.m_context with
  | none => view.clear
  | some context =>
      ((notifications context).map fun id => (context, id)).foldl (fun view notification =>
        view.insertItem notification)
        { view.clear with
          connections := Function.update view.connections context (view.connections context + 1) }

def setContext (context : Option κ) (notifications : κ → List ℕ)
    (view : NotificationsController κ) : NotificationsController κ :=
  if view.m_context = context then view
  else { view with m_context := context }.reset notifications

end NotificationsController

/-- The contexts, and a controller that shows one of them. -/
structure Showing (κ ι : Type) where
  contexts : κ → Context ι := fun _ => {}
  view : NotificationsController κ := {}

inductive ViewEvent (κ ι : Type) where
  | context (context : κ) (event : Event ι)
  | setContext (context : Option κ)

namespace Showing
variable {κ ι : Type} [DecidableEq κ]

def ids (s : Showing κ ι) (context : κ) : List ℕ := (s.contexts context).ids

def enabled (s : Showing κ ι) : ViewEvent κ ι → Prop
  | .context context event => s.view.crashed = false ∧ (s.contexts context).enabled event
  | .setContext _ => s.view.crashed = false

variable [DecidableEq ι]

/-- What the context emits in the step. -/
def signals (s : Showing κ ι) (context : κ) (event : Event ι) : List Signal :=
  ((s.contexts context).next event).emitted.drop (s.contexts context).emitted.length

def next (s : Showing κ ι) : ViewEvent κ ι → Showing κ ι
  | .context context event =>
      { contexts := Function.update s.contexts context ((s.contexts context).next event)
        view := (s.signals context event).foldl (fun view signal =>
          view.handleAll context signal) s.view }
  | .setContext context => { s with view := s.view.setContext context s.ids }

def showing : Reactive (Showing κ ι) (ViewEvent κ ι) Empty where
  enabled := enabled
  next := next
  emits := fun _ _ => []

end Showing

/-! ### The rows and the items -/

namespace NotificationsController
variable {κ : Type}

/-- What the rows show. -/
def rows (view : NotificationsController κ) : List (κ × ℕ) := view.m_model.map Row.notification

/-- The controller knows of the items of its rows, and no notification has two. -/
structure Matched (view : NotificationsController κ) : Prop where
  items : view.m_items = view.m_model.map fun row => (row.notification, row.item)
  rows : view.rows.Nodup
  apart : (view.m_model.map Row.item).Nodup
  made : ∀ row ∈ view.m_model, row.item < view.made

variable [DecidableEq κ]

theorem rows_insertItem (notification : κ × ℕ) (view : NotificationsController κ) :
    (view.insertItem notification).rows = notification :: view.rows := rfl

theorem Matched.insertItem {view : NotificationsController κ} (h : view.Matched)
    {notification : κ × ℕ} (hnew : notification ∉ view.rows) :
    (view.insertItem notification).Matched where
  items := by
    have hkept : (view.m_items.filter fun entry => decide (entry.1 ≠ notification)) =
        view.m_items := by
      apply List.filter_eq_self.mpr
      intro entry hentry
      rw [h.items] at hentry
      obtain ⟨row, hrow, rfl⟩ := List.mem_map.mp hentry
      have hne : row.notification ≠ notification :=
        fun heq => hnew (List.mem_map.mpr ⟨row, hrow, heq⟩)
      simpa using hne
    unfold NotificationsController.insertItem
    dsimp only
    rw [hkept, h.items, List.map_cons]
  rows := List.nodup_cons.mpr ⟨hnew, h.rows⟩
  apart := by
    refine List.nodup_cons.mpr ⟨?_, h.apart⟩
    intro hmem
    obtain ⟨row, hrow, heq⟩ := List.mem_map.mp hmem
    exact (h.made row hrow).ne heq
  made := by
    intro row hrow
    rcases List.mem_cons.mp hrow with rfl | hold
    · exact Nat.lt_succ_self _
    · exact Nat.lt_succ_of_lt (h.made row hold)

theorem Matched.foldl_insertItem {notifications : List (κ × ℕ)} (hlist : notifications.Nodup) :
    ∀ {view : NotificationsController κ}, view.Matched →
      (∀ notification ∈ notifications, notification ∉ view.rows) →
      (notifications.foldl (fun view notification => view.insertItem notification) view).Matched ∧
      (notifications.foldl (fun view notification => view.insertItem notification) view).rows =
        notifications.reverse ++ view.rows := by
  induction notifications with
  | nil => exact fun h _ => ⟨h, rfl⟩
  | cons notification rest ih =>
      intro view h hnew
      obtain ⟨hfirst, hrest⟩ := List.nodup_cons.mp hlist
      have hinserted := h.insertItem (hnew notification List.mem_cons_self)
      have hlater : ∀ other ∈ rest, other ∉ (view.insertItem notification).rows := by
        intro other hother hmem
        rcases List.mem_cons.mp hmem with rfl | hold
        · exact hfirst hother
        · exact hnew other (List.mem_cons_of_mem _ hother) hold
      obtain ⟨hmatched, hrows⟩ := ih hrest hinserted hlater
      refine ⟨hmatched, ?_⟩
      rw [List.foldl_cons, hrows, rows_insertItem, List.reverse_cons, List.append_assoc]
      rfl

omit [DecidableEq κ] in
theorem Matched.keys {view : NotificationsController κ} (h : view.Matched) :
    view.m_items.map Prod.fst = view.rows := by
  rw [h.items, List.map_map]
  rfl

/-- The rows without those of one notification. -/
theorem Matched.without {view : NotificationsController κ} (h : view.Matched)
    (notification : κ × ℕ) :
    Matched { view with
      m_items := view.m_items.filter fun entry => decide (entry.1 ≠ notification)
      m_model := view.m_model.filter fun row => decide (row.notification ≠ notification) } where
  items := by
    dsimp only
    rw [h.items, List.filter_map]
    rfl
  rows := h.rows.sublist (List.filter_sublist.map _)
  apart := h.apart.sublist (List.filter_sublist.map _)
  made := fun row hrow => h.made row (List.mem_of_mem_filter hrow)

theorem takeItem_eq {view : NotificationsController κ} (h : view.Matched) (notification : κ × ℕ) :
    view.takeItem notification =
      { view with
        m_items := view.m_items.filter fun entry => decide (entry.1 ≠ notification)
        m_model := view.m_model.filter fun row => decide (row.notification ≠ notification) } := by
  unfold takeItem
  cases hfound : view.m_items.lookup notification with
  | none =>
      have hnone : ∀ row ∈ view.m_model, row.notification ≠ notification := by
        intro row hrow heq
        have hmem : (row.notification, row.item) ∈ view.m_items := by
          rw [h.items]
          exact List.mem_map.mpr ⟨row, hrow, rfl⟩
        have hne := List.lookup_eq_none_iff.mp hfound _ hmem
        exact bne_iff_ne.mp hne heq.symm
      have hmodel : (view.m_model.filter fun row => decide (row.notification ≠ notification)) =
          view.m_model := List.filter_eq_self.mpr fun row hrow => by simpa using hnone row hrow
      have hitems : (view.m_items.filter fun entry => decide (entry.1 ≠ notification)) =
          view.m_items := by
        rw [h.items, List.filter_map]
        exact congrArg _ hmodel
      simp only [hmodel, hitems]
  | some item =>
      have hmem := (Keyed.lookup_eq_some_iff_mem (h.keys ▸ h.rows)).mp hfound
      rw [h.items] at hmem
      obtain ⟨found, hrow, hentry⟩ := List.mem_map.mp hmem
      obtain ⟨hnotification, hitem⟩ := Prod.mk.inj hentry
      have hmodel : (view.m_model.filter fun row => decide (row.item ≠ item)) =
          view.m_model.filter fun row => decide (row.notification ≠ notification) := by
        apply List.filter_congr
        intro row hin
        have hsame : row.item = item ↔ row.notification = notification := by
          rw [← hitem, ← hnotification]
          constructor
          · intro heq
            rw [List.inj_on_of_nodup_map h.apart hin hrow heq]
          · intro heq
            rw [List.inj_on_of_nodup_map h.rows hin hrow heq]
        simp only [ne_eq, hsame]
      simp only [hmodel]

/-- A removal takes the row of the notification, if there is one. -/
theorem rows_takeItem {view : NotificationsController κ} (h : view.Matched)
    (notification : κ × ℕ) :
    (view.takeItem notification).Matched ∧
      (view.takeItem notification).rows =
        view.rows.filter fun other => decide (other ≠ notification) := by
  rw [takeItem_eq h]
  refine ⟨h.without notification, ?_⟩
  unfold rows
  rw [List.filter_map]
  rfl

/-! ### The signals of a context -/

/-- Nothing but the rows and items may differ. -/
structure SameElse (view view' : NotificationsController κ) : Prop where
  m_context : view'.m_context = view.m_context
  connections : view'.connections = view.connections
  crashed : view'.crashed = view.crashed

omit [DecidableEq κ] in
theorem SameElse.refl (view : NotificationsController κ) : SameElse view view := ⟨rfl, rfl, rfl⟩

omit [DecidableEq κ] in
theorem SameElse.trans {a b c : NotificationsController κ} (hab : SameElse a b)
    (hbc : SameElse b c) : SameElse a c :=
  ⟨hbc.m_context.trans hab.m_context, hbc.connections.trans hab.connections,
    hbc.crashed.trans hab.crashed⟩

theorem sameElse_insertItems (notifications : List (κ × ℕ)) :
    ∀ view : NotificationsController κ, SameElse view
      (notifications.foldl (fun view notification => view.insertItem notification) view) := by
  induction notifications with
  | nil => exact .refl
  | cons notification rest ih =>
      intro view
      have hfirst : SameElse view (view.insertItem notification) := ⟨rfl, rfl, rfl⟩
      exact hfirst.trans (ih _)

theorem sameElse_handle (context : κ) (view : NotificationsController κ) (signal : Signal) :
    SameElse view (handle context view signal) := by
  cases signal with
  | notificationAdded id => exact ⟨rfl, rfl, rfl⟩
  | notificationRemoved id =>
      unfold handle takeItem
      dsimp only
      split
      · exact .refl view
      · exact ⟨rfl, rfl, rfl⟩

theorem sameElse_iterate (context : κ) (signal : Signal) (k : ℕ) :
    ∀ view : NotificationsController κ,
      SameElse view ((fun view => handle context view signal)^[k] view) := by
  induction k with
  | zero => exact .refl
  | succ k ih =>
      intro view
      rw [Function.iterate_succ_apply]
      exact (sameElse_handle context view signal).trans (ih _)

theorem sameElse_handleAll (context : κ) (signals : List Signal) :
    ∀ view : NotificationsController κ,
      SameElse view (signals.foldl (fun view signal => view.handleAll context signal) view) := by
  induction signals with
  | nil => exact .refl
  | cons signal rest ih =>
      intro view
      exact (sameElse_iterate context signal _ view).trans (ih _)

/-- Every connection makes a row for a notification added. -/
theorem rows_added (context : κ) (id : ℕ) (view : NotificationsController κ) :
    (view.handleAll context (.notificationAdded id)).rows =
      List.replicate (view.connections context) (context, id) ++ view.rows := by
  unfold handleAll
  induction view.connections context generalizing view with
  | zero => rfl
  | succ k ih =>
      rw [Function.iterate_succ_apply, ih]
      unfold handle
      rw [rows_insertItem, List.replicate_succ', List.append_assoc]
      rfl

/-- The first connection takes the row of a notification removed, the others find none. -/
theorem rows_removed {view : NotificationsController κ} (h : view.Matched) (context : κ) (id : ℕ) :
    (view.handleAll context (.notificationRemoved id)).Matched ∧
      (view.handleAll context (.notificationRemoved id)).rows =
        if view.connections context = 0 then view.rows
        else view.rows.filter fun other => decide (other ≠ (context, id)) := by
  unfold handleAll
  induction view.connections context generalizing view with
  | zero => exact ⟨h, rfl⟩
  | succ k ih =>
      rw [Function.iterate_succ_apply]
      obtain ⟨htaken, hrows⟩ := rows_takeItem h (context, id)
      obtain ⟨hmatched, hrest⟩ := ih htaken
      refine ⟨hmatched, ?_⟩
      rw [if_neg (Nat.succ_ne_zero k)]
      apply hrest.trans
      rw [hrows, List.filter_filter]
      simp

end NotificationsController
end GreenWallet.Notifications
