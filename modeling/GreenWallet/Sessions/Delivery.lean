import GreenWallet.Sessions.Registry

/-!
# Delivery of notifications

What the library reports under the number of a session is posted to it, and handled in its
turn. The activation of other sessions, and late reports under numbers given up, do not
interfere; and what has been posted is handled also if the session has been deactivated since.
-/
namespace GreenWallet.Sessions
open GreenWallet.Library GreenWallet.Wallets

def Signal.handled : Signal → Option JsonObject
  | .notificationHandled notification => some notification
  | _ => none

namespace Session

/-- The notifications handled, in order. -/
def handled (session : Session) : List JsonObject := session.emitted.filterMap Signal.handled

theorem handled_emit {signal : Signal} (h : signal.handled = none) (s : Session) :
    (s.emit signal).handled = s.handled := by
  simp [handled, emit, h]

theorem handled_setConnected (connected : Bool) (s : Session) :
    (s.setConnected connected).handled = s.handled := by
  unfold setConnected
  split_ifs
  · rfl
  · rw [handled_emit rfl]
    rfl

theorem handled_setBlock (block : JsonObject) (s : Session) :
    (s.setBlock block).handled = s.handled := by
  unfold setBlock
  split_ifs
  · rfl
  · rw [handled_emit rfl]
    rfl

theorem handled_setUnit (unit : String) (s : Session) : (s.setUnit unit).handled = s.handled := by
  unfold setUnit
  split_ifs
  · rfl
  · rw [handled_emit rfl]
    rfl

theorem handled_setSettings (settings : JsonObject) (s : Session) :
    (s.setSettings settings).handled = s.handled := by
  unfold setSettings
  split_ifs
  · rfl
  · rw [handled_emit rfl]
    exact handled_setUnit _ { s with m_settings := settings }

theorem handled_handleEvent (event : String) (value : Option Json) (s : Session) :
    (s.handleEvent event value).handled = s.handled := by
  unfold handleEvent
  split_ifs
  · rw [handled_emit rfl, handled_setConnected]
  · exact handled_emit rfl s
  · exact handled_setSettings _ s
  · exact handled_emit rfl s
  · rw [handled_emit rfl, handled_setBlock]
  · exact handled_emit rfl s
  · exact handled_emit rfl s
  · exact handled_emit rfl s
  · rfl

theorem handled_handleNotification (notification : JsonObject) (s : Session) :
    (s.handleNotification notification).handled = s.handled ++ [notification] := by
  rw [handleNotification, handled_handleEvent, setEvent, handled_emit rfl]
  simp [handled, emit, Signal.handled]

end Session

namespace World

/-- What is posted to the object and not handled yet. -/
def queued (w : World) (object : ℕ) : List JsonObject :=
  (w.posted.filter fun post => post.1 = object).map Prod.snd

/-- What the library reports to the object with this event. -/
def reports (w : World) (object : ℕ) : WorldEvent → List JsonObject
  | .notify id details => if w.idOf object = some id then [details] else []
  | _ => []

/-- What the library reports to the object in the course of a run. -/
def reported (object : ℕ) : World → List WorldEvent → List JsonObject
  | _, [] => []
  | w, e :: es => w.reports object e ++ reported object (w.next e) es

theorem reported_concat (object : ℕ) (w : World) (es : List WorldEvent) (e : WorldEvent) :
    reported object w (es ++ [e]) = reported object w es ++ (world.run w es).reports object e := by
  induction es generalizing w with
  | nil => simp [reported]
  | cons f es ih =>
      rw [List.cons_append, reported, ih, reported, List.append_assoc]
      rfl

/-- What a session has handled, if there is the session. -/
def handledBy (w : World) (object : ℕ) : Option (List JsonObject) :=
  (w.sessions object).map Session.handled

theorem handledBy_of_update {w w' : World} {object : ℕ} {old session : Session}
    (hold : w.sessions object = some old) (hsession : session.handled = old.handled)
    (hw' : w'.sessions = Function.update w.sessions object (some session)) (other : ℕ) :
    w'.handledBy other = w.handledBy other := by
  rw [handledBy, hw', Function.update_apply]
  split_ifs with h
  · rw [h, handledBy, hold, Option.map_some, hsession, Option.map_some]
  · rfl

/-- Activation neither handles nor posts anything. -/
theorem handledBy_setActive (w : World) (object : ℕ) (active : Bool) (other : ℕ) :
    (w.setActive object active).handledBy other = w.handledBy other := by
  unfold setActive
  cases hold : w.sessions object with
  | none => rfl
  | some old =>
      simp only
      split_ifs with hsame
      · rfl
      · have hhandled : (Session.emit .activeChanged { old with m_active := active }).handled =
            old.handled := Session.handled_emit rfl _
        unfold update
        split
        · apply handledBy_of_update hold _ rfl other
          exact hhandled
        · apply handledBy_of_update hold _ rfl other
          exact hhandled
        · exact handledBy_of_update hold hhandled rfl other

theorem posted_made_setActive (w : World) (object : ℕ) (active : Bool) :
    (w.setActive object active).posted = w.posted ∧ (w.setActive object active).made = w.made := by
  unfold setActive
  cases w.sessions object with
  | none => exact ⟨rfl, rfl⟩
  | some old =>
      simp only
      split_ifs
      · exact ⟨rfl, rfl⟩
      · unfold update
        split <;> exact ⟨rfl, rfl⟩

/-- The mail of a session: what it has handled, and what is posted to it. -/
def mail (w : World) (object : ℕ) : Option (List JsonObject) :=
  (w.handledBy object).map fun handled => handled ++ w.queued object

theorem mail_congr {w w' : World} {object : ℕ} (hhandled : w'.handledBy object = w.handledBy object)
    (hqueued : w'.queued object = w.queued object) : w'.mail object = w.mail object := by
  rw [mail, hhandled, hqueued, mail]

theorem mail_setActive (w : World) (object : ℕ) (active : Bool) (other : ℕ) :
    (w.setActive object active).mail other = w.mail other := by
  apply mail_congr (handledBy_setActive w object active other)
  rw [queued, (posted_made_setActive w object active).1, queued]

theorem mail_delete (w : World) (object other : ℕ) :
    (w.delete object).mail other = if other = object then none else w.mail other := by
  split_ifs with h
  · simp [mail, handledBy, delete, remove, h]
  · rw [← mail_setActive w object false other]
    apply mail_congr
    · simp [handledBy, delete, remove, h]
    · simp only [queued, delete, remove, List.filter_filter]
      congr 1
      apply List.filter_congr
      intro post _
      by_cases hpost : post.1 = other
      · simp [hpost, h]
      · simp [hpost]

/-- A report is posted to the session of the number, at the end. -/
theorem mail_notify {w : World} (hw : w.Kept) (id : ℕ) (details : JsonObject) (other : ℕ) :
    (w.notify id details).mail other =
      (w.mail other).map fun mail => mail ++ w.reports other (.notify id details) := by
  have hfinds := hw.registered id other
  have hreports : w.reports other (.notify id details) =
      if w.g_sessions id = some other then [details] else [] := by
    unfold reports
    exact if_congr hfinds.symm rfl rfl
  rw [hreports]
  unfold notify
  cases hobject : w.g_sessions id with
  | none => simp
  | some object =>
      obtain ⟨session, hsession, -⟩ :=
        (idOf_eq_some_iff w object id).mp ((hw.registered id object).mp hobject)
      simp only [hsession]
      by_cases h : object = other
      · simp [mail, handledBy, queued, h, Function.comp_def]
      · simp [mail, handledBy, queued, h, Function.comp_def]

/-- What is handled was the first of what was posted. -/
theorem mail_deliver {w : World} (hw : w.Kept) (other : ℕ) : w.deliver.mail other = w.mail other := by
  unfold deliver
  cases hposted : w.posted with
  | nil => rfl
  | cons post posted =>
      obtain ⟨session, hsession⟩ := Option.isSome_iff_exists.mp
        (hw.posted post (by rw [hposted]; exact List.mem_cons_self))
      simp only [hsession]
      by_cases h : post.1 = other
      · subst h
        simp [mail, handledBy, queued, hposted, hsession, Session.handled_handleNotification]
      · simp [mail, handledBy, queued, hposted, h, Function.update_of_ne (Ne.symm h)]

theorem mail_make {w : World} (hw : w.Kept) (network : Network) (other : ℕ) :
    (w.make network).mail other = if other = w.made then some [] else w.mail other := by
  split_ifs with h
  · have hnone : w.queued w.made = [] := by
      rw [queued, List.map_eq_nil_iff, List.filter_eq_nil_iff]
      intro post hpost hmade
      obtain ⟨session, hsession⟩ := Option.isSome_iff_exists.mp (hw.posted post hpost)
      have hlt := hw.made _ session hsession
      have hobject : post.1 = w.made := of_decide_eq_true hmade
      omega
    have hqueued : (w.make network).queued w.made = [] := hnone
    rw [h, mail, hqueued]
    simp [handledBy, make, Session.handled]
  · apply mail_congr
    · simp [handledBy, make, h]
    · rfl

/-- A step adds to the mail of a session what the library reports to it. -/
theorem mail_next {w : World} (hw : w.Kept) (e : WorldEvent) {object : ℕ} {mail : List JsonObject}
    (hmail : (w.next e).mail object = some mail) :
    (∃ before, w.mail object = some before ∧ mail = before ++ w.reports object e) ∨
      object = w.made ∧ mail = [] ∧ w.reports object e = [] := by
  cases e with
  | make network =>
      simp only [next, mail_make hw] at hmail
      split_ifs at hmail with h
      · exact .inr ⟨h, (Option.some.inj hmail).symm, rfl⟩
      · exact .inl ⟨mail, hmail, (List.append_nil mail).symm⟩
  | setActive other active =>
      simp only [next, mail_setActive] at hmail
      exact .inl ⟨mail, hmail, (List.append_nil mail).symm⟩
  | delete other =>
      simp only [next, mail_delete] at hmail
      split_ifs at hmail with h
      exact .inl ⟨mail, hmail, (List.append_nil mail).symm⟩
  | notify id details =>
      simp only [next, mail_notify hw] at hmail
      obtain ⟨before, hbefore, hadded⟩ := Option.map_eq_some_iff.mp hmail
      exact .inl ⟨before, hbefore, hadded.symm⟩
  | deliver =>
      simp only [next, mail_deliver hw] at hmail
      exact .inl ⟨mail, hmail, (List.append_nil mail).symm⟩

theorem made_next (w : World) (e : WorldEvent) : w.made ≤ (w.next e).made := by
  cases e with
  | make network => exact Nat.le_succ w.made
  | setActive object active => exact (posted_made_setActive w object active).2.ge
  | delete object => exact (posted_made_setActive w object false).2.ge
  | notify id details =>
      simp only [next, notify]
      split
      · exact Nat.le_refl _
      · split <;> exact Nat.le_refl _
  | deliver =>
      simp only [next, deliver]
      split
      · exact Nat.le_refl _
      · split <;> exact Nat.le_refl _

theorem reports_eq_nil {w : World} (hw : w.Kept) {object : ℕ} (hobject : w.made ≤ object)
    (e : WorldEvent) : w.reports object e = [] := by
  cases e with
  | notify id details =>
      have hnone : w.idOf object = none := by
        unfold idOf
        cases hsession : w.sessions object with
        | none => rfl
        | some session => exact absurd (hw.made object session hsession) (Nat.not_lt.mpr hobject)
      simp [reports, hnone]
  | _ => rfl

/-- By induction on the run; an object that has not been made has no reports. -/
theorem mail_run (es : List WorldEvent) :
    (∀ object mail, (world.run {} es).mail object = some mail → mail = reported object {} es) ∧
      ∀ object, (world.run {} es).made ≤ object → reported object {} es = [] := by
  induction es using List.reverseRecOn with
  | nil =>
      constructor
      · intro object mail hmail
        cases hmail
      · intro object _
        rfl
  | append_singleton es e ih =>
      have hw := kept_run es
      have hmade : (world.run {} es).made ≤ (world.next (world.run {} es) e).made :=
        made_next _ e
      rw [Reactive.run_concat]
      constructor
      · intro object mail hmail
        rw [reported_concat]
        rcases mail_next hw e hmail with ⟨before, hbefore, hadded⟩ | ⟨hobject, hempty, hreports⟩
        · rw [hadded, ih.1 object before hbefore]
        · rw [hempty, hreports, ih.2 object hobject.ge, List.append_nil]
      · intro object hobject
        have hbefore : (world.run {} es).made ≤ object := Nat.le_trans hmade hobject
        rw [reported_concat, ih.2 object hbefore, reports_eq_nil hw hbefore, List.append_nil]

/-- **Nothing is lost, repeated or misdirected.** At any time, what a session has handled and
what is posted to it together are, in order, what the library has reported under its number. -/
theorem delivery_exact (es : List WorldEvent) {object : ℕ} {session : Session}
    (hsession : (world.run {} es).sessions object = some session) :
    session.handled ++ (world.run {} es).queued object = reported object {} es := by
  apply (mail_run es).1 object
  simp [mail, handledBy, hsession]

/-- Two sessions are active, one is given up before its report is handled, and the library reports
once more under its number. -/
def lateReports : List WorldEvent :=
  [.make { isMainnet := true, isLiquid := false }, .make { isMainnet := true, isLiquid := true },
    .setActive 0 true, .setActive 1 true,
    .notify 1 [("event", .string "tor")], .notify 2 [("event", .string "ticker")],
    .setActive 0 false, .notify 1 [("event", .string "block")], .deliver]

theorem delivery_exact_lateReports :
    ∃ session, (world.run {} lateReports).sessions 0 = some session ∧
      session.handled ++ (world.run {} lateReports).queued 0 = [[("event", .string "tor")]] := by
  have hsome : ((world.run {} lateReports).sessions 0).isSome = true := by decide +kernel
  obtain ⟨session, hsession⟩ := Option.isSome_iff_exists.mp hsome
  have hreported : reported 0 {} lateReports = [[("event", .string "tor")]] := by decide +kernel
  exact ⟨session, hsession, (delivery_exact lateReports hsession).trans hreported⟩

end World
end GreenWallet.Sessions
