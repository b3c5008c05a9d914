import GreenWallet.Wallets.Objects

/-!
# Changes of the settings

A change of the settings of a session is an object with the settings that are to be changed.
`Controller` makes no task for a change that the settings contain already.
-/
namespace GreenWallet.Wallets.Settings
open GreenWallet.Library

mutual

/-- One member of `b` in the loop of `DeepContains`, where `j` is what `a` has under its key. -/
def containsValue (j : Option Json) : Json → Bool
  | .object b =>
      if Json.type j ≠ .object then false
      else deepContains (Json.toObject j) b
  | value =>
      if Json.type j ≠ Json.type (some value) then false
      else j == some value

/-- `DeepContains`. -/
def deepContains (a : JsonObject) : List (String × Json) → Bool
  | [] => true
  | (key, value) :: b => containsValue (a.value key) value && deepContains a b

end

theorem deepContains_iff (a b : JsonObject) :
    deepContains a b = true ↔ ∀ member ∈ b, containsValue (a.value member.1) member.2 = true := by
  induction b with
  | nil => simp [deepContains]
  | cons member b ih =>
      cases member with
      | mk key value => simp only [deepContains, Bool.and_eq_true, ih, List.forall_mem_cons]

/-- The types need not be compared where the values are. -/
theorem sameTypeAndValue_iff (j : Option Json) (value : Json) :
    (if Json.type j ≠ Json.type (some value) then false else j == some value) = true ↔
      some value = j := by
  constructor
  · intro h
    split_ifs at h
    exact (beq_iff_eq.mp h).symm
  · intro h
    rw [← h, if_neg (not_not.mpr rfl), beq_self_eq_true]

/-- An object is contained in an object, by its members, and in nothing else. -/
theorem containsValue_object {b : JsonObject} (hb : Members.Ordered b)
    (hvalues : ∀ member ∈ b, ∀ j : Option Json, (∀ json ∈ j, Json.Canonical json) →
      (containsValue j member.2 = true ↔ some (Json.merged j member.2) = j))
    {j : Option Json} (hj : ∀ json ∈ j, Json.Canonical json) :
    containsValue j (.object b) = true ↔ some (Json.merged j (.object b)) = j := by
  cases j with
  | none => simp [containsValue, Json.type]
  | some json =>
      cases json with
      | object a =>
          have ha := hj (.object a) rfl
          have hcontains : containsValue (some (.object a)) (.object b) = deepContains a b := rfl
          have hmerged : Json.merged (some (.object a)) (.object b) =
              .object (Json.mergeMembers a b) := rfl
          rw [hcontains, hmerged, Option.some.injEq, Json.object.injEq, deepContains_iff,
            Json.mergeMembers_eq_merge, Members.merge_eq_self_iff ha.ordered hb.nodup]
          constructor
          · intro h member hmember
            exact (hvalues member hmember _ (Members.forall_lookup ha.all)).mp (h member hmember)
          · intro h member hmember
            exact (hvalues member hmember _ (Members.forall_lookup ha.all)).mpr (h member hmember)
      | _ => simp [containsValue, Json.type, Json.merged]

/-- A value is contained in another exactly when merging it there changes nothing. -/
theorem containsValue_iff {value : Json} (hvalue : Json.Canonical value) :
    ∀ j : Option Json, (∀ json ∈ j, Json.Canonical json) →
      (containsValue j value = true ↔ some (Json.merged j value) = j) := by
  induction hvalue with
  | object ordered _ ih =>
      intro j hj
      exact containsValue_object ordered ih hj
  | null | bool _ | number _ | string _ | array _ _ =>
      intro j _
      exact sameTypeAndValue_iff j _

theorem deepContains_iff_merge (a b : QJsonObject) :
    deepContains a.members b.members = true ↔ a.merge b = a := by
  have hobject := containsValue_iff b.canonical _ a.canonical_some
  rw [QJsonObject.eq_iff]
  constructor
  · intro h
    exact Json.object.inj (Option.some.inj (hobject.mp h))
  · intro h
    exact hobject.mpr (congrArg (fun members => some (Json.object members)) h)

/-! ### The controller -/

structure Session where
  config : QJsonObject
  settings : QJsonObject

/-- `twofactor_reset` is active in the configuration. -/
def Session.resetActive (session : Session) : Bool :=
  Json.toBool ((Json.toObject (session.config.members.value "twofactor_reset")).value "is_active")

structure ChangeSettingsTask where
  data : QJsonObject
  session : Session

def changeSessionSettings (session : Session) (data : QJsonObject) : Option ChangeSettingsTask :=
  if session.resetActive then none
  else if !deepContains session.settings.members data.members then
    some { data := data, session := session }
  else none

/-- For every session of the context, if there is one. -/
def changeSettings (context : Option (List Session)) (data : QJsonObject) :
    List ChangeSettingsTask :=
  match context with
  | none => []
  | some sessions => sessions.filterMap fun session => changeSessionSettings session data

/-- Outside a reset, a change is sent exactly when it has an effect. -/
theorem changeSessionSettings_eq_some_iff {session : Session} {data : QJsonObject}
    {task : ChangeSettingsTask} :
    changeSessionSettings session data = some task ↔
      session.resetActive = false ∧ session.settings.merge data ≠ session.settings ∧
        task = { data := data, session := session } := by
  have hcontains := deepContains_iff_merge session.settings data
  unfold changeSessionSettings
  split_ifs with hreset hsend
  · simp [hreset]
  · have heffect : session.settings.merge data ≠ session.settings := by
      intro hsame
      rw [hcontains.mpr hsame] at hsend
      cases hsend
    constructor
    · intro h
      exact ⟨Bool.eq_false_iff.mpr hreset, heffect, (Option.some.inj h).symm⟩
    · intro h
      rw [h.2.2]
  · have hsame : session.settings.merge data = session.settings := by
      apply hcontains.mp
      simpa using hsend
    constructor
    · intro h
      cases h
    · intro h
      exact absurd hsame h.2.1

/-- The tasks for all sessions are those of the sessions in which the change has an effect. -/
theorem mem_changeSettings_iff {sessions : List Session} {data : QJsonObject}
    {task : ChangeSettingsTask} :
    task ∈ changeSettings (some sessions) data ↔
      task.data = data ∧ task.session ∈ sessions ∧ task.session.resetActive = false ∧
        task.session.settings.merge data ≠ task.session.settings := by
  unfold changeSettings
  rw [List.mem_filterMap]
  constructor
  · intro ⟨session, hsession, htask⟩
    have hsent := changeSessionSettings_eq_some_iff.mp htask
    rw [hsent.2.2]
    exact ⟨rfl, hsession, hsent.1, hsent.2.1⟩
  · intro ⟨hdata, hsession, hreset, heffect⟩
    subst hdata
    exact ⟨task.session, hsession, changeSessionSettings_eq_some_iff.mpr ⟨hreset, heffect, rfl⟩⟩

/-- **Change detection agrees with merging.** What is contained is what a merge leaves as it is,
so that a change is kept back, outside a reset, exactly when it has no effect. -/
theorem change_detection_agrees_merge :
    (∀ a b : QJsonObject, deepContains a.members b.members = true ↔ a.merge b = a) ∧
      ∀ session data task, changeSessionSettings session data = some task ↔
        session.resetActive = false ∧ session.settings.merge data ≠ session.settings ∧
          task = { data := data, session := session } :=
  ⟨deepContains_iff_merge, fun _ _ _ => changeSessionSettings_eq_some_iff⟩

/-- An empty object is contained in an object, but not where there is nothing or a null. -/
example :
    deepContains [("notifications", .object [("email_incoming", .bool true)])]
        [("notifications", .object [])] = true ∧
      deepContains [] [("notifications", .object [])] = false ∧
      deepContains [("notifications", .null)] [("notifications", .object [])] = false := by
  decide

end GreenWallet.Wallets.Settings
