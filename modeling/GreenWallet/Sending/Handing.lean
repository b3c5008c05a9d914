import GreenWallet.Sending.Sign

/-!
# Handing on

A task says what it has come to, and the handler of it gives that to the next task of the call. The
calls of `sign()` keep apart: they share no task, and a task that finishes is heard by its own call.
-/
namespace GreenWallet.Sending
open GreenWallet.Library GreenWallet.Tasks
open GreenWallet.Wallets (Json JsonObject)

/-- What the signal says a task has come to. -/
def SignSignal.resultOf {ι : Type} [DecidableEq ι] (t : ι) : SignSignal ι → Option JsonObject
  | .finished u result => if u = t then some result else none
  | _ => none

/-- What the task has come to when it finished last. -/
def returned {ι : Type} [DecidableEq ι] (t : ι) (log : List (SignSignal ι)) : Option JsonObject :=
  (log.filterMap (SignSignal.resultOf t)).getLast?

variable {ι : Type}

section Returned
variable [DecidableEq ι]

@[simp] theorem returned_concat (t : ι) (log : List (SignSignal ι)) (signal : SignSignal ι) :
    returned t (log ++ [signal]) = (signal.resultOf t).or (returned t log) := by
  rw [returned, List.filterMap_append]
  cases h : signal.resultOf t with
  | none => simp [returned, h]
  | some result => simp [h]

theorem returned_isSome_append {t : ι} {log : List (SignSignal ι)}
    (h : (returned t log).isSome = true) (signals : List (SignSignal ι)) :
    (returned t (log ++ signals)).isSome = true := by
  rw [returned, List.getLast?_isSome] at h ⊢
  rw [List.filterMap_append]
  exact List.append_ne_nil_of_left_ne_nil h _

theorem returned_of_unmentioned {t : ι} {log : List (SignSignal ι)}
    (h : ∀ signal ∈ log, signal.task ≠ some t) : returned t log = none := by
  have hnone : log.filterMap (SignSignal.resultOf t) = [] := by
    rw [List.filterMap_eq_nil_iff]
    intro signal hsignal
    have htask := h signal hsignal
    cases signal with
    | finished u result =>
        have hu : u ≠ t := fun hu => htask (congrArg some hu)
        exact if_neg hu
    | called | failed | transactionCompleted => rfl
  rw [returned, hnone]
  rfl

end Returned

namespace SignTransactionController
variable [DecidableEq ι]

/-- What a signal says follows from what was said before it. -/
def Follows (c : SignTransactionController ι) (before : List (SignSignal ι)) : SignSignal ι → Prop
  | .called t details => ∀ signing ∈ c.signings,
      (signing.blind = some t → details = signing.transaction) ∧
      (signing.sign = t → (signing.blind = none → details = signing.transaction) ∧
        ∀ blind ∈ signing.blind, returned blind before = some details) ∧
      (signing.send = t → details ≠ [] ∧ returned signing.sign before = some details)
  | .transactionCompleted t _ transaction => ∃ signing ∈ c.signings, signing.send = t ∧
      ∃ signed sent, returned signing.sign before = some signed ∧
        transaction = put "inputs" (JsonObject.value "transaction_inputs" signed) sent ∧
        if c.mockSend then sent = signed
        else returned t before = some sent ∧ ∃ details, .called t details ∈ before
  | _ => True

/-- Everything that was said follows from what was said before. -/
def Accounted (c : SignTransactionController ι) : Prop :=
  ∀ before signal after, c.log = before ++ signal :: after → c.Follows before signal

/-- The details of the tasks of a call are those that the tasks before have left. -/
structure Handed (c : SignTransactionController ι) (signing : Signing ι) : Prop where
  blind : ∀ blind ∈ signing.blind, c.details blind = signing.transaction
  plain : signing.blind = none → c.details signing.sign = signing.transaction
  sign : ∀ blind ∈ signing.blind, c.details signing.sign = (returned blind c.log).getD []
  send : c.details signing.send = (returned signing.sign c.log).getD []

/-- The transaction of a call has been sent. -/
structure Sent (c : SignTransactionController ι) (signing : Signing ι) : Prop where
  signed : (returned signing.sign c.log).isSome = true
  called : c.mockSend = true ∨ ∃ details, .called signing.send details ∈ c.log

/-- What holds between the calls and their tasks. -/
structure Kept (c : SignTransactionController ι) : Prop where
  nodup : ∀ signing ∈ c.signings, signing.tasks.Nodup
  apart : ∀ signing ∈ c.signings, ∀ other ∈ c.signings, ∀ t ∈ signing.tasks, t ∈ other.tasks →
    other = signing
  type : ∀ signing ∈ c.signings,
    (c.dispatching.world.tasks signing.send).type = .sendTransaction
  waits : ∀ signing ∈ c.signings,
    signing.sign ∈ (c.dispatching.world.tasks signing.send).inputs ∧
      ∀ blind ∈ signing.blind, blind ∈ (c.dispatching.world.tasks signing.sign).inputs
  told : c.dispatching.world.Told
  handed : ∀ signing ∈ c.signings, c.Handed signing
  begun : ∀ signing ∈ c.signings, c.dispatching.world.Unbegun signing.send ∨ c.Sent signing
  accounted : c.Accounted

/-- All that has finished has been heard. -/
def Heard (c : SignTransactionController ι) : Prop :=
  ∀ t, .finished t ∈ c.dispatching.world.log → (returned t c.log).isSome = true

/-! ### Hearing a signal -/

theorem Accounted.concat {c : SignTransactionController ι} (h : c.Accounted)
    {signal : SignSignal ι} (hsignal : c.Follows c.log signal) : (c.emit signal).Accounted := by
  intro before signal' after hlog
  have hlog : c.log ++ [signal] = before ++ signal' :: after := hlog
  rcases List.eq_nil_or_concat after with rfl | ⟨after, last, rfl⟩
  · obtain ⟨rfl, hsame⟩ := List.append_inj' hlog rfl
    cases hsame
    exact hsignal
  · have hsplit : c.log ++ [signal] = (before ++ signal' :: after) ++ [last] := by
      rw [hlog]
      simp
    obtain ⟨hbefore, -⟩ := List.append_inj' hsplit rfl
    exact h before signal' after hbefore

omit [DecidableEq ι] in
theorem mem_tasks {signing : Signing ι} {t : ι} :
    t ∈ signing.tasks ↔ signing.blind = some t ∨ t = signing.sign ∨ t = signing.send := by
  simp [Signing.tasks]

omit [DecidableEq ι] in
theorem ne_of_nodup {signing : Signing ι} (h : signing.tasks.Nodup) :
    signing.sign ≠ signing.send ∧
      ∀ blind ∈ signing.blind, blind ≠ signing.sign ∧ blind ≠ signing.send := by
  rw [Signing.tasks, List.nodup_append] at h
  obtain ⟨-, hpair, hapart⟩ := h
  constructor
  · simpa using hpair
  · intro blind hblind
    have hmem : blind ∈ signing.blind.toList := Option.mem_toList.mpr hblind
    constructor
    · exact hapart blind hmem _ (by simp)
    · exact hapart blind hmem _ (by simp)

theorem Handed.congr {c c' : SignTransactionController ι} {signing : Signing ι}
    (h : c.Handed signing) (hdetails : ∀ t ∈ signing.tasks, c'.details t = c.details t)
    (hlog : ∀ t ∈ signing.tasks, t ≠ signing.send → returned t c'.log = returned t c.log)
    (hnodup : signing.tasks.Nodup) : c'.Handed signing := by
  obtain ⟨hsign, hblind⟩ := ne_of_nodup hnodup
  have hmem : signing.sign ∈ signing.tasks := mem_tasks.mpr (.inr (.inl rfl))
  constructor
  · intro blind hmem
    rw [hdetails blind (mem_tasks.mpr (.inl hmem))]
    exact h.blind blind hmem
  · intro hplain
    rw [hdetails _ hmem]
    exact h.plain hplain
  · intro blind hb
    rw [hdetails _ hmem, hlog blind (mem_tasks.mpr (.inl hb)) (hblind blind hb).2]
    exact h.sign blind hb
  · rw [hdetails _ (mem_tasks.mpr (.inr (.inr rfl))), hlog _ hmem hsign]
    exact h.send

theorem details_setDetails (c : SignTransactionController ι) (t u : ι) (details : JsonObject) :
    (c.setDetails t details).details u = if u = t then details else c.details u :=
  Function.update_apply c.details t details u

theorem log_setDetails (c : SignTransactionController ι) (t : ι) (details : JsonObject) :
    (c.setDetails t details).log = c.log := rfl

theorem returned_finished (c : SignTransactionController ι) (t u : ι) (result : JsonObject) :
    returned u (c.emit (.finished t result)).log =
      if t = u then some result else returned u c.log := by
  rw [emit, returned_concat, SignSignal.resultOf]
  split_ifs
  · rfl
  · rfl

/-- The handlers of a task hand its result to the next task of the call. -/
theorem Kept.taskFinished {c : SignTransactionController ι} (h : c.Kept) {signing : Signing ι}
    (hsigning : signing ∈ c.signings) {t : ι} (ht : t ∈ signing.tasks) :
    ((c.emit (.finished t (c.resultOf t))).taskFinished t signing).Handed signing := by
  have hnodup := h.nodup signing hsigning
  have hhanded := h.handed signing hsigning
  obtain ⟨hsign, hblind⟩ := ne_of_nodup hnodup
  unfold SignTransactionController.taskFinished
  split_ifs with hisBlind hisSign
  · have hne := hblind t hisBlind
    constructor
    · intro blind hmem
      rw [hisBlind, Option.mem_some_iff] at hmem
      rw [← hmem, details_setDetails, if_neg hne.1]
      exact hhanded.blind t hisBlind
    · intro hplain
      rw [hisBlind] at hplain
      cases hplain
    · intro blind hmem
      rw [hisBlind, Option.mem_some_iff] at hmem
      rw [details_setDetails, if_pos rfl, log_setDetails, returned_finished, if_pos hmem]
      rfl
    · rw [details_setDetails, if_neg (Ne.symm hsign), log_setDetails, returned_finished, if_neg hne.1]
      exact hhanded.send
  · subst hisSign
    constructor
    · intro blind hmem
      rw [details_setDetails, if_neg (hblind blind hmem).2]
      exact hhanded.blind blind hmem
    · intro hplain
      rw [details_setDetails, if_neg hsign]
      exact hhanded.plain hplain
    · intro blind hmem
      rw [details_setDetails, if_neg hsign, log_setDetails, returned_finished,
        if_neg (Ne.symm (hblind blind hmem).1)]
      exact hhanded.sign blind hmem
    · rw [details_setDetails, if_pos rfl, log_setDetails, returned_finished, if_pos rfl]
      rfl
  · have hsend : t = signing.send := by
      cases mem_tasks.mp ht with
      | inl hb => exact absurd hb hisBlind
      | inr hrest => exact hrest.resolve_left fun hs => hisSign hs.symm
    refine hhanded.congr (fun _ _ => rfl) ?_ hnodup
    intro u hu hne
    rw [SignTransactionController.emit, returned_concat, returned_finished,
      if_neg fun htu => hne (htu.symm.trans hsend)]
    rfl

/-- The other calls do not hear of it. -/
theorem Kept.unheard {c : SignTransactionController ι} (h : c.Kept) {signing : Signing ι}
    (hsigning : signing ∈ c.signings) {t : ι} (ht : t ∉ signing.tasks) (result : JsonObject) :
    (c.emit (.finished t result)).Handed signing := by
  refine (h.handed signing hsigning).congr (fun _ _ => rfl) ?_ (h.nodup signing hsigning)
  intro u hu _
  have hne : t ≠ u := by
    rintro rfl
    exact ht hu
  rw [returned_finished, if_neg hne]

theorem Handed.taskFinished {c : SignTransactionController ι} {signing other : Signing ι}
    (h : c.Handed signing) (hnodup : signing.tasks.Nodup)
    (hapart : ∀ t ∈ signing.tasks, t ∉ other.tasks) (t : ι) :
    (c.taskFinished t other).Handed signing := by
  have hset : ∀ u ∈ other.tasks, ∀ details, (c.setDetails u details).Handed signing := by
    intro u hu details
    refine h.congr ?_ (fun _ _ _ => rfl) hnodup
    intro v hv
    rw [details_setDetails, if_neg]
    rintro rfl
    exact hapart v hv hu
  unfold SignTransactionController.taskFinished
  split_ifs
  · exact hset _ (mem_tasks.mpr (.inr (.inl rfl))) _
  · exact hset _ (mem_tasks.mpr (.inr (.inr rfl))) _
  · refine h.congr (fun _ _ => rfl) ?_ hnodup
    intro u _ _
    rw [SignTransactionController.emit, returned_concat]
    rfl

theorem mem_of_signingOf {c : SignTransactionController ι} {t : ι} {signing : Signing ι}
    (h : c.signingOf t = some signing) : signing ∈ c.signings ∧ t ∈ signing.tasks := by
  constructor
  · exact List.mem_of_find?_eq_some h
  · simpa using List.find?_some h

theorem not_mem_of_signingOf {c : SignTransactionController ι} {t : ι}
    (h : c.signingOf t = none) {signing : Signing ι} (hmem : signing ∈ c.signings) :
    t ∉ signing.tasks := by
  simpa using List.find?_eq_none.mp h signing hmem

/-- What hearing a signal leaves as it is. -/
structure Frame (c c' : SignTransactionController ι) : Prop where
  dispatching : c'.dispatching = c.dispatching
  signings : c'.signings = c.signings
  mockSend : c'.mockSend = c.mockSend
  log : c.log <+: c'.log

omit [DecidableEq ι] in
theorem Frame.refl (c : SignTransactionController ι) : c.Frame c := ⟨rfl, rfl, rfl, List.prefix_rfl⟩

omit [DecidableEq ι] in
theorem Frame.trans {c c' c'' : SignTransactionController ι} (h : c.Frame c') (h' : c'.Frame c'') :
    c.Frame c'' :=
  ⟨h'.dispatching.trans h.dispatching, h'.signings.trans h.signings, h'.mockSend.trans h.mockSend,
    h.log.trans h'.log⟩

omit [DecidableEq ι] in
theorem frame_emit (c : SignTransactionController ι) (signal : SignSignal ι) :
    c.Frame (c.emit signal) := ⟨rfl, rfl, rfl, List.prefix_append _ _⟩

theorem frame_taskFinished (c : SignTransactionController ι) (t : ι) (signing : Signing ι) :
    c.Frame (c.taskFinished t signing) := by
  unfold SignTransactionController.taskFinished
  split_ifs
  · exact ⟨rfl, rfl, rfl, List.prefix_rfl⟩
  · exact ⟨rfl, rfl, rfl, List.prefix_rfl⟩
  · exact frame_emit c _

theorem frame_hear (c : SignTransactionController ι) (signal : Signal ι) : c.Frame (c.hear signal) := by
  cases signal with
  | finished t =>
      simp only [SignTransactionController.hear]
      cases c.signingOf t with
      | none => exact frame_emit c _
      | some signing => exact (frame_emit c _).trans (frame_taskFinished _ t signing)
  | failed t error =>
      simp only [SignTransactionController.hear]
      cases c.signingOf t with
      | none => exact .refl c
      | some signing =>
          dsimp only [taskFailed]
          split_ifs
          · exact .refl c
          · exact ⟨rfl, rfl, rfl, List.prefix_rfl⟩
  | groupFailed g =>
      simp only [SignTransactionController.hear]
      split_ifs
      · exact frame_emit c _
      · exact .refl c
  | _ => exact .refl c

theorem Sent.of_prefix {c c' : SignTransactionController ι} {signing : Signing ι} (h : c.Sent signing)
    (hmock : c'.mockSend = c.mockSend) (hlog : c.log <+: c'.log) : c'.Sent signing := by
  obtain ⟨signals, hsignals⟩ := hlog
  constructor
  · rw [← hsignals]
    exact returned_isSome_append h.signed signals
  · rw [hmock, ← hsignals]
    cases h.called with
    | inl hmock => exact .inl hmock
    | inr hcalled =>
        obtain ⟨details, hmem⟩ := hcalled
        exact .inr ⟨details, List.mem_append_left _ hmem⟩

theorem Kept.of_frame {c c' : SignTransactionController ι} (h : c.Kept) (hframe : c.Frame c')
    (hhanded : ∀ signing ∈ c.signings, c'.Handed signing) (haccounted : c'.Accounted) : c'.Kept where
  nodup := by
    rw [hframe.signings]
    exact h.nodup
  apart := by
    rw [hframe.signings]
    exact h.apart
  type := by
    rw [hframe.signings, hframe.dispatching]
    exact h.type
  waits := by
    rw [hframe.signings, hframe.dispatching]
    exact h.waits
  told := by
    rw [hframe.dispatching]
    exact h.told
  handed := by
    rw [hframe.signings]
    exact hhanded
  begun := by
    rw [hframe.signings, hframe.dispatching]
    intro signing hmem
    cases h.begun signing hmem with
    | inl hunbegun => exact .inl hunbegun
    | inr hsent => exact .inr (hsent.of_prefix hframe.mockSend hframe.log)
  accounted := haccounted

/-- A task that has finished has begun. -/
theorem Kept.sent {c : SignTransactionController ι} (h : c.Kept) {signing : Signing ι}
    (hsigning : signing ∈ c.signings) (hlog : .finished signing.send ∈ c.dispatching.world.log) :
    c.Sent signing := by
  cases h.begun signing hsigning with
  | inl hunbegun =>
      have hcount : c.dispatching.world.log.count (.finished signing.send) = 0 := hunbegun.finished
      exact absurd hlog (List.count_eq_zero.mp hcount)
  | inr hsent => exact hsent

/-- The transaction that is reported is the one that was sent. -/
theorem Kept.follows {c : SignTransactionController ι} (h : c.Kept) {signing : Signing ι}
    (hsigning : signing ∈ c.signings) (hlog : .finished signing.send ∈ c.dispatching.world.log) :
    (c.emit (.finished signing.send (c.resultOf signing.send))).Follows
      (c.emit (.finished signing.send (c.resultOf signing.send))).log
      (.transactionCompleted signing.send c.m_account
        ((c.emit (.finished signing.send (c.resultOf signing.send))).transactionOf signing.send)) := by
  have hsent := h.sent hsigning hlog
  have hne := (ne_of_nodup (h.nodup signing hsigning)).1
  obtain ⟨signed, hsigned⟩ := Option.isSome_iff_exists.mp hsent.signed
  have hdetails : c.details signing.send = signed := by
    rw [(h.handed signing hsigning).send, hsigned]
    rfl
  refine ⟨signing, hsigning, rfl, signed,
    if c.mockSend then c.details signing.send else c.resultOf signing.send, ?_, ?_, ?_⟩
  · rw [returned_finished, if_neg (Ne.symm hne)]
    exact hsigned
  · rw [← hdetails]
    rfl
  · cases hmock : c.mockSend with
    | true => simpa [SignTransactionController.emit, hmock] using hdetails
    | false =>
        have hcalled := hsent.called.resolve_left (by simp [hmock])
        obtain ⟨details, hmem⟩ := hcalled
        simp only [SignTransactionController.emit, hmock, Bool.false_eq_true, if_false]
        refine ⟨?_, details, List.mem_append_left _ hmem⟩
        simp [SignSignal.resultOf]

theorem Accounted.hear {c : SignTransactionController ι} (h : c.Kept) {signal : Signal ι}
    (hsignal : signal ∈ c.dispatching.world.log) : (c.hear signal).Accounted := by
  cases signal with
  | finished t =>
      have hfinished : (c.emit (.finished t (c.resultOf t))).Accounted := h.accounted.concat trivial
      simp only [SignTransactionController.hear]
      cases hof : c.signingOf t with
      | none => exact hfinished
      | some signing =>
          obtain ⟨hsigning, ht⟩ := mem_of_signingOf hof
          dsimp only [SignTransactionController.taskFinished]
          split_ifs with hblind hsign
          · exact hfinished
          · exact hfinished
          · have hsend : signing.send = t := by
              rcases mem_tasks.mp ht with hb | rfl | rfl
              · exact absurd hb hblind
              · exact absurd rfl hsign
              · rfl
            subst hsend
            exact hfinished.concat (h.follows hsigning hsignal)
  | failed t error =>
      simp only [SignTransactionController.hear]
      cases c.signingOf t with
      | none => exact h.accounted
      | some signing =>
          dsimp only [taskFailed]
          split_ifs
          · exact h.accounted
          · exact h.accounted
  | groupFailed g =>
      simp only [SignTransactionController.hear]
      split_ifs
      · exact h.accounted.concat trivial
      · exact h.accounted
  | _ => exact h.accounted

theorem Handed.hear {c : SignTransactionController ι} (h : c.Kept) {signing : Signing ι}
    (hsigning : signing ∈ c.signings) (signal : Signal ι) : (c.hear signal).Handed signing := by
  have hhanded := h.handed signing hsigning
  cases signal with
  | finished t =>
      simp only [SignTransactionController.hear]
      cases hof : c.signingOf t with
      | none => exact h.unheard hsigning (not_mem_of_signingOf hof hsigning) _
      | some other =>
          obtain ⟨hother, ht⟩ := mem_of_signingOf hof
          by_cases hmem : t ∈ signing.tasks
          · rw [h.apart signing hsigning other hother t hmem ht]
            exact h.taskFinished hsigning hmem
          · apply (h.unheard hsigning hmem _).taskFinished (h.nodup signing hsigning)
            intro u hu huother
            rw [h.apart signing hsigning other hother u hu huother] at ht
            exact hmem ht
  | failed t error =>
      simp only [SignTransactionController.hear]
      cases c.signingOf t with
      | none => exact hhanded
      | some other =>
          dsimp only [taskFailed]
          split_ifs
          · exact hhanded
          · exact ⟨hhanded.blind, hhanded.plain, hhanded.sign, hhanded.send⟩
  | groupFailed g =>
      simp only [SignTransactionController.hear]
      split_ifs
      · refine hhanded.congr (fun _ _ => rfl) ?_ (h.nodup signing hsigning)
        intro u _ _
        rw [SignTransactionController.emit, returned_concat]
        rfl
      · exact hhanded
  | _ => exact hhanded

theorem Kept.hear {c : SignTransactionController ι} (h : c.Kept) {signal : Signal ι}
    (hsignal : signal ∈ c.dispatching.world.log) : (c.hear signal).Kept :=
  h.of_frame (frame_hear c signal) (fun _ hsigning => Handed.hear h hsigning signal)
    (Accounted.hear h hsignal)

theorem returned_hear {c : SignTransactionController ι} (t : ι) :
    (returned t (c.hear (.finished t)).log).isSome = true := by
  have hemit : (returned t (c.emit (.finished t (c.resultOf t))).log).isSome = true := by
    rw [returned_finished, if_pos rfl]
    rfl
  simp only [hear]
  cases c.signingOf t with
  | none => exact hemit
  | some signing =>
      obtain ⟨signals, hsignals⟩ :=
        (frame_taskFinished (c.emit (.finished t (c.resultOf t))) t signing).log
      rw [← hsignals]
      exact returned_isSome_append hemit signals

theorem Kept.foldl_hear {c : SignTransactionController ι} (h : c.Kept) {signals : List (Signal ι)}
    (hsignals : ∀ signal ∈ signals, signal ∈ c.dispatching.world.log) :
    (signals.foldl SignTransactionController.hear c).Kept ∧
      c.Frame (signals.foldl SignTransactionController.hear c) ∧
      ∀ t, .finished t ∈ signals →
        (returned t (signals.foldl SignTransactionController.hear c).log).isSome = true := by
  induction signals generalizing c with
  | nil => exact ⟨h, .refl c, fun t ht => by cases ht⟩
  | cons signal signals ih =>
      have hframe := frame_hear c signal
      have hrest : ∀ later ∈ signals, later ∈ (c.hear signal).dispatching.world.log := by
        intro later hlater
        rw [hframe.dispatching]
        exact hsignals later (List.mem_cons_of_mem _ hlater)
      obtain ⟨hkept, hframes, hheard⟩ := ih (h.hear (hsignals signal List.mem_cons_self)) hrest
      refine ⟨hkept, hframe.trans hframes, ?_⟩
      intro t ht
      cases List.mem_cons.mp ht with
      | inl hsame =>
          obtain ⟨later, hlater⟩ := hframes.log
          rw [List.foldl_cons, ← hlater, ← hsame]
          exact returned_isSome_append (returned_hear t) later
      | inr hlater => exact hheard t hlater

end SignTransactionController
end GreenWallet.Sending
