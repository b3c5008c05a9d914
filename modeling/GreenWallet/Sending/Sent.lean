import GreenWallet.Sending.Handing

/-!
# What is sent is what was signed

The library is called for a task with the details that the task before it has left, and not before
it has left them. This holds over calls of `sign()` that overlap, over codes that are asked for
again, and over calls that are made again because the session was not connected.
-/
namespace GreenWallet.Sending
open GreenWallet.Library GreenWallet.Tasks
open GreenWallet.Wallets (Json JsonObject)

variable {ι : Type}

namespace SignTransactionController
variable [DecidableEq ι] [Fintype ι]

theorem returned_advance (c : SignTransactionController ι) (e : Step ι) (answer : JsonObject) (t : ι) :
    returned t (c.advance e answer).log = returned t c.log := by
  cases hcalling : c.dispatching.calling e with
  | none => simp [advance, hcalling]
  | some u =>
      simp only [advance, hcalling, Option.toList_some, List.map_cons, List.map_nil]
      rw [returned_concat]
      rfl

omit [Fintype ι] in
/-- A task that is due has had an answer from each task that it waits for. -/
theorem Heard.of_updating {c : SignTransactionController ι} (h : c.Heard) (hkept : c.Kept) {t u : ι}
    (ht : c.dispatching.updating = some t) (hu : u ∈ (c.dispatching.world.tasks t).inputs) :
    (returned u c.log).isSome = true :=
  h u (hkept.told u ((World.isDue_iff.mp (Dispatching.isDue_of_updating ht)).2 u hu))

theorem Kept.follows_called {c : SignTransactionController ι} (h : c.Kept) (hheard : c.Heard)
    {seen : Surroundings} (hsees : c.Sees seen) {t : ι}
    (hcalling : c.dispatching.calling (.work seen) = some t) :
    c.Follows c.log (.called t (c.details t)) := by
  obtain ⟨-, -, ht⟩ := Dispatching.updating_of_calling hcalling
  intro signing hsigning
  have hhanded := h.handed signing hsigning
  refine ⟨hhanded.blind t, ?_, ?_⟩
  · rintro rfl
    refine ⟨hhanded.plain, ?_⟩
    intro blind hblind
    have hsome := hheard.of_updating h ht ((h.waits signing hsigning).2 blind hblind)
    obtain ⟨result, hresult⟩ := Option.isSome_iff_exists.mp hsome
    rw [hhanded.sign blind hblind, hresult]
    rfl
  · rintro rfl
    have hdetails := ((Dispatching.calling_send ht (h.type signing hsigning)).1 hcalling).2
    rw [hsees.details _ ht ⟨signing, hsigning, rfl⟩] at hdetails
    have hne : c.details signing.send ≠ [] := by simpa using hdetails
    refine ⟨hne, ?_⟩
    rw [hhanded.send] at hne ⊢
    cases hreturned : returned signing.sign c.log with
    | none =>
        rw [hreturned] at hne
        exact absurd rfl hne
    | some result => rfl

theorem Accounted.advance {c : SignTransactionController ι} (h : c.Kept) (hheard : c.Heard)
    {e : Step ι} (hsees : ∀ seen ∈ surroundings e, c.Sees seen) (answer : JsonObject) :
    (c.advance e answer).Accounted := by
  cases hcalling : c.dispatching.calling e with
  | none =>
      intro before signal after hlog
      simp only [SignTransactionController.advance, hcalling, Option.toList_none, List.map_nil,
        List.append_nil] at hlog
      exact h.accounted before signal after hlog
  | some t =>
      obtain ⟨seen, rfl, -⟩ := Dispatching.updating_of_calling hcalling
      have hcalled := h.accounted.concat (h.follows_called hheard (hsees seen rfl) hcalling)
      intro before signal after hlog
      simp only [SignTransactionController.advance, hcalling, Option.toList_some, List.map_cons,
        List.map_nil] at hlog
      exact hcalled before signal after hlog

theorem Sent.advance {c : SignTransactionController ι} {signing : Signing ι} (h : c.Sent signing)
    (e : Step ι) (answer : JsonObject) : (c.advance e answer).Sent signing :=
  h.of_prefix rfl (List.prefix_append _ _)

/-- The sending begins when it is called for, and it is not before it has been signed. -/
theorem Kept.begun_advance {c : SignTransactionController ι} (h : c.Kept) (hheard : c.Heard)
    {e : Step ι} (he : c.dispatching.enabled e) (hsees : ∀ seen ∈ surroundings e, c.Sees seen)
    (answer : JsonObject) {signing : Signing ι} (hsigning : signing ∈ c.signings) :
    (c.dispatching.next e).world.Unbegun signing.send ∨ (c.advance e answer).Sent signing := by
  cases h.begun signing hsigning with
  | inr hsent => exact .inr (hsent.advance e answer)
  | inl hunbegun =>
      by_cases hupdate : ∀ seen, e = .work seen → c.dispatching.updating ≠ some signing.send
      · exact .inl (Dispatching.unbegun_next hunbegun he hupdate)
      · simp only [not_forall, not_not] at hupdate
        obtain ⟨seen, rfl, ht⟩ := hupdate
        have hsigned := hheard.of_updating h ht (h.waits signing hsigning).1
        rw [← returned_advance c (.work seen) answer] at hsigned
        by_cases hcalled : c.dispatching.calling (.work seen) = some signing.send
        · refine .inr ⟨hsigned, .inr ⟨c.details signing.send, ?_⟩⟩
          simp [SignTransactionController.advance, hcalled]
        · cases hmock : c.mockSend with
          | true => exact .inr ⟨hsigned, .inl hmock⟩
          | false =>
              have hworld := (Dispatching.calling_send ht (h.type signing hsigning)).2
                ((hsees seen rfl).mockSend.trans hmock) hcalled
              rw [hworld]
              exact .inl (hunbegun.orFailed (.inl (World.view_emit_update _ _ _)) rfl)

theorem Kept.advance {c : SignTransactionController ι} (h : c.Kept) (hheard : c.Heard)
    {e : Step ι} (he : c.dispatching.enabled e) (hsees : ∀ seen ∈ surroundings e, c.Sees seen)
    (answer : JsonObject) : (c.advance e answer).Kept where
  nodup := h.nodup
  apart := h.apart
  type signing hsigning :=
    ((c.dispatching.extends_next e).type signing.send).trans (h.type signing hsigning)
  waits := by
    intro signing hsigning
    have hwaits := h.waits signing hsigning
    constructor
    · exact c.dispatching.inputs_next e signing.send hwaits.1
    · intro blind hblind
      exact c.dispatching.inputs_next e signing.sign (hwaits.2 blind hblind)
  told := Dispatching.told_next h.told e
  handed := by
    intro signing hsigning
    refine (h.handed signing hsigning).congr (fun _ _ => rfl) ?_ (h.nodup signing hsigning)
    exact fun t _ _ => returned_advance c e answer t
  begun _ hsigning := h.begun_advance hheard he hsees answer hsigning
  accounted := Accounted.advance h hheard hsees answer

theorem Kept.step {c : SignTransactionController ι} (h : c.Kept) (hheard : c.Heard) {e : Step ι}
    (he : c.dispatching.enabled e) (hsees : ∀ seen ∈ surroundings e, c.Sees seen)
    (answer : JsonObject) : (c.step e answer).Kept ∧ (c.step e answer).Heard := by
  obtain ⟨signals, hlog⟩ := (c.dispatching.extends_next e).log
  have hemits : Dispatching.reactive.emits c.dispatching e = signals := by
    simp only [Dispatching.reactive, ← hlog, List.drop_left]
  have hmem : ∀ signal ∈ signals, signal ∈ (c.advance e answer).dispatching.world.log := by
    intro signal hsignal
    change signal ∈ (c.dispatching.next e).world.log
    rw [← hlog]
    exact List.mem_append_right _ hsignal
  obtain ⟨hkept, hframe, hreturned⟩ := (h.advance hheard he hsees answer).foldl_hear hmem
  rw [SignTransactionController.step, hemits]
  refine ⟨hkept, ?_⟩
  intro t ht
  rw [hframe.dispatching] at ht
  change .finished t ∈ (c.dispatching.next e).world.log at ht
  rw [← hlog] at ht
  cases List.mem_append.mp ht with
  | inl hold =>
      obtain ⟨later, hlater⟩ := hframe.log
      rw [← hlater]
      apply returned_isSome_append
      rw [returned_advance]
      exact hheard t hold
  | inr hnew => exact hreturned t hnew

/-! ### A call -/

omit [Fintype ι] in
theorem construct_invariant {I : World ι → Prop} {w : World ι} (h : I w)
    (hthen : ∀ w t u, I w → I (w.then_ t u)) (hadd : ∀ w g t, I w → I (w.groupAdd g t))
    (hdispatcher : ∀ w d g, I w → I (w.dispatcherAdd d g)) (isLiquid : Bool) (call : SignCall ι) :
    I (construct w isLiquid call) := by
  have hrest : ∀ v, I v → I ((((v.then_ call.sign call.send).groupAdd call.group
      call.sign).groupAdd call.group call.send).dispatcherAdd call.dispatcher call.group) :=
    fun v hv => hdispatcher _ _ _ (hadd _ _ _ (hadd _ _ _ (hthen v _ _ hv)))
  cases isLiquid with
  | true => exact hrest _ (hadd _ _ _ (hthen w _ _ h))
  | false => exact hrest w h

/-- What others than the dispatchers keep, a call keeps. -/
theorem construct_client {I : World ι → Prop} {w : World ι} (h : I w)
    (hclient : ∀ (w : World ι) (e : ClientEvent ι), w.enabled e.1 → I w → I (w.next e.1))
    (isLiquid : Bool) (call : SignCall ι) : I (construct w isLiquid call) :=
  construct_invariant h (fun w t u => hclient w ⟨.then_ t u, rfl⟩ trivial)
    (fun w g t => hclient w ⟨.groupAdd g t, rfl⟩ trivial)
    (fun w d g => hclient w ⟨.dispatcherAdd d g, rfl⟩ trivial) isLiquid call

omit [Fintype ι] in
theorem log_construct (w : World ι) (isLiquid : Bool) (call : SignCall ι) :
    (construct w isLiquid call).log = w.log := by
  apply construct_invariant (I := fun v => v.log = w.log) rfl
  · exact fun v t u hv => hv
  · intro v g t hv
    unfold World.groupAdd
    split_ifs
    · exact hv
    · exact hv
  · intro v d g hv
    unfold World.dispatcherAdd
    split_ifs
    · exact hv
    · exact hv

omit [Fintype ι] in
/-- The edges of the call. -/
theorem waits_construct (w : World ι) (isLiquid : Bool) (call : SignCall ι) :
    call.sign ∈ ((construct w isLiquid call).tasks call.send).inputs ∧
      (isLiquid = true → call.blind ∈ ((construct w isLiquid call).tasks call.sign).inputs) := by
  constructor
  · simp only [construct, World.tasks_dispatcherAdd, World.tasks_groupAdd]
    exact World.mem_inputs_then _ call.sign call.send
  · rintro rfl
    simp only [construct, World.tasks_dispatcherAdd, World.tasks_groupAdd, if_true]
    rw [World.then_]
    apply World.subset_insertInput
    rw [World.inputs_insertOutput, World.tasks_groupAdd]
    exact World.mem_inputs_then w call.blind call.sign

omit [Fintype ι] in
/-- The tasks of a call are new. -/
theorem Constructs.new {c : SignTransactionController ι} {call : SignCall ι} (h : c.Constructs call)
    {t : ι} (ht : t ∈ call.tasks) : ∃ type, c.New type t := by
  simp only [SignCall.tasks, List.mem_cons, List.not_mem_nil, or_false] at ht
  rcases ht with rfl | rfl | rfl
  · exact ⟨_, h.blind⟩
  · exact ⟨_, h.sign⟩
  · exact ⟨_, h.send⟩

omit [Fintype ι] in
theorem New.unbegun {c : SignTransactionController ι} {type : TaskType} {t : ι} (h : c.New type t) :
    c.dispatching.world.Unbegun t := by
  constructor
  · rw [h.view]
    exact .inl rfl
  · rw [h.view]
  · rw [h.view]
  · rw [h.view]
  · exact h.authHandler

omit [DecidableEq ι] [Fintype ι] in
theorem sublist_tasks (call : SignCall ι) (isLiquid : Bool) (transaction : JsonObject) :
    (call.signing isLiquid transaction).tasks.Sublist call.tasks := by
  cases isLiquid with
  | true => exact List.Sublist.refl _
  | false => exact List.sublist_cons_self _ _

omit [Fintype ι] in
theorem Constructs.new_of_mem {c : SignTransactionController ι} {call : SignCall ι}
    (h : c.Constructs call) {isLiquid : Bool} {transaction : JsonObject} {t : ι}
    (ht : t ∈ (call.signing isLiquid transaction).tasks) : ∃ type, c.New type t :=
  h.new ((sublist_tasks call isLiquid transaction).subset ht)

omit [Fintype ι] in
theorem Follows.sign {c : SignTransactionController ι} {call : SignCall ι} (h : c.Constructs call)
    (account : Account) {before : List (SignSignal ι)} {signal : SignSignal ι}
    (hmem : signal ∈ c.log) (hfollows : c.Follows before signal) :
    (c.sign account call).Follows before signal := by
  cases signal with
  | called t details =>
      intro signing hsigning
      cases List.mem_append.mp hsigning with
      | inl hold => exact hfollows signing hold
      | inr hnew =>
          have hunmentioned : t ∉ signing.tasks := by
            intro ht
            rw [List.mem_singleton.mp hnew] at ht
            obtain ⟨type, hnew⟩ := h.new_of_mem ht
            exact hnew.unmentioned _ hmem rfl
          refine ⟨?_, ?_, ?_⟩
          · exact fun hblind => absurd (mem_tasks.mpr (.inl hblind)) hunmentioned
          · exact fun hsign => absurd (mem_tasks.mpr (.inr (.inl hsign.symm))) hunmentioned
          · exact fun hsend => absurd (mem_tasks.mpr (.inr (.inr hsend.symm))) hunmentioned
  | transactionCompleted t account transaction =>
      obtain ⟨signing, hsigning, hrest⟩ := hfollows
      exact ⟨signing, List.mem_append_left _ hsigning, hrest⟩
  | finished | failed => trivial

omit [Fintype ι] in
/-- The first task of a call has the transaction, and the others have nothing yet. -/
theorem Constructs.handed {c : SignTransactionController ι} {call : SignCall ι} (h : c.Constructs call)
    (account : Account) (transaction : JsonObject) :
    { c with
      details :=
        Function.update c.details (if account.isLiquid then call.blind else call.sign)
          transaction : SignTransactionController ι }.Handed
      (call.signing account.isLiquid transaction) := by
  have hnodup := h.nodup
  simp only [SignCall.tasks, List.nodup_cons, List.mem_cons, List.not_mem_nil, or_false,
    not_or] at hnodup
  obtain ⟨⟨hblindSign, hblindSend⟩, hsignSend, -⟩ := hnodup
  have hsign := List.isEmpty_iff.mp h.sign.details
  have hsend := List.isEmpty_iff.mp h.send.details
  cases hliquid : account.isLiquid with
  | true =>
      constructor
      · rintro blind ⟨⟩
        exact Function.update_self ..
      · rintro ⟨⟩
      · rintro blind ⟨⟩
        simp only [SignCall.signing, if_true]
        rw [Function.update_of_ne (Ne.symm hblindSign), hsign,
          returned_of_unmentioned h.blind.unmentioned]
        rfl
      · simp only [SignCall.signing, if_true]
        rw [Function.update_of_ne (Ne.symm hblindSend), hsend,
          returned_of_unmentioned h.sign.unmentioned]
        rfl
  | false =>
      constructor
      · rintro blind ⟨⟩
      · intro _
        exact Function.update_self ..
      · rintro blind ⟨⟩
      · simp only [SignCall.signing, Bool.false_eq_true, if_false]
        rw [Function.update_of_ne (Ne.symm hsignSend), hsend,
          returned_of_unmentioned h.sign.unmentioned]
        rfl

/-- The call that `sign()` notes. -/
def noted (c : SignTransactionController ι) (account : Account) (call : SignCall ι) : Signing ι :=
  call.signing account.isLiquid (JsonObject.insert "memo" (.string c.m_memo) c.m_transaction)

omit [Fintype ι] in
theorem forall_mem_sign {c : SignTransactionController ι} {account : Account} {call : SignCall ι}
    {P : Signing ι → Prop} (hold : ∀ signing ∈ c.signings, P signing)
    (hnew : P (c.noted account call)) : ∀ signing ∈ (c.sign account call).signings, P signing :=
  List.forall_mem_append.mpr ⟨hold, List.forall_mem_singleton.mpr hnew⟩

omit [Fintype ι] in
/-- No task is of two calls. -/
theorem Kept.apart_sign {c : SignTransactionController ι} (h : c.Kept) {call : SignCall ι}
    (hcall : c.Constructs call) (account : Account) :
    ∀ signing ∈ (c.sign account call).signings, ∀ other ∈ (c.sign account call).signings,
      ∀ t ∈ signing.tasks, t ∈ other.tasks → other = signing := by
  apply forall_mem_sign
  · intro signing hold
    apply forall_mem_sign
    · exact h.apart signing hold
    · intro t ht htnew
      obtain ⟨type, hfresh⟩ := hcall.new_of_mem htnew
      exact absurd ht (hfresh.unused signing hold)
  · apply forall_mem_sign
    · intro other hother t htnew ht
      obtain ⟨type, hfresh⟩ := hcall.new_of_mem htnew
      exact absurd ht (hfresh.unused other hother)
    · exact fun _ _ _ => rfl

theorem Kept.type_sign {c : SignTransactionController ι} (h : c.Kept) {call : SignCall ι}
    (hcall : c.Constructs call) (account : Account) :
    ∀ signing ∈ (c.sign account call).signings,
      ((c.sign account call).dispatching.world.tasks signing.send).type = .sendTransaction := by
  have htype : ∀ t, ((c.sign account call).dispatching.world.tasks t).type =
      (c.dispatching.world.tasks t).type :=
    construct_client (I := fun v => ∀ t, (v.tasks t).type = (c.dispatching.world.tasks t).type)
      (fun _ => rfl) (fun v e _ hv t => ((v.extends_client e).type t).trans (hv t))
      account.isLiquid call
  apply forall_mem_sign
  · intro signing hold
    rw [htype]
    exact h.type signing hold
  · rw [htype]
    exact congrArg View.type hcall.send.view

theorem Kept.waits_sign {c : SignTransactionController ι} (h : c.Kept) (call : SignCall ι)
    (account : Account) :
    ∀ signing ∈ (c.sign account call).signings,
      signing.sign ∈ ((c.sign account call).dispatching.world.tasks signing.send).inputs ∧
        ∀ blind ∈ signing.blind,
          blind ∈ ((c.sign account call).dispatching.world.tasks signing.sign).inputs := by
  have hinputs : ∀ t, (c.dispatching.world.tasks t).inputs ⊆
      ((c.sign account call).dispatching.world.tasks t).inputs :=
    construct_client
      (I := fun v => ∀ t, (c.dispatching.world.tasks t).inputs ⊆ (v.tasks t).inputs)
      (fun _ => List.Subset.refl _)
      (fun v e _ hv t => List.Subset.trans (hv t) (v.inputs_client e t)) account.isLiquid call
  apply forall_mem_sign
  · intro signing hold
    have hwaits := h.waits signing hold
    exact ⟨hinputs _ hwaits.1, fun blind hblind => hinputs _ (hwaits.2 blind hblind)⟩
  · have hwaits := waits_construct c.dispatching.world account.isLiquid call
    refine ⟨hwaits.1, ?_⟩
    intro blind hblind
    simp only [noted, SignCall.signing, Option.mem_def, Option.ite_none_right_eq_some,
      Option.some_inj] at hblind
    rw [← hblind.2]
    exact hwaits.2 hblind.1

omit [Fintype ι] in
theorem Kept.handed_sign {c : SignTransactionController ι} (h : c.Kept) {call : SignCall ι}
    (hcall : c.Constructs call) (account : Account) :
    ∀ signing ∈ (c.sign account call).signings, (c.sign account call).Handed signing := by
  apply forall_mem_sign
  · intro signing hold
    refine (h.handed signing hold).congr ?_ (fun _ _ _ => rfl) (h.nodup signing hold)
    intro t ht
    have hne : t ≠ if account.isLiquid then call.blind else call.sign := by
      rintro rfl
      split_ifs at ht
      · exact hcall.blind.unused signing hold ht
      · exact hcall.sign.unused signing hold ht
    exact Function.update_of_ne hne ..
  · have hhanded := hcall.handed account
      (JsonObject.insert "memo" (.string c.m_memo) c.m_transaction)
    exact ⟨hhanded.blind, hhanded.plain, hhanded.sign, hhanded.send⟩

theorem Kept.begun_sign {c : SignTransactionController ι} (h : c.Kept) {call : SignCall ι}
    (hcall : c.Constructs call) (account : Account) :
    ∀ signing ∈ (c.sign account call).signings,
      (c.sign account call).dispatching.world.Unbegun signing.send ∨
        (c.sign account call).Sent signing := by
  have hunbegun : ∀ t, c.dispatching.world.Unbegun t →
      (c.sign account call).dispatching.world.Unbegun t := fun t ht =>
    construct_client (I := fun v => v.Unbegun t) ht (fun _ _ he hv => hv.client he)
      account.isLiquid call
  apply forall_mem_sign
  · intro signing hold
    cases h.begun signing hold with
    | inl hnot => exact .inl (hunbegun _ hnot)
    | inr hsent => exact .inr (hsent.of_prefix rfl List.prefix_rfl)
  · exact .inl (hunbegun _ hcall.send.unbegun)

theorem Kept.sign {c : SignTransactionController ι} (h : c.Kept) {call : SignCall ι}
    (hcall : c.Constructs call) (account : Account) : (c.sign account call).Kept where
  nodup := forall_mem_sign h.nodup (hcall.nodup.sublist (sublist_tasks call _ _))
  apart := h.apart_sign hcall account
  type := h.type_sign hcall account
  waits := h.waits_sign call account
  told := construct_client h.told (fun _ e _ hw => hw.client e) account.isLiquid call
  handed := h.handed_sign hcall account
  begun := h.begun_sign hcall account
  accounted := by
    intro before signal after hlog
    have hlog : c.log = before ++ signal :: after := hlog
    exact Follows.sign hcall account (by simp [hlog]) (h.accounted before signal after hlog)

theorem Kept.next {c : SignTransactionController ι} (h : c.Kept ∧ c.Heard) {e : SignEvent ι}
    (he : c.enabled e) : (c.next e).Kept ∧ (c.next e).Heard := by
  have hsame : ∀ c' : SignTransactionController ι, c.Frame c' → c'.details = c.details →
      c'.log = c.log → c'.Kept ∧ c'.Heard := by
    intro c' hframe hdetails hlog
    constructor
    · apply h.1.of_frame hframe
      · intro signing hsigning
        refine (h.1.handed signing hsigning).congr ?_ ?_ (h.1.nodup signing hsigning)
        · exact fun t _ => congrFun hdetails t
        · exact fun t _ _ => congrArg (returned t) hlog
      · intro before signal after hsplit
        rw [hlog] at hsplit
        have hfollows := h.1.accounted before signal after hsplit
        cases signal with
        | called t details => exact fun signing hsigning => hfollows signing (hframe.signings ▸ hsigning)
        | transactionCompleted t account transaction =>
            rw [Follows, hframe.signings, hframe.mockSend]
            exact hfollows
        | finished | failed => trivial
    · intro t ht
      rw [hframe.dispatching] at ht
      rw [hlog]
      exact h.2 t ht
  cases e with
  | setAccount account => exact hsame _ ⟨rfl, rfl, rfl, List.prefix_rfl⟩ rfl rfl
  | setTransaction transaction => exact hsame _ ⟨rfl, rfl, rfl, List.prefix_rfl⟩ rfl rfl
  | setMemo memo => exact hsame _ ⟨rfl, rfl, rfl, List.prefix_rfl⟩ rfl rfl
  | cancel => exact h
  | sign call =>
      obtain ⟨account, haccount⟩ := Option.isSome_iff_exists.mp he.1
      simp only [SignTransactionController.next, haccount]
      refine ⟨h.1.sign he.2 account, ?_⟩
      intro t ht
      have hlog : (c.sign account call).dispatching.world.log = c.dispatching.world.log :=
        log_construct _ _ call
      rw [hlog] at ht
      exact h.2 t ht
  | step e answer => exact h.1.step h.2 he.1 he.2 answer

omit [Fintype ι] in
theorem kept_fresh (types : ι → TaskType) (mockSend : Bool) :
    (fresh types mockSend).Kept ∧ (fresh types mockSend).Heard := by
  refine ⟨⟨?_, ?_, ?_, ?_, ?_, ?_, ?_, ?_⟩, ?_⟩
  · nofun
  · nofun
  · nofun
  · nofun
  · nofun
  · nofun
  · nofun
  · intro before signal after hlog
    cases before <;> cases hlog
  · nofun

/-- **What is sent is what was signed.** In every state of a run, all that was said follows from what
was said before: each call of the library for a blinding has the transaction and the memo that
`sign()` took, each call for a signing has them too, or on Liquid what the blinding has come to, each
call for a sending has what the signing has come to, and a transaction is reported only after it has
been sent, as the sending has returned it. -/
theorem sent_as_signed (types : ι → TaskType) (mockSend : Bool) {es : List (SignEvent ι)}
    (hes : signing.Valid (fresh types mockSend) es) :
    signing.Always Accounted (fresh types mockSend) es := by
  rw [Reactive.always_iff]
  intro fs gs hsplit
  have hfs : signing.Valid (fresh types mockSend) fs := by
    rw [hsplit] at hes
    exact ((signing.along_append _ _ fs gs).mp hes).1
  have hrun := Reactive.run_invariant (R := signing)
    (I := fun c : SignTransactionController ι => c.Kept ∧ c.Heard)
    (fun _ _ hc he => Kept.next hc he) (kept_fresh types mockSend) hfs
  exact hrun.1.accounted

/-- The tasks of one call. -/
inductive PaymentTask where
  | blind
  | sign
  | send
deriving DecidableEq

instance : Fintype PaymentTask where
  elems := {.blind, .sign, .send}
  complete := by
    intro t
    cases t <;> decide

def PaymentTask.type : PaymentTask → TaskType
  | .blind => .blindTransaction
  | .sign => .signTransaction
  | .send => .sendTransaction

/-- A pass over the three tasks. -/
def paymentPass : List (SignEvent PaymentTask) :=
  .step (.pass 0) [] :: List.replicate 5 (.step (.work {}) [])

def answerTo (t : PaymentTask) (result : String) : SignEvent PaymentTask :=
  .step (.client ⟨.completes ⟨t, .call⟩ {}, rfl⟩)
    [("result", .object [("transaction", .string result)])]

/-- A payment on Liquid, from the first page to the last. -/
def paidOnLiquid : List (SignEvent PaymentTask) :=
  [.setAccount (some { id := 0, isLiquid := true }),
    .setTransaction [("addressees", .array [])], .setMemo "rent",
    .sign { blind := .blind, sign := .sign, send := .send, group := 0, dispatcher := 0 }] ++
    paymentPass ++ [answerTo .blind "blinded"] ++ paymentPass ++ [answerTo .sign "signed"] ++
    paymentPass ++ [answerTo .send "sent"]

theorem sent_as_signed_paidOnLiquid :
    signing.Always Accounted (fresh PaymentTask.type false) paidOnLiquid ∧
      (signing.run (fresh PaymentTask.type false) paidOnLiquid).log.map SignSignal.task =
        [some .blind, some .blind, some .sign, some .sign, some .send, some .send, some .send] := by
  have hes : signing.Valid (fresh PaymentTask.type false) paidOnLiquid := by decide +kernel
  exact ⟨sent_as_signed PaymentTask.type false hes, by decide +kernel⟩

end SignTransactionController
end GreenWallet.Sending
