import GreenWallet.Dlc.System

/-!
# Idempotency keys

A coordinator that deduplicates by `idempotency_key` answers a second submission
under a key with the result of the first. The key of an accept names the order and
the context; the key of a sign names the DLC alone, so that an attempt with a new
context repeats the key of the attempt before. An accept key is a text in which
colons separate the parts, and an id with a colon of its own can take part of the
fingerprint's place.
-/
namespace GreenWallet.Dlc
open GreenWallet.Library

inductive Subject where
  | order (orderId : String)
  | dlc (dlcId : String)
deriving DecidableEq, Repr

/-- A submission: what it is for, the context it is made for, and its key. -/
structure Submission where
  subject : Subject
  contextFingerprint : String
  idempotencyKey : String
deriving DecidableEq, Repr

/-- The submission an effect is, made with the contexts the operation caches. -/
def Effect.submission (op : OrderOperation) : Effect → Option Submission
  | .call _ (.acceptMatch orderId body) =>
      some
        { subject := .order orderId
          contextFingerprint := op.acceptContext.contextFingerprint
          idempotencyKey := body.idempotencyKey }
  | .call _ (.sign dlcId body) =>
      some
        { subject := .dlc dlcId
          contextFingerprint := op.signContext.contextFingerprint
          idempotencyKey := body.idempotencyKey }
  | _ => none

def System.submissions (S : System) (e : SystemEvent) : List Submission :=
  (S.emits e).filterMap fun x => (S.operation x.operation).bind fun op => x.submission op

/-- The submissions of a run, in order. -/
def submissionsOf (es : List SystemEvent) : List Submission :=
  (negotiation.trace start es).flatMap fun step => step.1.submissions step.2.1

/-- Submissions under one key are for the same order or DLC, and the same context. -/
def KeysSeparate (es : List SystemEvent) : Prop :=
  ∀ a ∈ submissionsOf es, ∀ b ∈ submissionsOf es, a.idempotencyKey = b.idempotencyKey →
    a.subject = b.subject ∧ a.contextFingerprint = b.contextFingerprint

/-- Every signing of a DLC is for one context, and no two accepts read the same once
their order and fingerprint are joined by a colon. -/
structure Separable (es : List SystemEvent) : Prop where
  signs : ∀ a ∈ submissionsOf es, ∀ b ∈ submissionsOf es, ∀ dlcId,
    a.subject = .dlc dlcId → b.subject = .dlc dlcId → a.contextFingerprint = b.contextFingerprint
  accepts : ∀ a ∈ submissionsOf es, ∀ b ∈ submissionsOf es, ∀ orderId orderId',
    a.subject = .order orderId → b.subject = .order orderId' →
    orderId ++ ":" ++ a.contextFingerprint = orderId' ++ ":" ++ b.contextFingerprint →
    orderId = orderId' ∧ a.contextFingerprint = b.contextFingerprint

/-- The key a subject and a context are given. -/
def Subject.key (contextFingerprint : String) : Subject → String
  | .order orderId => "accept:" ++ orderId ++ ":" ++ contextFingerprint
  | .dlc dlcId => "sign:" ++ dlcId

theorem accept_key_inj {a b a' b' : String} :
    "accept:" ++ a ++ ":" ++ b = "accept:" ++ a' ++ ":" ++ b' ↔
      a ++ ":" ++ b = a' ++ ":" ++ b' := by
  simp only [String.append_assoc, String.append_right_inj]

theorem sign_key_inj {a a' : String} (h : "sign:" ++ a = "sign:" ++ a') : a = a' :=
  (String.append_right_inj _).mp h

theorem accept_key_ne_sign_key (a b c : String) : "accept:" ++ a ++ ":" ++ b ≠ "sign:" ++ c := by
  intro h
  have hlist := congrArg String.toList h
  simp only [String.toList_append] at hlist
  exact absurd (congrArg List.head? hlist) (by simp)

theorem submits_accept {k orderId : String} {op : OrderOperation} {i : Input} {body : AcceptBody}
    (h : submits k op i = some (.acceptMatch orderId body)) :
    body.idempotencyKey = (Subject.order orderId).key op.acceptContext.contextFingerprint := by
  cases i with
  | submitAccept signatures =>
      unfold submits at h
      split_ifs at h
      cases h
      rfl
  | _ => cases h

theorem submits_sign {k dlcId : String} {op : OrderOperation} {i : Input} {body : SignBody}
    (h : submits k op i = some (.sign dlcId body)) :
    body.idempotencyKey = (Subject.dlc dlcId).key op.signContext.contextFingerprint := by
  cases i with
  | submitAccept signatures =>
      unfold submits at h
      split_ifs at h
      cases h
  | submitSign dlcId signatures =>
      cases h
      rfl
  | _ => cases h

/-- A submission carries the key of its subject and its context. -/
theorem System.submission_key {S : System} (hS : S.machine.WellKeyed) {e : SystemEvent}
    {a : Submission} (ha : a ∈ S.submissions e) :
    a.idempotencyKey = a.subject.key a.contextFingerprint := by
  obtain ⟨x, hx, hsubmission⟩ := List.mem_filterMap.mp ha
  obtain ⟨op, hop, hsubmission⟩ := Option.bind_eq_some_iff.mp hsubmission
  have hsubmits : ∀ request, x.submitted = some request →
      submits x.operation op (S.input e x.operation) = some request := by
    intro request hrequest
    have hmem : request ∈ ((S.machine.cell x.operation).step S.machine.maxRetries x.operation
        (S.input e x.operation)).2.filterMap Effect.submitted :=
      List.mem_filterMap.mpr ⟨x, (mem_emits hS).mp hx, hrequest⟩
    rw [Cell.step_submits, System.cell_operation, hop, Option.bind_some, Option.mem_toList] at hmem
    exact hmem
  cases x with
  | emit k signal => cases hsubmission
  | call k request =>
      cases request with
      | acceptMatch orderId body =>
          obtain rfl := Option.some.inj hsubmission
          exact submits_accept (hsubmits _ rfl)
      | sign dlcId body =>
          obtain rfl := Option.some.inj hsubmission
          exact submits_sign (hsubmits _ rfl)
      | _ => cases hsubmission

theorem submissionsOf_key {es : List SystemEvent} {a : Submission}
    (ha : a ∈ submissionsOf es) : a.idempotencyKey = a.subject.key a.contextFingerprint := by
  obtain ⟨step, hstep, ha⟩ := List.mem_flatMap.mp ha
  obtain ⟨fs, gs, -, hstate, -⟩ := negotiation.mem_trace hstep
  exact System.submission_key (hstate ▸ wellKeyed_run fs) ha

/-- The maker signs, fails to submit, and signs the next context of the DLC. -/
def resignedDlc : List SystemEvent :=
  let asked : Pending := { issuer := some "A", request := DLCCoordinatorClient.getSignContext "d" }
  let submitted : Pending :=
    { issuer := some "A", request := DLCCoordinatorClient.submitSign "d" {} }
  let first : SignContext := { dlcId := "d", contextFingerprint := "f1" }
  let second : SignContext := { dlcId := "d", contextFingerprint := "f2" }
  [.call (.trackOrder { orderId := "A", dlcId := "d", isMaker := true }),
    .call (.submitMakerSignSignatures "d" {}),
    .deliver submitted (.signSubmitFailed "timeout"),
    .call .pollTimer,
    .deliver asked (.signContextReady first),
    .makerSigned "A" first {},
    .deliver submitted (.signSubmitFailed "timeout"),
    .call .pollTimer,
    .deliver asked (.signContextReady second),
    .makerSigned "A" second {}]

/-- **Idempotency keys.** -/
theorem keysSeparate_iff (es : List SystemEvent) : KeysSeparate es ↔ Separable es := by
  constructor
  · intro h
    constructor
    · intro a ha b hb dlcId hsa hsb
      refine (h a ha b hb ?_).2
      rw [submissionsOf_key ha, submissionsOf_key hb, hsa, hsb]
      rfl
    · intro a ha b hb orderId orderId' hsa hsb hjoined
      have hkey : a.idempotencyKey = b.idempotencyKey := by
        rw [submissionsOf_key ha, submissionsOf_key hb, hsa, hsb]
        exact accept_key_inj.mpr hjoined
      obtain ⟨hsubject, hfingerprint⟩ := h a ha b hb hkey
      rw [hsa, hsb] at hsubject
      exact ⟨Subject.order.inj hsubject, hfingerprint⟩
  · intro h a ha b hb hkey
    rw [submissionsOf_key ha, submissionsOf_key hb] at hkey
    cases hsa : a.subject with
    | order orderId =>
        cases hsb : b.subject with
        | order orderId' =>
            rw [hsa, hsb] at hkey
            have hjoined := h.accepts a ha b hb _ _ hsa hsb (accept_key_inj.mp hkey)
            exact ⟨congrArg Subject.order hjoined.1, hjoined.2⟩
        | dlc dlcId =>
            rw [hsa, hsb] at hkey
            exact (accept_key_ne_sign_key _ _ _ hkey).elim
    | dlc dlcId =>
        cases hsb : b.subject with
        | order orderId =>
            rw [hsa, hsb] at hkey
            exact (accept_key_ne_sign_key _ _ _ hkey.symm).elim
        | dlc dlcId' =>
            rw [hsa, hsb] at hkey
            obtain rfl := sign_key_inj hkey
            exact ⟨rfl, h.signs a ha b hb dlcId hsa hsb⟩

theorem not_keysSeparate_resignedDlc :
    negotiation.Valid start resignedDlc ∧ ¬ KeysSeparate resignedDlc := by
  refine ⟨by decide, ?_⟩
  intro h
  have hsame := h { subject := .dlc "d", contextFingerprint := "f1", idempotencyKey := "sign:d" }
    (by decide) { subject := .dlc "d", contextFingerprint := "f2", idempotencyKey := "sign:d" }
    (by decide) rfl
  exact absurd hsame.2 (by decide)

end GreenWallet.Dlc
