import GreenWallet.Jade.Variant
import GreenWallet.Ledger.SignLiquid
import GreenWallet.Library.Reactive

/-!
# Blinding factors from a Jade

Both devices are asked for two factors of every output that has a blinding key, one request
after the other. A Jade is asked by way of its API, whose handler is called with a result or
an error.
-/
namespace GreenWallet.Devices
open GreenWallet.Library GreenWallet.Ledger GreenWallet.Jade

inductive Answer where
  | result (bytes : Bytes)
  | error
deriving DecidableEq

/-- The output and the factor that is asked for, if any is. -/
abbrev Request := Option (ℕ × BlindingFactor)

/-- A factor is some bytes. -/
def Answer.IsResult (request : Request) : Answer → Prop
  | .result bytes => request ≠ none → bytes ≠ []
  | .error => False

instance (request : Request) : ∀ answer : Answer, Decidable (answer.IsResult request)
  | .result _ => inferInstanceAs (Decidable (_ → _))
  | .error => inferInstanceAs (Decidable False)

/-- What an activity shows, and what its requests have come to. -/
structure Shown where
  finished : ℕ
  failed : ℕ
  /-- No request is outstanding, and nothing else is to happen. -/
  atRest : Bool
  answers : List (Request × Answer)
  assetBlinders : List Bytes
  amountBlinders : List Bytes

def AllResults (answers : List (Request × Answer)) : Prop :=
  ∀ request ∈ answers, request.2.IsResult request.1

/-- The entry of an output is what the device has answered for it, and not empty; without a
blinding key it is empty. -/
def IsEntry (decode : Bytes → Bytes) (answers : List (Request × Answer)) (factor : BlindingFactor)
    (output : LiquidOutput) (index : ℕ) (entry : Bytes) : Prop :=
  if output.blinding_key = none then entry = []
  else entry ≠ [] ∧ ∃ bytes, (some (index, factor), .result bytes) ∈ answers ∧ entry = decode bytes

/-- The entries there are belong to the outputs. -/
def Aligned (decode : Bytes → Bytes) (answers : List (Request × Answer)) (factor : BlindingFactor)
    (outputs : List LiquidOutput) (entries : List Bytes) : Prop :=
  ∀ (i : ℕ) (output : LiquidOutput) (entry : Bytes), outputs[i]? = some output →
    entries[i]? = some entry → IsEntry decode answers factor output i entry

/-- One of `finished` and `failed` is emitted, once; and `finished` only if every request has
returned a result, with one entry for every output then. -/
structure CompleteOrFailed (decode : Bytes → Bytes) (outputs : List LiquidOutput) (s : Shown) :
    Prop where
  once : s.finished + s.failed ≤ 1
  ends : s.atRest = true → s.finished + s.failed = 1
  results : s.finished = 1 → AllResults s.answers
  assets : s.finished = 1 → s.assetBlinders.length = outputs.length ∧
    Aligned decode s.answers .asset outputs s.assetBlinders
  amounts : s.finished = 1 → s.amountBlinders.length = outputs.length ∧
    Aligned decode s.answers .amount outputs s.amountBlinders

section
variable {decode : Bytes → Bytes} {answers more : List (Request × Answer)}
  {factor : BlindingFactor} {outputs : List LiquidOutput} {entries : List Bytes}

theorem AllResults.left (h : AllResults (answers ++ more)) : AllResults answers :=
  fun request hrequest => h request (List.mem_append_left _ hrequest)

theorem IsEntry.append {output : LiquidOutput} {index : ℕ} {entry : Bytes}
    (h : IsEntry decode answers factor output index entry) (more : List (Request × Answer)) :
    IsEntry decode (answers ++ more) factor output index entry := by
  rw [IsEntry] at h ⊢
  split_ifs at h ⊢
  · exact h
  · obtain ⟨hentry, bytes, hmem, hsame⟩ := h
    exact ⟨hentry, bytes, List.mem_append_left _ hmem, hsame⟩

theorem Aligned.append (h : Aligned decode answers factor outputs entries)
    (more : List (Request × Answer)) : Aligned decode (answers ++ more) factor outputs entries :=
  fun i output entry houtput hentry => (h i output entry houtput hentry).append more

/-- The entry of the next output. -/
theorem Aligned.concat (h : Aligned decode answers factor outputs entries) {entry : Bytes}
    (hentry : ∀ output, outputs[entries.length]? = some output →
      IsEntry decode answers factor output entries.length entry) :
    Aligned decode answers factor outputs (entries ++ [entry]) := by
  intro i output other houtput hother
  rcases Nat.lt_trichotomy i entries.length with hlt | rfl | hgt
  · rw [List.getElem?_append_left hlt] at hother
    exact h i output other houtput hother
  · rw [List.getElem?_concat_length, Option.some.injEq] at hother
    rw [← hother]
    exact hentry output houtput
  · rw [List.getElem?_eq_none (by rw [List.length_append, List.length_singleton]; omega)] at hother
    cases hother

end

/-! ## Jade -/

/-- The parameters of `get_blinding_factor`. -/
structure BlindingFactorRequest where
  hash_prevouts : Bytes
  output_index : ℕ
  type : String

def typeText : BlindingFactor → String
  | .asset => "ASSET"
  | .amount => "VALUE"

/-- What the activity waits for. -/
inductive Waiting where
  /-- The API to call the handler of a request. -/
  | response (index : ℕ) (factor : BlindingFactor)
  /-- The event loop to ask for the other factor. -/
  | value (index : ℕ)
  /-- The event loop to call `processOutput`. -/
  | process (index : ℕ)
  | nothing
deriving DecidableEq

structure JadeGetBlindingFactorsActivity where
  m_outputs : List LiquidOutput
  m_hash_prevouts : Bytes := []
  m_asset_blinders : List Bytes := []
  m_amount_blinders : List Bytes := []
  waiting : Waiting := .nothing
  finished : ℕ := 0
  failed : ℕ := 0
  asked : List BlindingFactorRequest := []
  answers : List (Request × Answer) := []

namespace JadeGetBlindingFactorsActivity

def getBlindingFactor (s : JadeGetBlindingFactorsActivity) (index : ℕ) (factor : BlindingFactor) :
    JadeGetBlindingFactorsActivity :=
  { s with
    waiting := .response index factor
    asked := s.asked ++ [⟨s.m_hash_prevouts, index, typeText factor⟩] }

/-- `processOutput(index)`, with the outputs from there on. -/
def processOutput (index : ℕ) :
    List LiquidOutput → JadeGetBlindingFactorsActivity → JadeGetBlindingFactorsActivity
  | [], s => { s with waiting := .nothing, finished := s.finished + 1 }
  | output :: rest, s =>
      if output.blinding_key = none then
        processOutput (index + 1) rest
          { s with
            m_asset_blinders := s.m_asset_blinders ++ [[]]
            m_amount_blinders := s.m_amount_blinders ++ [[]] }
      else s.getBlindingFactor index .asset

/-- `exec`, for a device that is connected or not. -/
def exec (getHashPrevouts : Bytes → List UInt32 → Bytes) (inputs : List LiquidInput)
    (outputs : List LiquidOutput) (connected : Bool) : JadeGetBlindingFactorsActivity :=
  let s : JadeGetBlindingFactorsActivity := { m_outputs := outputs }
  if connected then
    let txhashes := (inputs.map LiquidInput.txhash).flatten
    let utxo_indices := inputs.map LiquidInput.pt_idx
    processOutput 0 outputs { s with m_hash_prevouts := getHashPrevouts txhashes utxo_indices }
  else { s with failed := 1 }

/-- What a message answers. -/
def answerOf (msg : Fields) : Answer :=
  if msg.contains "error" then .error else .result (msg.value "result").toByteArray

/-- The handler of a response: whatever the message is, its result is put into a list. -/
def respond (s : JadeGetBlindingFactorsActivity) (index : ℕ) (factor : BlindingFactor)
    (msg : Fields) : JadeGetBlindingFactorsActivity :=
  let bytes := (msg.value "result").toByteArray
  let s := { s with answers := s.answers ++ [(some (index, factor), answerOf msg)] }
  match factor with
  | .asset =>
      { s with m_asset_blinders := s.m_asset_blinders ++ [bytes], waiting := .value index }
  | .amount =>
      { s with m_amount_blinders := s.m_amount_blinders ++ [bytes], waiting := .process (index + 1) }

def shown (s : JadeGetBlindingFactorsActivity) : Shown where
  finished := s.finished
  failed := s.failed
  atRest := s.waiting = .nothing
  answers := s.answers
  assetBlinders := s.m_asset_blinders
  amountBlinders := s.m_amount_blinders

end JadeGetBlindingFactorsActivity

inductive JadeBlindingEvent where
  | response (msg : Fields)
  /-- The event loop makes a call that has been queued. -/
  | deliver

def jadeBlinding : Reactive JadeGetBlindingFactorsActivity JadeBlindingEvent Empty where
  enabled s event :=
    match event with
    | .response _ => ∃ index factor, s.waiting = .response index factor
    | .deliver => ∃ index, s.waiting = .value index ∨ s.waiting = .process index
  next s event :=
    match event, s.waiting with
    | .response msg, .response index factor => s.respond index factor msg
    | .deliver, .value index => s.getBlindingFactor index .amount
    | .deliver, .process index => s.processOutput index (s.m_outputs.drop index)
    | _, _ => s
  emits _ _ := []

namespace JadeGetBlindingFactorsActivity
variable {s : JadeGetBlindingFactorsActivity}

/-- A response is a result, and not an empty one. -/
def Returns (s : JadeGetBlindingFactorsActivity) (event : JadeBlindingEvent) : Prop :=
  match event, s.waiting with
  | .response msg, .response _ _ =>
      msg.contains "error" = false ∧ (msg.value "result").toByteArray ≠ []
  | _, _ => True

/-- How many entries there are, and that the output asked for has a blinding key. -/
def Counted (s : JadeGetBlindingFactorsActivity) (assets amounts : ℕ) : Prop :=
  match s.waiting with
  | .response i .asset =>
      assets = i ∧ amounts = i ∧ ∃ output ∈ s.m_outputs[i]?, output.blinding_key ≠ none
  | .response i .amount =>
      assets = i + 1 ∧ amounts = i ∧ ∃ output ∈ s.m_outputs[i]?, output.blinding_key ≠ none
  | .value i => assets = i + 1 ∧ amounts = i ∧ ∃ output ∈ s.m_outputs[i]?, output.blinding_key ≠ none
  | .process i => assets = i ∧ amounts = i ∧ i ≤ s.m_outputs.length
  | .nothing => assets = s.m_outputs.length ∧ amounts = s.m_outputs.length

/-- What holds of an activity of a device that was connected, whatever it waits for. -/
structure Filled (outputs : List LiquidOutput) (s : JadeGetBlindingFactorsActivity) : Prop where
  same : s.m_outputs = outputs
  failed : s.failed = 0
  assets : AllResults s.answers → Aligned id s.answers .asset outputs s.m_asset_blinders
  amounts : AllResults s.answers → Aligned id s.answers .amount outputs s.m_amount_blinders

structure Tracked (outputs : List LiquidOutput) (s : JadeGetBlindingFactorsActivity) : Prop
    extends Filled outputs s where
  ends : s.finished = if s.waiting = .nothing then 1 else 0
  counted : s.Counted s.m_asset_blinders.length s.m_amount_blinders.length

theorem Tracked.complete {outputs : List LiquidOutput} (h : s.Tracked outputs)
    (hresults : AllResults s.answers) : CompleteOrFailed id outputs s.shown := by
  have hlengths : s.finished = 1 →
      s.m_asset_blinders.length = outputs.length ∧ s.m_amount_blinders.length = outputs.length := by
    intro hfinished
    have hwaiting : s.waiting = .nothing := by
      by_contra hwaiting
      rw [h.ends, if_neg hwaiting] at hfinished
      cases hfinished
    have hcounted := h.counted
    rw [Counted, hwaiting, h.same] at hcounted
    exact hcounted
  refine ⟨?_, fun hrest => ?_, fun _ => hresults, fun hfinished => ?_, fun hfinished => ?_⟩
  · show s.finished + s.failed ≤ 1
    rw [h.ends, h.failed]
    split_ifs <;> omega
  · show s.finished + s.failed = 1
    rw [h.ends, h.failed, if_pos (of_decide_eq_true hrest)]
  · exact ⟨(hlengths hfinished).1, h.assets hresults⟩
  · exact ⟨(hlengths hfinished).2, h.amounts hresults⟩

/-- An output without a blinding key has empty entries; one that has a key is asked for. -/
theorem tracked_processOutput {outputs rest : List LiquidOutput} {index : ℕ}
    (hs : s.Filled outputs) (hfinished : s.finished = 0) (hindex : index ≤ outputs.length)
    (hrest : outputs.drop index = rest) (hassets : s.m_asset_blinders.length = index)
    (hamounts : s.m_amount_blinders.length = index) :
    (processOutput index rest s).Tracked outputs := by
  induction rest generalizing index s with
  | nil =>
      have hlength : index = outputs.length :=
        Nat.le_antisymm hindex (List.drop_eq_nil_iff.mp hrest)
      rw [processOutput]
      refine ⟨⟨hs.same, hs.failed, hs.assets, hs.amounts⟩, ?_, ?_⟩
      · simp [hfinished]
      · simp [Counted, hs.same, hassets, hamounts, hlength]
  | cons output rest ih =>
      have houtput : outputs[index]? = some output := by
        rw [← List.head?_drop, hrest, List.head?_cons]
      have hnext : outputs.drop (index + 1) = rest := by
        rw [← List.tail_drop, hrest, List.tail_cons]
      have hlt : index + 1 ≤ outputs.length := (List.getElem?_eq_some_iff.mp houtput).choose
      rw [processOutput]
      split_ifs with hkey
      · have hempty (factor : BlindingFactor) (other : LiquidOutput) (i : ℕ) (hi : i = index)
            (hother : outputs[i]? = some other) : IsEntry id s.answers factor other i [] := by
          rw [hi, houtput, Option.some.injEq] at hother
          rw [IsEntry, if_pos (hother ▸ hkey)]
        refine ih ⟨hs.same, hs.failed, ?_, ?_⟩ hfinished hlt hnext ?_ ?_
        · intro hresults
          exact (hs.assets hresults).concat fun other hother => hempty .asset other _ hassets hother
        · intro hresults
          exact (hs.amounts hresults).concat fun other hother =>
            hempty .amount other _ hamounts hother
        · simp [hassets]
        · simp [hamounts]
      · refine ⟨⟨hs.same, hs.failed, hs.assets, hs.amounts⟩, ?_, ?_⟩
        · simp [getBlindingFactor, hfinished]
        · simp [Counted, getBlindingFactor, hs.same, hassets, hamounts, houtput, hkey]

theorem isResult_answerOf (msg : Fields) (index : ℕ) (factor : BlindingFactor) :
    (answerOf msg).IsResult (some (index, factor)) ↔
      msg.contains "error" = false ∧ (msg.value "result").toByteArray ≠ [] := by
  rw [answerOf]
  split_ifs with herror
  · exact iff_of_false not_false fun h => absurd herror (by simp [h.1])
  · simp [Answer.IsResult, herror]

/-- The bytes of a result belong to the output that was asked for. -/
theorem isEntry_answerOf {answers : List (Request × Answer)} {msg : Fields} {index : ℕ}
    {factor : BlindingFactor} {output : LiquidOutput} (hkey : output.blinding_key ≠ none)
    (hresults : AllResults (answers ++ [(some (index, factor), answerOf msg)])) :
    IsEntry id (answers ++ [(some (index, factor), answerOf msg)]) factor output index
      (msg.value "result").toByteArray := by
  have hlast : (some (index, factor), answerOf msg) ∈
      answers ++ [(some (index, factor), answerOf msg)] :=
    List.mem_append_right _ (List.mem_singleton_self _)
  have hresult := (isResult_answerOf msg index factor).mp (hresults _ hlast)
  have hanswer : answerOf msg = .result (msg.value "result").toByteArray := by
    rw [answerOf, hresult.1]
    rfl
  rw [IsEntry, if_neg hkey]
  exact ⟨hresult.2, _, hanswer ▸ hlast, rfl⟩

theorem Tracked.respond {outputs : List LiquidOutput} {index : ℕ} {factor : BlindingFactor}
    (h : s.Tracked outputs) (hwaiting : s.waiting = .response index factor) (msg : Fields) :
    (s.respond index factor msg).Tracked outputs := by
  have hcounted := h.counted
  have hends := h.ends
  rw [Counted, hwaiting, h.same] at hcounted
  rw [if_neg (by simp [hwaiting])] at hends
  cases factor with
  | asset =>
      obtain ⟨hassets, hamounts, output, houtput, hkey⟩ := hcounted
      refine ⟨⟨h.same, h.failed, fun hresults => ?_, fun hresults => ?_⟩, hends, ?_⟩
      · apply ((h.assets hresults.left).append _).concat
        intro other hother
        rw [hassets, Option.mem_def.mp houtput, Option.some.injEq] at hother
        rw [hassets]
        exact isEntry_answerOf (hother ▸ hkey) hresults
      · exact (h.amounts hresults.left).append _
      · simp only [JadeGetBlindingFactorsActivity.respond, Counted, List.length_append,
          List.length_singleton, hassets, hamounts, h.same]
        exact ⟨trivial, trivial, output, houtput, hkey⟩
  | amount =>
      obtain ⟨hassets, hamounts, output, houtput, hkey⟩ := hcounted
      refine ⟨⟨h.same, h.failed, fun hresults => ?_, fun hresults => ?_⟩, hends, ?_⟩
      · exact (h.assets hresults.left).append _
      · apply ((h.amounts hresults.left).append _).concat
        intro other hother
        rw [hamounts, Option.mem_def.mp houtput, Option.some.injEq] at hother
        rw [hamounts]
        exact isEntry_answerOf (hother ▸ hkey) hresults
      · have hlt := (List.getElem?_eq_some_iff.mp (Option.mem_def.mp houtput)).choose
        simp only [JadeGetBlindingFactorsActivity.respond, Counted, List.length_append,
          List.length_singleton, hassets, hamounts, h.same]
        exact ⟨trivial, trivial, hlt⟩

theorem Tracked.next {outputs : List LiquidOutput} {event : JadeBlindingEvent}
    (h : s.Tracked outputs) (henabled : jadeBlinding.enabled s event) :
    (jadeBlinding.next s event).Tracked outputs := by
  cases event with
  | response msg =>
      obtain ⟨index, factor, hwaiting⟩ := henabled
      have hnext : jadeBlinding.next s (.response msg) = s.respond index factor msg := by
        simp [jadeBlinding, hwaiting]
      rw [hnext]
      exact h.respond hwaiting msg
  | deliver =>
      obtain ⟨index, hwaiting | hwaiting⟩ := henabled
      · have hnext : jadeBlinding.next s .deliver = s.getBlindingFactor index .amount := by
          simp [jadeBlinding, hwaiting]
        have hcounted := h.counted
        rw [Counted, hwaiting] at hcounted
        rw [hnext]
        refine ⟨⟨h.same, h.failed, h.assets, h.amounts⟩, ?_, hcounted⟩
        simp [getBlindingFactor, h.ends, hwaiting]
      · have hnext : jadeBlinding.next s .deliver =
            s.processOutput index (s.m_outputs.drop index) := by
          simp [jadeBlinding, hwaiting]
        have hcounted := h.counted
        rw [Counted, hwaiting, h.same] at hcounted
        rw [hnext, h.same]
        exact tracked_processOutput h.toFilled (by simp [h.ends, hwaiting]) hcounted.2.2 rfl
          hcounted.1 hcounted.2.1

theorem answers_processOutput (index : ℕ) (rest : List LiquidOutput)
    (s : JadeGetBlindingFactorsActivity) : (processOutput index rest s).answers = s.answers := by
  induction rest generalizing index s with
  | nil => rfl
  | cons output rest ih =>
      rw [processOutput]
      split_ifs
      · exact ih _ _
      · rfl

/-- The answers are results as long as the responses are. -/
theorem allResults_next (s : JadeGetBlindingFactorsActivity) (event : JadeBlindingEvent) :
    AllResults (jadeBlinding.next s event).answers ↔ AllResults s.answers ∧ s.Returns event := by
  cases event with
  | response msg =>
      cases hwaiting : s.waiting with
      | response index factor =>
          have hnext : (jadeBlinding.next s (.response msg)).answers =
              s.answers ++ [(some (index, factor), answerOf msg)] := by
            cases factor <;> simp [jadeBlinding, hwaiting, respond]
          have hreturns : s.Returns (.response msg) ↔
              msg.contains "error" = false ∧ (msg.value "result").toByteArray ≠ [] := by
            simp [Returns, hwaiting]
          rw [hnext, hreturns, ← isResult_answerOf msg index factor, AllResults, AllResults,
            List.forall_mem_append, List.forall_mem_singleton]
      | value index => simp [jadeBlinding, hwaiting, Returns]
      | process index => simp [jadeBlinding, hwaiting, Returns]
      | nothing => simp [jadeBlinding, hwaiting, Returns]
  | deliver =>
      have hnext : (jadeBlinding.next s .deliver).answers = s.answers := by
        cases hwaiting : s.waiting <;>
          simp [jadeBlinding, hwaiting, getBlindingFactor, answers_processOutput]
      have hreturns : s.Returns .deliver := trivial
      rw [hnext, and_iff_left hreturns]

theorem tracked_exec (getHashPrevouts : Bytes → List UInt32 → Bytes) (inputs : List LiquidInput)
    (outputs : List LiquidOutput) : (exec getHashPrevouts inputs outputs true).Tracked outputs := by
  have hempty (factor : BlindingFactor) : Aligned id [] factor outputs [] := by
    intro i output entry _ hentry
    cases hentry
  exact tracked_processOutput
    ⟨rfl, rfl, fun _ => hempty .asset, fun _ => hempty .amount⟩ rfl (Nat.zero_le _) rfl rfl rfl

theorem answers_exec (getHashPrevouts : Bytes → List UInt32 → Bytes) (inputs : List LiquidInput)
    (outputs : List LiquidOutput) (connected : Bool) :
    (exec getHashPrevouts inputs outputs connected).answers = [] := by
  cases connected with
  | false => rfl
  | true => exact answers_processOutput 0 outputs _

/-- Nothing happens when the device is not connected. -/
theorem not_enabled_exec {getHashPrevouts : Bytes → List UInt32 → Bytes}
    {inputs : List LiquidInput} {outputs : List LiquidOutput} {event : JadeBlindingEvent} :
    ¬ jadeBlinding.enabled (exec getHashPrevouts inputs outputs false) event := by
  cases event with
  | response msg =>
      intro ⟨index, factor, hwaiting⟩
      cases hwaiting
  | deliver =>
      rintro ⟨index, hwaiting | hwaiting⟩ <;> cases hwaiting

theorem waiting_of_ended (h : ∀ event, ¬ jadeBlinding.enabled s event) : s.waiting = .nothing := by
  cases hwaiting : s.waiting with
  | response index factor => exact absurd ⟨index, factor, hwaiting⟩ (h (.response []))
  | value index => exact absurd ⟨index, .inl hwaiting⟩ (h .deliver)
  | process index => exact absurd ⟨index, .inr hwaiting⟩ (h .deliver)
  | nothing => rfl

/-- An activity that has come to its end is complete exactly if all responses were results. -/
theorem jade_completes_iff (getHashPrevouts : Bytes → List UInt32 → Bytes) (inputs : List LiquidInput)
    (outputs : List LiquidOutput) (connected : Bool) {events : List JadeBlindingEvent}
    (hends : jadeBlinding.Ends (exec getHashPrevouts inputs outputs connected) events) :
    jadeBlinding.Always (fun s => CompleteOrFailed id outputs s.shown)
        (exec getHashPrevouts inputs outputs connected) events ↔
      jadeBlinding.Along Returns (exec getHashPrevouts inputs outputs connected) events := by
  obtain ⟨hevents, hrest⟩ := hends
  replace hrest := waiting_of_ended hrest
  have hempty : AllResults (exec getHashPrevouts inputs outputs connected).answers := by
    rw [answers_exec]
    exact fun _ h => absurd h List.not_mem_nil
  have hresults (es : List JadeBlindingEvent) :=
    Reactive.run_iff_along (R := jadeBlinding) (J := fun _ => True) (P := Returns)
      (I := fun s => AllResults s.answers) (fun _ _ _ => trivial)
      (fun s event _ => allResults_next s event) (s := exec getHashPrevouts inputs outputs connected)
      trivial es
  simp only [hempty, true_and] at hresults
  cases connected with
  | false =>
      cases events with
      | nil =>
          refine iff_of_true ⟨Nat.le_refl 1, fun _ => rfl, fun h => ?_, fun h => ?_, fun h => ?_⟩
            trivial
          all_goals cases h
      | cons event events => exact absurd hevents.1 not_enabled_exec
  | true =>
      have htracked {es : List JadeBlindingEvent}
          (hes : jadeBlinding.Valid (exec getHashPrevouts inputs outputs true) es) :=
        Reactive.run_invariant (I := Tracked outputs) (fun s event h he => h.next he)
          (tracked_exec getHashPrevouts inputs outputs) hes
      constructor
      · intro h
        have hfinished := (htracked hevents).ends
        rw [if_pos hrest] at hfinished
        exact (hresults events).mp (h.last.results hfinished)
      · intro h
        rw [Reactive.always_iff]
        rintro fs gs rfl
        obtain ⟨hvalid, -⟩ := (jadeBlinding.along_append _ _ fs gs).mp hevents
        obtain ⟨hreturns, -⟩ := (jadeBlinding.along_append _ _ fs gs).mp h
        exact (htracked hvalid).complete ((hresults fs).mpr hreturns)

end JadeGetBlindingFactorsActivity
end GreenWallet.Devices
