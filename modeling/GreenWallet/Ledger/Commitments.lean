import GreenWallet.Ledger.FitsLiquid

/-!
# The balance of the blinding factors

The device chooses the blinding factors of all blinded outputs but one. The last value
blinding factor is computed from those before it, so that the transaction balances. Which
output gets it is decided by where the output stands in the list.
-/
namespace GreenWallet.Ledger

/-- What `getLiquidCommitment` does about a blinded output. -/
inductive LiquidRequest where
  /-- The device is to choose both factors. -/
  | random (output_index : ℕ) (output : LiquidOutput)
  | assetBlinder (output_index : ℕ)
  /-- `wally_asset_final_vbf` is called with the lists, and the device gets the result. -/
  | finalVbf (output_index : ℕ) (output : LiquidOutput) (s : Commitments)

namespace LiquidRequest

def randomIndex? : LiquidRequest → Option ℕ
  | .random output_index _ => some output_index
  | _ => none

def finalVbf? : LiquidRequest → Option (ℕ × Commitments)
  | .finalVbf output_index _ s => some (output_index, s)
  | _ => none

end LiquidRequest

/-- The indices of the blinded outputs, from an index on. -/
def blindedIndices (output_index : ℕ) : List LiquidOutput → List ℕ
  | [] => []
  | output :: rest =>
      if output.blinding_key = none then blindedIndices (output_index + 1) rest
      else output_index :: blindedIndices (output_index + 1) rest

theorem le_of_mem_blindedIndices {output_index k : ℕ} {outputs : List LiquidOutput}
    (h : k ∈ blindedIndices output_index outputs) : output_index ≤ k := by
  induction outputs generalizing output_index with
  | nil => cases h
  | cons output rest ih =>
      rw [blindedIndices] at h
      split_ifs at h
      · exact Nat.le_of_succ_le (ih h)
      · rcases List.mem_cons.mp h with rfl | h
        · exact Nat.le_refl k
        · exact Nat.le_of_succ_le (ih h)

theorem nodup_blindedIndices (output_index : ℕ) (outputs : List LiquidOutput) :
    (blindedIndices output_index outputs).Nodup := by
  induction outputs generalizing output_index with
  | nil => exact List.nodup_nil
  | cons output rest ih =>
      rw [blindedIndices]
      split_ifs
      · exact ih (output_index + 1)
      · refine List.nodup_cons.mpr ⟨?_, ih (output_index + 1)⟩
        intro h
        exact absurd (le_of_mem_blindedIndices h) (Nat.not_succ_le_self output_index)

namespace Commitments

/-- As many values as blinding factors of each kind. -/
def Even (s : Commitments) : Prop :=
  s.m_values.length = s.m_abfs.length ∧ s.m_values.length = s.m_vbfs.length

/-- There is a value blinding factor less than there are values. -/
def Awaits (s : Commitments) : Prop :=
  s.m_values.length = s.m_abfs.length ∧ s.m_values.length = s.m_vbfs.length + 1

end Commitments

namespace LedgerSignLiquidTransactionActivity
variable (activity : LedgerSignLiquidTransactionActivity)
  (assetFinalVbf : List UInt64 → ℕ → Bytes → Bytes → Bytes32)

/-- The command that a request is made with. -/
def command : LiquidRequest → Bytes
  | .random output_index output =>
      apdu BTCHIP_CLA BTCHIP_INS_GET_LIQUID_COMMITMENTS 0x01 0x00
        (commitmentData output output_index [])
  | .assetBlinder output_index =>
      apdu BTCHIP_CLA BTCHIP_INS_GET_LIQUID_BLINDING_FACTOR 0x01 0x00 (bigIndex output_index)
  | .finalVbf output_index output s =>
      apdu BTCHIP_CLA BTCHIP_INS_GET_LIQUID_COMMITMENTS 0x02 0x00
        (commitmentData output output_index (assetFinalVbf s.m_values activity.m_inputs.length
          s.m_abfs.flatten s.m_vbfs.flatten).1)

/-- What `getLiquidCommitment` does, with the responses that the device has given so far. -/
def liquidRequests (output_index : ℕ) :
    List LiquidOutput → Commitments → List Bytes → List LiquidRequest
  | [], _, _ => []
  | output :: rest, s, responses =>
      if output.blinding_key = none then
        liquidRequests (output_index + 1) rest { s with m_commitments := s.m_commitments ++ [[]] }
          responses
      else if output_index + 2 = activity.m_outputs.length then
        match responses with
        | [] => [.assetBlinder output_index]
        | abf :: responses =>
            let s := { s with m_values := s.m_values ++ [output.satoshi], m_abfs := s.m_abfs ++ [abf] }
            let final_vbf := assetFinalVbf s.m_values activity.m_inputs.length s.m_abfs.flatten
              s.m_vbfs.flatten
            match responses with
            | [] => [.assetBlinder output_index, .finalVbf output_index output s]
            | commitment :: responses =>
                .assetBlinder output_index :: .finalVbf output_index output s ::
                liquidRequests (output_index + 1) rest
                  { s with
                    m_vbfs := s.m_vbfs ++ [final_vbf.1]
                    m_commitments := s.m_commitments ++ [commitment] } responses
      else
        match responses with
        | [] => [.random output_index output]
        | response :: responses =>
            .random output_index output ::
            liquidRequests (output_index + 1) rest
              { m_values := s.m_values ++ [output.satoshi]
                m_commitments := s.m_commitments ++ [response]
                m_abfs := s.m_abfs ++ [response.take 32]
                m_vbfs := s.m_vbfs ++ [(response.drop 32).take 32] } responses

variable {activity assetFinalVbf}

/-- These are the commands that are made. -/
theorem getLiquidCommitment_eq {output_index : ℕ} {outputs : List LiquidOutput} {s : Commitments}
    {responses : List Bytes} :
    (activity.getLiquidCommitment assetFinalVbf output_index outputs s responses).1 =
      (activity.liquidRequests assetFinalVbf output_index outputs s responses).map
        (activity.command assetFinalVbf) := by
  induction outputs generalizing output_index s responses with
  | nil => rfl
  | cons output rest ih =>
      cases responses with
      | nil =>
          rw [getLiquidCommitment, liquidRequests]
          split_ifs
          · exact ih
          · rfl
          · rfl
      | cons first responses =>
          cases responses with
          | nil =>
              rw [getLiquidCommitment, liquidRequests]
              split_ifs
              · exact ih
              · rfl
              · simp only [ih, List.map_cons, command]
          | cons second responses =>
              rw [getLiquidCommitment, liquidRequests]
              split_ifs
              · exact ih
              · simp only [ih, List.map_cons, command]
              · simp only [ih, List.map_cons, command]

/-- The device chooses at all blinded outputs but one in the last place but one, for which the
last factor is computed. -/
structure Splits (activity : LedgerSignLiquidTransactionActivity) (blinded : List ℕ)
    (requests : List LiquidRequest) : Prop where
  random : requests.filterMap LiquidRequest.randomIndex? =
    blinded.filter fun k => k + 2 ≠ activity.m_outputs.length
  final : (requests.filterMap LiquidRequest.finalVbf?).map Prod.fst =
    blinded.filter fun k => k + 2 = activity.m_outputs.length
  awaits : ∀ call ∈ requests.filterMap LiquidRequest.finalVbf?, call.2.Awaits

namespace Splits
variable {blinded : List ℕ} {requests : List LiquidRequest} {output_index : ℕ}

theorem cons_random (h : Splits activity blinded requests) (output : LiquidOutput)
    (hplace : output_index + 2 ≠ activity.m_outputs.length) :
    Splits activity (output_index :: blinded) (.random output_index output :: requests) where
  random := by
    rw [List.filter_cons_of_pos (by simpa using hplace), ← h.random]
    rfl
  final := by
    rw [List.filter_cons_of_neg (by simpa using hplace), ← h.final]
    rfl
  awaits := h.awaits

theorem cons_final (h : Splits activity blinded requests) (output : LiquidOutput)
    {s : Commitments} (hs : s.Awaits) (hplace : output_index + 2 = activity.m_outputs.length) :
    Splits activity (output_index :: blinded)
      (.assetBlinder output_index :: .finalVbf output_index output s :: requests) where
  random := by
    rw [List.filter_cons_of_neg (by simpa using hplace), ← h.random]
    rfl
  final := by
    rw [List.filter_cons_of_pos (by simpa using hplace), ← h.final]
    rfl
  awaits := by
    intro call hcall
    rcases List.mem_cons.mp hcall with rfl | hcall
    · exact hs
    · exact h.awaits call hcall

end Splits

theorem splits_liquidRequests {output_index : ℕ} {outputs : List LiquidOutput} {s : Commitments}
    {responses : List Bytes}
    (hresponses : activity.commitmentRequests output_index outputs ≤ responses.length)
    (hs : s.Even) : Splits activity (blindedIndices output_index outputs)
      (activity.liquidRequests assetFinalVbf output_index outputs s responses) := by
  induction outputs generalizing output_index s responses with
  | nil => exact ⟨rfl, rfl, fun call hcall => absurd hcall List.not_mem_nil⟩
  | cons output rest ih =>
      rw [blindedIndices]
      rw [commitmentRequests] at hresponses
      by_cases hblinded : output.blinding_key = none
      · rw [if_pos hblinded, Nat.zero_add] at hresponses
        rw [if_pos hblinded]
        have hrest := ih (s := { s with m_commitments := s.m_commitments ++ [[]] }) hresponses hs
        rcases responses with _ | ⟨first, _ | ⟨second, responses⟩⟩ <;>
          rwa [liquidRequests, if_pos hblinded]
      · rw [if_neg hblinded] at hresponses
        rw [if_neg hblinded]
        by_cases hplace : output_index + 2 = activity.m_outputs.length
        · rw [if_pos hplace] at hresponses
          rcases responses with _ | ⟨first, _ | ⟨second, responses⟩⟩
          · simp at hresponses
          · simp only [List.length_cons, List.length_nil] at hresponses
            omega
          · rw [liquidRequests, if_neg hblinded, if_pos hplace]
            apply Splits.cons_final _ output _ hplace
            · apply ih
              · simp only [List.length_cons] at hresponses
                omega
              · exact ⟨by simp [hs.1], by simp [hs.2]⟩
            · refine ⟨?_, ?_⟩
              · simp [hs.1]
              · simp [hs.2]
        · rw [if_neg hplace] at hresponses
          have hrest (first : Bytes) (responses : List Bytes)
              (hlength : activity.commitmentRequests (output_index + 1) rest ≤ responses.length) :=
            ih (s := { m_values := s.m_values ++ [output.satoshi]
                       m_commitments := s.m_commitments ++ [first]
                       m_abfs := s.m_abfs ++ [first.take 32]
                       m_vbfs := s.m_vbfs ++ [(first.drop 32).take 32] }) hlength
              ⟨by simp [hs.1], by simp [hs.2]⟩
          rcases responses with _ | ⟨first, _ | ⟨second, responses⟩⟩
          · simp at hresponses
          · rw [liquidRequests, if_neg hblinded, if_neg hplace]
            simp only [List.length_cons, List.length_nil] at hresponses
            exact (hrest first [] (by simp; omega)).cons_random output hplace
          · rw [liquidRequests, if_neg hblinded, if_neg hplace]
            simp only [List.length_cons] at hresponses
            exact (hrest first (second :: responses) (by simp; omega)).cons_random output hplace

/-- What `exec` begins with. -/
def firstCommitments (activity : LedgerSignLiquidTransactionActivity) : Commitments where
  m_values := activity.m_inputs.map LiquidInput.satoshi
  m_abfs := activity.m_inputs.map fun input => input.assetblinder.reverse
  m_vbfs := activity.m_inputs.map fun input => input.amountblinder.reverse

/-- The device chooses at all blinded outputs but the last, whose value blinding factor is
computed once, from lists that lack just this factor. -/
structure BalancesLast (activity : LedgerSignLiquidTransactionActivity)
    (requests : List LiquidRequest) : Prop where
  random : requests.filterMap LiquidRequest.randomIndex? =
    (blindedIndices 0 activity.m_outputs).dropLast
  final : ∃ output_index s, requests.filterMap LiquidRequest.finalVbf? = [(output_index, s)] ∧
    (blindedIndices 0 activity.m_outputs).getLast? = some output_index ∧ s.Awaits

/-- Numbers that are different: the last one is filtered out exactly by being the only one. -/
theorem filter_getLast {numbers : List ℕ} {last : ℕ} (hnodup : numbers.Nodup)
    (hlast : numbers.getLast? = some last) :
    numbers.filter (fun k => k ≠ last) = numbers.dropLast ∧
      numbers.filter (fun k => k = last) = [last] := by
  obtain ⟨front, rfl⟩ := List.getLast?_eq_some_iff.mp hlast
  have hfront : ∀ k ∈ front, k ≠ last := by
    intro k hk hsame
    exact (List.nodup_append.mp hnodup).2.2 k hk last List.mem_cons_self hsame
  have hkept : front.filter (fun k => k ≠ last) = front :=
    List.filter_eq_self.mpr fun k hk => by simpa using hfront k hk
  have hnone : front.filter (fun k => k = last) = [] :=
    List.filter_eq_nil_iff.mpr fun k hk => by simpa using hfront k hk
  constructor
  · rw [List.filter_append, hkept, List.dropLast_concat]
    simp
  · rw [List.filter_append, hnone]
    simp

/-- The last blinded output gets the balance exactly if it is the last output but one. -/
theorem balancesLast_iff {responses : List Bytes}
    (hblinded : blindedIndices 0 activity.m_outputs ≠ [])
    (hresponses : activity.commitmentRequests 0 activity.m_outputs ≤ responses.length) :
    BalancesLast activity (activity.liquidRequests assetFinalVbf 0 activity.m_outputs
        activity.firstCommitments responses) ↔
      ∀ last ∈ (blindedIndices 0 activity.m_outputs).getLast?,
        last + 2 = activity.m_outputs.length := by
  have heven : activity.firstCommitments.Even := by
    constructor <;> simp [firstCommitments]
  have hsplits := @splits_liquidRequests activity assetFinalVbf _ _ _ _ hresponses heven
  generalize activity.liquidRequests assetFinalVbf 0 activity.m_outputs activity.firstCommitments
    responses = requests at hsplits ⊢
  constructor
  · intro h last hlast
    obtain ⟨output_index, s, hrequests, hfinal, -⟩ := h.final
    obtain rfl : output_index = last := Option.some_inj.mp (hfinal.symm.trans hlast)
    have hindices := hsplits.final
    rw [hrequests] at hindices
    have hmem : output_index ∈ (blindedIndices 0 activity.m_outputs).filter
        fun k => k + 2 = activity.m_outputs.length := hindices ▸ List.mem_cons_self
    exact of_decide_eq_true (List.mem_filter.mp hmem).2
  · intro h
    obtain ⟨last, hlast⟩ := Option.ne_none_iff_exists'.mp (List.getLast?_eq_none_iff.not.mpr hblinded)
    have hplace := h last hlast
    have hsame (k : ℕ) : k + 2 = activity.m_outputs.length ↔ k = last := by omega
    obtain ⟨hdrop, hsingle⟩ := filter_getLast (nodup_blindedIndices 0 activity.m_outputs) hlast
    have hfinal := hsplits.final
    simp only [hsame] at hfinal
    rw [hsingle] at hfinal
    obtain ⟨call, hcalls, hindex⟩ := List.map_eq_singleton_iff.mp hfinal
    refine ⟨?_, last, call.2, ?_, hlast, ?_⟩
    · have hrandom := hsplits.random
      simp only [ne_eq, hsame] at hrandom
      rw [hrandom, ← hdrop]
    · rw [hcalls, ← hindex]
    · exact hsplits.awaits call (hcalls ▸ List.mem_cons_self)

def blindedOutput : LiquidOutput := ⟨some [2], 1000, ⟨List.replicate 32 7, rfl⟩, [3], [0, 20]⟩

def feeOutput : LiquidOutput := ⟨none, 30, ⟨List.replicate 32 7, rfl⟩, [], []⟩

def liquidInput : LiquidInput := ⟨[1], 0, some [8], 0, [], 2030, [1], [2], []⟩

/-- A payment and change, and the fee behind them. -/
theorem balancesLast_iff_feeLast :
    blindedIndices 0 [blindedOutput, blindedOutput, feeOutput] ≠ [] ∧
      (BalancesLast ⟨2, 0, [liquidInput], [blindedOutput, blindedOutput, feeOutput]⟩
          (liquidRequests ⟨2, 0, [liquidInput], [blindedOutput, blindedOutput, feeOutput]⟩
            (fun _ _ _ _ => ⟨List.replicate 32 0, rfl⟩) 0
            [blindedOutput, blindedOutput, feeOutput]
            (firstCommitments ⟨2, 0, [liquidInput], [blindedOutput, blindedOutput, feeOutput]⟩)
            [[1], [2], [3]]) ↔
        ∀ last ∈ (blindedIndices 0 [blindedOutput, blindedOutput, feeOutput]).getLast?,
          last + 2 = 3) :=
  ⟨by decide, @balancesLast_iff ⟨2, 0, [liquidInput], [blindedOutput, blindedOutput, feeOutput]⟩ _ _
    (by decide) (by decide)⟩

/-- A payment that is not blinded stands between the change and the fee. -/
theorem not_balancesLast_unblindedPayment :
    blindedIndices 0 [blindedOutput, feeOutput, feeOutput] ≠ [] ∧
      ¬ BalancesLast ⟨2, 0, [liquidInput], [blindedOutput, feeOutput, feeOutput]⟩
        (liquidRequests ⟨2, 0, [liquidInput], [blindedOutput, feeOutput, feeOutput]⟩
          (fun _ _ _ _ => ⟨List.replicate 32 0, rfl⟩) 0 [blindedOutput, feeOutput, feeOutput]
          (firstCommitments ⟨2, 0, [liquidInput], [blindedOutput, feeOutput, feeOutput]⟩)
          [[1], [2], [3]]) := by
  refine ⟨by decide, fun h => ?_⟩
  have hrandom : [0] = [] := h.random
  cases hrandom

end LedgerSignLiquidTransactionActivity
end GreenWallet.Ledger
