import GreenWallet.Controllers.Convert

/-!
# Checking what was typed as an address

`AddressValidationController` has the text the user typed checked by every network of
the deployment at once. Each validation that finishes appends its result to one list,
which a new text empties; when no group of validations is left, what the results say
is put together and shown. A validation of an earlier text that is still running
appends to the same list.
-/
namespace GreenWallet.Controllers
open GreenWallet.Library
open Std (ExtTreeMap)

structure Addressee where
  address : String := ""
  asset_id : String := ""
  /-- Where `bip21-params` is an object. -/
  bip21_params : Option (List (String × String)) := none
  satoshi : String := ""
  btc : String := ""
deriving DecidableEq

/-- The result of a `ValidateTask`, as `update` reads it. -/
structure ValidationResult where
  status : String := ""
  is_valid : Bool := false
  errors : List String := []
  network : String := ""
  addressees : List Addressee := []
deriving DecidableEq

/-- A validation: what is checked, for which network, in which group. -/
structure Validation where
  address : String
  asset_id : Option String
  network : String
  group : ℕ
deriving DecidableEq

structure AddressValidationController where
  input : String := ""
  /-- The results, each with the validation it comes from. -/
  results : List (Validation × ValidationResult) := []
  networks : List Network := []
  address : String := ""
  amount : ExtTreeMap String String := ∅
  bip21 : List (String × String) := []
  asset : Option String := none
  errors : List String := []

namespace AddressValidationController

/-- One round of the loop of `update`, with the errors of the invalid results. -/
def merge (network : String → Network) (c : AddressValidationController × List String)
    (result : ValidationResult) : AddressValidationController × List String :=
  let (c, errors) := c
  if result.status ≠ "done" then (c, errors)
  else if !result.is_valid then
    (c, result.errors.foldl (fun errors error => errors.insert error) errors)
  else
    let network := network result.network
    let c := { c with networks := c.networks ++ [network] }
    match result.addressees with
    | [] => (c, errors)
    | address :: _ =>
        let asset :=
          if network.isLiquid then
            if address.asset_id.isEmpty then c.asset else some address.asset_id
          else some "btc"
        let bip21 :=
          match address.bip21_params with
          | some params => params
          | none => c.bip21
        let amount :=
          if !address.satoshi.isEmpty then c.amount.insert "satoshi" address.satoshi
          else if !address.btc.isEmpty then
            c.amount.insert (if asset.isSome then "text" else "btc") address.btc
          else c.amount
        ({ c with address := address.address, asset := asset, bip21 := bip21, amount := amount },
          errors)

/-- What the results say, put together from scratch. -/
def update (network : String → Network) (c : AddressValidationController) :
    AddressValidationController :=
  let cleared :=
    { c with networks := [], address := "", amount := ∅, bip21 := [], asset := none, errors := [] }
  let (merged, errors) := (c.results.map Prod.snd).foldl (merge network) (cleared, [])
  if merged.networks.isEmpty then { merged with errors := errors } else merged

end AddressValidationController

/-- The controller, the groups its monitor watches, and the validations in flight. -/
structure Validations where
  controller : AddressValidationController := {}
  monitor : List ℕ := []
  groups : ℕ := 0
  jobs : Jobs Validation := {}

inductive ValidationEvent where
  | setInput (input : String)
  | finished (job : ℕ) (result : ValidationResult)
  | failed (job : ℕ)
  /-- A pass of the dispatcher finds a group finished. -/
  | groupFinished (group : ℕ)
  /-- A pass of the dispatcher finds a group failed; its tasks may still come back. -/
  | groupFailed (group : ℕ)

inductive ValidationOutput where
  | updated
deriving DecidableEq

section
variable (networks : List Network) (deployment : Network → Bool)

/-- `NetworkManager::network`. -/
def networkOf (id : String) : Network := (networks.find? fun network => network.id == id).getD {}

namespace Validations

def setInput (input : String) (s : Validations) : Validations :=
  if s.controller.input = input then s
  else
    let validations := (networks.filter deployment).map fun network : Network =>
      { address := input
        asset_id := if network.isLiquid then some network.policyAsset else none
        network := network.id
        group := s.groups : Validation }
    { controller := { s.controller with input := input, results := [] }
      monitor := s.monitor ++ [s.groups]
      groups := s.groups + 1
      jobs := validations.foldl (fun jobs validation => jobs.launch validation) s.jobs }

/-- `TaskGroupMonitor::remove`, and `update` when no group is left. -/
def removeGroup (group : ℕ) (s : Validations) : Validations × List ValidationOutput :=
  if group ∈ s.monitor then
    let s := { s with monitor := s.monitor.erase group }
    if s.monitor.isEmpty then
      ({ s with controller := s.controller.update (networkOf networks) }, [.updated])
    else (s, [])
  else (s, [])

def handle (s : Validations) : ValidationEvent → Validations × List ValidationOutput
  | .setInput input => (s.setInput networks deployment input, [])
  | .finished job result =>
      match s.jobs.find job with
      | none => (s, [])
      | some validation =>
          ({ s with
              jobs := s.jobs.finish job
              controller := { s.controller with
                results := s.controller.results ++ [(validation, result)] } }, [])
  | .failed job => ({ s with jobs := s.jobs.finish job }, [])
  | .groupFinished group | .groupFailed group => s.removeGroup networks group

end Validations

def validations : Reactive Validations ValidationEvent ValidationOutput where
  enabled := fun s e =>
    match e with
    | .setInput _ => True
    | .finished job _ | .failed job => (s.jobs.find job).isSome = true
    | .groupFinished group =>
        group ∈ s.monitor ∧ ∀ job ∈ s.jobs.inFlight, job.2.group ≠ group
    | .groupFailed group => group ∈ s.monitor
  next := fun s e => (s.handle networks deployment e).1
  emits := fun s e => (s.handle networks deployment e).2

instance (s : Validations) (e : ValidationEvent) :
    Decidable ((validations networks deployment).enabled s e) := by
  cases e <;> simp only [validations] <;> infer_instance

namespace AddressValidationController

/-- A round reads the list of results no more than it changes it. -/
theorem merge_results (network : String → Network) (c : AddressValidationController)
    (errors : List String) (result : ValidationResult)
    (results : List (Validation × ValidationResult)) :
    merge network ({ c with results := results }, errors) result =
      ({ (merge network (c, errors) result).1 with results := results },
        (merge network (c, errors) result).2) := by
  simp only [merge]
  by_cases hdone : result.status ≠ "done"
  · simp only [if_pos hdone]
  · simp only [if_neg hdone]
    cases result.is_valid with
    | false => rfl
    | true => cases result.addressees <;> rfl

theorem merge_kept (network : String → Network) (c : AddressValidationController × List String)
    (result : ValidationResult) :
    (merge network c result).1.input = c.1.input ∧
      (merge network c result).1.results = c.1.results := by
  simp only [merge]
  by_cases hdone : result.status ≠ "done"
  · rw [if_pos hdone]
    exact ⟨rfl, rfl⟩
  · rw [if_neg hdone]
    cases result.is_valid with
    | false => exact ⟨rfl, rfl⟩
    | true => cases result.addressees <;> exact ⟨rfl, rfl⟩

theorem merge_skip {network : String → Network} {c : AddressValidationController × List String}
    {result : ValidationResult} (h : result.status ≠ "done") : merge network c result = c := by
  simp only [merge, if_pos h]

theorem foldl_merge_kept (network : String → Network)
    (c : AddressValidationController × List String) (results : List ValidationResult) :
    (results.foldl (merge network) c).1.input = c.1.input ∧
      (results.foldl (merge network) c).1.results = c.1.results := by
  induction results generalizing c with
  | nil => exact ⟨rfl, rfl⟩
  | cons result results ih =>
      obtain ⟨hinput, hresults⟩ := merge_kept network c result
      rw [List.foldl_cons, (ih _).1, (ih _).2]
      exact ⟨hinput, hresults⟩

theorem foldl_merge_results (network : String → Network)
    (results : List (Validation × ValidationResult)) (merged : List ValidationResult)
    (c : AddressValidationController) (errors : List String) :
    merged.foldl (merge network) ({ c with results := results }, errors) =
      ({ (merged.foldl (merge network) (c, errors)).1 with results := results },
        (merged.foldl (merge network) (c, errors)).2) := by
  induction merged generalizing c errors with
  | nil => rfl
  | cons result merged ih =>
      rw [List.foldl_cons, merge_results, ih]
      rfl

/-- Results that are not done might as well be absent. -/
theorem foldl_merge_filter (network : String → Network)
    (p : Validation × ValidationResult → Bool) (results : List (Validation × ValidationResult))
    (hp : ∀ entry ∈ results, entry.2.status = "done" → p entry = true)
    (c : AddressValidationController × List String) :
    ((results.filter p).map Prod.snd).foldl (merge network) c =
      (results.map Prod.snd).foldl (merge network) c := by
  induction results generalizing c with
  | nil => rfl
  | cons entry results ih =>
      have hrest := ih fun other hmem => hp other (List.mem_cons_of_mem _ hmem)
      rw [List.filter_cons]
      split_ifs with hkept
      · exact hrest _
      · have hskip : entry.2.status ≠ "done" :=
          fun hdone => hkept (hp entry List.mem_cons_self hdone)
        rw [List.map_cons, List.foldl_cons, merge_skip hskip]
        exact hrest c

theorem update_kept (network : String → Network) (c : AddressValidationController) :
    (c.update network).input = c.input ∧ (c.update network).results = c.results := by
  have h := foldl_merge_kept network
    ({ c with networks := [], address := "", amount := ∅, bip21 := [], asset := none, errors := [] },
      []) (c.results.map Prod.snd)
  simp only [update]
  split_ifs <;> exact h

/-- What is shown is what the results that are done say. -/
theorem update_filter (network : String → Network) (c : AddressValidationController)
    (p : Validation × ValidationResult → Bool)
    (hp : ∀ entry ∈ c.results, entry.2.status = "done" → p entry = true) :
    { c with results := c.results.filter p }.update network =
      { c.update network with results := c.results.filter p } := by
  simp only [update]
  rw [foldl_merge_results network (c.results.filter p) _
    { c with networks := [], address := "", amount := ∅, bip21 := [], asset := none, errors := [] },
    foldl_merge_filter network p c.results hp]
  split_ifs <;> rfl

end AddressValidationController

variable {networks deployment}

namespace Validations

/-- A result of another text than the one that is set is among those to be shown. -/
def Mixed (s : Validations) : Prop :=
  ∃ entry ∈ s.controller.results, entry.2.status = "done" ∧ entry.1.address ≠ s.controller.input

/-- A validation of another text than the one that is set comes back. -/
def Stale (s : Validations) (e : ValidationEvent) : Prop :=
  ∃ job validation result, e = .finished job result ∧ s.jobs.find job = some validation ∧
    result.status = "done" ∧ validation.address ≠ s.controller.input

/-- Another text is set. -/
def Retyped (s : Validations) (e : ValidationEvent) : Prop :=
  ∃ input, e = .setInput input ∧ input ≠ s.controller.input

theorem removeGroup_kept (networks : List Network) (group : ℕ) (s : Validations) :
    (s.removeGroup networks group).1.controller.input = s.controller.input ∧
      (s.removeGroup networks group).1.controller.results = s.controller.results := by
  simp only [removeGroup]
  split_ifs
  · exact AddressValidationController.update_kept _ _
  · exact ⟨rfl, rfl⟩
  · exact ⟨rfl, rfl⟩

theorem mixed_next (s : Validations) (e : ValidationEvent) :
    ((validations networks deployment).next s e).Mixed ↔ Stale s e ∨ s.Mixed ∧ ¬ Retyped s e := by
  cases e with
  | setInput input =>
      simp only [validations, handle, setInput, Stale, Retyped, reduceCtorEq, false_and,
        exists_false, false_or, ValidationEvent.setInput.injEq, exists_eq_left']
      split_ifs with hsame
      · simp [hsame]
      · have hne : input ≠ s.controller.input := fun h => hsame h.symm
        simp [Mixed, hne]
  | finished job result =>
      cases hjob : s.jobs.find job with
      | none => simp [validations, handle, Stale, Retyped, hjob]
      | some validation =>
          simp only [validations, handle, hjob, Mixed, Stale, Retyped, reduceCtorEq, false_and,
            exists_false, not_false_eq_true, and_true, ValidationEvent.finished.injEq]
          constructor
          · intro ⟨entry, hmem, hdone, haddress⟩
            rcases List.mem_append.mp hmem with hmem | hmem
            · exact .inr ⟨entry, hmem, hdone, haddress⟩
            · rw [List.mem_singleton.mp hmem] at hdone haddress
              exact .inl ⟨job, validation, result, ⟨rfl, rfl⟩, hjob, hdone, haddress⟩
          · rintro (⟨_, _, _, ⟨rfl, rfl⟩, hfind, hdone, haddress⟩ | ⟨entry, hmem, hrest⟩)
            · rw [hjob, Option.some.injEq] at hfind
              exact ⟨(validation, result), List.mem_append_right _ List.mem_cons_self, hdone,
                hfind ▸ haddress⟩
            · exact ⟨entry, List.mem_append_left _ hmem, hrest⟩
  | failed job => simp [validations, handle, Mixed, Stale, Retyped]
  | groupFinished group | groupFailed group =>
      obtain ⟨hinput, hresults⟩ := removeGroup_kept networks group s
      simp [validations, handle, Mixed, Stale, Retyped, hinput, hresults]

end Validations

variable (networks deployment)

/-- What is shown is put together from results of the text that is set. -/
def ShowsOwnResults (s : Validations) (e : ValidationEvent) : Prop :=
  .updated ∈ (validations networks deployment).emits s e →
    ∀ entry ∈ s.controller.results, entry.2.status = "done" →
      entry.1.address = s.controller.input

/-- No validation of an earlier text comes back between a change of the text and the next
`updated`. -/
def NoneCrosses (es : List ValidationEvent) : Prop :=
  ∀ fs e gs, es = fs ++ e :: gs →
    .updated ∈ (validations networks deployment).emits
        ((validations networks deployment).run {} fs) e →
      ¬ (validations networks deployment).Since Validations.Stale Validations.Retyped {} fs

variable {networks deployment}

/-- **Validation of the input.** Whenever `updated` is emitted along a run, what is shown
comes of the text that is set, exactly if no validation crosses a change of the text. -/
theorem showsOwnResults_iff (es : List ValidationEvent) :
    (validations networks deployment).Along (ShowsOwnResults networks deployment) {} es ↔
      NoneCrosses networks deployment es := by
  have hsince : ∀ fs, ((validations networks deployment).run {} fs).Mixed ↔
      (validations networks deployment).Since Validations.Stale Validations.Retyped {} fs := by
    intro fs
    apply Reactive.iff_since (J := fun _ => True) (V := fun _ _ => True)
    · intros
      trivial
    · intro s e _ _
      exact Validations.mixed_next s e
    · trivial
    · intro ⟨entry, hmem, _⟩
      cases hmem
    · exact Reactive.along_of_at fun _ _ _ _ => trivial
  constructor
  · intro h fs e gs hsplit hupdated hstale
    obtain ⟨entry, hmem, hdone, haddress⟩ := (hsince fs).mpr hstale
    rw [hsplit] at h
    exact haddress (h.at fs hupdated entry hmem hdone)
  · intro h
    apply Reactive.along_of_at
    intro fs e gs hsplit hupdated entry hmem hdone
    by_contra haddress
    exact h fs e gs hsplit hupdated ((hsince fs).mp ⟨entry, hmem, hdone, haddress⟩)

/-- What is shown is then what the results of that text alone say. -/
theorem updated_own {s : Validations} {e : ValidationEvent}
    (h : ShowsOwnResults networks deployment s e)
    (hupdated : .updated ∈ (validations networks deployment).emits s e)
    (network : String → Network) :
    let own := s.controller.results.filter fun entry => entry.1.address == s.controller.input
    { s.controller with results := own }.update network =
      { s.controller.update network with results := own } := by
  apply AddressValidationController.update_filter
  intro entry hmem hdone
  exact beq_iff_eq.mpr (h hupdated entry hmem hdone)

/-- The result for a text that is an address. -/
def validResult (address : String) : ValidationResult where
  status := "done"
  is_valid := true
  network := "mainnet"
  addressees := [{ address := address }]

/-- Two texts in a row; the first validation comes back after the second text is set. -/
def crossing : List ValidationEvent :=
  [.setInput "first", .setInput "second", .finished 0 (validResult "first"),
    .finished 1 (validResult "second"), .groupFinished 0]

theorem not_showsOwnResults_crossing :
    (validations [{ id := "mainnet" }] fun _ => true).Valid {}
        (crossing ++ [.groupFinished 1]) ∧
      ¬ (validations [{ id := "mainnet" }] fun _ => true).Along
        (ShowsOwnResults [{ id := "mainnet" }] fun _ => true) {}
        (crossing ++ [.groupFinished 1]) := by
  refine ⟨by decide, ?_⟩
  intro h
  have hupdated : ValidationOutput.updated ∈ (validations [{ id := "mainnet" }] fun _ => true).emits
      ((validations [{ id := "mainnet" }] fun _ => true).run {} crossing) (.groupFinished 1) := by
    decide
  have hresults : ((validations [{ id := "mainnet" }] fun _ => true).run {}
      crossing).controller.results =
        [({ address := "first", asset_id := none, network := "mainnet", group := 0 },
            validResult "first"),
          ({ address := "second", asset_id := none, network := "mainnet", group := 1 },
            validResult "second")] := by decide
  have hinput : ((validations [{ id := "mainnet" }] fun _ => true).run {}
      crossing).controller.input = "second" := by decide
  have hown := h.at crossing hupdated
  rw [hresults, hinput] at hown
  exact absurd (hown _ List.mem_cons_self rfl) (by decide)

end
end GreenWallet.Controllers
