import GreenWallet.Controllers.BCURSubmission

/-!
# Scanning again

When a decode fails, or something else is scanned, the task is dropped, but what has been
read stays read. Whatever is scanned again is passed over, where a new controller would
start with it.
-/
namespace GreenWallet.Controllers
open GreenWallet.Library

namespace BCURController

/-- All that the controller does in a run. -/
def effects (s : BCURController) (es : List BCUREvent) : List BCUREffect :=
  (bcur.trace s es).flatMap fun step => step.2.2

/-- The event ends the decode without a result. -/
def Discards (s : BCURController) (e : BCUREvent) : Prop :=
  ∃ data, .dataDiscarded data ∈ bcur.emits s e

theorem next_seen (s : BCURController) : s.next.1.seen = s.seen := by
  rw [next]
  split
  · split_ifs <;> rfl
  · rfl

theorem answer_seen (s : BCURController) (task : DecodeTask) (reply : DecodeReply) :
    (s.answer task reply).1.seen = s.seen := by
  cases reply with
  | failed | notConnected => rfl
  | error | done => exact s.next_seen
  | resolveCode method progress =>
      obtain ⟨shown, hask⟩ := ask_eq s task method progress
      rw [answer, hask, next_seen]

/-- Answers add nothing to what has been read. -/
theorem called_seen (s : BCURController) (reply : DecodeReply) :
    (s.called reply).1.seen = s.seen := by
  rw [called]
  cases s.task with
  | none => rfl
  | some task => exact answer_seen _ _ _

theorem resolved_seen (s : BCURController) (reply : DecodeReply) :
    (s.resolved reply).1.seen = s.seen := by
  rw [resolved]
  cases s.task with
  | none => rfl
  | some task => exact answer_seen _ _ _

theorem start_seen (s : BCURController) : s.start.seen = s.seen := by
  rw [start]
  cases s.task <;> rfl

theorem process_seen (s : BCURController) (data : String) :
    (s.process data).1.seen =
      if s.decoded = true ∨ data ∈ s.seen then s.seen else s.seen ++ [data] := by
  rw [process]
  by_cases hdecoded : s.decoded = true
  · rw [if_pos hdecoded, if_pos (.inl hdecoded)]
  by_cases hseen : data ∈ s.seen
  · rw [if_neg hdecoded, if_pos hseen, if_pos (.inr hseen)]
  have hpassed : ¬ (s.decoded = true ∨ data ∈ s.seen) := fun h => h.elim hdecoded hseen
  rw [if_neg hdecoded, if_neg hseen, if_neg hpassed]
  by_cases hur : isUR data = true
  · rw [if_pos hur, take]
    split_ifs
    · exact next_seen _
    · rfl
  · rw [if_neg hur]
    rfl

/-- Nothing that has been read is forgotten. -/
theorem seen_prefix_handle (s : BCURController) (e : BCUREvent) :
    s.seen <+: (s.handle e).1.seen := by
  cases e with
  | process data =>
      rw [handle, process_seen]
      split_ifs
      · exact List.prefix_refl _
      · exact List.prefix_append _ _
  | start => exact (start_seen s).symm ▸ List.prefix_refl s.seen
  | called reply => exact (called_seen s reply).symm ▸ List.prefix_refl s.seen
  | resolved reply => exact (resolved_seen s reply).symm ▸ List.prefix_refl s.seen

theorem seen_of_handle {s : BCURController} {e : BCUREvent} (h : (s.handle e).1.seen = []) :
    s.seen = [] := by
  have hprefix := s.seen_prefix_handle e
  rw [h] at hprefix
  exact List.prefix_nil.mp hprefix

/-- There is no task before something has been read. -/
def Blank (s : BCURController) : Prop := s.seen = [] → s.task = none

theorem Blank.handle {s : BCURController} (h : s.Blank) (e : BCUREvent) : (s.handle e).1.Blank := by
  intro hempty
  have hbefore := seen_of_handle hempty
  have hnone := h hbefore
  cases e with
  | process data =>
      rw [BCURController.handle, process_seen] at hempty
      split_ifs at hempty with hpassed
      · rw [BCURController.handle, process]
        rcases hpassed with hdecoded | hseen
        · rw [if_pos hdecoded]
          exact hnone
        · rw [hbefore] at hseen
          cases hseen
      · simp at hempty
  | start =>
      rw [BCURController.handle, start, hnone]
      exact hnone
  | called reply =>
      rw [BCURController.handle, called, hnone]
      exact hnone
  | resolved reply =>
      rw [BCURController.handle, resolved, hnone]
      exact hnone

/-- A decode that ends without a result has read something. -/
theorem seen_of_discards {s : BCURController} (h : s.Blank) {e : BCUREvent} (he : s.Discards e) :
    (s.handle e).1.seen ≠ [] := by
  intro hempty
  have hbefore := seen_of_handle hempty
  have hnone := h hbefore
  obtain ⟨data, hdata⟩ := he
  cases e with
  | process other =>
      rw [handle, process_seen] at hempty
      split_ifs at hempty with hpassed
      · have hquiet : (s.process other).2 = [] := by
          rw [process]
          rcases hpassed with hdecoded | hseen
          · rw [if_pos hdecoded]
          · rw [hbefore] at hseen
            cases hseen
        have hmem : .dataDiscarded data ∈ (s.process other).2 := hdata
        rw [hquiet] at hmem
        cases hmem
      · simp at hempty
  | start => cases hdata
  | called reply =>
      have hmem : .dataDiscarded data ∈ (s.called reply).2 := hdata
      rw [called, hnone] at hmem
      cases hmem
  | resolved reply =>
      have hmem : .dataDiscarded data ∈ (s.resolved reply).2 := hdata
      rw [resolved, hnone] at hmem
      cases hmem

/-- What has been read is passed over. -/
theorem process_of_mem {s : BCURController} {data : String} (h : data ∈ s.seen) :
    s.process data = (s, []) := by
  rw [process]
  split_ifs <;> rfl

/-- Scanning again what has been read does nothing at all. -/
theorem rescan {s : BCURController} (parts : List String) (h : ∀ part ∈ parts, part ∈ s.seen) :
    bcur.run s (parts.map .process) = s ∧ s.effects (parts.map .process) = [] := by
  induction parts with
  | nil => exact ⟨rfl, rfl⟩
  | cons part parts ih =>
      have hpassed := process_of_mem (h part List.mem_cons_self)
      have hnext : bcur.next s (.process part) = s := congrArg Prod.fst hpassed
      have hemits : bcur.emits s (.process part) = [] := congrArg Prod.snd hpassed
      obtain ⟨hrun, hquiet⟩ := ih fun other hother => h other (List.mem_cons_of_mem part hother)
      constructor
      · rw [List.map_cons, Reactive.run_cons, hnext]
        exact hrun
      · rw [effects, List.map_cons, Reactive.trace, hnext, List.flatMap_cons, hemits,
          List.nil_append]
        exact hquiet

/-- A new controller reacts to whatever is scanned first. -/
theorem effects_fresh (data : String) : effects {} [.process data] ≠ [] := by
  have hprocess : (process data {}).2 ≠ [] := by
    rw [process, if_neg Bool.false_ne_true, if_neg List.not_mem_nil]
    split_ifs <;> simp [take, see]
  rw [effects, Reactive.trace, Reactive.trace, List.flatMap_cons, List.flatMap_nil,
    List.append_nil]
  exact hprocess

/-- However a decode has ended without a result, the controller does not go on like a new
one: there is something that it passes over. -/
theorem not_fresh_after_discard (es : List BCUREvent) (e : BCUREvent)
    (hes : bcur.Valid {} (es ++ [e])) (hdiscards : (bcur.run {} es).Discards e) :
    ¬ ∀ fs : List BCUREvent, effects (bcur.run {} (es ++ [e])) fs = effects {} fs := by
  intro hsame
  have hblank : (bcur.run {} es).Blank :=
    Reactive.run_invariant (fun s e hs _ => hs.handle e) (fun _ => rfl)
      ((bcur.along_append _ _ es [e]).mp hes).1
  obtain ⟨data, seen, hseen⟩ := List.exists_cons_of_ne_nil (seen_of_discards hblank hdiscards)
  have hmem : data ∈ (bcur.run {} (es ++ [e])).seen := by
    rw [Reactive.run_concat]
    exact hseen ▸ List.mem_cons_self
  apply effects_fresh data
  rw [← hsame]
  exact (rescan [data] (by simpa using hmem)).2

/-- After a code that is no part, one of the parts fails to be decoded. -/
theorem not_fresh_after_failure :
    ¬ ∀ fs : List BCUREvent,
      effects (bcur.run {} ([.process "bitcoin:x", .process "ur:a", .start] ++ [.called .failed])) fs =
        effects {} fs :=
  not_fresh_after_discard [.process "bitcoin:x", .process "ur:a", .start] (.called .failed)
    (by decide +kernel) ⟨"ur:a", by decide +kernel⟩

/-- A part that has failed is scanned once more. -/
theorem failed_part_ignored :
    ¬ ∀ (es : List BCUREvent) (e : BCUREvent), bcur.Valid {} (es ++ [e]) →
      (bcur.run {} es).Discards e →
      ∀ fs : List BCUREvent, effects (bcur.run {} (es ++ [e])) fs = effects {} fs := by
  intro h
  have hsame := h [.process "ur:a", .start] (.called .failed) (by decide +kernel)
    ⟨"ur:a", by decide +kernel⟩ [.process "ur:a"]
  exact absurd hsame (by decide +kernel)

end BCURController
end GreenWallet.Controllers
