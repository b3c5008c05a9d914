import Mathlib.Data.List.DropRight

/-!
# Tokens of a text

A text is trimmed at both ends and split at the runs of separators. What is trimmed and
what separates need not be the same characters.
-/
namespace GreenWallet.Library

variable {α : Type*}

/-- The parts between the runs of separators, with an empty one where a run is at an end
of the text. The last separator of a run ends a part. -/
def splitRuns (separates : α → Bool) : List α → List (List α)
  | [] => [[]]
  | c :: cs =>
      if separates c then
        if cs.head?.any separates then splitRuns separates cs
        else [] :: splitRuns separates cs
      else (splitRuns separates cs).modifyHead (List.cons c)

def trim (blank : α → Bool) (s : List α) : List α := (s.dropWhile blank).rdropWhile blank

def tokens (blank separates : α → Bool) (s : List α) : List (List α) :=
  splitRuns separates (trim blank s)

theorem splitRuns_of_none {separates : α → Bool} {s : List α}
    (h : ∀ c ∈ s, separates c = false) : splitRuns separates s = [s] := by
  induction s with
  | nil => rfl
  | cons c cs ih =>
      have hc := h c List.mem_cons_self
      rw [splitRuns, ih fun d hd => h d (List.mem_cons_of_mem c hd)]
      simp [hc]

/-- A part holds no separator. -/
theorem not_separates_of_mem {separates : α → Bool} {s t : List α}
    (h : t ∈ splitRuns separates s) : ∀ c ∈ t, separates c = false := by
  induction s generalizing t with
  | nil =>
      have ht : t = [] := List.mem_singleton.mp h
      simp [ht]
  | cons c cs ih =>
      rw [splitRuns] at h
      split_ifs at h with hc hrun
      · exact ih h
      · rcases List.mem_cons.mp h with hfirst | hrest
        · simp [hfirst]
        · exact ih hrest
      · cases hparts : splitRuns separates cs with
        | nil => simp [hparts] at h
        | cons p ps =>
            rw [hparts] at h ih
            rw [List.modifyHead_cons] at h
            rcases List.mem_cons.mp h with hfirst | hrest
            · intro d hd
              rw [hfirst] at hd
              rcases List.mem_cons.mp hd with hdc | hdp
              · rw [hdc]
                exact Bool.eq_false_iff.mpr hc
              · exact ih List.mem_cons_self d hdp
            · exact ih (List.mem_cons_of_mem p hrest)

theorem mem_of_mem_trim {blank : α → Bool} {s : List α} {c : α} (h : c ∈ trim blank s) :
    c ∈ s :=
  (List.dropWhile_sublist blank).subset ((List.rdropWhile_prefix blank _).subset h)

/-- A token is the one token of itself, up to what is trimmed. -/
theorem tokens_of_mem_tokens {blank separates : α → Bool} {s t : List α}
    (h : t ∈ tokens blank separates s) : tokens blank separates t = [trim blank t] :=
  splitRuns_of_none fun c hc => not_separates_of_mem h c (mem_of_mem_trim hc)

end GreenWallet.Library
