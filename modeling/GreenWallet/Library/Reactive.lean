import Mathlib.Data.List.Basic
import Mathlib.Data.List.Induction

/-!
# Reactive components and their runs

A reactive component answers every event of its environment by a next state and
a list of effects. The environment is not free: `enabled` says which events it
can produce in a state, for instance an answer only to a request in flight. A
run is a list of events; a law of the component is a predicate on the single
step, lifted to every step of a run by `Along`.
-/
namespace GreenWallet.Library

structure Reactive (σ ε ω : Type*) where
  enabled : σ → ε → Prop
  next : σ → ε → σ
  emits : σ → ε → List ω

namespace Reactive
variable {σ ε ω : Type*} (R : Reactive σ ε ω)

def run (s : σ) (es : List ε) : σ := es.foldl R.next s

/-- The step predicate holds at every step of the run. -/
def Along (P : σ → ε → Prop) : σ → List ε → Prop
  | _, [] => True
  | s, e :: es => P s e ∧ Along P (R.next s e) es

instance Along.decidable (P : σ → ε → Prop) [∀ s e, Decidable (P s e)] :
    ∀ (s : σ) (es : List ε), Decidable (R.Along P s es)
  | _, [] => isTrue trivial
  | s, e :: es =>
      have : Decidable (R.Along P (R.next s e) es) := Along.decidable P (R.next s e) es
      inferInstanceAs (Decidable (P s e ∧ R.Along P (R.next s e) es))

/-- The runs the environment can produce. -/
def Valid : σ → List ε → Prop := R.Along R.enabled

instance Valid.decidable [∀ s e, Decidable (R.enabled s e)] (s : σ) (es : List ε) :
    Decidable (R.Valid s es) :=
  inferInstanceAs (Decidable (R.Along R.enabled s es))

/-- The runs that cannot go on. -/
def Ends (s : σ) (es : List ε) : Prop := R.Valid s es ∧ ∀ e, ¬ R.enabled (R.run s es) e

/-- The effects of a run, each event paired with the state it was handled in. -/
def trace : σ → List ε → List (σ × ε × List ω)
  | _, [] => []
  | s, e :: es => (s, e, R.emits s e) :: trace (R.next s e) es

@[simp] theorem run_nil (s : σ) : R.run s [] = s := rfl

@[simp] theorem run_cons (s : σ) (e : ε) (es : List ε) :
    R.run s (e :: es) = R.run (R.next s e) es := rfl

theorem run_append (s : σ) (es fs : List ε) :
    R.run s (es ++ fs) = R.run (R.run s es) fs := List.foldl_append

@[simp] theorem run_concat (s : σ) (es : List ε) (e : ε) :
    R.run s (es ++ [e]) = R.next (R.run s es) e := run_append R s es [e]

theorem trace_append (s : σ) (es fs : List ε) :
    R.trace s (es ++ fs) = R.trace s es ++ R.trace (R.run s es) fs := by
  induction es generalizing s with
  | nil => rfl
  | cons e es ih => simp only [List.cons_append, trace, ih, run_cons]

theorem trace_concat (s : σ) (es : List ε) (e : ε) :
    R.trace s (es ++ [e]) = R.trace s es ++ [(R.run s es, e, R.emits (R.run s es) e)] :=
  trace_append R s es [e]

theorem mem_trace {s : σ} {es : List ε} {step : σ × ε × List ω} (h : step ∈ R.trace s es) :
    ∃ fs gs, es = fs ++ step.2.1 :: gs ∧ step.1 = R.run s fs ∧
      step.2.2 = R.emits step.1 step.2.1 := by
  induction es generalizing s with
  | nil => cases h
  | cons e es ih =>
      rcases List.mem_cons.mp h with rfl | h
      · exact ⟨[], es, rfl, rfl, rfl⟩
      · obtain ⟨fs, gs, hsplit, hstate, hemits⟩ := ih h
        exact ⟨e :: fs, gs, by rw [hsplit, List.cons_append], hstate, hemits⟩

@[simp] theorem along_nil (P : σ → ε → Prop) (s : σ) : R.Along P s [] := trivial

@[simp] theorem along_cons (P : σ → ε → Prop) (s : σ) (e : ε) (es : List ε) :
    R.Along P s (e :: es) ↔ P s e ∧ R.Along P (R.next s e) es := Iff.rfl

theorem along_append (P : σ → ε → Prop) (s : σ) (es fs : List ε) :
    R.Along P s (es ++ fs) ↔ R.Along P s es ∧ R.Along P (R.run s es) fs := by
  induction es generalizing s with
  | nil => simp
  | cons e es ih => simp only [List.cons_append, along_cons, run_cons, ih, and_assoc]

theorem along_iff_along {P Q : σ → ε → Prop} (h : ∀ s e, P s e ↔ Q s e) (s : σ) (es : List ε) :
    R.Along P s es ↔ R.Along Q s es := by
  induction es generalizing s with
  | nil => simp
  | cons e es ih => rw [along_cons, along_cons, h, ih]

variable {R}

/-- The step that follows a given prefix of the run. -/
theorem Along.at {P : σ → ε → Prop} {s : σ} (es : List ε) {e : ε} {fs : List ε}
    (h : R.Along P s (es ++ e :: fs)) : P (R.run s es) e :=
  ((R.along_append P s es (e :: fs)).mp h).2.1

theorem along_of_at {P : σ → ε → Prop} {s : σ} {es : List ε}
    (h : ∀ fs e gs, es = fs ++ e :: gs → P (R.run s fs) e) : R.Along P s es := by
  induction es generalizing s with
  | nil => trivial
  | cons e es ih =>
      refine ⟨h [] e es rfl, ih ?_⟩
      intro fs e' gs he
      exact h (e :: fs) e' gs (by rw [he]; rfl)

theorem Along.imp {P Q : σ → ε → Prop} (himp : ∀ s e, P s e → Q s e) {s : σ} {es : List ε}
    (h : R.Along P s es) : R.Along Q s es := by
  induction es generalizing s with
  | nil => trivial
  | cons e es ih => exact ⟨himp s e h.1, ih h.2⟩

/-- An invariant of the single step holds at the end of every run. -/
theorem run_invariant {I : σ → Prop} {P : σ → ε → Prop}
    (hstep : ∀ s e, I s → P s e → I (R.next s e)) {s : σ} {es : List ε}
    (hs : I s) (hes : R.Along P s es) : I (R.run s es) := by
  induction es generalizing s with
  | nil => exact hs
  | cons e es ih => exact ih (hstep s e hs hes.1) hes.2

/-- A relation between what has happened and the state, kept by every step. -/
theorem run_history (R : Reactive σ ε ω) {I : List ε → σ → Prop} {s : σ} (h₀ : I [] s) {es : List ε}
    (hstep : ∀ fs e gs, es = fs ++ e :: gs → I fs (R.run s fs) →
      I (fs ++ [e]) (R.next (R.run s fs) e)) : I es (R.run s es) := by
  induction es using List.reverseRecOn with
  | nil => exact h₀
  | append_singleton es e ih =>
      have hpre : I es (R.run s es) := by
        apply ih
        intro fs e' gs he hI
        exact hstep fs e' (gs ++ [e]) (by rw [he]; simp) hI
      have hlast := hstep es e [] rfl hpre
      rwa [run_concat]

/-- Two step predicates that agree under an invariant hold along the same runs. -/
theorem along_congr {I : σ → Prop} {P Q V : σ → ε → Prop}
    (hstep : ∀ s e, I s → V s e → I (R.next s e))
    (hPQ : ∀ s e, I s → V s e → (P s e ↔ Q s e)) {s : σ} {es : List ε}
    (hs : I s) (hes : R.Along V s es) : R.Along P s es ↔ R.Along Q s es := by
  induction es generalizing s with
  | nil => simp
  | cons e es ih =>
      rw [along_cons, along_cons, hPQ s e hs hes.1, ih (hstep s e hs hes.1) hes.2]

/-- Two step predicates that agree under an invariant hold along the same runs, also if only
steps that meet them keep the invariant. -/
theorem along_iff_along_of_keeps {I : σ → Prop} {P Q V : σ → ε → Prop}
    (hstep : ∀ s e, I s → V s e → Q s e → I (R.next s e))
    (hPQ : ∀ s e, I s → V s e → (P s e ↔ Q s e)) {s : σ} {es : List ε}
    (hs : I s) (hes : R.Along V s es) : R.Along P s es ↔ R.Along Q s es := by
  induction es generalizing s with
  | nil => simp
  | cons e es ih =>
      rw [along_cons, along_cons, hPQ s e hs hes.1]
      constructor
      · intro ⟨hQ, hrest⟩
        exact ⟨hQ, (ih (hstep s e hs hes.1 hQ) hes.2).mp hrest⟩
      · intro ⟨hQ, hrest⟩
        exact ⟨hQ, (ih (hstep s e hs hes.1 hQ) hes.2).mpr hrest⟩

/-- A property that a step keeps exactly when it meets a condition is kept by a run
exactly when all its steps meet it. -/
theorem run_iff_along {I J : σ → Prop} {P : σ → ε → Prop}
    (hJ : ∀ s e, J s → J (R.next s e)) (hI : ∀ s e, J s → (I (R.next s e) ↔ I s ∧ P s e))
    {s : σ} (hs : J s) (es : List ε) : I (R.run s es) ↔ I s ∧ R.Along P s es := by
  induction es generalizing s with
  | nil => simp
  | cons e es ih => rw [run_cons, along_cons, ih (hJ s e hs), hI s e hs, and_assoc]

/-- The property holds in every state of the run. -/
def Always (R : Reactive σ ε ω) (A : σ → Prop) : σ → List ε → Prop
  | s, [] => A s
  | s, e :: es => A s ∧ Always R A (R.next s e) es

theorem always_iff {A : σ → Prop} {s : σ} {es : List ε} :
    R.Always A s es ↔ ∀ fs gs, es = fs ++ gs → A (R.run s fs) := by
  induction es generalizing s with
  | nil =>
      constructor
      · intro h fs gs hsplit
        rw [(List.append_eq_nil_iff.mp hsplit.symm).1]
        exact h
      · intro h
        exact h [] [] rfl
  | cons e es ih =>
      unfold Always
      rw [ih]
      constructor
      · intro ⟨hs, hes⟩ fs gs hsplit
        cases fs with
        | nil => exact hs
        | cons f fs =>
            obtain ⟨rfl, htail⟩ := List.cons_eq_cons.mp hsplit
            exact hes fs gs htail
      · intro h
        exact ⟨h [] (e :: es) rfl, fun fs gs hsplit => h (e :: fs) gs (by rw [hsplit]; rfl)⟩

theorem Always.last {A : σ → Prop} {s : σ} {es : List ε} (h : R.Always A s es) :
    A (R.run s es) := always_iff.mp h es [] (List.append_nil es).symm

/-- A property that a step establishes exactly when it meets a condition holds in every
state of a run exactly when all steps meet it, also if only such steps keep what is known. -/
theorem always_iff_along_of_keeps {J A : σ → Prop} {P V : σ → ε → Prop}
    (hJ : ∀ s e, J s → V s e → P s e → J (R.next s e))
    (hA : ∀ s e, J s → V s e → A s → (A (R.next s e) ↔ P s e)) {s : σ} {es : List ε}
    (hs : J s) (hAs : A s) (hes : R.Along V s es) : R.Always A s es ↔ R.Along P s es := by
  induction es generalizing s with
  | nil => exact iff_of_true hAs trivial
  | cons e es ih =>
      have hstep := hA s e hs hes.1 hAs
      unfold Always
      rw [along_cons]
      constructor
      · intro ⟨_, hnext⟩
        have hAnext : A (R.next s e) := always_iff.mp hnext [] es rfl
        have hP := hstep.mp hAnext
        exact ⟨hP, (ih (hJ s e hs hes.1 hP) hAnext hes.2).mp hnext⟩
      · intro ⟨hP, hrest⟩
        exact ⟨hAs, (ih (hJ s e hs hes.1 hP) (hstep.mpr hP) hes.2).mpr hrest⟩

/-- A property that a step establishes exactly when it meets a condition holds in every
state of a run exactly when all steps meet it. -/
theorem always_iff_along {J A : σ → Prop} {P V : σ → ε → Prop}
    (hJ : ∀ s e, J s → V s e → J (R.next s e))
    (hA : ∀ s e, J s → V s e → A s → (A (R.next s e) ↔ P s e)) {s : σ} {es : List ε}
    (hs : J s) (hAs : A s) (hes : R.Along V s es) : R.Always A s es ↔ R.Along P s es :=
  always_iff_along_of_keeps (fun s e hs he _ => hJ s e hs he) hA hs hAs hes

/-- Some step of the run meets `Q`, and no later one meets `K`. -/
def Since (R : Reactive σ ε ω) (Q K : σ → ε → Prop) (s : σ) (es : List ε) : Prop :=
  ∃ fs e gs, es = fs ++ e :: gs ∧ Q (R.run s fs) e ∧
    R.Along (fun s e => ¬ K s e) (R.next (R.run s fs) e) gs

theorem not_since_nil {Q K : σ → ε → Prop} {s : σ} : ¬ R.Since Q K s [] := by
  intro ⟨fs, e, gs, hsplit, _⟩
  cases fs <;> cases hsplit

theorem since_concat {Q K : σ → ε → Prop} {s : σ} {es : List ε} {e : ε} :
    R.Since Q K s (es ++ [e]) ↔
      Q (R.run s es) e ∨ R.Since Q K s es ∧ ¬ K (R.run s es) e := by
  constructor
  · intro ⟨fs, f, gs, hsplit, hQ, hK⟩
    rcases List.eq_nil_or_concat gs with rfl | ⟨gs, g, rfl⟩
    · obtain ⟨rfl, hlast⟩ := List.append_inj' hsplit rfl
      obtain ⟨rfl, -⟩ := List.cons_eq_cons.mp hlast
      exact .inl hQ
    · rw [List.concat_eq_append] at hsplit hK
      rw [← List.cons_append, ← List.append_assoc] at hsplit
      obtain ⟨rfl, hlast⟩ := List.append_inj' hsplit rfl
      obtain ⟨rfl, -⟩ := List.cons_eq_cons.mp hlast
      have hKs := (R.along_append _ _ gs [e]).mp hK
      refine .inr ⟨⟨fs, f, gs, rfl, hQ, hKs.1⟩, ?_⟩
      rw [run_append]
      exact hKs.2.1
  · rintro (hQ | ⟨⟨fs, f, gs, rfl, hQ, hK⟩, hlast⟩)
    · exact ⟨es, e, [], rfl, hQ, trivial⟩
    · rw [run_append] at hlast
      exact ⟨fs, f, gs ++ [e], by simp, hQ, (R.along_append _ _ gs [e]).mpr ⟨hK, hlast, trivial⟩⟩

theorem Since.imp {Q Q' K K' : σ → ε → Prop} {s : σ} {es : List ε} (h : R.Since Q K s es)
    (hQ : ∀ s e, Q s e → Q' s e) (hK : ∀ s e, K' s e → K s e) : R.Since Q' K' s es := by
  obtain ⟨fs, e, gs, hsplit, hstep, hkept⟩ := h
  exact ⟨fs, e, gs, hsplit, hQ _ e hstep, hkept.imp fun s e hnot hK' => hnot (hK s e hK')⟩

theorem since_or {Q Q' K : σ → ε → Prop} {s : σ} {es : List ε} :
    R.Since (fun s e => Q s e ∨ Q' s e) K s es ↔ R.Since Q K s es ∨ R.Since Q' K s es := by
  constructor
  · rintro ⟨fs, e, gs, hsplit, hQ | hQ, hkept⟩
    · exact .inl ⟨fs, e, gs, hsplit, hQ, hkept⟩
    · exact .inr ⟨fs, e, gs, hsplit, hQ, hkept⟩
  · rintro (h | h)
    · exact h.imp (fun _ _ => .inl) fun _ _ => id
    · exact h.imp (fun _ _ => .inr) fun _ _ => id

/-- Two that are both the last of one kind of step are the same step. -/
theorem Since.meet {Q Q' K : σ → ε → Prop} (hQ : ∀ s e, Q s e → K s e)
    (hQ' : ∀ s e, Q' s e → K s e) {s : σ} {es : List ε} (h : R.Since Q K s es)
    (h' : R.Since Q' K s es) : ∃ s e, Q s e ∧ Q' s e := by
  induction es using List.reverseRecOn with
  | nil => exact absurd h not_since_nil
  | append_singleton es e ih =>
      rcases since_concat.mp h with hlast | ⟨hinit, hnot⟩
      · rcases since_concat.mp h' with hlast' | ⟨-, hnot⟩
        · exact ⟨_, e, hlast, hlast'⟩
        · exact absurd (hQ _ e hlast) hnot
      · rcases since_concat.mp h' with hlast' | ⟨hinit', -⟩
        · exact absurd (hQ' _ e hlast') hnot
        · exact ih hinit hinit'

/-- A kind of step that has happened has a last one. -/
theorem Since.last {Q K K' : σ → ε → Prop} (hQ : ∀ s e, Q s e → K' s e) {s : σ} {es : List ε}
    (h : R.Since Q K s es) : R.Since K' K' s es := by
  induction es using List.reverseRecOn with
  | nil => exact absurd h not_since_nil
  | append_singleton es e ih =>
      rw [since_concat]
      by_cases hlast : K' (R.run s es) e
      · exact .inl hlast
      · rcases since_concat.mp h with hnow | ⟨hinit, -⟩
        · exact absurd (hQ _ e hnow) hlast
        · exact .inr ⟨ih hinit, hlast⟩

/-- A property that steps with `Q` establish and all but steps with `K` keep holds in the
end exactly if `Q` has happened and `K` has not since. -/
theorem iff_since {J I : σ → Prop} {Q K V : σ → ε → Prop}
    (hJ : ∀ s e, J s → V s e → J (R.next s e))
    (hI : ∀ s e, J s → V s e → (I (R.next s e) ↔ Q s e ∨ I s ∧ ¬ K s e)) {s : σ} {es : List ε}
    (hs : J s) (hIs : ¬ I s) (hes : R.Along V s es) : I (R.run s es) ↔ R.Since Q K s es := by
  induction es using List.reverseRecOn with
  | nil => exact iff_of_false hIs not_since_nil
  | append_singleton es e ih =>
      obtain ⟨hinit, hlast⟩ := (R.along_append V s es [e]).mp hes
      rw [run_concat, since_concat, ← ih hinit]
      exact hI _ e (run_invariant hJ hs hinit) hlast.1

/-- A slot, filled only with what is set at the time, holds what is set in the end exactly if it
was not filled under other inputs and then left as it is. -/
theorem current_iff_not_since {α : Type*} (shown inputs : σ → Option α) {Q : α → σ → ε → Prop}
    {K V : σ → ε → Prop}
    (hshown : ∀ a s e, V s e →
      (shown (R.next s e) = some a ↔ Q a s e ∨ shown s = some a ∧ ¬ K s e))
    {s : σ} {es : List ε} (hs : shown s = none) (hes : R.Along V s es)
    (hfilled : R.Along (fun s e => ∀ a, Q a s e → inputs s = some a) s es) :
    (∀ a, shown (R.run s es) = some a → inputs (R.run s es) = some a) ↔
      ¬ R.Since (fun s' e => (∃ a, Q a s' e) ∧ inputs s' ≠ inputs (R.run s es)) K s es := by
  have hsince : ∀ a, shown (R.run s es) = some a ↔ R.Since (Q a) K s es := by
    intro a
    apply iff_since (I := fun s => shown s = some a) (J := fun _ => True) _ _ trivial _ hes
    · intros
      trivial
    · intro s e _ he
      exact hshown a s e he
    · rw [hs]
      exact fun h => nomatch h
  constructor
  · rintro hcurrent ⟨fs, e, gs, rfl, ⟨⟨a, hQ⟩, hother⟩, hkept⟩
    have hnow := hcurrent a ((hsince a).mpr ⟨fs, e, gs, rfl, hQ, hkept⟩)
    exact hother ((hfilled.at fs a hQ).trans hnow.symm)
  · intro hnot a ha
    obtain ⟨fs, e, gs, rfl, hQ, hkept⟩ := (hsince a).mp ha
    by_contra hother
    refine hnot ⟨fs, e, gs, rfl, ⟨⟨a, hQ⟩, ?_⟩, hkept⟩
    rw [hfilled.at fs a hQ]
    exact Ne.symm hother

/-- A step predicate that agrees with a condition on what has happened, so long as all steps have
met it, holds along a run exactly if the condition is met throughout. -/
theorem along_iff_forall {P : σ → ε → Prop} {C : List ε → ε → Prop} {s : σ} {es : List ε}
    (h : ∀ fs e gs, es = fs ++ e :: gs → R.Along P s fs → (P (R.run s fs) e ↔ C fs e)) :
    R.Along P s es ↔ ∀ fs e gs, es = fs ++ e :: gs → C fs e := by
  constructor
  · rintro halong fs e gs rfl
    have hfs := ((R.along_append P s fs (e :: gs)).mp halong).1
    exact (h fs e gs rfl hfs).mp (halong.at fs)
  · intro hC
    induction es using List.reverseRecOn with
    | nil => trivial
    | append_singleton es e ih =>
        have hes : R.Along P s es := by
          apply ih
          · rintro fs e' gs rfl
            exact h fs e' (gs ++ [e]) (by simp)
          · rintro fs e' gs rfl
            exact hC fs e' (gs ++ [e]) (by simp)
        have hlast := (h es e [] rfl hes).mpr (hC es e [] rfl)
        exact (R.along_append P s es [e]).mpr ⟨hes, hlast, trivial⟩

theorem forall_prefix_concat {A : List ε → Prop} {es : List ε} {e : ε} :
    (∀ fs gs, es ++ [e] = fs ++ gs → A fs) ↔ (∀ fs gs, es = fs ++ gs → A fs) ∧ A (es ++ [e]) := by
  constructor
  · intro h
    constructor
    · intro fs gs hsplit
      exact h fs (gs ++ [e]) (by rw [hsplit, List.append_assoc])
    · exact h (es ++ [e]) [] (List.append_nil _).symm
  · intro ⟨hinit, hlast⟩ fs gs hsplit
    rcases List.eq_nil_or_concat gs with rfl | ⟨gs, g, rfl⟩
    · rw [List.append_nil] at hsplit
      rwa [← hsplit]
    · rw [List.concat_eq_append, ← List.append_assoc] at hsplit
      exact hinit fs gs (List.append_inj' hsplit rfl).1

/-- A property that steps with `Q` establish, and steps with `K` end if they meet `L` as well, says
at all times that `Q` has happened and `K` has not since, exactly if every step with `K` that
finds the property meets `L`. -/
theorem iff_since_throughout {J I : σ → Prop} {Q K L V : σ → ε → Prop}
    (hJ : ∀ s e, J s → V s e → J (R.next s e))
    (hI : ∀ s e, J s → V s e → (I (R.next s e) ↔ Q s e ∨ I s ∧ ¬ (K s e ∧ L s e)))
    (hQK : ∀ s e, K s e → ¬ Q s e) {s : σ} {es : List ε}
    (hs : J s) (hIs : ¬ I s) (hes : R.Along V s es) :
    (∀ fs gs, es = fs ++ gs → (I (R.run s fs) ↔ R.Since Q K s fs)) ↔
      R.Along (fun s e => I s → K s e → L s e) s es := by
  induction es using List.reverseRecOn with
  | nil =>
      refine iff_of_true ?_ trivial
      intro fs gs hsplit
      rw [(List.append_eq_nil_iff.mp hsplit.symm).1]
      exact iff_of_false hIs not_since_nil
  | append_singleton es e ih =>
      obtain ⟨hinit, hlast⟩ := (R.along_append V s es [e]).mp hes
      have hstep := hI _ e (run_invariant hJ hs hinit) hlast.1
      have hapart := hQK (R.run s es) e
      rw [forall_prefix_concat, along_append, ih hinit, run_concat, since_concat, hstep,
        and_congr_right_iff]
      intro halong
      have hprefix := (ih hinit).mpr halong es [] (List.append_nil es).symm
      rw [← hprefix, along_cons]
      constructor
      · intro hagree
        refine ⟨?_, trivial⟩
        intro hI hK
        by_contra hL
        rcases hagree.mp (.inr ⟨hI, fun hboth => hL hboth.2⟩) with hQ | hkept
        · exact hapart hK hQ
        · exact hkept.2 hK
      · intro ⟨hmeets, _⟩
        constructor
        · rintro (hQ | ⟨hI, hends⟩)
          · exact .inl hQ
          · exact .inr ⟨hI, fun hK => hends ⟨hK, hmeets hI hK⟩⟩
        · rintro (hQ | ⟨hI, hK⟩)
          · exact .inl hQ
          · exact .inr ⟨hI, fun hboth => hK hboth.1⟩

/-- Some step of the run meets `Q`. -/
def Happens (R : Reactive σ ε ω) (Q : σ → ε → Prop) (s : σ) (es : List ε) : Prop :=
  ∃ fs e gs, es = fs ++ e :: gs ∧ Q (R.run s fs) e

theorem happens_iff_since {Q : σ → ε → Prop} {s : σ} {es : List ε} :
    R.Happens Q s es ↔ R.Since Q (fun _ _ => False) s es := by
  constructor
  · intro ⟨fs, e, gs, hsplit, hQ⟩
    exact ⟨fs, e, gs, hsplit, hQ, along_of_at fun _ _ _ _ => not_false⟩
  · intro ⟨fs, e, gs, hsplit, hQ, _⟩
    exact ⟨fs, e, gs, hsplit, hQ⟩

theorem not_happens_nil {Q : σ → ε → Prop} {s : σ} : ¬ R.Happens Q s [] := by
  rw [happens_iff_since]
  exact not_since_nil

theorem happens_concat {Q : σ → ε → Prop} {s : σ} {es : List ε} {e : ε} :
    R.Happens Q s (es ++ [e]) ↔ Q (R.run s es) e ∨ R.Happens Q s es := by
  rw [happens_iff_since, since_concat, happens_iff_since]
  simp only [not_false_eq_true, and_true]

/-- A property that steps with `Q` establish and all steps keep holds in the end exactly if
`Q` has happened. -/
theorem iff_happens {J I : σ → Prop} {Q V : σ → ε → Prop}
    (hJ : ∀ s e, J s → V s e → J (R.next s e))
    (hI : ∀ s e, J s → V s e → (I (R.next s e) ↔ Q s e ∨ I s)) {s : σ} {es : List ε}
    (hs : J s) (hIs : ¬ I s) (hes : R.Along V s es) : I (R.run s es) ↔ R.Happens Q s es := by
  rw [happens_iff_since]
  apply iff_since hJ _ hs hIs hes
  intro s e hs he
  rw [hI s e hs he]
  simp only [not_false_eq_true, and_true]

/-- A loop over a list as a component: its rounds are the steps. -/
def loop (body : σ → ε → σ) : Reactive σ ε Empty where
  enabled := fun _ _ => True
  next := body
  emits := fun _ _ => []

theorem run_loop (body : σ → ε → σ) (s : σ) (es : List ε) :
    (loop body).run s es = es.foldl body s := rfl

/-- The states a component reaches from an initial one. -/
def Reachable (R : Reactive σ ε ω) (s₀ s : σ) : Prop :=
  ∃ es, R.Valid s₀ es ∧ R.run s₀ es = s

theorem Reachable.refl (s : σ) : R.Reachable s s := ⟨[], trivial, rfl⟩

theorem Reachable.step {s s' : σ} {e : ε} (he : R.enabled s e) (h : R.Reachable (R.next s e) s') :
    R.Reachable s s' := by
  obtain ⟨es, hvalid, rfl⟩ := h
  exact ⟨e :: es, ⟨he, hvalid⟩, rfl⟩

theorem Reachable.trans {s₀ s₁ s₂ : σ} (h₁ : R.Reachable s₀ s₁) (h₂ : R.Reachable s₁ s₂) :
    R.Reachable s₀ s₂ := by
  obtain ⟨es, hvalid, rfl⟩ := h₁
  obtain ⟨fs, hrest, rfl⟩ := h₂
  exact ⟨es ++ fs, (R.along_append _ s₀ es fs).mpr ⟨hvalid, hrest⟩, run_append R s₀ es fs⟩

end Reactive
end GreenWallet.Library
