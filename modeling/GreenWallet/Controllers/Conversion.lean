import GreenWallet.Controllers.Convert

/-!
# The conversion that is shown

An edit restarts the timer and the timer starts an update, which either empties the
result or launches a conversion. A conversion that comes back is shown, also when a
later update has been answered already, so what is shown in the end is what came
back last.
-/
namespace GreenWallet.Controllers
open GreenWallet.Library

inductive ConvertEvent where
  | setContext (context : Option ℕ)
  | setAccount (account : Option ℕ)
  | setAsset (asset : Option ℕ)
  | setInput (input : Amount)
  | setUnit (unit : String)
  | settingsChanged (session : ℕ)
  | tickerEvent (session : ℕ)
  | sessionDestroyed (session : ℕ)
  /-- The objects behind the numbers change. -/
  | surroundings (w : Surroundings)
  | timer
  | finished (job : ℕ) (answer : JsonObject)

/-- What a conversion is made of and for. -/
structure ConvertInputs where
  context : Option ℕ
  account : Option ℕ
  asset : Option ℕ
  input : Amount
deriving DecidableEq

/-- The latest update: what it read, the conversion it launched, the result it came to. -/
structure LatestUpdate where
  inputs : ConvertInputs
  job : Option ℕ
  result : Option JsonObject

namespace Convert

def inputs (c : Convert) : ConvertInputs :=
  { context := c.context, account := c.account, asset := c.asset, input := c.input }

def sessionSignal (session : ℕ) (c : Convert) : Convert :=
  if c.listening = some session then c.invalidate else c

def sessionDestroyed (session : ℕ) (c : Convert) : Convert :=
  { c with
    connectedSession := c.connectedSession.filter (· != session)
    listening := c.listening.filter (· != session) }

def handle (w : Surroundings) (c : Convert) : ConvertEvent → Convert
  | .setContext context => c.setContext w context
  | .setAccount account => c.setAccount w account
  | .setAsset asset => c.setAsset w asset
  | .setInput input => c.setInput input
  | .setUnit unit => c.setUnit unit
  | .settingsChanged session | .tickerEvent session => c.sessionSignal session
  | .sessionDestroyed session => c.sessionDestroyed session
  | .surroundings _ | .timer | .finished _ _ => c

/-- An edit shows no other result, and unless it starts the timer it changes nothing a
conversion is made of. -/
structure Edited (c c' : Convert) : Prop where
  result : c'.result = c.result
  inputs : c'.timer = true ∨ c'.timer = c.timer ∧ c'.inputs = c.inputs

theorem Edited.refl (c : Convert) : Edited c c := ⟨rfl, .inr ⟨rfl, rfl⟩⟩

theorem Edited.invalidated {c : Convert} (c' : Convert) (h : c'.result = c.result) :
    Edited c c'.invalidate := ⟨h, .inl rfl⟩

theorem Edited.trans {c₁ c₂ c₃ : Convert} (h : Edited c₁ c₂) (h' : Edited c₂ c₃) :
    Edited c₁ c₃ := by
  refine ⟨h'.result.trans h.result, ?_⟩
  rcases h'.inputs with htimer | ⟨htimer, hinputs⟩
  · exact .inl htimer
  · rw [htimer, hinputs]
    exact h.inputs

theorem edited_connectToSessionSignals (w : Surroundings) (c : Convert) :
    Edited c (c.connectToSessionSignals w) := by
  simp only [connectToSessionSignals]
  split_ifs <;> exact ⟨rfl, .inr ⟨rfl, rfl⟩⟩

theorem edited_setContext (w : Surroundings) (context : Option ℕ) (c : Convert) :
    Edited c (c.setContext w context) := by
  simp only [setContext]
  have hset := Edited.invalidated (c := c) { c with context := context } rfl
  split_ifs
  · exact .refl c
  · exact hset.trans (edited_connectToSessionSignals w _)
  · exact hset

theorem edited_setAccount (w : Surroundings) (account : Option ℕ) (c : Convert) :
    Edited c (c.setAccount w account) := by
  simp only [setAccount]
  have hset := Edited.invalidated (c := c) { c with account := account } rfl
  split_ifs
  · exact .refl c
  · cases account with
    | none => exact hset
    | some account => exact hset.trans (edited_setContext w _ _)

theorem edited_setAsset (w : Surroundings) (asset : Option ℕ) (c : Convert) :
    Edited c (c.setAsset w asset) := by
  simp only [setAsset]
  have hset := Edited.invalidated (c := c) { c with asset := asset } rfl
  split_ifs
  · exact .refl c
  · exact hset.trans (edited_connectToSessionSignals w _)
  · exact hset

theorem edited_setInput (input : Amount) (c : Convert) : Edited c (c.setInput input) := by
  unfold setInput
  split_ifs
  · exact .refl c
  · exact .invalidated _ rfl

theorem edited_setUnit (unit : String) (c : Convert) : Edited c (c.setUnit unit) := by
  unfold setUnit
  split_ifs <;> exact ⟨rfl, .inr ⟨rfl, rfl⟩⟩

theorem edited_sessionSignal (session : ℕ) (c : Convert) : Edited c (c.sessionSignal session) := by
  unfold sessionSignal
  split_ifs
  · exact .invalidated _ rfl
  · exact .refl c

theorem edited_handle (w : Surroundings) (c : Convert) (e : ConvertEvent) :
    Edited c (c.handle w e) := by
  cases e with
  | setContext context => exact edited_setContext w context c
  | setAccount account => exact edited_setAccount w account c
  | setAsset asset => exact edited_setAsset w asset c
  | setInput input => exact edited_setInput input c
  | setUnit unit => exact edited_setUnit unit c
  | settingsChanged session | tickerEvent session => exact edited_sessionSignal session c
  | sessionDestroyed session => exact ⟨rfl, .inr ⟨rfl, rfl⟩⟩
  | surroundings w | timer | finished job answer => exact .refl c

/-- An update empties the result exactly if there is nothing to convert for. -/
theorem update_spec (w : Surroundings) (c : Convert) :
    (c.update w).2 = .emptied ∧ (c.update w).1.result = ∅ ∧
        (c.context = none ∧ c.account = none ∨ c.assetSession w = none) ∧
        Edited { c with result := ∅ } (c.update w).1 ∨
      ∃ session, c.assetSession w = some session ∧ (c.update w).1 = c ∧
        (c.update w).2 = .launched { session := session.id, details := c.details w } := by
  unfold update
  split_ifs with hnone
  · have hedited := edited_setInput ∅ c
    exact .inl ⟨rfl, rfl, .inl hnone, rfl, hedited.inputs⟩
  · cases hsession : c.assetSession w with
    | none => exact .inl ⟨rfl, rfl, .inr rfl, .refl _⟩
    | some session => exact .inr ⟨session, rfl, rfl, rfl⟩

end Convert

/-- `Convert` with its surroundings, the conversions in flight and the latest update. -/
structure Conversions where
  convert : Convert := {}
  surroundings : Surroundings
  jobs : Jobs Conversion := {}
  latest : Option LatestUpdate := none

namespace Conversions

def update (s : Conversions) : Conversions :=
  let (convert, update) := s.convert.timerEvent s.surroundings
  match update with
  | .emptied =>
      { s with
        convert := convert
        latest := some { inputs := s.convert.inputs, job := none, result := some ∅ } }
  | .launched conversion =>
      { s with
        convert := convert
        jobs := s.jobs.launch conversion
        latest := some
          { inputs := s.convert.inputs, job := some s.jobs.launched, result := none } }

def finish (job : ℕ) (answer : JsonObject) (s : Conversions) : Conversions :=
  let result := Convert.finished answer
  { s with
    convert := s.convert.setResult result
    jobs := s.jobs.finish job
    latest := s.latest.map fun latest =>
      if latest.job = some job then { latest with result := some result } else latest }

def next (s : Conversions) : ConvertEvent → Conversions
  | .surroundings w => { s with surroundings := w }
  | .timer => s.update
  | .finished job answer => s.finish job answer
  | e => { s with convert := s.convert.handle s.surroundings e }

/-- All conversions launched have come back, and no update is due. -/
def Settled (s : Conversions) : Prop := s.jobs.idle = true ∧ s.convert.timer = false

instance (s : Conversions) : Decidable s.Settled :=
  inferInstanceAs (Decidable (_ ∧ _))

end Conversions

def conversions : Reactive Conversions ConvertEvent Empty where
  enabled := fun s e =>
    match e with
    | .timer => s.convert.timer = true
    | .finished job _ => (s.jobs.find job).isSome = true
    | _ => True
  next := Conversions.next
  emits := fun _ _ => []

instance (s : Conversions) (e : ConvertEvent) : Decidable (conversions.enabled s e) := by
  cases e <;> simp only [conversions] <;> infer_instance

/-- What is shown in the end is what the latest update came to, and it read the inputs
that are set. -/
def LatestWins (s : Conversions) : Prop :=
  s.Settled →
    match s.latest with
    | none => s.convert.result = ∅
    | some latest =>
        latest.inputs = s.convert.inputs ∧ latest.result = some s.convert.result

/-- The conversion that comes back last is the latest one, or has its result. -/
def EndsWithLatest (s : Conversions) (e : ConvertEvent) : Prop :=
  ∀ job answer, e = .finished job answer → (s.finish job answer).Settled →
    ∃ latest, s.latest = some latest ∧
      (latest.job = some job ∨ latest.result = some (Convert.finished answer))

/-- What the latest update says about the jobs and the inputs. -/
structure Conversions.Traced (s : Conversions) : Prop where
  none : s.latest = none → s.jobs.idle = true
  job : ∀ latest, s.latest = some latest → latest.result = Option.none →
    ∃ job, latest.job = some job ∧ (s.jobs.find job).isSome = true
  inputs : ∀ latest, s.latest = some latest → s.convert.timer = false →
    latest.inputs = s.convert.inputs

namespace Conversions

/-- An edit reaches the converter alone. -/
theorem next_edit {s : Conversions} {e : ConvertEvent} (htimer : e ≠ .timer)
    (hfinished : ∀ job answer, e ≠ .finished job answer) :
    (s.next e).jobs = s.jobs ∧ (s.next e).latest = s.latest ∧
      Convert.Edited s.convert (s.next e).convert := by
  have hconvert : (s.next e).convert = s.convert.handle s.surroundings e := by
    cases e with
    | timer => exact (htimer rfl).elim
    | finished job answer => exact (hfinished job answer rfl).elim
    | _ => rfl
  rw [hconvert]
  refine ⟨?_, ?_, Convert.edited_handle _ _ _⟩ <;>
    cases e with
    | timer => exact (htimer rfl).elim
    | finished job answer => exact (hfinished job answer rfl).elim
    | _ => rfl

/-- What an update leaves: a conversion in flight, or an empty result. -/
theorem update_cases (s : Conversions) :
    ((∃ conversion, s.update.jobs = s.jobs.launch conversion) ∧
        s.update.convert = { s.convert with timer := false } ∧
        s.update.latest = some
          { inputs := s.convert.inputs, job := some s.jobs.launched, result := none }) ∨
      (s.update.jobs = s.jobs ∧ s.update.convert.result = ∅ ∧
        (s.update.convert.timer = false → s.update.convert.inputs = s.convert.inputs) ∧
        s.update.latest = some { inputs := s.convert.inputs, job := none, result := some ∅ }) := by
  obtain ⟨houtcome, hresult, -, hedited⟩ | ⟨session, -, hconvert, houtcome⟩ :=
    Convert.update_spec s.surroundings { s.convert with timer := false }
  · right
    simp only [update, Convert.timerEvent, houtcome, true_and, and_true]
    refine ⟨hresult, ?_⟩
    intro htimer
    rcases hedited.inputs with h | h
    · rw [htimer] at h
      cases h
    · exact h.2
  · left
    simp only [update, Convert.timerEvent, houtcome, hconvert, and_true]
    exact ⟨_, rfl⟩

/-- A conversion that comes back was launched by some update. -/
theorem Traced.latest_of_find {s : Conversions} (hs : s.Traced) {job : ℕ}
    (hjob : (s.jobs.find job).isSome = true) : ∃ latest, s.latest = some latest := by
  apply Option.ne_none_iff_exists'.mp
  intro hnone
  rw [Jobs.idle_iff.mp (hs.none hnone) job] at hjob
  cases hjob

theorem traced_update (s : Conversions) : s.update.Traced := by
  obtain ⟨⟨conversion, hjobs⟩, hconvert, hlatest⟩ | ⟨hjobs, -, hinputs, hlatest⟩ := s.update_cases
  · constructor
    · intro hnone
      rw [hlatest] at hnone
      cases hnone
    · intro latest hsome _
      rw [hlatest, Option.some.injEq] at hsome
      subst hsome
      exact ⟨s.jobs.launched, rfl, by rw [hjobs, Jobs.find_launch]; rfl⟩
    · intro latest hsome _
      rw [hlatest, Option.some.injEq] at hsome
      rw [← hsome, hconvert]
      rfl
  · constructor
    · intro hnone
      rw [hlatest] at hnone
      cases hnone
    · intro latest hsome hresult
      rw [hlatest, Option.some.injEq] at hsome
      rw [← hsome] at hresult
      cases hresult
    · intro latest hsome hidle
      rw [hlatest, Option.some.injEq] at hsome
      rw [← hsome, hinputs hidle]

theorem Traced.finish {s : Conversions} (hs : s.Traced) {job : ℕ}
    (hjob : (s.jobs.find job).isSome = true) (answer : JsonObject) :
    (s.finish job answer).Traced := by
  obtain ⟨latest, hlatest⟩ := hs.latest_of_find hjob
  constructor
  · intro hnone
    rw [Conversions.finish, hlatest] at hnone
    cases hnone
  · intro latest' hlatest' hresult
    simp only [Conversions.finish, hlatest, Option.map_some, Option.some.injEq] at hlatest'
    subst hlatest'
    by_cases hown : latest.job = some job
    · rw [if_pos hown] at hresult
      cases hresult
    · rw [if_neg hown] at hresult ⊢
      obtain ⟨other, hother, hfind⟩ := hs.job latest hlatest hresult
      refine ⟨other, hother, ?_⟩
      have hne : other ≠ job := by
        intro hsame
        subst hsame
        exact hown hother
      rw [Conversions.finish, Jobs.find_finish_of_ne hne]
      exact hfind
  · intro latest' hlatest' hidle
    simp only [Conversions.finish, hlatest, Option.map_some, Option.some.injEq] at hlatest'
    subst hlatest'
    have hinputs := hs.inputs latest hlatest hidle
    split_ifs <;> exact hinputs

theorem Traced.edited {s s' : Conversions} (hs : s.Traced) (hjobs : s'.jobs = s.jobs)
    (hlatest : s'.latest = s.latest) (hedited : Convert.Edited s.convert s'.convert) :
    s'.Traced := by
  constructor
  · rw [hlatest, hjobs]
    exact hs.none
  · rw [hlatest, hjobs]
    exact hs.job
  · intro latest hsome hidle
    rw [hlatest] at hsome
    rcases hedited.inputs with h | ⟨hsame, hinputs⟩
    · rw [hidle] at h
      cases h
    · rw [hinputs]
      exact hs.inputs latest hsome (hsame ▸ hidle)

theorem Traced.next {s : Conversions} (hs : s.Traced) {e : ConvertEvent}
    (he : conversions.enabled s e) : (s.next e).Traced := by
  by_cases htimer : e = .timer
  · subst htimer
    exact s.traced_update
  · by_cases hfinished : ∃ job answer, e = .finished job answer
    · obtain ⟨job, answer, rfl⟩ := hfinished
      exact hs.finish he answer
    · push Not at hfinished
      obtain ⟨hjobs, hlatest, hedited⟩ := next_edit (s := s) htimer hfinished
      exact hs.edited hjobs hlatest hedited

theorem latestWins_update (s : Conversions) : LatestWins s.update := by
  intro ⟨hidle, htimer⟩
  obtain ⟨⟨conversion, hjobs⟩, -, -⟩ | ⟨-, hresult, hinputs, hlatest⟩ := s.update_cases
  · rw [hjobs, Jobs.idle_launch] at hidle
    cases hidle
  · rw [hlatest, hresult, hinputs htimer]
    exact ⟨rfl, rfl⟩

theorem latestWins_finish {s : Conversions} (hs : s.Traced) {job : ℕ}
    (hjob : (s.jobs.find job).isSome = true) (answer : JsonObject) :
    LatestWins (s.finish job answer) ↔ EndsWithLatest s (.finished job answer) := by
  constructor
  · intro h job' answer' heq hsettled
    cases heq
    obtain ⟨latest, hlatest⟩ := hs.latest_of_find hjob
    refine ⟨latest, hlatest, ?_⟩
    have hresult := h hsettled
    by_cases hown : latest.job = some job
    · exact .inl hown
    · simp only [finish, hlatest, Option.map_some, if_neg hown] at hresult
      exact .inr hresult.2
  · intro h hsettled
    obtain ⟨latest, hlatest, hown⟩ := h job answer rfl hsettled
    have hinputs := hs.inputs latest hlatest hsettled.2
    simp only [finish, hlatest, Option.map_some]
    split_ifs with hlast
    · exact ⟨hinputs, rfl⟩
    · exact ⟨hinputs, hown.resolve_left hlast⟩

/-- A step to a state where nothing is outstanding shows the latest result exactly if
it is not the return of an older conversion with another one. -/
theorem latestWins_next {s : Conversions} (hs : s.Traced) {e : ConvertEvent}
    (he : conversions.enabled s e) (hwins : LatestWins s) :
    LatestWins (s.next e) ↔ EndsWithLatest s e := by
  by_cases htimer : e = .timer
  · subst htimer
    exact iff_of_true s.latestWins_update fun job answer h => by cases h
  · by_cases hfinished : ∃ job answer, e = .finished job answer
    · obtain ⟨job, answer, rfl⟩ := hfinished
      exact latestWins_finish hs he answer
    · push Not at hfinished
      refine iff_of_true ?_ (fun job answer h => (hfinished job answer h).elim)
      obtain ⟨hjobs, hlatest, hresult, hinputs⟩ := next_edit (s := s) htimer hfinished
      intro ⟨hidle, hstill⟩
      rcases hinputs with h | ⟨hsame, hinputs⟩
      · rw [hstill] at h
        cases h
      · rw [hlatest, hresult, hinputs]
        exact hwins ⟨hjobs ▸ hidle, hsame ▸ hstill⟩

end Conversions

/-- A converter nobody has used. -/
def Conversions.start (w : Surroundings) : Conversions := { surroundings := w }

/-- **Latest conversion.** What is shown once nothing is outstanding is always what the
latest update came to exactly if the conversion that comes back last is always the
latest one, or has the same result. -/
theorem latestWins_iff {w : Surroundings} {es : List ConvertEvent}
    (hes : conversions.Valid (.start w) es) :
    conversions.Always LatestWins (.start w) es ↔
      conversions.Along EndsWithLatest (.start w) es := by
  apply Reactive.always_iff_along (J := Conversions.Traced) (V := conversions.enabled)
  · intro s e hs he
    exact hs.next he
  · intro s e hs he hwins
    exact Conversions.latestWins_next hs he hwins
  · exact ⟨fun _ => rfl, fun _ h => (by cases h), fun _ h => (by cases h)⟩
  · intro _
    rfl
  · exact hes

/-- One context with one session. -/
def sampleSurroundings : Surroundings where
  contexts := fun _ => { sessions := [{ id := 0, network := { id := "mainnet" } }] }
  accounts := fun _ => { context := 0, network := { id := "mainnet" } }
  assets := fun _ => { id := "", precision := 8 }
  networks := []
  fixed := id

def satoshiInput (satoshi : Int) : Amount := (∅ : Amount).insert "satoshi" (.number satoshi)

/-- Two conversions that come back in the wrong order. -/
def overtaken : List ConvertEvent :=
  [.setContext (some 0), .setInput (satoshiInput 1), .timer, .setInput (satoshiInput 2), .timer,
    .finished 1 ((∅ : JsonObject).insert "satoshi" (.number 2)),
    .finished 0 ((∅ : JsonObject).insert "satoshi" (.number 1))]

theorem latestWins_iff_overtaken :
    conversions.Always LatestWins (.start sampleSurroundings) overtaken ↔
      conversions.Along EndsWithLatest (.start sampleSurroundings) overtaken :=
  latestWins_iff (by decide)

theorem not_latestWins_overtaken :
    conversions.Valid (.start sampleSurroundings) overtaken ∧
      ¬ conversions.Always LatestWins (.start sampleSurroundings) overtaken := by
  refine ⟨by decide, ?_⟩
  intro h
  have hlast := h.last (by decide)
  have hshown : (conversions.run (.start sampleSurroundings) overtaken).convert.result =
      (∅ : JsonObject).insert "satoshi" (.text "1") := by decide
  have hlatest : ((conversions.run (.start sampleSurroundings) overtaken).latest.bind
      LatestUpdate.result) = some ((∅ : JsonObject).insert "satoshi" (.text "2")) := by decide
  cases hsome : (conversions.run (.start sampleSurroundings) overtaken).latest with
  | none =>
      rw [hsome] at hlatest
      cases hlatest
  | some latest =>
      rw [hsome, hshown] at hlast
      rw [hsome, Option.bind_some, hlast.2, Option.some.injEq] at hlatest
      exact absurd hlatest (by decide)

end GreenWallet.Controllers
