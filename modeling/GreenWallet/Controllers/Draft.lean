import GreenWallet.Controllers.CreateTransaction

/-!
# Drafts and the inputs they are made for

Once nothing is outstanding the draft should be for the inputs that are set. A call that is
made for them overtakes all earlier ones. What can go wrong is that outputs come back for an
account that is no longer set, and that the last update has made no call: then the draft of an
earlier one stays, or comes in later.
-/
namespace GreenWallet.Controllers
open GreenWallet.Library

namespace CreateTransactionController

/-- The unspent outputs, if there are any, are those of the account that is set. -/
def UtxosCurrent (c : CreateTransactionController) : Prop :=
  ∀ unspents, c.utxos = some unspents → c.account = some unspents.account

/-- What an update comes to. -/
inductive Outcome where
  | stays
  | fetches
  | clears
  | creates
deriving DecidableEq

/-- An update stops without a context and an account, fetches the outputs that are missing,
empties the draft for want of a recipient, or makes a call. -/
def outcome (c : CreateTransactionController) : Outcome :=
  if c.context.isNone || c.account.isNone then .stays
  else if c.previous_transaction.isNone && c.utxos.isNone then .fetches
  else if c.previous_transaction.isNone && (trimmed c.recipient.address).isEmpty then .clears
  else .creates

section
variable (isLiquid : ℕ → Bool)

/-- A call was made for the account, the addressee, the coins and the outputs that are
set. -/
def Matches (c : CreateTransactionController) (details : Details) : Prop :=
  c.account = some details.account ∧ details.addressee = c.givenAddressee isLiquid details.account ∧
    details.utxos = c.givenUtxos

/-- The transaction is empty, or answers a call that was made for what is set. -/
def TransactionCurrent (c : CreateTransactionController) : Prop :=
  ∀ details made, c.transaction = some (details, made) → c.Matches isLiquid details

/-- A setter leaves the draft and the calls alone, and starts the timer if it changes anything
that a call is made for. -/
structure Keeps (c c' : CreateTransactionController) : Prop where
  seq : c'.seq = c.seq
  transaction : c'.transaction = c.transaction
  due : c.timer = true → c'.timer = true
  inputs : c'.timer = true ∨ ∀ details, c'.Matches isLiquid details ↔ c.Matches isLiquid details

/-- The account and its outputs are left alone, or the outputs go with the account. -/
def AccountKept (c c' : CreateTransactionController) : Prop :=
  c'.account = c.account ∧ c'.utxos = c.utxos ∨ c'.account ≠ c.account ∧ c'.utxos = none

end

section
variable {isLiquid : ℕ → Bool} {c c₁ c₂ c₃ : CreateTransactionController}

theorem Keeps.refl (c : CreateTransactionController) : Keeps isLiquid c c :=
  ⟨rfl, rfl, id, .inr fun _ => Iff.rfl⟩

theorem Keeps.trans (h : Keeps isLiquid c₁ c₂) (h' : Keeps isLiquid c₂ c₃) :
    Keeps isLiquid c₁ c₃ where
  seq := h'.seq.trans h.seq
  transaction := h'.transaction.trans h.transaction
  due hdue := h'.due (h.due hdue)
  inputs := by
    rcases h'.inputs with hdue | hsame'
    · exact .inl hdue
    · rcases h.inputs with hdue | hsame
      · exact .inl (h'.due hdue)
      · exact .inr fun details => (hsame' details).trans (hsame details)

/-- The shape of a setter. -/
theorem Keeps.unless {p : Prop} [Decidable p] (hseq : c₂.seq = c₁.seq)
    (htransaction : c₂.transaction = c₁.transaction) :
    Keeps isLiquid c₁ (if p then c₁ else c₂.invalidate) := by
  split_ifs
  · exact .refl c₁
  · exact ⟨hseq, htransaction, fun _ => rfl, .inl rfl⟩

theorem accountKept_unless {p : Prop} [Decidable p]
    (h : c₂.account = c₁.account ∧ c₂.utxos = c₁.utxos) :
    (if p then c₁ else c₂.invalidate).account = c₁.account ∧
      (if p then c₁ else c₂.invalidate).utxos = c₁.utxos := by
  split_ifs
  · exact ⟨rfl, rfl⟩
  · exact h

theorem accountKept_setAccount (account : Option ℕ) (c : CreateTransactionController) :
    AccountKept c (c.setAccount account) := by
  unfold setAccount
  split_ifs with hsame
  · exact .inl ⟨rfl, rfl⟩
  · exact .inr ⟨Ne.symm hsame, rfl⟩

theorem keeps_setPreviousTransaction (previous : Option AccountTransaction)
    (c : CreateTransactionController) : Keeps isLiquid c (c.setPreviousTransaction previous) := by
  unfold setPreviousTransaction
  split_ifs
  · exact .refl c
  · cases previous with
    | none => exact ⟨rfl, rfl, fun _ => rfl, .inl rfl⟩
    | some previous =>
        have haccount : Keeps isLiquid
            { c with previous_transaction := some previous, context := some previous.context }
            (setAccount (some previous.account)
              { c with
                previous_transaction := some previous
                context := some previous.context }) := .unless rfl rfl
        exact ⟨haccount.seq, haccount.transaction, fun _ => rfl, .inl rfl⟩

theorem accountKept_setPreviousTransaction (previous : Option AccountTransaction)
    (c : CreateTransactionController) : AccountKept c (c.setPreviousTransaction previous) := by
  unfold setPreviousTransaction
  split_ifs
  · exact .inl ⟨rfl, rfl⟩
  · cases previous with
    | none => exact .inl ⟨rfl, rfl⟩
    | some previous =>
        exact accountKept_setAccount (some previous.account)
          { c with previous_transaction := some previous, context := some previous.context }

/-- Another setter on the way, which has nothing to do with the account. -/
theorem Keeps.set (h : Keeps isLiquid c₁ c₂ ∧ c₂.account = c₁.account ∧ c₂.utxos = c₁.utxos)
    (p : Prop) [Decidable p] {f : CreateTransactionController → CreateTransactionController}
    (hf : ∀ c, Keeps isLiquid c (f c) ∧ (f c).account = c.account ∧ (f c).utxos = c.utxos) :
    Keeps isLiquid c₁ (if p then f c₂ else c₂) ∧ (if p then f c₂ else c₂).account = c₁.account ∧
      (if p then f c₂ else c₂).utxos = c₁.utxos := by
  obtain ⟨hkeeps, haccount, hutxos⟩ := hf c₂
  split_ifs
  · exact ⟨h.1.trans hkeeps, haccount.trans h.2.1, hutxos.trans h.2.2⟩
  · exact h

/-- What the library made of the address is taken over by setters. -/
theorem keeps_setTransaction (isLiquid : ℕ → Bool) (transaction : Option (Details × Transaction))
    (c : CreateTransactionController) :
    Keeps isLiquid { c with transaction := transaction } (c.setTransaction transaction) ∧
      (c.setTransaction transaction).account = c.account ∧
        (c.setTransaction transaction).utxos = c.utxos := by
  have hasset : ∀ (asset : Option String) (c : CreateTransactionController),
      Keeps isLiquid c (c.setAsset asset) ∧ (c.setAsset asset).account = c.account ∧
        (c.setAsset asset).utxos = c.utxos :=
    fun _ _ => ⟨.unless rfl rfl, accountKept_unless ⟨rfl, rfl⟩⟩
  have haddress : ∀ (address : String) (c : CreateTransactionController),
      Keeps isLiquid c (c.setAddress address) ∧ (c.setAddress address).account = c.account ∧
        (c.setAddress address).utxos = c.utxos :=
    fun _ _ => ⟨.unless rfl rfl, accountKept_unless ⟨rfl, rfl⟩⟩
  have hgreedy : ∀ (greedy : Bool) (c : CreateTransactionController),
      Keeps isLiquid c (c.setGreedy greedy) ∧ (c.setGreedy greedy).account = c.account ∧
        (c.setGreedy greedy).utxos = c.utxos :=
    fun _ _ => ⟨.unless rfl rfl, accountKept_unless ⟨rfl, rfl⟩⟩
  have hstart : Keeps isLiquid { c with transaction := transaction }
      { c with transaction := transaction } ∧ c.account = c.account ∧ c.utxos = c.utxos :=
    ⟨.refl _, rfl, rfl⟩
  simp only [setTransaction]
  split
  · exact hstart
  · split
    · exact Keeps.set (Keeps.set (Keeps.set hstart _ (hasset _)) _ (haddress _)) _ (hgreedy _)
    · exact Keeps.set hstart _ (haddress _)

end
end CreateTransactionController

namespace Drafts
open CreateTransactionController

section
variable (s : Drafts)

/-- The account whose outputs come in. -/
def fetched : DraftEvent → Option ℕ
  | .unspentsFinished job _ => s.fetches.find job
  | _ => none

/-- The controller that the event has updated, as the update finds it. -/
def updating : DraftEvent → Option CreateTransactionController
  | .timer => some { s.controller with timer := false }
  | .unspentsFinished job outputs =>
      (s.fetches.find job).map fun account =>
        { s.controller with utxos := some { account, outputs } }
  | _ => none

/-- The call that is answered, by a transaction or by a failure. -/
def answered : DraftEvent → Option (CreateCall × Option Transaction)
  | .created job transaction => (s.creates.find job).map fun call => (call, some transaction)
  | .createFailed job => (s.creates.find job).map fun call => (call, none)
  | _ => none

/-- Outputs come in of an account that is not set. -/
def Misfetches (e : DraftEvent) : Prop :=
  ∃ account, s.fetched e = some account ∧ s.controller.account ≠ some account

/-- The outputs of the account that is set come in, or another account is set. -/
def Refetches (isLiquid : ℕ → Bool) (e : DraftEvent) : Prop :=
  (∃ account, s.fetched e = some account ∧ s.controller.account = some account) ∨
    ((drafts isLiquid).next s e).controller.account ≠ s.controller.account

/-- The call in turn is answered by a draft. -/
def Brings (e : DraftEvent) : Prop :=
  ∃ call transaction, s.answered e = some (call, some transaction) ∧ call.seq = s.controller.seq

/-- The call in turn fails, or an update finds no recipient. -/
def Empties (e : DraftEvent) : Prop :=
  (∃ call, s.answered e = some (call, none) ∧ call.seq = s.controller.seq) ∨
    ∃ c, s.updating e = some c ∧ c.outcome = .clears

def Updates (e : DraftEvent) : Prop := ∃ c, s.updating e = some c

def Calls (e : DraftEvent) : Prop := ∃ c, s.updating e = some c ∧ c.outcome = .creates

def Clears (e : DraftEvent) : Prop := ∃ c, s.updating e = some c ∧ c.outcome = .clears

/-- An update goes no further than to the outputs. -/
def Rests (e : DraftEvent) : Prop :=
  ∃ c, s.updating e = some c ∧ (c.outcome = .stays ∨ c.outcome = .fetches)

/-- An update makes this call. -/
def CallsFor (isLiquid : ℕ → Bool) (details : Details) (e : DraftEvent) : Prop :=
  ∃ c account, s.updating e = some c ∧ c.outcome = .creates ∧ c.account = some account ∧
    details = c.details isLiquid s.estimates account

end
end Drafts

/-- When nothing is outstanding the outputs and the transaction are for what is set. -/
def DraftMatches (isLiquid : ℕ → Bool) (s : Drafts) : Prop :=
  s.Settled → s.controller.UtxosCurrent ∧ s.controller.TransactionCurrent isLiquid

/-- Since another account's outputs came in, those of the account that is set have, or it was set
anew. And if a draft was brought and not emptied since, the last update has made a call, or it
has gone no further than to the outputs and what is set is what the last call was made for. -/
structure KeepsUp (isLiquid : ℕ → Bool) (es : List DraftEvent) : Prop where
  fetched : ¬ (drafts isLiquid).Since Drafts.Misfetches
    (fun s e => s.Refetches isLiquid e) {} es
  called : (drafts isLiquid).Since Drafts.Brings Drafts.Empties {} es →
    (drafts isLiquid).Since Drafts.Calls Drafts.Updates {} es ∨
      (drafts isLiquid).Since Drafts.Rests Drafts.Updates {} es ∧ ∃ details,
        (drafts isLiquid).Since (fun s e => s.CallsFor isLiquid details e) Drafts.Calls {} es ∧
          ((drafts isLiquid).run {} es).controller.Matches isLiquid details

namespace Drafts
open CreateTransactionController

variable {isLiquid : ℕ → Bool} {s : Drafts}

/-! ## What a step does -/

theorem update_cases (isLiquid : ℕ → Bool) (s : Drafts) :
    ((s.controller.outcome = .stays ∨ s.controller.outcome = .fetches) ∧ ∃ fetches,
        s.update isLiquid = { s with fetches }) ∨
      (s.controller.outcome = .clears ∧
        s.update isLiquid = s.edit { s.controller with transaction := none }) ∨
      s.controller.outcome = .creates ∧ ∃ account, s.controller.account = some account ∧
        s.update isLiquid = { s with
          controller := { s.controller with seq := s.controller.seq + 1 }
          creates := s.creates.launch
            { seq := s.controller.seq + 1
              details := s.controller.details isLiquid s.estimates account } } := by
  unfold update outcome
  cases hcontext : s.controller.context with
  | none => exact .inl ⟨.inl rfl, s.fetches, rfl⟩
  | some context =>
      cases haccount : s.controller.account with
      | none => exact .inl ⟨.inl rfl, s.fetches, rfl⟩
      | some account =>
          simp only [Option.isNone_some, Bool.or_self, Bool.false_eq_true, if_false]
          split_ifs
          · exact .inl ⟨.inr rfl, _, rfl⟩
          · exact .inr (.inl ⟨rfl, rfl⟩)
          · exact .inr (.inr ⟨rfl, account, rfl, rfl⟩)

theorem account_update (isLiquid : ℕ → Bool) (s : Drafts) :
    (s.update isLiquid).controller.account = s.controller.account ∧
      (s.update isLiquid).controller.utxos = s.controller.utxos := by
  obtain ⟨-, fetches, h⟩ | ⟨-, h⟩ | ⟨-, account, -, h⟩ := s.update_cases isLiquid <;> rw [h]
  · exact ⟨rfl, rfl⟩
  · exact ⟨rfl, rfl⟩
  · exact ⟨rfl, rfl⟩

theorem account_createEnded (isLiquid : ℕ → Bool) (job : ℕ) (call : CreateCall)
    (transaction : Option Transaction) (s : Drafts) :
    (s.createEnded job call transaction).controller.account = s.controller.account ∧
      (s.createEnded job call transaction).controller.utxos = s.controller.utxos := by
  simp only [createEnded]
  split_ifs
  · exact (keeps_setTransaction isLiquid _ _).2
  · exact ⟨rfl, rfl⟩

/-- A step has the controller updated, takes the answer to a call, or is a setter. -/
inductive Goes (isLiquid : ℕ → Bool) (s : Drafts) (e : DraftEvent) : Drafts → Prop
  | updates {c : CreateTransactionController} {fetches : Jobs ℕ} (hupdating : s.updating e = some c)
      (hanswered : s.answered e = none) :
      Goes isLiquid s e ({ s with controller := c, fetches }.update isLiquid)
  | answers {job : ℕ} {call : CreateCall} {transaction : Option Transaction}
      (hupdating : s.updating e = none) (hfetched : s.fetched e = none)
      (hanswered : s.answered e = some (call, transaction))
      (hjob : s.creates.find job = some call) :
      Goes isLiquid s e (s.createEnded job call transaction)
  | sets {s' : Drafts} (hupdating : s.updating e = none) (hfetched : s.fetched e = none)
      (hanswered : s.answered e = none) (hcreates : s'.creates = s.creates)
      (hkeeps : Keeps isLiquid s.controller s'.controller)
      (haccount : AccountKept s.controller s'.controller) : Goes isLiquid s e s'

theorem Goes.stays {e : DraftEvent} (hupdating : s.updating e = none) (hfetched : s.fetched e = none)
    (hanswered : s.answered e = none) : Goes isLiquid s e s :=
  .sets hupdating hfetched hanswered rfl (.refl _) (.inl ⟨rfl, rfl⟩)

theorem goes_next (isLiquid : ℕ → Bool) (s : Drafts) (e : DraftEvent) :
    Goes isLiquid s e (s.next isLiquid e) := by
  have hkept : ∀ c : CreateTransactionController, c.account = s.controller.account ∧
      c.utxos = s.controller.utxos → AccountKept s.controller c := fun _ => .inl
  cases e with
  | timer => exact @Goes.updates isLiquid s _ _ s.fetches rfl rfl
  | unspentsFinished job outputs =>
      cases hjob : s.fetches.find job with
      | none =>
          simp only [next, hjob]
          exact .stays (by simp only [updating, hjob, Option.map_none]) hjob rfl
      | some account =>
          simp only [next, hjob, unspentsFinished]
          exact .updates (by simp only [updating, hjob, Option.map_some]) rfl
  | created job transaction =>
      cases hjob : s.creates.find job with
      | none =>
          simp only [next, hjob]
          exact .stays rfl rfl (by simp only [answered, hjob, Option.map_none])
      | some call =>
          simp only [next, hjob]
          exact .answers rfl rfl (by simp only [answered, hjob, Option.map_some]) hjob
  | createFailed job =>
      cases hjob : s.creates.find job with
      | none =>
          simp only [next, hjob]
          exact .stays rfl rfl (by simp only [answered, hjob, Option.map_none])
      | some call =>
          simp only [next, hjob]
          exact .answers rfl rfl (by simp only [answered, hjob, Option.map_some]) hjob
  | setAccount account => exact .sets rfl rfl rfl rfl (.unless rfl rfl) (accountKept_setAccount _ _)
  | setPreviousTransaction previous =>
      exact .sets rfl rfl rfl rfl (keeps_setPreviousTransaction _ _)
        (accountKept_setPreviousTransaction _ _)
  | setAsset | setCoins | setFeeRate | setAddress | setGreedy =>
      exact .sets rfl rfl rfl rfl (.unless rfl rfl) (hkept _ (accountKept_unless ⟨rfl, rfl⟩))
  | resultChanged satoshi | invalidate =>
      exact .sets rfl rfl rfl rfl ⟨rfl, rfl, fun _ => rfl, .inl rfl⟩ (.inl ⟨rfl, rfl⟩)
  | setContext | estimates | unspentsFailed =>
      exact .sets rfl rfl rfl rfl ⟨rfl, rfl, id, .inr fun _ => Iff.rfl⟩ (.inl ⟨rfl, rfl⟩)

theorem next_of_updating (isLiquid : ℕ → Bool) {e : DraftEvent} {c : CreateTransactionController}
    (h : s.updating e = some c) :
    ∃ fetches, s.next isLiquid e = { s with controller := c, fetches }.update isLiquid := by
  cases e with
  | timer =>
      cases h
      exact ⟨s.fetches, rfl⟩
  | unspentsFinished job outputs =>
      simp only [updating, Option.map_eq_some_iff] at h
      obtain ⟨account, hjob, rfl⟩ := h
      refine ⟨s.fetches.finish job, ?_⟩
      simp only [next, hjob, unspentsFinished]
  | _ => cases h

/-! ## The outputs -/

theorem utxosCurrent_next (s : Drafts) (e : DraftEvent) :
    ¬ (s.next isLiquid e).controller.UtxosCurrent ↔
      s.Misfetches e ∨ ¬ s.controller.UtxosCurrent ∧ ¬ s.Refetches isLiquid e := by
  have hgoes := goes_next isLiquid s e
  unfold Refetches
  rw [show (drafts isLiquid).next s e = s.next isLiquid e from rfl]
  generalize s.next isLiquid e = s' at hgoes ⊢
  cases hgoes with
  | @updates c fetches hupdating hanswered =>
      obtain ⟨haccount, hutxos⟩ := account_update isLiquid { s with controller := c, fetches }
      rw [UtxosCurrent, haccount, hutxos]
      cases e with
      | timer =>
          cases hupdating
          simp [UtxosCurrent, Misfetches, fetched]
      | unspentsFinished job outputs =>
          simp only [updating, Option.map_eq_some_iff] at hupdating
          obtain ⟨account, hjob, rfl⟩ := hupdating
          simp [Misfetches, fetched, hjob]
      | _ => cases hupdating
  | @answers job call transaction hupdating hfetched =>
      obtain ⟨haccount, hutxos⟩ := account_createEnded isLiquid job call transaction s
      simp [UtxosCurrent, Misfetches, hfetched, haccount, hutxos]
  | sets hupdating hfetched hanswered hcreates hkeeps haccount =>
      rcases haccount with ⟨haccount, hutxos⟩ | ⟨haccount, hutxos⟩
      · simp [UtxosCurrent, Misfetches, hfetched, haccount, hutxos]
      · simp [UtxosCurrent, hutxos, Misfetches, hfetched, haccount]

theorem utxosCurrent_iff (es : List DraftEvent) :
    ((drafts isLiquid).run {} es).controller.UtxosCurrent ↔
      ¬ (drafts isLiquid).Since Misfetches (fun s e => s.Refetches isLiquid e) {} es := by
  rw [← not_iff_not, not_not]
  apply Reactive.iff_since (I := fun s : Drafts => ¬ s.controller.UtxosCurrent)
    (J := fun _ => True) (V := fun _ _ => True)
  · intros
    trivial
  · intro s e _ _
    exact utxosCurrent_next s e
  · trivial
  · intro h
    apply h
    intro unspents hnone
    cases hnone
  · exact Reactive.along_of_at fun _ _ _ _ => trivial

/-! ## The draft -/

theorem createEnded_cases (isLiquid : ℕ → Bool) (job : ℕ) (call : CreateCall)
    (transaction : Option Transaction) (s : Drafts) :
    (s.createEnded job call transaction).creates = s.creates.finish job ∧
      if call.seq = s.controller.seq then
        Keeps isLiquid
          { s.controller with transaction := transaction.map fun made => (call.details, made) }
          (s.createEnded job call transaction).controller
      else (s.createEnded job call transaction).controller = s.controller := by
  simp only [createEnded]
  by_cases hseq : s.controller.seq = call.seq
  · rw [if_pos hseq, if_pos hseq.symm]
    exact ⟨rfl, (keeps_setTransaction isLiquid _ _).1⟩
  · rw [if_neg hseq, if_neg (Ne.symm hseq)]
    exact ⟨rfl, rfl⟩

/-- What an update finds is the draft and the last call of before. -/
theorem controller_updating {e : DraftEvent} {c : CreateTransactionController}
    (h : s.updating e = some c) :
    c.seq = s.controller.seq ∧ c.transaction = s.controller.transaction := by
  cases e with
  | timer =>
      cases h
      exact ⟨rfl, rfl⟩
  | unspentsFinished job outputs =>
      simp only [updating, Option.map_eq_some_iff] at h
      obtain ⟨account, -, rfl⟩ := h
      exact ⟨rfl, rfl⟩
  | _ => cases h

theorem transaction_next (s : Drafts) (e : DraftEvent) :
    (s.next isLiquid e).controller.transaction.isSome = true ↔
      s.Brings e ∨ s.controller.transaction.isSome = true ∧ ¬ s.Empties e := by
  have hgoes := goes_next isLiquid s e
  generalize s.next isLiquid e = s' at hgoes ⊢
  cases hgoes with
  | @updates c fetches hupdating hanswered =>
      have hsame := (controller_updating hupdating).2
      have hempties : s.Empties e ↔ c.outcome = .clears := by
        simp [Empties, hupdating, hanswered]
      have hbrings : ¬ s.Brings e := by simp [Brings, hanswered]
      rw [hempties, or_iff_right hbrings, ← hsame]
      obtain ⟨houtcome, fetches, h⟩ | ⟨houtcome, h⟩ | ⟨houtcome, account, -, h⟩ :=
        update_cases isLiquid { s with controller := c, fetches }
      · rw [h]
        refine (and_iff_left ?_).symm
        rcases houtcome with houtcome | houtcome <;> rw [show c.outcome = _ from houtcome] <;> decide
      · rw [h]
        exact iff_of_false Bool.false_ne_true fun hboth => hboth.2 houtcome
      · rw [h]
        refine (and_iff_left ?_).symm
        rw [show c.outcome = _ from houtcome]
        decide
  | @answers job call transaction hupdating hfetched hanswered =>
      obtain ⟨-, hanswer⟩ := createEnded_cases isLiquid job call transaction s
      simp only [Brings, Empties, hanswered, hupdating]
      split_ifs at hanswer with hseq
      · rw [hanswer.transaction]
        cases transaction <;> simp [hseq]
      · rw [hanswer]
        cases transaction <;> simp [hseq]
  | sets hupdating hfetched hanswered hcreates hkeeps =>
      rw [hkeeps.transaction]
      simp [Brings, Empties, hanswered, hupdating]

theorem transaction_isSome_iff (es : List DraftEvent) :
    ((drafts isLiquid).run {} es).controller.transaction.isSome = true ↔
      (drafts isLiquid).Since Brings Empties {} es := by
  apply Reactive.iff_since (I := fun s : Drafts => s.controller.transaction.isSome = true)
    (J := fun _ => True) (V := fun _ _ => True)
  · intros
    trivial
  · intro s e _ _
    exact transaction_next s e
  · trivial
  · exact Bool.false_ne_true
  · exact Reactive.along_of_at fun _ _ _ _ => trivial

/-- The calls under way are no later than the last one, and the draft is for the last one, unless
that is still under way. -/
structure Called (isLiquid : ℕ → Bool) (es : List DraftEvent) (s : Drafts) : Prop where
  below : ∀ job call, s.creates.find job = some call → call.seq ≤ s.controller.seq
  last : ∀ job call, s.creates.find job = some call → call.seq = s.controller.seq →
    (drafts isLiquid).Since (fun s e => s.CallsFor isLiquid call.details e) Calls {} es
  shown : ∀ details made, s.controller.transaction = some (details, made) →
    (drafts isLiquid).Since (fun s e => s.CallsFor isLiquid details e) Calls {} es ∨
      ∃ job call, s.creates.find job = some call ∧ call.seq = s.controller.seq

theorem not_calls {e : DraftEvent} (h : ∀ c, s.updating e = some c → c.outcome ≠ .creates) :
    ¬ s.Calls e := fun ⟨c, hupdating, houtcome⟩ => h c hupdating houtcome

theorem calls_of_callsFor {details : Details} {e : DraftEvent}
    (h : s.CallsFor isLiquid details e) : s.Calls e := by
  obtain ⟨c, account, hupdating, houtcome, -⟩ := h
  exact ⟨c, hupdating, houtcome⟩

/-- The last call stays the last one if the step makes none. -/
theorem since_callsFor_concat {fs : List DraftEvent} {s : Drafts} {e : DraftEvent}
    (hs : (drafts isLiquid).run {} fs = s) (hnot : ¬ s.Calls e) (details : Details)
    (h : (drafts isLiquid).Since (fun s e => s.CallsFor isLiquid details e) Calls {} fs) :
    (drafts isLiquid).Since (fun s e => s.CallsFor isLiquid details e) Calls {} (fs ++ [e]) := by
  rw [← hs] at hnot
  exact Reactive.since_concat.mpr (.inr ⟨h, hnot⟩)

/-- The step makes no call, ends none, and leaves the draft or empties it. -/
theorem Called.keep {fs : List DraftEvent} {s s' : Drafts} {e : DraftEvent}
    (h : Called isLiquid fs s) (hs : (drafts isLiquid).run {} fs = s) (hnot : ¬ s.Calls e)
    (hseq : s'.controller.seq = s.controller.seq) (hcreates : s'.creates = s.creates)
    (htransaction : s'.controller.transaction = s.controller.transaction ∨
      s'.controller.transaction = none) : Called isLiquid (fs ++ [e]) s' := by
  have hsince := since_callsFor_concat hs hnot
  constructor
  · rw [hseq, hcreates]
    exact h.below
  · rw [hseq, hcreates]
    exact fun job call hjob hlast => hsince _ (h.last job call hjob hlast)
  · rw [hseq, hcreates]
    intro details made hshown
    rcases htransaction with hsame | hnone
    · rw [hsame] at hshown
      exact (h.shown details made hshown).imp_left (hsince details)
    · cases hnone.symm.trans hshown

/-- An update makes the next call, or none. -/
theorem called_update {fs : List DraftEvent} {s : Drafts} {e : DraftEvent}
    {c : CreateTransactionController} (h : Called isLiquid fs s)
    (hs : (drafts isLiquid).run {} fs = s) (hupdating : s.updating e = some c)
    (fetches : Jobs ℕ) :
    Called isLiquid (fs ++ [e]) ({ s with controller := c, fetches }.update isLiquid) := by
  obtain ⟨hseq, htransaction⟩ := controller_updating hupdating
  have hnot : c.outcome ≠ .creates → ¬ s.Calls e := by
    intro hother
    apply not_calls
    intro c' hupdating'
    rwa [← Option.some.inj (hupdating.symm.trans hupdating')]
  obtain ⟨houtcome, fetches, hnext⟩ | ⟨houtcome, hnext⟩ | ⟨houtcome, account, haccount, hnext⟩ :=
    update_cases isLiquid { s with controller := c, fetches } <;> rw [hnext]
  · refine h.keep hs (hnot fun hcreates => ?_) hseq rfl (.inl htransaction)
    rcases houtcome with houtcome | houtcome <;> cases houtcome.symm.trans hcreates
  · refine h.keep hs (hnot fun hcreates => ?_) hseq rfl (.inr rfl)
    cases houtcome.symm.trans hcreates
  · constructor
    · intro job call hjob
      simp only [Jobs.find_launch_eq] at hjob
      split_ifs at hjob
      · obtain rfl := Option.some.inj hjob
        exact Nat.le_refl _
      · rw [hseq]
        exact Nat.le_succ_of_le (h.below job call hjob)
    · intro job call hjob hlast
      simp only [Jobs.find_launch_eq] at hjob
      split_ifs at hjob
      · rw [← Option.some.inj hjob, Reactive.since_concat, hs]
        exact .inl ⟨c, account, hupdating, houtcome, haccount, rfl⟩
      · have hbelow := h.below job call hjob
        simp only at hlast
        omega
    · intro details made _
      exact .inr ⟨s.creates.launched, _, Jobs.find_launch _ _, rfl⟩

/-- The answer to a call is taken if it is in turn. -/
theorem called_createEnded {fs : List DraftEvent} {s : Drafts} {e : DraftEvent} {job : ℕ}
    {call : CreateCall} (transaction : Option Transaction) (h : Called isLiquid fs s)
    (hs : (drafts isLiquid).run {} fs = s) (hnot : ¬ s.Calls e)
    (hjob : s.creates.find job = some call) :
    Called isLiquid (fs ++ [e]) (s.createEnded job call transaction) := by
  have hsince := since_callsFor_concat hs hnot
  obtain ⟨hcreates, hanswer⟩ := createEnded_cases isLiquid job call transaction s
  have hseq : (s.createEnded job call transaction).controller.seq = s.controller.seq := by
    split_ifs at hanswer
    · exact hanswer.seq
    · rw [hanswer]
  have hfind : ∀ other found, (s.createEnded job call transaction).creates.find other = some found →
      s.creates.find other = some found := by
    intro other found hother
    rw [hcreates, Jobs.find_finish] at hother
    split_ifs at hother
    exact hother
  constructor
  · intro other found hother
    rw [hseq]
    exact h.below other found (hfind other found hother)
  · intro other found hother hlast
    rw [hseq] at hlast
    exact hsince _ (h.last other found (hfind other found hother) hlast)
  · intro details made hshown
    rw [hseq]
    split_ifs at hanswer with hturn
    · rw [hanswer.transaction] at hshown
      obtain ⟨answer, rfl, hdetails⟩ := Option.map_eq_some_iff.mp hshown
      cases hdetails
      exact .inl (hsince _ (h.last job call hjob hturn))
    · rw [hanswer] at hshown
      rcases h.shown details made hshown with hcalled | ⟨other, found, hother, hlast⟩
      · exact .inl (hsince details hcalled)
      · refine .inr ⟨other, found, ?_, hlast⟩
        rw [hcreates, Jobs.find_finish, if_neg]
        · exact hother
        · rintro rfl
          rw [Option.some.inj (hjob.symm.trans hother)] at hturn
          exact hturn hlast

theorem Called.next {fs : List DraftEvent} {s : Drafts} (h : Called isLiquid fs s)
    (hs : (drafts isLiquid).run {} fs = s) (e : DraftEvent) :
    Called isLiquid (fs ++ [e]) (s.next isLiquid e) := by
  have hquiet (hupdating : s.updating e = none) : ¬ s.Calls e := by
    rintro ⟨c, hsome, -⟩
    cases hupdating.symm.trans hsome
  have hgoes := goes_next isLiquid s e
  generalize s.next isLiquid e = s' at hgoes ⊢
  cases hgoes with
  | @updates c fetches hupdating => exact called_update h hs hupdating fetches
  | answers hupdating hfetched hanswered hjob =>
      exact called_createEnded _ h hs (hquiet hupdating) hjob
  | sets hupdating hfetched hanswered hcreates hkeeps =>
      exact h.keep hs (hquiet hupdating) hkeeps.seq hcreates (.inl hkeeps.transaction)

theorem called_run (es : List DraftEvent) :
    Called isLiquid es ((drafts isLiquid).run {} es) := by
  apply Reactive.run_history (I := Called isLiquid)
  · exact ⟨fun _ _ h => (by cases h), fun _ _ h => (by cases h), fun _ _ h => (by cases h)⟩
  · exact fun fs e gs _ hs => hs.next rfl e

/-! ## The inputs -/

/-- What the last update has found, so long as no other one is due. -/
theorem inputs_since {Q : Drafts → DraftEvent → Prop} {A : (Details → Prop) → Prop}
    (hQ : ∀ s e, Q s e → A (fun details =>
      (s.next isLiquid e).controller.Matches isLiquid details)) {es : List DraftEvent}
    (h : (drafts isLiquid).Since Q Updates {} es) :
    ((drafts isLiquid).run {} es).controller.timer = true ∨
      A fun details => ((drafts isLiquid).run {} es).controller.Matches isLiquid details := by
  induction es using List.reverseRecOn with
  | nil => exact absurd h Reactive.not_since_nil
  | append_singleton es e ih =>
      rw [Reactive.run_concat]
      rcases Reactive.since_concat.mp h with hlast | ⟨hinit, hnot⟩
      · exact .inr (hQ _ e hlast)
      · have hkeeps : ∀ c c' : CreateTransactionController, Keeps isLiquid c c' →
            (c.timer = true ∨ A fun details => c.Matches isLiquid details) →
              c'.timer = true ∨ A fun details => c'.Matches isLiquid details := by
          intro c c' hkeeps hbefore
          rcases hkeeps.inputs with hdue | hsame
          · exact .inl hdue
          · rw [funext fun details => propext (hsame details)]
            exact hbefore.imp_left hkeeps.due
        have hbefore := ih hinit
        generalize (drafts isLiquid).run {} es = s at hnot hbefore ⊢
        have hgoes := goes_next isLiquid s e
        rw [show (drafts isLiquid).next s e = s.next isLiquid e from rfl]
        generalize s.next isLiquid e = s' at hgoes ⊢
        cases hgoes with
        | @updates c fetches hupdating => exact absurd ⟨c, hupdating⟩ hnot
        | @answers job call transaction =>
            obtain ⟨-, hanswer⟩ := createEnded_cases isLiquid job call transaction s
            split_ifs at hanswer
            · exact hkeeps _ _ hanswer hbefore
            · rwa [hanswer]
        | sets _ _ _ _ hsetter => exact hkeeps _ _ hsetter hbefore

/-- A call is made for what is set. -/
theorem matches_callsFor {details : Details} {e : DraftEvent} (h : s.CallsFor isLiquid details e) :
    (s.next isLiquid e).controller.Matches isLiquid details := by
  obtain ⟨c, account, hupdating, houtcome, haccount, rfl⟩ := h
  obtain ⟨fetches, hnext⟩ := next_of_updating isLiquid hupdating
  rw [hnext]
  obtain ⟨hother, -⟩ | ⟨hother, -⟩ | ⟨-, account', haccount', h⟩ :=
    update_cases isLiquid { s with controller := c, fetches }
  · rcases hother with hother | hother <;> cases houtcome.symm.trans hother
  · cases houtcome.symm.trans hother
  · rw [h]
    exact ⟨haccount, rfl, rfl⟩

theorem outcome_clears {c : CreateTransactionController} (h : c.outcome = .clears) :
    c.previous_transaction = none ∧ trimmed c.recipient.address = [] := by
  unfold outcome at h
  split_ifs at h with _ _ hrecipient
  rw [Bool.and_eq_true, Option.isNone_iff_eq_none, List.isEmpty_iff] at hrecipient
  exact hrecipient

theorem outcome_creates {c : CreateTransactionController} (h : c.outcome = .creates) :
    c.previous_transaction = none → trimmed c.recipient.address ≠ [] := by
  unfold outcome at h
  split_ifs at h with _ _ hrecipient
  rw [Bool.and_eq_true, Option.isNone_iff_eq_none, List.isEmpty_iff] at hrecipient
  exact fun hnone hempty => hrecipient ⟨hnone, hempty⟩

/-- No call is made without a recipient. -/
theorem not_matches_clears {details : Details} {e e' : DraftEvent} {s' : Drafts}
    (h : s.Clears e) (h' : s'.CallsFor isLiquid details e') :
    ¬ (s.next isLiquid e).controller.Matches isLiquid details := by
  obtain ⟨c, hupdating, houtcome⟩ := h
  obtain ⟨c', account, -, houtcome', -, rfl⟩ := h'
  obtain ⟨hprevious, hempty⟩ := outcome_clears houtcome
  intro hmatches
  have haddressee : c'.givenAddressee isLiquid account = c.givenAddressee isLiquid account := by
    obtain ⟨fetches, hnext⟩ := next_of_updating isLiquid hupdating
    rw [hnext] at hmatches
    obtain ⟨hother, -⟩ | ⟨-, h⟩ | ⟨hother, -⟩ :=
      update_cases isLiquid { s with controller := c, fetches }
    · rcases hother with hother | hother <;> cases houtcome.symm.trans hother
    · rw [h] at hmatches
      exact hmatches.2.1
    · cases houtcome.symm.trans hother
  cases hprevious' : c'.previous_transaction with
  | some previous =>
      simp [givenAddressee, hprevious, hprevious'] at haddressee
  | none =>
      have haddress := congrArg (Option.map CallAddressee.address) haddressee
      simp only [givenAddressee, hprevious, hprevious', hempty, Option.isSome_none,
        Bool.false_eq_true, if_false, Option.map_some, Option.some.injEq] at haddress
      exact outcome_creates houtcome' hprevious' (String.ofList_injective haddress)

/-! ## Runs -/

/-- With nothing outstanding, the draft is for the last call. -/
theorem callsFor_of_settled {es : List DraftEvent}
    (hsettled : ((drafts isLiquid).run {} es).Settled) {details : Details} {made : Transaction}
    (hshown : ((drafts isLiquid).run {} es).controller.transaction = some (details, made)) :
    (drafts isLiquid).Since (fun s e => s.CallsFor isLiquid details e) Calls {} es := by
  rcases (called_run es).shown details made hshown with hcalled | ⟨job, call, hjob, -⟩
  · exact hcalled
  · rw [Jobs.idle_iff.mp hsettled.2.1] at hjob
    cases hjob

theorem updates_cases {e : DraftEvent} (h : s.Updates e) :
    s.Calls e ∨ s.Clears e ∨ s.Rests e := by
  obtain ⟨c, hupdating⟩ := h
  cases houtcome : c.outcome with
  | creates => exact .inl ⟨c, hupdating, houtcome⟩
  | clears => exact .inr (.inl ⟨c, hupdating, houtcome⟩)
  | stays => exact .inr (.inr ⟨c, hupdating, .inl houtcome⟩)
  | fetches => exact .inr (.inr ⟨c, hupdating, .inr houtcome⟩)

theorem callsFor_of_calls (isLiquid : ℕ → Bool) {e : DraftEvent} (h : s.Calls e) :
    ∃ details, s.CallsFor isLiquid details e := by
  obtain ⟨c, hupdating, houtcome⟩ := h
  cases haccount : c.account with
  | some account => exact ⟨_, c, account, hupdating, houtcome, haccount, rfl⟩
  | none =>
      rw [outcome, haccount, Option.isNone_none, Bool.or_true, if_pos rfl] at houtcome
      cases houtcome

theorem updates_of_calls {e : DraftEvent} (h : s.Calls e) : s.Updates e := by
  obtain ⟨c, hupdating, -⟩ := h
  exact ⟨c, hupdating⟩

/-- There is one last call. -/
theorem callsFor_unique {es : List DraftEvent} {details details' : Details}
    (h : (drafts isLiquid).Since (fun s e => s.CallsFor isLiquid details e) Calls {} es)
    (h' : (drafts isLiquid).Since (fun s e => s.CallsFor isLiquid details' e) Calls {} es) :
    details = details' := by
  obtain ⟨s, e, ⟨c, account, hupdating, -, haccount, rfl⟩, c', account', hupdating', -,
    haccount', rfl⟩ := Reactive.Since.meet (fun _ _ => calls_of_callsFor)
      (fun _ _ => calls_of_callsFor) h h'
  obtain rfl : c = c' := Option.some.inj (hupdating.symm.trans hupdating')
  rw [Option.some.inj (haccount.symm.trans haccount')]

theorem transactionCurrent_iff {es : List DraftEvent}
    (hsettled : ((drafts isLiquid).run {} es).Settled) :
    ((drafts isLiquid).run {} es).controller.TransactionCurrent isLiquid ↔
      ((drafts isLiquid).Since Brings Empties {} es →
        (drafts isLiquid).Since Calls Updates {} es ∨
          (drafts isLiquid).Since Rests Updates {} es ∧ ∃ details,
            (drafts isLiquid).Since (fun s e => s.CallsFor isLiquid details e) Calls {} es ∧
              ((drafts isLiquid).run {} es).controller.Matches isLiquid details) := by
  rw [← transaction_isSome_iff]
  have hidle : ((drafts isLiquid).run {} es).controller.timer ≠ true := by
    rw [hsettled.2.2]
    exact Bool.false_ne_true
  constructor
  · intro hcurrent hsome
    obtain ⟨⟨details, made⟩, hshown⟩ := Option.isSome_iff_exists.mp hsome
    have hmatches := hcurrent details made hshown
    have hcalled := callsFor_of_settled hsettled hshown
    have hlast : (drafts isLiquid).Since Updates Updates {} es :=
      hcalled.last fun _ _ h => updates_of_calls (calls_of_callsFor h)
    rcases Reactive.since_or.mp (hlast.imp (fun _ _ => updates_cases) fun _ _ => id) with
      hcalls | hother
    · exact .inl hcalls
    · rcases Reactive.since_or.mp hother with hclears | hrests
      · obtain ⟨fs, e', gs, -, hcall, -⟩ := hcalled
        have hempty := inputs_since (A := fun matching => ¬ matching details)
          (fun _ _ hclear => not_matches_clears hclear hcall) hclears
        exact absurd hmatches (hempty.resolve_left hidle)
      · exact .inr ⟨hrests, details, hcalled, hmatches⟩
  · intro hkept details made hshown
    have hcalled := callsFor_of_settled hsettled hshown
    rcases hkept (by rw [hshown]; rfl) with hcalls | ⟨-, details', hcalled', hmatches⟩
    · obtain ⟨fs, e, gs, hsplit, hcall, hkept⟩ := hcalls
      obtain ⟨details', hcall⟩ := callsFor_of_calls isLiquid hcall
      have hlast : (drafts isLiquid).Since (fun s e => s.CallsFor isLiquid details' e) Updates {}
          es := ⟨fs, e, gs, hsplit, hcall, hkept⟩
      have hmatches := inputs_since (A := fun matching => matching details')
        (fun _ _ h => matches_callsFor h) hlast
      have hcalled' := hlast.imp (fun _ _ => id) fun _ _ => updates_of_calls
      rw [callsFor_unique hcalled' hcalled] at hmatches
      exact hmatches.resolve_left hidle
    · rwa [callsFor_unique hcalled' hcalled] at hmatches

end Drafts

/-- **Draft of the inputs.** In every state of a run in which nothing is outstanding the
outputs and the draft are for what is set, exactly if the answers and the updates of the run
have kept up with what was set whenever nothing is outstanding. -/
theorem draftMatches_iff {isLiquid : ℕ → Bool} (es : List DraftEvent) :
    (drafts isLiquid).Always (DraftMatches isLiquid) {} es ↔
      ∀ fs gs, es = fs ++ gs → ((drafts isLiquid).run {} fs).Settled → KeepsUp isLiquid fs := by
  rw [Reactive.always_iff]
  refine forall_congr' fun fs => forall_congr' fun gs => imp_congr_right fun _ => ?_
  refine imp_congr_right fun hsettled => ?_
  rw [Drafts.utxosCurrent_iff, Drafts.transactionCurrent_iff hsettled]
  exact ⟨fun h => ⟨h.1, h.2⟩, fun h => ⟨h.fetched, h.called⟩⟩

/-- The account is changed while its unspent outputs are being fetched, and its outputs
come in after those of the other account. -/
def swappedAccounts : List DraftEvent :=
  [.setContext (some 0), .setAccount (some 1), .timer, .setAccount (some 2), .timer,
    .unspentsFinished 1 20, .unspentsFinished 0 10]

theorem not_draftMatches_swappedAccounts :
    (drafts fun _ => false).Valid {} swappedAccounts ∧
      ¬ (drafts fun _ => false).Always (DraftMatches fun _ => false) {} swappedAccounts := by
  refine ⟨by decide, ?_⟩
  intro h
  have hcurrent := (h.last (by decide)).1 { account := 1, outputs := 10 } (by decide)
  exact absurd hcurrent (by decide)

end GreenWallet.Controllers
