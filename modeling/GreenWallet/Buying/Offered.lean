import GreenWallet.Buying.Ranked

/-!
# What is offered to buy from

The page offers a provider when there is no error and nothing is loading. The provider is one of those
that the last answer has a quote of, unless an answer was refused without a text while an older
provider was still there, or a quote was chosen from a list that the answers have left behind.
-/
namespace GreenWallet.Buying
open GreenWallet.Library GreenWallet.Wallets

/-- Some quote is of the provider. -/
def Mentions (quotes : List Quote) (provider : String) : Prop :=
  ∃ quote ∈ quotes, quote.serviceProvider = provider

instance (quotes : List Quote) (provider : String) : Decidable (Mentions quotes provider) :=
  inferInstanceAs (Decidable (∃ quote ∈ quotes, quote.serviceProvider = provider))

theorem mentions_bestQuote {quotes : List Quote} {quote : Quote} (h : bestQuote quotes = some quote) :
    Mentions quotes quote.serviceProvider := ⟨quote, best_mem h, rfl⟩

/-- The best provider is one of the quotes, if there is one. -/
theorem mentions_best_provider (quotes : List Quote) :
    (bestQuote quotes).elim "" Quote.serviceProvider = "" ∨
      Mentions quotes ((bestQuote quotes).elim "" Quote.serviceProvider) := by
  cases hbest : bestQuote quotes with
  | none => exact .inl rfl
  | some quote => exact .inr (mentions_bestQuote hbest)

/-- What is selected after an answer is one of its quotes. -/
theorem mentions_reselect {selected : Option Quote} {quotes : List Quote} {quote : Quote}
    (h : reselect selected quotes = some quote) : Mentions quotes quote.serviceProvider := by
  cases selected with
  | none => exact mentions_bestQuote h
  | some previous =>
      simp only [reselect] at h
      split at h
      · exact mentions_bestQuote h
      · cases Option.or_eq_some_iff.mp h with
        | inl hfound => exact ⟨quote, List.mem_of_find?_eq_some hfound, rfl⟩
        | inr hbest => exact mentions_bestQuote hbest.2

namespace BuyPage
variable (runtime : Runtime)

/-- Nothing is loading and no error shows. -/
def Idle (page : BuyPage) : Prop := page.service.m_error = "" ∧ page.service.m_loading = false

/-- The last answer has a quote of the provider. -/
def Answers (page : BuyPage) (provider : String) : Prop :=
  ∃ quotes ∈ page.answered, Mentions quotes provider

/-- The provider that the page offers to buy from is one of the last answer. -/
def Offered (page : BuyPage) : Prop :=
  page.Idle → page.provider ≠ "" → page.Answers page.provider

/-- A refusal has a text or finds no provider, and a quote is chosen while it loads, while an error
shows, or from what the last answer has. -/
def Sound (page : BuyPage) : BuyEvent → Prop
  | .replyFinished reply => answer runtime reply = .error "" → page.provider = ""
  | .quoteClicked quote =>
      page.Idle → quote.serviceProvider ≠ "" → page.Answers quote.serviceProvider
  | _ => True

/-- What is known as long as all steps are sound. -/
structure Kept (page : BuyPage) : Prop where
  offered : page.Offered
  best : page.Idle → page.service.m_best_service_provider ≠ "" →
    page.Answers page.service.m_best_service_provider

variable {runtime} {page : BuyPage}

theorem Offered.clearQuote : page.clearQuote.Offered := by
  intro _ hprovider
  rw [BuyPage.clearQuote, BuyBitcoinQuoteService.clearQuote_eq] at hprovider
  exact absurd rfl hprovider

theorem kept_clearQuote : page.clearQuote.Kept where
  offered := .clearQuote
  best := by
    intro _ hbest
    rw [BuyPage.clearQuote, BuyBitcoinQuoteService.clearQuote_eq] at hbest
    exact absurd rfl hbest

/-- Where something loads there is nothing to offer. -/
theorem offered_of_loading (h : page.service.m_loading = true) : page.Offered :=
  fun hidle => absurd hidle.2 (by simp [h])

theorem Kept.of_loading (h : page.service.m_loading = true) : page.Kept :=
  ⟨offered_of_loading h, fun hidle => absurd hidle.2 (by simp [h])⟩

variable (runtime) in
/-- The timer has cleared the quotes or asked for some. -/
theorem triggered_cases (hcontext : page.service.m_context.isSome) :
    page.triggered runtime = { page.clearQuote with timer := false } ∨
      page.triggered runtime =
        { page with
          timer := false
          service :=
            { page.service with
              m_reply := true
              m_loading := true
              m_error := ""
              posted := page.service.posted ++
                [.quote page.countryCode (page.sourceAmount runtime) page.currency
                  page.address] } } := by
  unfold triggered
  split
  · exact .inl rfl
  · next hentries =>
      simp only [Bool.or_eq_true, beq_iff_eq, not_or, Bool.not_eq_true] at hentries
      obtain ⟨⟨⟨⟨-, hamount⟩, hcurrency⟩, haddress⟩, -⟩ := hentries
      right
      rw [BuyBitcoinQuoteService.fetchQuote_of_valid hcontext hamount hcurrency haddress]

/-- What an accepted answer leaves to offer is one of its quotes. -/
theorem answers_of_ok {reply : Reply} {quotes : List Quote}
    (hanswer : answer runtime reply = .ok quotes) :
    ((page.replyFinished runtime reply).provider = "" ∨
      (page.replyFinished runtime reply).Answers (page.replyFinished runtime reply).provider) ∧
    ((page.replyFinished runtime reply).service.m_best_service_provider = "" ∨
      (page.replyFinished runtime reply).Answers
        (page.replyFinished runtime reply).service.m_best_service_provider) := by
  have hbest := mentions_best_provider quotes
  have hmentions : ∀ provider, Mentions quotes provider →
      (page.replyFinished runtime reply).Answers provider := by
    intro provider h
    refine ⟨quotes, ?_, h⟩
    simp [replyFinished, hanswer, Except.toOption]
  have hanew : (page.replyFinished runtime reply).service.m_best_service_provider =
      (bestQuote quotes).elim "" Quote.serviceProvider := by
    simp [replyFinished, BuyBitcoinQuoteService.onReplyFinished, hanswer]
  have hselected : (page.replyFinished runtime reply).service.m_selected_quote =
      reselect page.service.m_selected_quote quotes := by
    simp [replyFinished, BuyBitcoinQuoteService.onReplyFinished, hanswer]
  have hbest' := hbest.imp id (hmentions _)
  rw [← hanew] at hbest'
  constructor
  · unfold provider BuyBitcoinQuoteService.selectedServiceProvider
    split
    · exact hbest'
    · rw [hselected]
      cases hquote : reselect page.service.m_selected_quote quotes with
      | none => exact .inl rfl
      | some quote => exact .inr (hmentions _ (mentions_reselect hquote))
  · exact hbest'

/-- A refusal leaves what was there, and has it answered by nothing. -/
theorem replyFinished_of_error {reply : Reply} {text : String}
    (hanswer : answer runtime reply = .error text) :
    page.replyFinished runtime reply =
      { page with
        service :=
          { page.service with
            m_reply := false
            m_loading := false
            m_best_destination_amount := 0
            m_error := text }
        answered := none } := by
  simp [replyFinished, BuyBitcoinQuoteService.onReplyFinished, hanswer, Except.toOption]

/-- The steps that leave the provider, the errors and the answer alone. -/
structure SameOffer (page page' : BuyPage) : Prop where
  error : page'.service.m_error = page.service.m_error
  loading : page'.service.m_loading = page.service.m_loading
  selected : page'.service.m_selected_quote = page.service.m_selected_quote
  best : page'.service.m_best_service_provider = page.service.m_best_service_provider
  answered : page'.answered = page.answered

theorem SameOffer.provider {page' : BuyPage} (h : SameOffer page page') :
    page'.provider = page.provider := by
  unfold BuyPage.provider BuyBitcoinQuoteService.selectedServiceProvider
  rw [h.selected, h.best]

theorem Kept.of_same {page' : BuyPage} (h : page.Kept) (hsame : SameOffer page page') :
    page'.Kept := by
  have hidle : page'.Idle → page.Idle :=
    fun hidle => ⟨hsame.error.symm.trans hidle.1, hsame.loading.symm.trans hidle.2⟩
  have hanswers : ∀ provider, page.Answers provider → page'.Answers provider := by
    intro provider hanswers
    rw [Answers, hsame.answered]
    exact hanswers
  constructor
  · intro hnow hprovider
    rw [hsame.provider] at hprovider ⊢
    exact hanswers _ (h.offered (hidle hnow) hprovider)
  · intro hnow hbest
    rw [hsame.best] at hbest ⊢
    exact hanswers _ (h.best (hidle hnow) hbest)

theorem sameOffer_widgetReplyFinished (reply : Reply) :
    SameOffer page (page.next runtime (.widgetReplyFinished reply)) := by
  simp only [next, BuyBitcoinQuoteService.onWidgetReplyFinished]
  split
  · exact ⟨rfl, rfl, rfl, rfl, rfl⟩
  · exact ⟨rfl, rfl, rfl, rfl, rfl⟩

theorem sameOffer_buy (useDebugMode : Bool) :
    SameOffer page (page.next runtime (.buy useDebugMode)) := by
  simp only [next, buy, BuyBitcoinQuoteService.createWidgetSession]
  split
  · split
    · exact ⟨rfl, rfl, rfl, rfl, rfl⟩
    · split
      · exact ⟨rfl, rfl, rfl, rfl, rfl⟩
      · exact ⟨rfl, rfl, rfl, rfl, rfl⟩
  · exact ⟨rfl, rfl, rfl, rfl, rfl⟩

theorem offered_replyFinished (reply : Reply) :
    (page.replyFinished runtime reply).Offered ↔ page.Sound runtime (.replyFinished reply) := by
  cases hanswer : answer runtime reply with
  | ok quotes =>
      apply iff_of_true
      · exact fun _ hprovider => (answers_of_ok hanswer).1.resolve_left hprovider
      · intro hrefused
        cases hanswer.symm.trans hrefused
  | error text =>
      rw [replyFinished_of_error hanswer]
      constructor
      · intro h hrefused
        cases hanswer.symm.trans hrefused
        by_contra hprovider
        obtain ⟨_, hnone, _⟩ := h ⟨rfl, rfl⟩ hprovider
        cases hnone
      · intro hsound hidle hprovider
        rw [show text = "" from hidle.1] at hanswer
        exact absurd (hsound hanswer) hprovider

theorem kept_replyFinished {reply : Reply}
    (hsound : page.Sound runtime (.replyFinished reply)) :
    (page.replyFinished runtime reply).Kept := by
  have hoffered := (offered_replyFinished reply).mpr hsound
  cases hanswer : answer runtime reply with
  | ok quotes =>
      exact ⟨hoffered, fun _ hbest => (answers_of_ok hanswer).2.resolve_left hbest⟩
  | error text =>
      rw [replyFinished_of_error hanswer] at hoffered ⊢
      refine ⟨hoffered, ?_⟩
      -- Where the text is empty, no provider was left, and so no best one.
      intro hidle hbest
      rw [show text = "" from hidle.1] at hanswer
      have hprovider := hsound hanswer
      unfold provider at hprovider
      split at hprovider
      · exact absurd hprovider hbest
      · next hselected => exact absurd hprovider hselected

theorem provider_quoteClicked (quote : Quote) :
    (page.next runtime (.quoteClicked quote)).provider =
      if quote.serviceProvider = "" then page.service.m_best_service_provider
      else quote.serviceProvider := by
  simp only [next, provider, BuyBitcoinQuoteService.setSelectedQuote,
    BuyBitcoinQuoteService.selectedServiceProvider]
  split
  · next hsame => rw [hsame]; rfl
  · rfl

theorem offered_quoteClicked (h : page.Kept) (quote : Quote) :
    (page.next runtime (.quoteClicked quote)).Offered ↔
      page.Sound runtime (.quoteClicked quote) := by
  have hidle : (page.next runtime (.quoteClicked quote)).Idle ↔ page.Idle := by
    simp only [next, Idle, BuyBitcoinQuoteService.setSelectedQuote]
    split
    · exact Iff.rfl
    · exact Iff.rfl
  unfold Offered Sound
  rw [provider_quoteClicked, hidle]
  split
  · next hempty =>
      apply iff_of_true
      · exact h.best
      · exact fun _ hnot => absurd hempty hnot
  · exact Iff.rfl

theorem Kept.quoteClicked (h : page.Kept) {quote : Quote}
    (hsound : page.Sound runtime (.quoteClicked quote)) :
    (page.next runtime (.quoteClicked quote)).Kept := by
  have hoffered := (offered_quoteClicked h quote).mpr hsound
  refine ⟨hoffered, ?_⟩
  simp only [next, Idle, Answers, BuyBitcoinQuoteService.setSelectedQuote]
  split
  · exact h.best
  · exact h.best

theorem Kept.next (h : page.Kept) (hsettled : page.service.Settled) {e : BuyEvent}
    (hsound : page.Sound runtime e) : (page.next runtime e).Kept := by
  cases e with
  | setAmount | setCountryCode | setCurrency | setAddress | openQuotes | closeQuotes =>
      exact h.of_same ⟨rfl, rfl, rfl, rfl, rfl⟩
  | triggered =>
      cases triggered_cases runtime hsettled.context with
      | inl hcleared =>
          rw [BuyPage.next, hcleared]
          exact kept_clearQuote.of_same ⟨rfl, rfl, rfl, rfl, rfl⟩
      | inr hfetched =>
          rw [BuyPage.next, hfetched]
          exact .of_loading rfl
  | cleared => exact kept_clearQuote.of_same ⟨rfl, rfl, rfl, rfl, rfl⟩
  | replyFinished reply => exact kept_replyFinished hsound
  | widgetReplyFinished reply => exact h.of_same (sameOffer_widgetReplyFinished reply)
  | quoteClicked quote => exact h.quoteClicked hsound
  | buy useDebugMode => exact h.of_same (sameOffer_buy useDebugMode)

/-- A step keeps the offer exactly if it is sound. -/
theorem offered_next_iff (h : page.Kept) (hsettled : page.service.Settled) (e : BuyEvent) :
    (page.next runtime e).Offered ↔ page.Sound runtime e := by
  cases e with
  | replyFinished reply => exact offered_replyFinished reply
  | quoteClicked quote => exact offered_quoteClicked h quote
  | setAmount | setCountryCode | setCurrency | setAddress | openQuotes | closeQuotes | triggered
    | cleared | widgetReplyFinished | buy =>
      exact iff_of_true (h.next hsettled (by exact trivial)).offered trivial

theorem kept_opened (xpubHashId countryCode currency : String) :
    (opened xpubHashId countryCode currency).Kept where
  offered := fun _ hprovider => absurd rfl hprovider
  best := fun _ hbest => absurd rfl hbest

/-- In every state of a run the provider that is offered is one of the last answer, exactly if every
refusal has a text or finds no provider, and every quote is chosen while there is nothing to offer or
from what the last answer has. -/
theorem offered_iff_sound (xpubHashId countryCode currency : String) {es : List BuyEvent}
    (hes : (buying runtime).Valid (opened xpubHashId countryCode currency) es) :
    (buying runtime).Always Offered (opened xpubHashId countryCode currency) es ↔
      (buying runtime).Along (Sound runtime) (opened xpubHashId countryCode currency) es :=
  have hopened := kept_opened xpubHashId countryCode currency
  Reactive.always_iff_along_of_keeps (J := fun page => page.service.Settled ∧ page.Kept)
    (R := buying runtime)
    (fun _ _ h he hsound => ⟨settled_next h.1 he, h.2.next h.1 hsound⟩)
    (fun _ e h _ _ => offered_next_iff h.2 h.1 e)
    ⟨settled_opened xpubHashId countryCode currency, hopened⟩ hopened.offered hes

/-- The service then refuses with an object for its error. -/
def refusedWithoutText : List BuyEvent :=
  twoQuotes ++ [.setAmount "200", .triggered,
    .replyFinished { body := .document [("error", .object [("reason", .string "down")])] }]

theorem offered_iff_sound_refusedWithoutText :
    ¬ (buying plain).Always Offered (opened "7b3f" "CH" "USD") refusedWithoutText := by
  have hes : (buying plain).Valid (opened "7b3f" "CH" "USD") refusedWithoutText := by
    decide +kernel
  rw [offered_iff_sound "7b3f" "CH" "USD" hes]
  intro ⟨_, _, _, _, _, _, hrefused, _⟩
  exact absurd (hrefused rfl) (by decide +kernel)

end BuyPage
end GreenWallet.Buying
