import GreenWallet.Buying.Offered

/-!
# What the quotes were asked for

Between two requests for quotes the entries of the page can change. A change of the amount, of the
country or of the address starts the timer, at whose end other quotes are asked for. A change of the
currency does not. A session is asked for with the entries there are when the button is pressed; of
the amount it has six digits only.
-/
namespace GreenWallet.Buying
open GreenWallet.Library GreenWallet.Wallets

structure Entries where
  countryCode : String
  sourceAmount : Option ℚ
  sourceCurrencyCode : String
  walletAddress : String
deriving DecidableEq

/-- What a request for quotes is for. -/
def Post.quoted : Post → Option Entries
  | .quote countryCode sourceAmount sourceCurrencyCode walletAddress =>
      some ⟨countryCode, sourceAmount, sourceCurrencyCode, walletAddress⟩
  | .widget .. => none

/-- A session is asked for with the entries, the amount as the text of its six digits. -/
def Post.IsSessionFor (entries : Entries) : Post → Prop
  | .quote .. => False
  | .widget _ countryCode amount sourceCurrencyCode walletAddress _ =>
      countryCode = entries.countryCode ∧ amount = number entries.sourceAmount ∧
        sourceCurrencyCode = entries.sourceCurrencyCode ∧ walletAddress = entries.walletAddress

theorem Post.IsSessionFor.quoted {entries : Entries} {post : Post} (h : post.IsSessionFor entries) :
    post.quoted = none := by
  cases post with
  | quote => exact absurd h id
  | widget => rfl

/-- The entries of the last request for quotes. -/
def BuyBitcoinQuoteService.asked (service : BuyBitcoinQuoteService) : Option Entries :=
  (service.posted.filterMap Post.quoted).getLast?

theorem BuyBitcoinQuoteService.asked_concat {service service' : BuyBitcoinQuoteService} {post : Post}
    (h : service'.posted = service.posted ++ [post]) :
    service'.asked = post.quoted.or service.asked := by
  unfold asked
  rw [h, List.filterMap_append]
  cases hquoted : post.quoted with
  | some entries => simp [hquoted]
  | none => simp [hquoted]

namespace BuyPage
variable (runtime : Runtime)

def entries (page : BuyPage) : Entries :=
  ⟨page.countryCode, page.sourceAmount runtime, page.currency, page.address⟩

/-- Quotes are loading or there. -/
def Busy (page : BuyPage) : Prop := page.service.m_loading = true ∨ page.provider ≠ ""

/-- Unless the timer runs, the quotes are for the entries there are. -/
def Current (page : BuyPage) : Prop :=
  page.timer = false → page.Busy → page.service.asked = some (page.entries runtime)

/-- The currency changes while the timer runs or there are no quotes, and where there are none, none
is chosen but for the entries there are. -/
def Steady (page : BuyPage) : BuyEvent → Prop
  | .setCurrency currency => page.timer = false → page.Busy → currency = page.currency
  | .quoteClicked quote =>
      page.timer = false → ¬ page.Busy → quote.serviceProvider ≠ "" →
        page.service.asked = some (page.entries runtime)
  | _ => True

variable {runtime} {page : BuyPage}

theorem current_of_timer (h : page.timer = true) : page.Current runtime := by
  intro htimer
  rw [h] at htimer
  cases htimer

theorem not_busy_clearQuote : ¬ page.clearQuote.Busy := by
  rw [BuyPage.clearQuote, BuyBitcoinQuoteService.clearQuote_eq]
  rintro (hloading | hprovider)
  · cases hloading
  · exact hprovider rfl

/-- What leaves the entries, the timer and the requests for quotes alone, and keeps what it offers. -/
theorem Current.of_same {page' : BuyPage} (h : page.Current runtime) (hsame : SameOffer page page')
    (htimer : page'.timer = page.timer) (hasked : page'.service.asked = page.service.asked)
    (hentries : page'.entries runtime = page.entries runtime) : page'.Current runtime := by
  intro hstopped hbusy
  rw [Busy, hsame.loading, hsame.provider] at hbusy
  rw [hasked, hentries]
  exact h (htimer.symm.trans hstopped) hbusy

theorem asked_onWidgetReplyFinished (service : BuyBitcoinQuoteService) (reply : Reply) :
    (service.onWidgetReplyFinished reply).asked = service.asked := by
  unfold BuyBitcoinQuoteService.onWidgetReplyFinished
  split
  · rfl
  · rfl

theorem asked_onReplyFinished (service : BuyBitcoinQuoteService) (reply : Reply) :
    (service.onReplyFinished runtime reply).asked = service.asked := by
  unfold BuyBitcoinQuoteService.onReplyFinished
  split
  · rfl
  · rfl

theorem asked_setSelectedQuote (service : BuyBitcoinQuoteService) (quote : Quote) :
    (service.setSelectedQuote quote).asked = service.asked ∧
      (service.setSelectedQuote quote).m_loading = service.m_loading := by
  unfold BuyBitcoinQuoteService.setSelectedQuote
  split
  · exact ⟨rfl, rfl⟩
  · exact ⟨rfl, rfl⟩

variable (runtime page) in
/-- A session is asked for with the entries there are, or none is. -/
theorem posted_buy (useDebugMode : Bool) :
    (page.buy runtime useDebugMode).service.posted = page.service.posted ∨
      ∃ post : Post, post.IsSessionFor (page.entries runtime) ∧
        (page.buy runtime useDebugMode).service.posted = page.service.posted ++ [post] := by
  unfold buy
  split
  · unfold BuyBitcoinQuoteService.createWidgetSession
    split
    · exact .inl rfl
    · split
      · exact .inl rfl
      · refine .inr ⟨_, ?_, rfl⟩
        exact ⟨rfl, rfl, rfl, rfl⟩
  · exact .inl rfl

theorem asked_buy (useDebugMode : Bool) :
    (page.buy runtime useDebugMode).service.asked = page.service.asked := by
  cases posted_buy runtime page useDebugMode with
  | inl hsame => rw [BuyBitcoinQuoteService.asked, hsame, BuyBitcoinQuoteService.asked]
  | inr hposted =>
      obtain ⟨post, hsession, hposted⟩ := hposted
      rw [BuyBitcoinQuoteService.asked_concat hposted, hsession.quoted]
      rfl

variable (runtime page) in
theorem entries_buy (useDebugMode : Bool) :
    (page.buy runtime useDebugMode).entries runtime = page.entries runtime ∧
      (page.buy runtime useDebugMode).timer = page.timer := by
  unfold buy
  split
  · exact ⟨rfl, rfl⟩
  · exact ⟨rfl, rfl⟩

theorem current_setCurrency (h : page.Current runtime) (currency : String) :
    (page.next runtime (.setCurrency currency)).Current runtime ↔
      page.Steady runtime (.setCurrency currency) := by
  constructor
  · intro hcurrent htimer hbusy
    have hentries := (hcurrent htimer hbusy).symm.trans (h htimer hbusy)
    exact congrArg Entries.sourceCurrencyCode (Option.some.inj hentries)
  · intro hsteady htimer hbusy
    have hsame := hsteady htimer hbusy
    rw [hsame]
    exact h htimer hbusy

theorem current_triggered (h : page.service.Settled) :
    (page.triggered runtime).Current runtime := by
  cases triggered_cases runtime h.context with
  | inl hcleared =>
      rw [hcleared]
      intro _ hbusy
      exact absurd hbusy not_busy_clearQuote
  | inr hfetched =>
      rw [hfetched]
      intro _ _
      rw [BuyBitcoinQuoteService.asked_concat rfl]
      rfl

theorem current_replyFinished (h : page.Current runtime) (hsettled : page.service.Settled)
    (reply : Reply) (hreply : page.service.m_reply = true) :
    (page.replyFinished runtime reply).Current runtime := by
  intro htimer _
  change (page.service.onReplyFinished runtime reply).asked = _
  rw [asked_onReplyFinished]
  exact h htimer (.inl (hsettled.loading.trans hreply))

theorem current_quoteClicked (h : page.Current runtime) (quote : Quote) :
    (page.next runtime (.quoteClicked quote)).Current runtime ↔
      page.Steady runtime (.quoteClicked quote) := by
  have hselected := asked_setSelectedQuote page.service quote
  constructor
  · intro hcurrent htimer _ hprovider
    rw [← hselected.1]
    apply hcurrent htimer
    right
    rw [provider_quoteClicked, if_neg hprovider]
    exact hprovider
  · intro hsteady htimer hbusy
    change (page.service.setSelectedQuote quote).asked = _
    rw [hselected.1]
    by_cases hbefore : page.Busy
    · exact h htimer hbefore
    · apply hsteady htimer hbefore
      -- A quote without a provider shows the best one, and there is none.
      intro hempty
      rw [Busy, provider_quoteClicked, if_pos hempty] at hbusy
      apply hbefore
      cases hbusy with
      | inl hloading => exact .inl (hselected.2.symm.trans hloading)
      | inr hbest =>
          right
          unfold provider
          split
          · exact hbest
          · assumption

/-- A step keeps the quotes up to date exactly if it is steady. -/
theorem current_next_iff (h : page.Current runtime) (hsettled : page.service.Settled)
    {e : BuyEvent} (he : page.enabled runtime e) :
    (page.next runtime e).Current runtime ↔ page.Steady runtime e := by
  cases e with
  | setAmount | setCountryCode | setAddress | cleared =>
      exact iff_of_true (current_of_timer rfl) trivial
  | setCurrency currency => exact current_setCurrency h currency
  | triggered => exact iff_of_true (current_triggered hsettled) trivial
  | replyFinished reply => exact iff_of_true (current_replyFinished h hsettled reply he) trivial
  | widgetReplyFinished reply =>
      apply iff_of_true _ trivial
      exact h.of_same (sameOffer_widgetReplyFinished reply) rfl
        (asked_onWidgetReplyFinished page.service reply) rfl
  | openQuotes | closeQuotes => exact iff_of_true h trivial
  | quoteClicked quote => exact current_quoteClicked h quote
  | buy useDebugMode =>
      apply iff_of_true _ trivial
      have hentries := entries_buy runtime page useDebugMode
      exact h.of_same (sameOffer_buy useDebugMode) hentries.2 (asked_buy useDebugMode)
        hentries.1

/-- The button is there only where something is offered. -/
theorem busy_of_buyEnabled (h : page.buyEnabled runtime = true) : page.Busy := by
  right
  simp only [buyEnabled, Bool.and_eq_true, Bool.or_eq_true, bne_iff_ne] at h
  obtain ⟨⟨⟨-, hprovider⟩, -⟩, -⟩ := h
  unfold provider
  split
  · next hselected => exact hprovider.resolve_left (not_not_intro hselected)
  · assumption

theorem current_opened (xpubHashId countryCode currency : String) :
    (opened xpubHashId countryCode currency).Current runtime := by
  intro _ hbusy
  rcases hbusy with hloading | hprovider
  · cases hloading
  · exact absurd rfl hprovider

/-- The currency is changed where the quotes are there. -/
def otherCurrency : List BuyEvent := twoQuotes ++ [.setCurrency "CHF", .buy false]

end BuyPage
end GreenWallet.Buying
