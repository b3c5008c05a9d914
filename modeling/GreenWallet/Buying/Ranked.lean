import Mathlib.Data.List.Sort
import GreenWallet.Buying.Page

/-!
# The quotes that are kept

The service awaits a reply exactly while it says that it is loading, and shows no error then. Its
quotes stand with the highest first, and the best of them is the one it calls the best. What it has
asked for was complete.
-/
namespace GreenWallet.Buying
open GreenWallet.Library GreenWallet.Wallets

/-- A request in which nothing is missing. -/
def Post.Complete : Post → Prop
  | .quote countryCode sourceAmount sourceCurrencyCode walletAddress =>
      notPositive sourceAmount = false ∧ countryCode ≠ "" ∧ sourceCurrencyCode ≠ "" ∧
        walletAddress ≠ ""
  | .widget serviceProvider countryCode amount sourceCurrencyCode walletAddress _ =>
      (∃ sourceAmount, notPositive sourceAmount = false ∧ amount = number sourceAmount) ∧
        serviceProvider ≠ "" ∧ countryCode ≠ "" ∧ sourceCurrencyCode ≠ "" ∧ walletAddress ≠ ""

namespace BuyBitcoinQuoteService

/-- The best provider has the quote with the most, or no quote offers anything. A refusal takes the
amount away, and leaves the provider. -/
def Best (service : BuyBitcoinQuoteService) : Prop :=
  (∃ quote ∈ service.m_all_quotes, quote.serviceProvider = service.m_best_service_provider ∧
      0 < quote.destinationAmount ∧
      (∀ other ∈ service.m_all_quotes, other.destinationAmount ≤ quote.destinationAmount) ∧
      (service.m_best_destination_amount = 0 ∨
        service.m_best_destination_amount = quote.destinationAmount)) ∨
    service.m_best_service_provider = "" ∧ service.m_best_destination_amount = 0 ∧
      ∀ quote ∈ service.m_all_quotes, quote.destinationAmount ≤ 0

/-- What holds between two events. -/
structure Settled (service : BuyBitcoinQuoteService) : Prop where
  context : service.m_context.isSome
  loading : service.m_loading = service.m_reply
  widget_loading : service.m_widget_loading = service.m_widget_reply
  quiet : service.m_loading = true → service.m_error = ""
  widget_quiet : service.m_widget_loading = true → service.m_widget_error = ""
  sorted : service.m_all_quotes.Pairwise fun a b => b.destinationAmount ≤ a.destinationAmount
  best : service.Best
  complete : ∀ post ∈ service.posted, post.Complete

/-- A refusal leaves the quotes in their order. -/
theorem Best.refused {service : BuyBitcoinQuoteService} (h : service.Best)
    {m_reply m_loading : Bool} {m_error : String} :
    Best { service with
      m_reply := m_reply
      m_loading := m_loading
      m_best_destination_amount := 0
      m_error := m_error } := by
  cases h with
  | inl hmost =>
      obtain ⟨quote, hquote, hprovider, hpositive, hmost, -⟩ := hmost
      exact .inl ⟨quote, hquote, hprovider, hpositive, hmost, .inl rfl⟩
  | inr hnothing => exact .inr ⟨hnothing.1, rfl, hnothing.2.2⟩

/-- The quotes of an answer, in whatever order they are kept. -/
theorem best_of_perm {service : BuyBitcoinQuoteService} {quotes : List Quote}
    (hperm : service.m_all_quotes.Perm quotes)
    (hprovider : service.m_best_service_provider = (bestQuote quotes).elim "" Quote.serviceProvider)
    (hamount : service.m_best_destination_amount =
      (bestQuote quotes).elim 0 Quote.destinationAmount) : service.Best := by
  have hle := (score_le_best Quote.destinationAmount 0 quotes).2
  cases hbest : bestQuote quotes with
  | none =>
      rw [hbest] at hprovider hamount
      refine .inr ⟨hprovider, hamount, ?_⟩
      intro quote hquote
      have hquote := hle quote (hperm.mem_iff.mp hquote)
      rw [← bestQuote, hbest] at hquote
      exact hquote
  | some quote =>
      rw [hbest] at hprovider hamount
      have hsplit := best_split hbest
      refine .inl ⟨quote, hperm.mem_iff.mpr (best_mem hbest), hprovider.symm, hsplit.1, ?_,
        .inr hamount⟩
      intro other hother
      have hother := hle other (hperm.mem_iff.mp hother)
      rw [← bestQuote, hbest] at hother
      exact hother

theorem Settled.clearQuote {service : BuyBitcoinQuoteService} (h : service.Settled) :
    service.clearQuote.Settled := by
  rw [clearQuote_eq]
  exact ⟨h.context, rfl, h.widget_loading, fun _ => rfl, h.widget_quiet, .nil,
    .inr ⟨rfl, rfl, List.forall_mem_nil _⟩, h.complete⟩

theorem Settled.fetchQuote {service : BuyBitcoinQuoteService} (h : service.Settled)
    {countryCode : String} {sourceAmount : Option ℚ} {sourceCurrencyCode walletAddress : String}
    (hcountry : countryCode ≠ "") (hamount : notPositive sourceAmount = false)
    (hcurrency : sourceCurrencyCode ≠ "") (haddress : walletAddress ≠ "") :
    (service.fetchQuote countryCode sourceAmount sourceCurrencyCode walletAddress).Settled := by
  rw [fetchQuote_of_valid h.context hamount hcurrency haddress]
  exact ⟨h.context, rfl, h.widget_loading, fun _ => rfl, h.widget_quiet, h.sorted, h.best,
    List.forall_mem_append.mpr ⟨h.complete,
      List.forall_mem_singleton.mpr ⟨hamount, hcountry, hcurrency, haddress⟩⟩⟩

theorem Settled.setSelectedQuote {service : BuyBitcoinQuoteService} (h : service.Settled)
    (quote : Quote) : (service.setSelectedQuote quote).Settled := by
  unfold BuyBitcoinQuoteService.setSelectedQuote
  split
  · exact h
  · exact ⟨h.context, h.loading, h.widget_loading, h.quiet, fun _ => rfl, h.sorted, h.best,
      h.complete⟩

theorem Settled.onReplyFinished {service : BuyBitcoinQuoteService} (h : service.Settled)
    (runtime : Runtime) (reply : Reply) : (service.onReplyFinished runtime reply).Settled := by
  unfold BuyBitcoinQuoteService.onReplyFinished
  split
  · exact ⟨h.context, rfl, h.widget_loading, nofun, h.widget_quiet, h.sorted, h.best.refused,
      h.complete⟩
  · exact ⟨h.context, rfl, h.widget_loading, nofun, h.widget_quiet, runtime.sorted _,
      best_of_perm (runtime.perm _) rfl rfl, h.complete⟩

/-- A session is only asked for while none is on its way. -/
theorem Settled.createWidgetSession {service : BuyBitcoinQuoteService} (h : service.Settled)
    (hidle : service.m_widget_loading = false)
    (serviceProvider countryCode : String) (sourceAmount : Option ℚ)
    (sourceCurrencyCode walletAddress : String) (useDebugMode : Bool) :
    (service.createWidgetSession serviceProvider countryCode sourceAmount sourceCurrencyCode
      walletAddress useDebugMode).Settled := by
  unfold BuyBitcoinQuoteService.createWidgetSession
  split
  · exact h
  · split
    · refine ⟨h.context, h.loading, hidle, h.quiet, ?_, h.sorted, h.best, h.complete⟩
      intro hloading
      rw [hidle] at hloading
      cases hloading
    · next hentries =>
        simp only [Bool.or_eq_true, Bool.and_eq_true, beq_iff_eq, not_or,
          Bool.not_eq_true] at hentries
        obtain ⟨⟨⟨⟨hprovider, hcountry⟩, hamount⟩, hcurrency⟩, haddress⟩ := hentries
        have hasked : (if useDebugMode then "TRANSAK" else serviceProvider) ≠ "" := by
          cases useDebugMode with
          | true => simp
          | false => exact fun hempty => hprovider ⟨rfl, hempty⟩
        exact ⟨h.context, h.loading, rfl, h.quiet, fun _ => rfl, h.sorted, h.best,
          List.forall_mem_append.mpr ⟨h.complete,
            List.forall_mem_singleton.mpr
              ⟨⟨sourceAmount, hamount, rfl⟩, hasked, hcountry, hcurrency, haddress⟩⟩⟩

theorem Settled.onWidgetReplyFinished {service : BuyBitcoinQuoteService} (h : service.Settled)
    (reply : Reply) : (service.onWidgetReplyFinished reply).Settled := by
  unfold BuyBitcoinQuoteService.onWidgetReplyFinished
  split
  · exact ⟨h.context, h.loading, rfl, h.quiet, nofun, h.sorted, h.best, h.complete⟩
  · exact ⟨h.context, h.loading, rfl, h.quiet, nofun, h.sorted, h.best, h.complete⟩

end BuyBitcoinQuoteService
namespace BuyPage
open BuyBitcoinQuoteService
variable {runtime : Runtime} {page : BuyPage}

theorem settled_triggered (h : page.service.Settled) : (page.triggered runtime).service.Settled := by
  unfold triggered
  split
  · exact h.clearQuote
  · next hentries =>
      simp only [Bool.or_eq_true, beq_iff_eq, not_or, Bool.not_eq_true] at hentries
      obtain ⟨⟨⟨⟨-, hamount⟩, hcurrency⟩, haddress⟩, hcountry⟩ := hentries
      exact h.fetchQuote hcountry hamount hcurrency haddress

theorem settled_buy (h : page.service.Settled) {useDebugMode : Bool}
    (henabled : page.buyEnabled runtime = true) :
    (page.buy runtime useDebugMode).service.Settled := by
  have hidle : page.service.m_widget_loading = false := by
    simp only [buyEnabled, Bool.and_eq_true, Bool.not_eq_true'] at henabled
    exact henabled.1.2
  unfold buy
  split
  · exact h.createWidgetSession hidle _ _ _ _ _ _
  · exact h

theorem settled_next (h : page.service.Settled) {e : BuyEvent} (he : page.enabled runtime e) :
    (page.next runtime e).service.Settled := by
  cases e with
  | setAmount | setCountryCode | setCurrency | setAddress | openQuotes | closeQuotes => exact h
  | triggered => exact settled_triggered h
  | cleared => exact h.clearQuote
  | replyFinished reply => exact h.onReplyFinished runtime reply
  | widgetReplyFinished reply => exact h.onWidgetReplyFinished reply
  | quoteClicked quote => exact h.setSelectedQuote quote
  | buy useDebugMode => exact settled_buy h he

theorem settled_opened (xpubHashId countryCode currency : String) :
    (opened xpubHashId countryCode currency).service.Settled :=
  ⟨rfl, rfl, rfl, fun _ => rfl, fun _ => rfl, .nil, .inr ⟨rfl, rfl, List.forall_mem_nil _⟩,
    List.forall_mem_nil _⟩

/-- After every run of the page a reply is awaited exactly while it loads, no error shows then, the
quotes stand with the highest first, the provider called the best offers the most of them, and no
request has been made with something missing. -/
theorem settled_run (xpubHashId countryCode currency : String) {es : List BuyEvent}
    (hes : (buying runtime).Valid (opened xpubHashId countryCode currency) es) :
    ((buying runtime).run (opened xpubHashId countryCode currency) es).service.Settled :=
  Reactive.run_invariant (R := buying runtime) (I := fun page => page.service.Settled)
    (fun _ _ h he => settled_next h he) (settled_opened xpubHashId countryCode currency) hes

/-- Texts without blanks around them, of two amounts. -/
def plain : Runtime where
  trimmed := id
  removeErrors := id
  trim := id
  parseFloat text := if text = "100" then some 100 else if text = "200" then some 200 else none
  sort := List.insertionSort fun a b => b.destinationAmount ≤ a.destinationAmount
  perm := List.perm_insertionSort _
  sorted quotes := by
    have : Std.Total fun a b : Quote => b.destinationAmount ≤ a.destinationAmount :=
      ⟨fun a b => le_total _ _⟩
    have : IsTrans Quote fun a b => b.destinationAmount ≤ a.destinationAmount :=
      ⟨fun a b c hab hbc => hbc.trans hab⟩
    exact List.pairwise_insertionSort _ quotes

/-- An answer with two providers. -/
def twoQuotes : List BuyEvent :=
  let quote provider amount : Json :=
    .object [("serviceProvider", .string provider), ("destinationAmount", .number amount)]
  [.setAmount "100", .setAddress "bc1qxy2k", .triggered,
    .replyFinished
      { body := .document [("quotes", .array [quote "TRANSAK" (1/900), quote "MOONPAY" (1/800)])] }]

theorem settled_run_twoQuotes :
    ((buying plain).run (opened "7b3f" "CH" "USD") twoQuotes).service.Settled :=
  settled_run "7b3f" "CH" "USD" (by decide +kernel)

end BuyPage
end GreenWallet.Buying
