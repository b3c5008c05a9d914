import GreenWallet.Buying.Quotes

/-!
# The page to buy from

The page fetches quotes half a second after its entries have changed, or clears them if the entries
are not complete. It shows what the service has: that it is loading, an error, or a provider to buy
from. The list of the quotes is a page of its own, on the quotes that there were when it was opened.
-/
namespace GreenWallet.Buying
open GreenWallet.Library GreenWallet.Wallets

structure BuyPage where
  service : BuyBitcoinQuoteService
  amountText : String := ""
  countryCode : String
  currency : String
  /-- Empty while there is none. -/
  address : String := ""
  /-- `quote_fetch_timer`. -/
  timer : Bool := false
  /-- The quotes on the list that is open. -/
  listed : Option (List Quote) := none
  /-- The quotes of the last answer, unless it was refused or cleared. -/
  answered : Option (List Quote) := none

inductive BuyEvent where
  | setAmount (text : String)
  | setCountryCode (countryCode : String)
  | setCurrency (currency : String)
  | setAddress (address : String)
  /-- The timer. -/
  | triggered
  /-- The button in the field of the amount. -/
  | cleared
  | replyFinished (reply : Reply)
  | widgetReplyFinished (reply : Reply)
  | openQuotes
  | closeQuotes
  | quoteClicked (quote : Quote)
  | buy (useDebugMode : Bool)

namespace BuyPage
variable (runtime : Runtime)

def sourceAmount (page : BuyPage) : Option ℚ :=
  runtime.parseFloat (runtime.trim page.amountText)

/-- `service.selectedServiceProvider || service.bestServiceProvider`. -/
def provider (page : BuyPage) : String :=
  if page.service.selectedServiceProvider = "" then page.service.m_best_service_provider
  else page.service.selectedServiceProvider

/-- The quote that shows has a provider and an amount. -/
def exchangeVisible (page : BuyPage) : Bool :=
  (page.service.selectedServiceProvider != "" || page.service.m_best_service_provider != "") &&
    (0 < page.service.selectedDestinationAmount || 0 < page.service.m_best_destination_amount)

/-- The button to buy. -/
def buyEnabled (page : BuyPage) : Bool :=
  page.amountText != "" && (runtime.parseFloat page.amountText).any (fun amount => 0 < amount) &&
    page.service.m_error == "" && !page.service.m_loading &&
    (page.service.selectedServiceProvider != "" || page.service.m_best_service_provider != "") &&
    !page.service.m_widget_loading && page.address != ""

def clearQuote (page : BuyPage) : BuyPage :=
  { page with service := page.service.clearQuote, answered := none }

/-- `onTriggered`. -/
def triggered (page : BuyPage) : BuyPage :=
  if runtime.trim page.amountText == "" || notPositive (page.sourceAmount runtime) ||
      page.currency == "" || page.address == "" || page.countryCode == "" then
    { page.clearQuote with timer := false }
  else
    { page with
      timer := false
      service := page.service.fetchQuote page.countryCode (page.sourceAmount runtime) page.currency
        page.address }

def replyFinished (page : BuyPage) (reply : Reply) : BuyPage :=
  { page with
    service := page.service.onReplyFinished runtime reply
    answered := (answer runtime reply).toOption }

/-- `onClicked` of the button. -/
def buy (page : BuyPage) (useDebugMode : Bool) : BuyPage :=
  if page.provider != "" && (page.sourceAmount runtime).any (fun amount => 0 < amount) &&
      page.currency != "" && page.address != "" && page.countryCode != "" then
    { page with
      service := page.service.createWidgetSession page.provider page.countryCode
        (page.sourceAmount runtime) page.currency page.address useDebugMode }
  else page

def next (page : BuyPage) : BuyEvent → BuyPage
  | .setAmount text => { page with amountText := text, timer := true }
  | .setCountryCode countryCode => { page with countryCode := countryCode, timer := true }
  | .setCurrency currency => { page with currency := currency }
  | .setAddress address => { page with address := address, timer := true }
  | .triggered => page.triggered runtime
  | .cleared => { page.clearQuote with amountText := "", timer := true }
  | .replyFinished reply => page.replyFinished runtime reply
  | .widgetReplyFinished reply => { page with service := page.service.onWidgetReplyFinished reply }
  | .openQuotes => { page with listed := some page.service.m_all_quotes }
  | .closeQuotes => { page with listed := none }
  | .quoteClicked quote => { page with service := page.service.setSelectedQuote quote, listed := none }
  | .buy useDebugMode => page.buy runtime useDebugMode

def enabled (page : BuyPage) : BuyEvent → Prop
  | .triggered => page.timer = true
  | .replyFinished _ => page.service.m_reply = true
  | .widgetReplyFinished _ => page.service.m_widget_reply = true
  | .openQuotes => page.listed = none ∧ page.exchangeVisible = true
  | .closeQuotes => page.listed.isSome = true
  | .quoteClicked quote => ∃ quotes ∈ page.listed, quote ∈ quotes
  | .buy _ => page.buyEnabled runtime = true
  | _ => True

instance (page : BuyPage) : (e : BuyEvent) → Decidable (page.enabled runtime e)
  | .triggered => inferInstanceAs (Decidable (page.timer = true))
  | .replyFinished _ => inferInstanceAs (Decidable (page.service.m_reply = true))
  | .widgetReplyFinished _ => inferInstanceAs (Decidable (page.service.m_widget_reply = true))
  | .openQuotes => inferInstanceAs (Decidable (page.listed = none ∧ page.exchangeVisible = true))
  | .closeQuotes => inferInstanceAs (Decidable (page.listed.isSome = true))
  | .quoteClicked quote => inferInstanceAs (Decidable (∃ quotes ∈ page.listed, quote ∈ quotes))
  | .buy _ => inferInstanceAs (Decidable (page.buyEnabled runtime = true))
  | .setAmount _ | .setCountryCode _ | .setCurrency _ | .setAddress _ | .cleared => isTrue trivial

def buying : Reactive BuyPage BuyEvent Empty where
  enabled := enabled runtime
  next := next runtime
  emits := fun _ _ => []

instance (page : BuyPage) (e : BuyEvent) : Decidable ((buying runtime).enabled page e) :=
  inferInstanceAs (Decidable (page.enabled runtime e))

/-- The page when it is opened. -/
def opened (xpubHashId countryCode currency : String) : BuyPage where
  service := { m_context := some xpubHashId }
  countryCode := countryCode
  currency := currency

end BuyPage
end GreenWallet.Buying
