import Mathlib.Algebra.Order.Ring.Unbundled.Rat
import Mathlib.Data.Int.Log
import Mathlib.Data.List.DropRight
import Mathlib.Data.Rat.Floor
import GreenWallet.Library.Best
import GreenWallet.Library.Reactive
import GreenWallet.Wallets.Record

/-!
# Quotes for bitcoin

A service asks for the quotes of an amount, keeps them with the highest first, and keeps one of them
selected: the provider that was selected before, or the best. It asks for a session with a provider
once one is to be bought from. Only the last request of a kind is awaited; the one before is aborted.
-/
namespace GreenWallet.Buying
open GreenWallet.Library GreenWallet.Wallets

structure Quote where
  serviceProvider : String
  destinationAmount : ℚ
deriving DecidableEq

/-- What comes with the libraries. -/
structure Runtime where
  /-- `QString::trimmed`. -/
  trimmed : String → String
  /-- `remove` with the pattern `\s*[Ee]rrors?\s*:.*`. -/
  removeErrors : String → String
  /-- `trim` and `parseFloat` of the script. No number is `NaN`. -/
  trim : String → String
  parseFloat : String → Option ℚ
  /-- `std::sort` by the amount, the highest first. -/
  sort : List Quote → List Quote
  perm : ∀ quotes, (sort quotes).Perm quotes
  sorted : ∀ quotes, (sort quotes).Pairwise fun a b => b.destinationAmount ≤ a.destinationAmount

/-- The body of a reply, as a JSON document. What is no object reads as an empty one. -/
inductive Body where
  | empty
  | invalid
  | document (object : JsonObject)

structure Reply where
  body : Body
  /-- `errorString`, if there is a network error. -/
  networkError : Option String := none
  statusCode : ℕ := 200

def Body.object : Body → JsonObject
  | .document object => object
  | .empty | .invalid => []

/-- Six digits of a positive number, and the power of ten of the first of them. -/
def sixDigits (amount : ℚ) : ℕ × ℤ :=
  let power := Int.log 10 amount
  let digits := ⌊amount * 10 ^ (5 - power) + 1 / 2⌋.toNat
  if digits = 1000000 then (100000, power + 1) else (digits, power)

/-- `QString::number` of a `double`: six significant digits, without the zeros at the end, and with
an exponent where that of the first is below -4 or above 5. -/
def number : Option ℚ → String
  | none => "nan"
  | some amount =>
      if amount = 0 then "0"
      else
        let (value, power) := sixDigits |amount|
        let digits := (Nat.toDigits 10 value).rdropWhile (· == '0')
        let sign := if amount < 0 then "-" else ""
        let point (fraction : List Char) := if fraction = [] then [] else '.' :: fraction
        sign ++ String.ofList
          (if power < -4 ∨ 5 < power then
            digits.take 1 ++ point (digits.drop 1) ++ ['e', if power < 0 then '-' else '+'] ++
              (if power.natAbs < 10 then ['0'] else []) ++ Nat.toDigits 10 power.natAbs
          else if power < 0 then
            '0' :: point (List.replicate (power.natAbs - 1) '0' ++ digits)
          else
            (digits.take (power.natAbs + 1)).rightpad (power.natAbs + 1) '0' ++
              point (digits.drop (power.natAbs + 1)))

example : number (some 12345.67) = "12345.7" := by decide +kernel

/-- A quote is asked for with the amount, and a session with its text. -/
inductive Post where
  | quote (countryCode : String) (sourceAmount : Option ℚ) (sourceCurrencyCode walletAddress : String)
  | widget (serviceProvider countryCode sourceAmount sourceCurrencyCode walletAddress
      externalCustomerId : String)

structure BuyBitcoinQuoteService where
  /-- `xpubHashId` of the context. -/
  m_context : Option String
  m_best_destination_amount : ℚ := 0
  m_best_service_provider : String := ""
  m_all_quotes : List Quote := []
  m_selected_quote : Option Quote := none
  m_loading : Bool := false
  m_error : String := ""
  /-- A reply is awaited. -/
  m_reply : Bool := false
  m_widget_loading : Bool := false
  m_widget_error : String := ""
  m_widget_url : String := ""
  m_widget_reply : Bool := false
  posted : List Post := []

/-- An amount that is not a number is not below zero either. -/
def notPositive (sourceAmount : Option ℚ) : Bool := sourceAmount.any fun amount => amount ≤ 0

/-- The text before the last `[`, if it ends in `]` and there is some. -/
def beforeBracket (runtime : Runtime) (message : String) : String :=
  let before := (message.toList.reverse.dropWhile fun c => c != '[').drop 1
  if message.toList.getLast? = some ']' ∧ before ≠ [] then runtime.trimmed (String.ofList before.reverse)
  else message

/-- The message that comes with a `code`. -/
def messageOf (runtime : Runtime) (object : JsonObject) : String :=
  let message := runtime.trimmed (Json.toString (object.value "message"))
  let message := beforeBracket runtime (runtime.trimmed (runtime.removeErrors message))
  if message = "" then "Request failed" else message

def quoteOf (value : Json) : Quote where
  serviceProvider := Json.toString ((Json.toObject (some value)).value "serviceProvider")
  destinationAmount := Json.toDouble ((Json.toObject (some value)).value "destinationAmount")

/-- `json.contains("error") && !json["error"].isNull()`. -/
def errorIn (object : JsonObject) : Option Json :=
  match object.value "error" with
  | some .null => none
  | error => error

/-- The quotes of a reply, or the text that it is refused with. -/
def answer (runtime : Runtime) (reply : Reply) : Except String (List Quote) :=
  let object := reply.body.object
  if object.contains "code" then .error (messageOf runtime object)
  else
    match errorIn object with
    | some error => .error (Json.toString (some error))
    | none =>
        match reply.body, reply.networkError with
        | .invalid, _ => .error "Invalid response format"
        | _, some error => .error error
        | .empty, none => .error "No response received"
        | .document _, none =>
            match (Json.toArray (object.value "quotes")).map quoteOf with
            | [] =>
                .error (if Json.toString (object.value "message") = "" then "No quotes available"
                  else Json.toString (object.value "message"))
            | quotes => .ok quotes

/-- The quote that offers most, if it is more than nothing. -/
def bestQuote (quotes : List Quote) : Option Quote := best Quote.destinationAmount 0 quotes

/-- The provider is kept if it is still there, with the amount that it offers now. -/
def reselect (selected : Option Quote) (quotes : List Quote) : Option Quote :=
  match selected with
  | some previous =>
      if previous.serviceProvider = "" then bestQuote quotes
      else (quotes.find? fun quote => quote.serviceProvider = previous.serviceProvider).or
        (bestQuote quotes)
  | none => bestQuote quotes

/-- The address of the widget, or the text that the reply is refused with. -/
def widgetAnswer (reply : Reply) : Except String String :=
  let object := reply.body.object
  let message := Json.toString (object.value "message")
  if 400 ≤ reply.statusCode then
    .error (if reply.statusCode = 500 then
        "Service provider error. Please try again with a different one."
      else if message = "" then "HTTP Error " ++ toString reply.statusCode
      else message)
  else
    match reply.networkError, reply.body with
    | some error, _ => .error error
    | none, .invalid => .error "Invalid response format"
    | none, _ =>
        if object.contains "error" then .error (Json.toString (object.value "error"))
        else if object.contains "code" then
          .error (if message = "" then "Request failed" else message)
        else if Json.toString (object.value "serviceProviderWidgetUrl") = "" then
          .error "No widget URL in response"
        else .ok (Json.toString (object.value "serviceProviderWidgetUrl"))

namespace BuyBitcoinQuoteService

def selectedServiceProvider (service : BuyBitcoinQuoteService) : String :=
  service.m_selected_quote.elim "" Quote.serviceProvider

def selectedDestinationAmount (service : BuyBitcoinQuoteService) : ℚ :=
  service.m_selected_quote.elim 0 Quote.destinationAmount

def hasState (service : BuyBitcoinQuoteService) : Bool :=
  service.m_best_destination_amount != 0 || service.m_loading || service.m_error != "" ||
    service.m_best_service_provider != "" || !service.m_all_quotes.isEmpty ||
    service.m_selected_quote.isSome

def clearQuote (service : BuyBitcoinQuoteService) : BuyBitcoinQuoteService :=
  if service.hasState then
    { service with
      m_reply := false
      m_best_destination_amount := 0
      m_best_service_provider := ""
      m_all_quotes := []
      m_selected_quote := none
      m_loading := false
      m_error := "" }
  else { service with m_reply := false }

def setSelectedQuote (quote : Quote) (service : BuyBitcoinQuoteService) : BuyBitcoinQuoteService :=
  if service.m_selected_quote = some quote then service
  else { service with m_selected_quote := some quote, m_widget_error := "" }

/-- A request that is on its way is aborted before the arguments are looked at. -/
def fetchQuote (countryCode : String) (sourceAmount : Option ℚ)
    (sourceCurrencyCode walletAddress : String) (service : BuyBitcoinQuoteService) :
    BuyBitcoinQuoteService :=
  if service.m_context.isNone then service
  else if notPositive sourceAmount || sourceCurrencyCode == "" || walletAddress == "" then
    { service with m_reply := false, m_best_destination_amount := 0, m_error := "" }
  else
    { service with
      m_reply := true
      m_loading := true
      m_error := ""
      posted :=
        service.posted ++ [.quote countryCode sourceAmount sourceCurrencyCode walletAddress] }

def onReplyFinished (runtime : Runtime) (reply : Reply) (service : BuyBitcoinQuoteService) :
    BuyBitcoinQuoteService :=
  match answer runtime reply with
  | .error text =>
      { service with
        m_reply := false
        m_loading := false
        m_best_destination_amount := 0
        m_error := text }
  | .ok quotes =>
      { service with
        m_reply := false
        m_loading := false
        m_all_quotes := runtime.sort quotes
        m_best_destination_amount := (bestQuote quotes).elim 0 Quote.destinationAmount
        m_best_service_provider := (bestQuote quotes).elim "" Quote.serviceProvider
        m_selected_quote := reselect service.m_selected_quote quotes
        m_error := "" }

def createWidgetSession (serviceProvider countryCode : String) (sourceAmount : Option ℚ)
    (sourceCurrencyCode walletAddress : String) (useDebugMode : Bool)
    (service : BuyBitcoinQuoteService) : BuyBitcoinQuoteService :=
  match service.m_context with
  | none => service
  | some xpubHashId =>
      if (!useDebugMode && serviceProvider == "") || countryCode == "" || notPositive sourceAmount ||
          sourceCurrencyCode == "" || walletAddress == "" then
        { service with m_widget_reply := false, m_widget_error := "Invalid parameters" }
      else
        { service with
          m_widget_reply := true
          m_widget_loading := true
          m_widget_error := ""
          m_widget_url := ""
          posted := service.posted ++
            [.widget (if useDebugMode then "TRANSAK" else serviceProvider) countryCode
              (number sourceAmount) sourceCurrencyCode walletAddress xpubHashId] }

def onWidgetReplyFinished (reply : Reply) (service : BuyBitcoinQuoteService) :
    BuyBitcoinQuoteService :=
  match widgetAnswer reply with
  | .error text =>
      { service with
        m_widget_reply := false
        m_widget_loading := false
        m_widget_error := text
        m_widget_url := "" }
  | .ok url =>
      { service with
        m_widget_reply := false
        m_widget_loading := false
        m_widget_error := ""
        m_widget_url := url }

/-- Nothing is left of the quotes, also if there was nothing to clear. -/
theorem clearQuote_eq (service : BuyBitcoinQuoteService) :
    service.clearQuote =
      { service with
        m_reply := false
        m_best_destination_amount := 0
        m_best_service_provider := ""
        m_all_quotes := []
        m_selected_quote := none
        m_loading := false
        m_error := "" } := by
  unfold clearQuote
  split
  · rfl
  · next hstate =>
      cases service
      simp_all [hasState]

theorem fetchQuote_of_valid {service : BuyBitcoinQuoteService} {countryCode : String}
    {sourceAmount : Option ℚ} {sourceCurrencyCode walletAddress : String}
    (hcontext : service.m_context.isSome) (hamount : notPositive sourceAmount = false)
    (hcurrency : sourceCurrencyCode ≠ "") (haddress : walletAddress ≠ "") :
    service.fetchQuote countryCode sourceAmount sourceCurrencyCode walletAddress =
      { service with
        m_reply := true
        m_loading := true
        m_error := ""
        posted :=
          service.posted ++ [.quote countryCode sourceAmount sourceCurrencyCode walletAddress] } := by
  simp [fetchQuote, Option.isNone_eq_false_iff.mpr hcontext, hamount, hcurrency, haddress]

end BuyBitcoinQuoteService
end GreenWallet.Buying
