import Mathlib.Algebra.Group.Int.Defs
import Std.Data.ExtTreeMap.Lemmas
import GreenWallet.Library.Jobs
import GreenWallet.Library.Reactive
import GreenWallet.Jade.Variant

/-!
# Amounts and their conversion

`Convert` turns an amount in one unit, or in fiat, into all the others. The amount
and what it is converted for are set one by one; every change starts a timer anew,
and the timer asks the wallet library for a conversion on another thread. Results
come back in any order.

Objects of the application are numbers here and `Surroundings` says what is behind
them; whatever is behind them may change at any time. The library's answers and the
locale's reading of numbers are given.
-/
namespace GreenWallet.Controllers
open GreenWallet.Library
open Std (ExtTreeMap)

structure Network where
  id : String := ""
  isLiquid : Bool := false
  policyAsset : String := ""
deriving DecidableEq

structure Session where
  id : ℕ
  network : Network
  /-- `currency` in the `pricing` of the settings. -/
  pricingCurrency : String := ""

structure Context where
  sessions : List Session
  /-- The session made for the primary network when there is none, if it has one. -/
  created : Option Session := none
  isMainnet : Bool := true

def Context.primarySession (context : Context) : Option Session :=
  match context.sessions with
  | [] => context.created
  | session :: _ => some session

structure Account where
  context : ℕ
  network : Network

structure Asset where
  id : String
  precision : Int

/-- What is behind the objects, and how numbers are read. -/
structure Surroundings where
  contexts : ℕ → Context
  accounts : ℕ → Account
  assets : ℕ → Asset
  networks : List Network
  /-- A number read by the system's locale, else by the C locale, with ten decimals. -/
  fixed : String → String

/-- A value of the input: a text as typed, or the satoshi as a number. -/
inductive InputValue where
  | null
  | text (value : String)
  | number (value : Int)
deriving DecidableEq

abbrev Amount := ExtTreeMap String InputValue

inductive Json where
  | null
  | text (value : String)
  | number (value : Int)
  | assetInfo (asset_id : String) (precision : Int)
deriving DecidableEq

abbrev JsonObject := ExtTreeMap String Json

/-- A number without the zeros at its end. -/
def to_c (fixed : String → String) (number : String) : String :=
  let digits := (fixed number).toList
  if digits.contains '.' then
    match digits.reverse.dropWhile (· == '0') with
    | '.' :: digits => String.ofList digits.reverse
    | digits => String.ofList digits.reverse
  else String.ofList digits

/-- The characters of `QString::trimmed`. -/
def trimmed (text : String) : List Char :=
  ((text.toList.dropWhile Char.isWhitespace).reverse.dropWhile Char.isWhitespace).reverse

/-- `QString::toLongLong`. -/
def toLongLong (text : String) : Int :=
  let parsed : Option Int :=
    match trimmed text with
    | '-' :: digits => (Jade.digitsToNat digits).map fun n => -Int.ofNat n
    | '+' :: digits => (Jade.digitsToNat digits).map Int.ofNat
    | digits => (Jade.digitsToNat digits).map Int.ofNat
  match parsed with
  | none => 0
  | some n => if -2 ^ 63 ≤ n ∧ n < 2 ^ 63 then n else 0

/-- What the library is asked to convert, and in which session. -/
structure Conversion where
  session : ℕ
  details : JsonObject

structure Convert where
  context : Option ℕ := none
  account : Option ℕ := none
  asset : Option ℕ := none
  unit : String := ""
  input : Amount := ∅
  result : JsonObject := ∅
  timer : Bool := false
  connectedSession : Option ℕ := none
  /-- The session whose signals reach `invalidate`. -/
  listening : Option ℕ := none

/-- What an update comes to. -/
inductive Update where
  /-- The result was emptied at once. -/
  | emptied
  | launched (conversion : Conversion)

namespace Convert

/-- `invalidate` restarts the timer. -/
def invalidate (c : Convert) : Convert := { c with timer := true }

def isLiquidAsset (w : Surroundings) (c : Convert) : Bool :=
  match c.account, c.asset with
  | some account, some asset =>
      let network := (w.accounts account).network
      network.isLiquid && network.policyAsset != (w.assets asset).id
  | some _, none => false
  | none, some asset =>
      !(w.networks.any fun network => network.policyAsset == (w.assets asset).id)
  | none, none => false

def assetSession (w : Surroundings) (c : Convert) : Option Session :=
  match c.context with
  | none => none
  | some context =>
      let needsLiquid := c.isLiquidAsset w
      match (w.contexts context).sessions.find?
          fun session => session.network.isLiquid == needsLiquid with
      | some session => some session
      | none => (w.contexts context).primarySession

def connectToSessionSignals (w : Surroundings) (c : Convert) : Convert :=
  let session := (c.assetSession w).map Session.id
  let c :=
    if c.connectedSession.isSome ∧ session ≠ c.connectedSession then { c with listening := none }
    else c
  if session = none ∨ session = c.connectedSession then c
  else { c with connectedSession := session, listening := session }

def setContext (w : Surroundings) (context : Option ℕ) (c : Convert) : Convert :=
  if c.context = context then c
  else
    let c := { c with context := context }.invalidate
    if context.isSome then c.connectToSessionSignals w else c

def setAccount (w : Surroundings) (account : Option ℕ) (c : Convert) : Convert :=
  if c.account = account then c
  else
    let c := { c with account := account }.invalidate
    match account with
    | none => c
    | some account => c.setContext w (some (w.accounts account).context)

def setInput (input : Amount) (c : Convert) : Convert :=
  if c.input = input then c else { c with input := input }.invalidate

def setAsset (w : Surroundings) (asset : Option ℕ) (c : Convert) : Convert :=
  if c.asset = asset then c
  else
    let c := { c with asset := asset }.invalidate
    if asset.isSome then c.connectToSessionSignals w else c

def setUnit (unit : String) (c : Convert) : Convert :=
  if c.unit = unit then c else { c with unit := unit }

def setResult (result : JsonObject) (c : Convert) : Convert := { c with result := result }

def mainnet (w : Surroundings) (c : Convert) : Bool :=
  match c.context, c.account with
  | none, none => false
  | some context, _ => (w.contexts context).isMainnet
  | none, some account => (w.contexts (w.accounts account).context).isMainnet

/-- The loop over the keys of the input: empty values are dropped. -/
def normalized (w : Surroundings) (input : Amount) : JsonObject :=
  input.filterMap fun _ value =>
    match value with
    | .null => none
    | .text string => if string.isEmpty then none else some (.text (to_c w.fixed string))
    | .number satoshi => some (.text (toString satoshi))

def unitKey (unit : String) : String := if unit = "µBTC" then "ubtc" else unit.toLower

/-- The details of the conversion, from the input and what it is converted for. -/
def details (w : Surroundings) (c : Convert) : JsonObject :=
  let details := normalized w c.input
  let details : JsonObject :=
    match c.asset with
    | some asset =>
        if c.isLiquidAsset w then
          details.insert "asset_info" (.assetInfo (w.assets asset).id (w.assets asset).precision)
        else details
    | none => details
  let details : JsonObject :=
    match details["text"]? with
    | some (.text text) =>
        let details := details.erase "text"
        match c.asset with
        | some asset =>
            if text.isEmpty then details
            else if c.isLiquidAsset w then details.insert (w.assets asset).id (.text text)
            else details.insert (unitKey c.unit) (.text text)
        | none => if text.isEmpty then details else details.insert (unitKey c.unit) (.text text)
    | _ => details
  let details : JsonObject :=
    match details["satoshi"]? with
    | some (.text satoshi) => details.insert "satoshi" (.number (toLongLong satoshi))
    | _ => details
  let details : JsonObject :=
    if details.isEmpty || details.keys == ["asset_info"] then
      details.insert "satoshi" (.number 0)
    else details
  match c.context.bind fun context => (w.contexts context).primarySession with
  | some primary_session =>
      if details.contains "fiat_currency" then details
      else
        details.insert "fiat_currency"
          (.text (if c.mainnet w then primary_session.pricingCurrency else "FIAT"))
  | none => details

def update (w : Surroundings) (c : Convert) : Convert × Update :=
  if c.context = none ∧ c.account = none then ((c.setInput ∅).setResult ∅, .emptied)
  else
    match c.assetSession w with
    | none => (c.setResult ∅, .emptied)
    | some session => (c, .launched { session := session.id, details := c.details w })

def timerEvent (w : Surroundings) (c : Convert) : Convert × Update :=
  { c with timer := false }.update w

/-- What becomes of the library's answer. A failed call answers the empty object, and
a value that is missing is undefined, not null. -/
def finished (answer : JsonObject) : JsonObject :=
  match answer["satoshi"]? with
  | some .null => answer
  | some (.number satoshi) => answer.insert "satoshi" (.text (toString satoshi))
  | _ => answer.insert "satoshi" (.text "0")

end Convert
end GreenWallet.Controllers
