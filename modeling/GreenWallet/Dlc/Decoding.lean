import GreenWallet.Dlc.Coordinator
import GreenWallet.Wallets.Record

/-!
# What the coordinator client decodes

An order comes as the answer to its creation, as the answer to a query for it and as an item
of a list, and a DLC as an answer and as an item. Each endpoint reads the members of the object
by itself, and a field that it does not read keeps its default.

The answer to a request is the object that `HttpRequestActivity` has when it finishes; it fails
when that object is empty. `toLongLong` is what `QVariant` makes of a JSON value.
-/
namespace GreenWallet.Dlc
open GreenWallet.Wallets

inductive QuerySignal where
  | orderCreated (order : Order)
  | orderCreateFailed (error : String)
  | ordersReady (orders : List Order)
  | ordersFailed (error : String)
  | orderReady (order : Order)
  | orderFailed (error : String)
  | dlcReady (dlc : DLCDetail)
  | dlcFailed (error : String)
  | dlcsReady (dlcs : List DLCDetail)
  | dlcsFailed (error : String)

namespace DLCCoordinatorClient

/-- `HttpRequestActivity::hasError`. -/
def hasError (response : JsonObject) : Bool := response.contains "error"

/-- The handlers of an activity: it failed, or it finished with an error or with an answer. -/
def answered (ready : JsonObject → QuerySignal) (failed : String → QuerySignal)
    (error request : String) (response : JsonObject) : QuerySignal :=
  if response.isEmpty then failed request
  else if hasError response then failed (Json.toString (response.value "error") error)
  else ready response

/-- An object that an endpoint decodes when it is the answer. -/
def Decodes (response : JsonObject) : Prop :=
  response.isEmpty = false ∧ hasError response = false

instance (response : JsonObject) : Decidable (Decodes response) :=
  inferInstanceAs (Decidable (_ ∧ _))

theorem answered_of_decodes {response : JsonObject} (h : Decodes response)
    (ready : JsonObject → QuerySignal) (failed : String → QuerySignal) (error request : String) :
    answered ready failed error request response = ready response := by
  rw [answered, h.1, h.2]
  rfl

/-- An endpoint that decodes the object has its own signal for it. -/
theorem decodes_of_answered {response : JsonObject} {ready : JsonObject → QuerySignal}
    {failed : String → QuerySignal} {error request : String} {signal : QuerySignal}
    (hfailed : ∀ text, failed text ≠ signal)
    (h : answered ready failed error request response = signal) :
    Decodes response ∧ ready response = signal := by
  unfold answered at h
  split_ifs at h with hempty herror
  · exact absurd h (hfailed _)
  · exact absurd h (hfailed _)
  · exact ⟨⟨Bool.eq_false_iff.mpr hempty, Bool.eq_false_iff.mpr herror⟩, h⟩

section
variable (toLongLong : Option Json → Int)

/-- The members of an order that every endpoint reads. -/
def readOrder (obj : JsonObject) : Order where
  orderId := Json.toString (obj.value "order_id")
  dlcId := Json.toString (obj.value "dlc_id")
  instrumentId := Json.toString (obj.value "instrument_id")
  side := Json.toString (obj.value "side")
  quantity := toLongLong (obj.value "quantity")
  price := toLongLong (obj.value "price")
  status := Json.toString (obj.value "status")
  pendingMatchAccept := Json.toBool (obj.value "pending_match_accept")
  matchedOrderId := Json.toString (obj.value "matched_order_id")
  matchedDlcId := Json.toString (obj.value "matched_dlc_id")

/-- `create_order` reads the offer of the match, and neither the status of the DLC nor whether
a signature is required. -/
def createdOrder (response : JsonObject) : Order :=
  { readOrder toLongLong response with
    matchedOfferObjectHex := Json.toString (response.value "matched_offer_object_hex") }

/-- `get_orders`, for one item. -/
def listedOrder (obj : JsonObject) : Order :=
  { readOrder toLongLong obj with
    dlcStatus := Json.toString (obj.value "dlc_status")
    signRequired := Json.toBool (obj.value "sign_required") }

/-- `get_order`. -/
def fetchedOrder (response : JsonObject) : Order :=
  { readOrder toLongLong response with
    dlcStatus := Json.toString (response.value "dlc_status")
    signRequired := Json.toBool (response.value "sign_required") }

def createOrderAnswered : JsonObject → QuerySignal :=
  answered (fun response => .orderCreated (createdOrder toLongLong response)) .orderCreateFailed
    "Failed to create order" "Create order request failed"

def getOrdersAnswered : JsonObject → QuerySignal :=
  answered (fun response => .ordersReady ((Json.toArray (response.value "orders")).map fun item =>
      listedOrder toLongLong (Json.toObject (some item)))) .ordersFailed
    "Failed to fetch orders" "Get orders request failed"

def getOrderAnswered : JsonObject → QuerySignal :=
  answered (fun response => .orderReady (fetchedOrder toLongLong response)) .orderFailed
    "Failed to fetch order" "Get order request failed"

end

/-- The members of a DLC that both endpoints read. -/
def readDlc (obj : JsonObject) : DLCDetail where
  dlcId := Json.toString (obj.value "dlc_id")
  orderId := Json.toString (obj.value "order_id")
  instrumentId := Json.toString (obj.value "instrument_id")
  status := Json.toString (obj.value "status")
  fundingTxid := Json.toString (obj.value "funding_txid")
  settlementType := Json.toString (obj.value "settlement_type")

/-- `get_dlc`. -/
def fetchedDlc (response : JsonObject) : DLCDetail :=
  { readDlc response with
    closingTxid := Json.toString (response.value "closing_txid")
    confirmedAt := Json.toString (response.value "confirmed_at") }

/-- `get_dlcs`, for one item: nothing is read of how the DLC was closed. -/
def listedDlc (obj : JsonObject) : DLCDetail := readDlc obj

def getDlcAnswered : JsonObject → QuerySignal :=
  answered (fun response => .dlcReady (fetchedDlc response)) .dlcFailed
    "Failed to fetch DLC" "Get DLC request failed"

def getDlcsAnswered : JsonObject → QuerySignal :=
  answered (fun response => .dlcsReady ((Json.toArray (response.value "dlcs")).map fun item =>
      listedDlc (Json.toObject (some item)))) .dlcsFailed
    "Failed to fetch DLCs" "Get DLCs request failed"

/-- Wherever the object is in the list of an answer, the record is there. -/
def ListsAs {α : Type} (list : JsonObject → QuerySignal) (key : String)
    (ready : List α → QuerySignal) (object : JsonObject) (record : α) : Prop :=
  ∀ response, Decodes response →
    ∀ before after, Json.toArray (response.value key) = before ++ .object object :: after →
      ∃ records, list response = ready records ∧ records[before.length]? = some record

theorem listsAs_iff {α : Type} {ready : List α → QuerySignal} {read : JsonObject → α}
    {failed : String → QuerySignal} {key error request : String} {object : JsonObject}
    {record : α} (hready : Function.Injective ready) (hkey : key ≠ "error") :
    ListsAs (answered (fun response => ready ((Json.toArray (response.value key)).map fun item =>
      read (Json.toObject (some item)))) failed error request) key ready object record ↔
        record = read object := by
  constructor
  · intro h
    have hdecodes : Decodes [(key, .array [.object object])] := by
      constructor
      · rfl
      · simp [hasError, JsonObject.contains, hkey.symm]
    have hitems : Json.toArray (JsonObject.value key [(key, .array [.object object])]) =
        [] ++ [.object object] := by
      rw [JsonObject.value_cons, if_pos rfl]
      rfl
    obtain ⟨records, hlist, hrecord⟩ := h _ hdecodes [] [] hitems
    rw [answered_of_decodes hdecodes, hitems] at hlist
    have hrecords : records = [read object] := (hready hlist).symm
    rw [hrecords] at hrecord
    exact (Option.some.inj hrecord).symm
  · intro h response hdecodes before after hitems
    refine ⟨_, answered_of_decodes hdecodes _ _ _ _, ?_⟩
    rw [hitems, List.map_append, List.getElem?_append_right (by simp), List.length_map,
      Nat.sub_self, h]
    rfl

theorem listsAs_orders_iff {toLongLong : Option Json → Int} {object : JsonObject} {order : Order} :
    ListsAs (getOrdersAnswered toLongLong) "orders" .ordersReady object order ↔
      order = listedOrder toLongLong object :=
  listsAs_iff (fun _ _ h => QuerySignal.ordersReady.inj h) (by decide)

theorem listsAs_dlcs_iff {object : JsonObject} {dlc : DLCDetail} :
    ListsAs getDlcsAnswered "dlcs" .dlcsReady object dlc ↔ dlc = listedDlc object :=
  listsAs_iff (fun _ _ h => QuerySignal.dlcsReady.inj h) (by decide)

/-- One record for the order, whichever endpoint it comes from. -/
def OrdersAgree (toLongLong : Option Json → Int) (object : JsonObject) : Prop :=
  ∃ order, ListsAs (getOrdersAnswered toLongLong) "orders" .ordersReady object order ∧
    getOrderAnswered toLongLong object = .orderReady order ∧
    createOrderAnswered toLongLong object = .orderCreated order

def DlcsAgree (object : JsonObject) : Prop :=
  ∃ dlc, ListsAs getDlcsAnswered "dlcs" .dlcsReady object dlc ∧
    getDlcAnswered object = .dlcReady dlc

/-- Nothing is said of what one endpoint reads of an order and another does not. -/
structure PlainOrder (object : JsonObject) : Prop where
  dlcStatus : Json.toString (object.value "dlc_status") = ""
  signRequired : Json.toBool (object.value "sign_required") = false
  matchedOffer : Json.toString (object.value "matched_offer_object_hex") = ""

structure PlainDlc (object : JsonObject) : Prop where
  closingTxid : Json.toString (object.value "closing_txid") = ""
  confirmedAt : Json.toString (object.value "confirmed_at") = ""

theorem fetchedOrder_eq_createdOrder_iff (toLongLong : Option Json → Int) (object : JsonObject) :
    fetchedOrder toLongLong object = createdOrder toLongLong object ↔ PlainOrder object := by
  constructor
  · intro h
    constructor
    · exact congrArg Order.dlcStatus h
    · exact congrArg Order.signRequired h
    · exact (congrArg Order.matchedOfferObjectHex h).symm
  · intro h
    rw [fetchedOrder, createdOrder, h.dlcStatus, h.signRequired, h.matchedOffer]
    rfl

theorem fetchedDlc_eq_listedDlc_iff (object : JsonObject) :
    fetchedDlc object = listedDlc object ↔ PlainDlc object := by
  constructor
  · intro h
    constructor
    · exact congrArg DLCDetail.closingTxid h
    · exact congrArg DLCDetail.confirmedAt h
  · intro h
    rw [fetchedDlc, listedDlc, h.closingTxid, h.confirmedAt]
    rfl

theorem ordersAgree_iff (toLongLong : Option Json → Int) (object : JsonObject) :
    OrdersAgree toLongLong object ↔ Decodes object ∧ PlainOrder object := by
  constructor
  · intro ⟨order, _, hget, hcreate⟩
    obtain ⟨hdecodes, hfetched⟩ := decodes_of_answered (by simp) hget
    obtain ⟨-, hcreated⟩ := decodes_of_answered (by simp) hcreate
    have hfetched' : fetchedOrder toLongLong object = order := QuerySignal.orderReady.inj hfetched
    have hcreated' : createdOrder toLongLong object = order :=
      QuerySignal.orderCreated.inj hcreated
    exact ⟨hdecodes, (fetchedOrder_eq_createdOrder_iff toLongLong object).mp
      (hfetched'.trans hcreated'.symm)⟩
  · intro h
    have hequal := (fetchedOrder_eq_createdOrder_iff toLongLong object).mpr h.2
    refine ⟨fetchedOrder toLongLong object, ?_, ?_, ?_⟩
    · exact listsAs_orders_iff.mpr rfl
    · exact answered_of_decodes h.1 _ _ _ _
    · rw [hequal]
      exact answered_of_decodes h.1 _ _ _ _

theorem dlcsAgree_iff (object : JsonObject) :
    DlcsAgree object ↔ Decodes object ∧ PlainDlc object := by
  constructor
  · intro ⟨dlc, hlist, hget⟩
    obtain ⟨hdecodes, hfetched⟩ := decodes_of_answered (by simp) hget
    have hfetched' : fetchedDlc object = dlc := QuerySignal.dlcReady.inj hfetched
    have hlisted : dlc = listedDlc object := listsAs_dlcs_iff.mp hlist
    exact ⟨hdecodes, (fetchedDlc_eq_listedDlc_iff object).mp (hfetched'.trans hlisted)⟩
  · intro h
    refine ⟨fetchedDlc object, ?_, answered_of_decodes h.1 _ _ _ _⟩
    exact listsAs_dlcs_iff.mpr ((fetchedDlc_eq_listedDlc_iff object).mpr h.2)

/-- The endpoints agree on an object exactly when it is decoded as an answer at all and has
nothing in the members that only some of them read. -/
theorem decoders_agree_iff (toLongLong : Option Json → Int) :
    (∀ object, OrdersAgree toLongLong object ↔ Decodes object ∧ PlainOrder object) ∧
      ∀ object, DlcsAgree object ↔ Decodes object ∧ PlainDlc object :=
  ⟨ordersAgree_iff toLongLong, dlcsAgree_iff⟩

/-- A matched order that waits for its signature, and a DLC that has been closed. -/
theorem not_decoders_agree :
    ¬ OrdersAgree (fun json => (Json.toDouble json).num)
        [("order_id", .string "A"), ("quantity", .number 1), ("price", .number 5000),
          ("status", .string "MATCHED"), ("sign_required", .bool true)] ∧
      ¬ DlcsAgree
        [("dlc_id", .string "D"), ("status", .string "SETTLED"), ("closing_txid", .string "f0")] := by
  constructor
  · intro h
    have hplain := ((ordersAgree_iff _ _).mp h).2.signRequired
    exact absurd hplain (by decide)
  · intro h
    have hplain := ((dlcsAgree_iff _).mp h).2.closingTxid
    exact absurd hplain (by decide)

end DLCCoordinatorClient
end GreenWallet.Dlc
