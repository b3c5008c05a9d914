import Mathlib.Data.List.Basic

/-!
# The DLC coordinator client

The records the coordinator client exchanges with the state machine, the HTTP
requests it issues and the signals it turns their answers into. A request keeps
the identifiers of its URL and its JSON body; an answer is the signal emitted
once the reply has been decoded, or failed to arrive.

A failure signal carries an error text and nothing else: which request failed is
not part of it.
-/
namespace GreenWallet.Dlc

structure Order where
  orderId : String := ""
  dlcId : String := ""
  instrumentId : String := ""
  side : String := ""
  quantity : Int := 0
  price : Int := 0
  status : String := ""
  pendingMatchAccept : Bool := false
  matchedOrderId : String := ""
  matchedDlcId : String := ""
  matchedOfferObjectHex : String := ""
  isMaker : Bool := false
  signRequired : Bool := false
  dlcStatus : String := ""
deriving DecidableEq, Repr

structure CETPSigningJob where
  messageHashHex : String := ""
  adaptorPointHex : String := ""
deriving DecidableEq, Repr

structure AcceptContext where
  orderId : String := ""
  instrumentId : String := ""
  offerObjectHex : String := ""
  contextFingerprint : String := ""
  cetCount : Int := 0
  cetSigningJobCount : Int := 0
  cetSigningJobs : List CETPSigningJob := []
  refundSighashHex : String := ""
  fundingInputSighashesHex : List String := []
  fundingInputOutpoints : List String := []
  fundingInputAddresses : List String := []
deriving DecidableEq, Repr

structure SignContext where
  dlcId : String := ""
  orderId : String := ""
  instrumentId : String := ""
  offerObjectHex : String := ""
  acceptObjectHex : String := ""
  contextFingerprint : String := ""
  cetCount : Int := 0
  cetSigningJobCount : Int := 0
  cetSigningJobs : List CETPSigningJob := []
  refundSighashHex : String := ""
  fundingInputSighashesHex : List String := []
  fundingInputOutpoints : List String := []
  fundingInputAddresses : List String := []
deriving DecidableEq, Repr

structure SignResponse where
  dlcId : String := ""
  status : String := ""
  signObjectHex : String := ""
  fundingTxHex : String := ""
  fundingTxid : String := ""
  fundingBroadcasted : Bool := false
  fundingBroadcastError : String := ""
deriving DecidableEq, Repr

structure DLCDetail where
  dlcId : String := ""
  orderId : String := ""
  instrumentId : String := ""
  status : String := ""
  fundingTxid : String := ""
  closingTxid : String := ""
  settlementType : String := ""
  confirmedAt : String := ""
deriving DecidableEq, Repr

/-- The signatures the wallet hands back, as the `submit_*` functions take them. -/
structure Signatures where
  cetAdaptorSigs : List String := []
  refundSig : String := ""
  fundingSigs : List String := []
deriving DecidableEq, Repr

/-- The JSON body of `POST /orders/<order_id>/accept-match`. -/
structure AcceptBody where
  fundingPubkeyHex : String
  contextFingerprint : String
  idempotencyKey : String
  signatures : Signatures
deriving DecidableEq, Repr

/-- The JSON body of `POST /dlcs/<dlc_id>/sign`. -/
structure SignBody where
  idempotencyKey : String
  signatures : Signatures
deriving DecidableEq, Repr

inductive Request where
  | acceptContext (orderId fundingPubkeyHex : String)
  | acceptMatch (orderId : String) (body : AcceptBody)
  | signContext (dlcId : String)
  | sign (dlcId : String) (body : SignBody)
  | dlc (dlcId : String)
deriving DecidableEq, Repr

inductive Response where
  | acceptContextReady (context : AcceptContext)
  | acceptContextFailed (error : String)
  | acceptSubmitted (order : Order)
  | acceptSubmitFailed (error : String)
  | signContextReady (context : SignContext)
  | signContextFailed (error : String)
  | signSubmitted (response : SignResponse)
  | signSubmitFailed (error : String)
  | dlcReady (detail : DLCDetail)
  | dlcFailed (error : String)
deriving DecidableEq, Repr

namespace DLCCoordinatorClient

def getAcceptContext (orderId fundingPubkey : String) : Request :=
  .acceptContext orderId fundingPubkey

def submitAccept (orderId fundingPubkey contextFingerprint : String)
    (signatures : Signatures) : Request :=
  .acceptMatch orderId
    { fundingPubkeyHex := fundingPubkey
      contextFingerprint := contextFingerprint
      idempotencyKey := "accept:" ++ orderId ++ ":" ++ contextFingerprint
      signatures := signatures }

def getSignContext (dlcId : String) : Request := .signContext dlcId

def submitSign (dlcId : String) (signatures : Signatures) : Request :=
  .sign dlcId { idempotencyKey := "sign:" ++ dlcId, signatures := signatures }

def getDlc (dlcId : String) : Request := .dlc dlcId

end DLCCoordinatorClient

namespace Request

/-- The signals a request can end in: each is answered by its own pair. -/
def answeredBy : Request → Response → Bool
  | .acceptContext .., .acceptContextReady _ => true
  | .acceptContext .., .acceptContextFailed _ => true
  | .acceptMatch .., .acceptSubmitted _ => true
  | .acceptMatch .., .acceptSubmitFailed _ => true
  | .signContext _, .signContextReady _ => true
  | .signContext _, .signContextFailed _ => true
  | .sign .., .signSubmitted _ => true
  | .sign .., .signSubmitFailed _ => true
  | .dlc _, .dlcReady _ => true
  | .dlc _, .dlcFailed _ => true
  | _, _ => false

def isSubmission : Request → Bool
  | .acceptMatch .. => true
  | .sign .. => true
  | _ => false

end Request

namespace Response

def isSuccess : Response → Bool
  | .acceptContextReady _ | .acceptSubmitted _ | .signContextReady _
  | .signSubmitted _ | .dlcReady _ => true
  | _ => false

end Response
end GreenWallet.Dlc
