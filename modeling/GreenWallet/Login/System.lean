import GreenWallet.Jade.AllowList
import GreenWallet.Tasks.Alone

/-!
# The http requests of a login

A device that is asked for `auth_user` asks back for http requests. The proxy of the task
posts each of them to the thread of the controller, which makes a `JadeHttpRequest` of it and
connects its `finished` to `handleHttpResponse`. Accepting the request, with or without a
question to the user, adds a `ConnectTask` and an `HttpRequestTask` to the dispatcher, and the
request passes `finished` of the latter on. The proxy of `JadeIdentifyTask` is an empty lambda.
-/
namespace GreenWallet.Tasks

namespace World
variable {ι : Type} [DecidableEq ι]

/-- How many `auth_user` of the task are outstanding. -/
def authUsers (w : World ι) (t : ι) : ℕ :=
  match (w.tasks t).type.authUser with
  | none => 0
  | some p => w.calls.count ⟨t, p⟩

/-- `TaskDispatcher::add` of a task, in a new group. -/
def addTask (w : World ι) (d : DispatcherId) (g : GroupId) (t : ι) : World ι :=
  (w.groupAdd g t).dispatcherAdd d g

end World
end GreenWallet.Tasks

namespace GreenWallet.JadeLogin
open GreenWallet.Library GreenWallet.Tasks GreenWallet.Jade

/-- An `http_request` within the `auth_user` of a task. -/
structure Exchange (ι : Type) where
  task : ι
  id : Int
  req : Fields

/-- What `accept` constructs: two tasks, each with a group for itself. -/
structure Made (ι : Type) where
  dispatcher : DispatcherId
  connect : ι
  connectGroup : GroupId
  httpRequest : ι
  httpRequestGroup : GroupId

/-- A call of `handleHttpResponse`, and the request that it is made for. -/
structure HttpResponse (ι : Type) where
  request : ℕ
  exchange : Exchange ι
  body : Variant

structure Login (ι : Type) where
  dispatching : Dispatching ι
  controller : JadeController := {}
  /-- The http requests that have come in. -/
  received : List (Exchange ι) := []
  /-- What is posted to the thread of the controller. -/
  posted : List (Exchange ι) := []
  /-- The exchanges that `finished` of the requests is connected to. -/
  proxies : List (ℕ × Exchange ι) := []
  /-- The request that `finished` of an `HttpRequestTask` is connected to. -/
  requestOf : ι → Option ℕ := fun _ => none
  /-- The requests that have emitted `finished`, each with the response. -/
  finished : List (ℕ × Fields) := []
  responses : List (HttpResponse ι) := []

inductive LoginEvent (ι : Type) where
  /-- A step of the dispatchers, and the response if it completes `GA_http_request`. -/
  | step (e : Step ι) (response : Fields)
  /-- `auth_user` calls the proxy of its task. -/
  | httpRequest (x : Exchange ι)
  /-- The controller takes the first call that is posted to it. -/
  | handle (made : Made ι)
  /-- `handleHttpRequest` of a `JadeQRController`. -/
  | processJadePin (params : Fields) (made : Made ι)
  | accept (request : ℕ) (remember : Bool) (made : Made ι)
  | reject (request : ℕ)

namespace Login
variable {ι : Type}

/-- A login before anything happens. -/
def fresh (types : ι → TaskType) : Login ι := { dispatching := .fresh types }

/-- `finished` of a request, and the `handleHttpResponse` that it is connected to. -/
def finish (request : ℕ) (response : Fields) (s : Login ι) : Login ι :=
  { s with
    finished := s.finished ++ [(request, response)]
    responses := s.responses ++ ((s.proxies.lookup request).map fun x =>
      { request := request, exchange := x, body := response.value "body" }).toList }

/-- The requests that pass a signal on. -/
def passedOn (s : Login ι) : Signal ι → Option ℕ
  | .finished t => s.requestOf t
  | _ => none

/-- The http request is posted to the controller; `JadeIdentifyTask` forgets it. -/
def receive (x : Exchange ι) (s : Login ι) : Login ι :=
  match (s.dispatching.world.tasks x.task).type with
  | .jadeSetup | .jadeUnlock =>
      { s with received := s.received ++ [x], posted := s.posted ++ [x] }
  | _ => { s with received := s.received ++ [x] }

variable [DecidableEq ι]

def addTask (d : DispatcherId) (g : GroupId) (t : ι) (s : Login ι) : Login ι :=
  { s with dispatching := { s.dispatching with world := s.dispatching.world.addTask d g t } }

/-- One of the statements of `JadeHttpRequest::accept`, or of what leads to it. -/
def perform (made : Made ι) (request : ℕ) (s : Login ι) : HttpOutput → Login ι
  | .connectTask => s.addTask made.dispatcher made.connectGroup made.connect
  | .httpRequestTask _ =>
      { s.addTask made.dispatcher made.httpRequestGroup made.httpRequest with
        requestOf := Function.update s.requestOf made.httpRequest (some request) }
  | .httpRequest _ | .accepted _ | .rejected | .finished _ => s

section
variable (sha256 : List UInt8 → List UInt8) (authority : String → String)

def handleHttpRequest (made : Made ι) (params : Fields) (s : Login ι) : Login ι :=
  let handled := s.controller.handleHttpRequest sha256 authority params
  handled.2.foldl (perform made s.controller.requests) { s with controller := handled.1 }

/-- The lambda that a proxy posts. -/
def invoke (made : Made ι) (x : Exchange ι) (s : Login ι) : Login ι :=
  let request := s.controller.requests
  let s := s.handleHttpRequest sha256 authority made (x.req.value "params").toMap
  { s with proxies := s.proxies ++ [(request, x)] }

def accept (made : Made ι) (request : ℕ) (remember : Bool) (s : Login ι) : Login ι :=
  let handled := s.controller.handle sha256 authority (.accept request remember)
  handled.2.foldl (perform made request) { s with controller := handled.1 }

def reject (request : ℕ) (s : Login ι) : Login ι :=
  let handled := s.controller.handle sha256 authority (.reject request)
  ({ s with controller := handled.1 } : Login ι).finish request []

variable [Fintype ι]

/-- What the step emits reaches the requests, and the device over them. -/
def step (e : Step ι) (response : Fields) (s : Login ι) : Login ι :=
  let requests := (Dispatching.reactive.emits s.dispatching e).filterMap s.passedOn
  requests.foldl (fun s request => s.finish request response)
    { s with dispatching := s.dispatching.next e }

def next (s : Login ι) : LoginEvent ι → Login ι
  | .step e response => s.step e response
  | .httpRequest x => s.receive x
  | .handle made =>
      match s.posted with
      | [] => s
      | x :: posted => ({ s with posted := posted } : Login ι).invoke sha256 authority made x
  | .processJadePin params made => s.handleHttpRequest sha256 authority made params
  | .accept request remember made => s.accept sha256 authority made request remember
  | .reject request => s.reject sha256 authority request

/-- The tasks and the groups are new. -/
structure New (s : Login ι) (made : Made ι) : Prop where
  connect : s.dispatching.world.view made.connect = { type := .connect 60000 }
  httpRequest : s.dispatching.world.view made.httpRequest = { type := .httpRequest }
  connectGroup : (s.dispatching.world.groups made.connectGroup).tasks = []
  httpRequestGroup : (s.dispatching.world.groups made.httpRequestGroup).tasks = []
  groups : made.connectGroup ≠ made.httpRequestGroup
  requestOf : s.requestOf made.httpRequest = none

instance (s : Login ι) (made : Made ι) : Decidable (s.New made) :=
  decidable_of_iff
    (s.dispatching.world.view made.connect = { type := .connect 60000 } ∧
      s.dispatching.world.view made.httpRequest = { type := .httpRequest } ∧
      (s.dispatching.world.groups made.connectGroup).tasks = [] ∧
      (s.dispatching.world.groups made.httpRequestGroup).tasks = [] ∧
      made.connectGroup ≠ made.httpRequestGroup ∧ s.requestOf made.httpRequest = none)
    ⟨fun ⟨h₁, h₂, h₃, h₄, h₅, h₆⟩ => ⟨h₁, h₂, h₃, h₄, h₅, h₆⟩,
      fun ⟨h₁, h₂, h₃, h₄, h₅, h₆⟩ => ⟨h₁, h₂, h₃, h₄, h₅, h₆⟩⟩

/-- The proxy of a task is called while its `auth_user` is outstanding, and the dialog that
answers a request closes with the answer. -/
def enabled (s : Login ι) : LoginEvent ι → Prop
  | .step e _ => s.dispatching.enabled e
  | .httpRequest x => 0 < s.dispatching.world.authUsers x.task
  | .handle made => s.posted ≠ [] ∧ s.New made
  | .processJadePin _ made => s.New made
  | .accept request _ made => (s.controller.asked.lookup request).isSome = true ∧ s.New made
  | .reject request => (s.controller.asked.lookup request).isSome = true

end
end Login

section
variable {ι : Type} [Fintype ι] [DecidableEq ι]
variable (sha256 : List UInt8 → List UInt8) (authority : String → String)

def login : Reactive (Login ι) (LoginEvent ι) (Signal ι) where
  enabled := Login.enabled
  next := Login.next sha256 authority
  emits s e :=
    match e with
    | .step e _ => Dispatching.reactive.emits s.dispatching e
    | _ => []

instance (s : Login ι) : (e : LoginEvent ι) → Decidable ((login sha256 authority).enabled s e)
  | .step e _ => inferInstanceAs (Decidable (s.dispatching.enabled e))
  | .httpRequest x => inferInstanceAs (Decidable (0 < s.dispatching.world.authUsers x.task))
  | .handle made => inferInstanceAs (Decidable (s.posted ≠ [] ∧ s.New made))
  | .processJadePin _ made => inferInstanceAs (Decidable (s.New made))
  | .accept request _ made => inferInstanceAs (Decidable
      ((s.controller.asked.lookup request).isSome = true ∧ s.New made))
  | .reject request => inferInstanceAs (Decidable
      ((s.controller.asked.lookup request).isSome = true))

end
end GreenWallet.JadeLogin
