import GreenWallet.Library.Reactive

/-!
# Scanning the parts of a code

`BCURController` is given what a camera reads. The first part starts a task that decodes;
the others wait until the task asks for a code, and are handed over one by one. What has
been read is remembered, and never looked at again.
-/
namespace GreenWallet.Controllers
open GreenWallet.Library

inductive DecodeStage where
  | ready
  /-- `GA_bcur_decode` is running. -/
  | calling
  | called
deriving DecidableEq

structure DecodeTask where
  id : ℕ
  part : String
  stage : DecodeStage := .ready
  /-- The method of the `CodePrompt`. -/
  prompt : Option String := none
  /-- How many code resolutions are running. -/
  resolving : ℕ := 0
deriving DecidableEq

structure BCURController where
  /-- `m_result` is not empty. -/
  decoded : Bool := false
  /-- `m_seen`, in the order of arrival. -/
  seen : List String := []
  pending : List String := []
  task : Option DecodeTask := none
  progress : Int := 0
  /-- The tasks so far, and the parts that each of them was given. -/
  tasks : ℕ := 0
  submitted : List (ℕ × String) := []

/-- What comes of the call of a task, or of a code resolution. -/
inductive DecodeReply where
  /-- The call fails, or its status cannot be read. -/
  | failed
  /-- The call fails with `id_you_are_not_connected`. -/
  | notConnected
  | error
  /-- The handler is done, with a decoded result that may be empty. -/
  | done (decoded : Bool)
  | resolveCode (method : String) (progress : Int)
deriving DecidableEq

inductive BCUREvent where
  | process (data : String)
  /-- The dispatcher updates the task. -/
  | start
  | called (reply : DecodeReply)
  | resolved (reply : DecodeReply)
deriving DecidableEq

inductive BCUREffect where
  /-- A task is added to decode the part. -/
  | decode (part : String)
  | resolve (part : String)
  | progressChanged (progress : Int)
  | resultDecoded
  | dataDiscarded (data : String)
deriving DecidableEq

/-- `data.startsWith("ur:", Qt::CaseInsensitive)`. -/
def isUR (data : String) : Bool := (data.toList.take 3).map Char.toLower = ['u', 'r', ':']

namespace BCURController

/-- The next part goes to the task, if it has a prompt. -/
def submit (s : BCURController) (task : DecodeTask) (part : String) (pending : List String) :
    BCURController :=
  { s with
    pending := pending
    task := some { task with resolving := task.resolving + 1 }
    submitted := s.submitted ++ [(task.id, part)] }

def next (s : BCURController) : BCURController × List BCUREffect :=
  match s.task, s.pending with
  | some task, part :: pending =>
      if task.prompt.isSome then (s.submit task part pending, [.resolve part]) else (s, [])
  | _, _ => (s, [])

def setProgress (progress : Int) (s : BCURController) : BCURController × List BCUREffect :=
  if s.progress = progress then (s, [])
  else ({ s with progress := progress }, [.progressChanged progress])

/-- A new `DecodeBCURTask`, which is given its first part at once. -/
def create (data : String) (s : BCURController) : BCURController :=
  { s with
    task := some { id := s.tasks, part := data }
    tasks := s.tasks + 1
    submitted := s.submitted ++ [(s.tasks, data)] }

def enqueue (data : String) (s : BCURController) : BCURController :=
  { s with pending := s.pending ++ [data] }

def see (data : String) (s : BCURController) : BCURController := { s with seen := s.seen ++ [data] }

def dropTask (s : BCURController) : BCURController := { s with task := none }

/-- The end of `process`, for a part. -/
def take (data : String) (s : BCURController) : BCURController × List BCUREffect :=
  if s.task.isSome then (s.enqueue data).next else (s.create data, [.decode data])

def process (data : String) (s : BCURController) : BCURController × List BCUREffect :=
  if s.decoded then (s, [])
  else if data ∈ s.seen then (s, [])
  else if isUR data then (s.see data).take data
  else ((s.see data).dropTask, [.dataDiscarded data])

def withTask (task : DecodeTask) (s : BCURController) : BCURController :=
  { s with task := some task }

/-- What has been done, and then `next`. -/
def thenNext (done : BCURController × List BCUREffect) : BCURController × List BCUREffect :=
  (done.1.next.1, done.2 ++ done.1.next.2)

/-- A prompt that has asked before tells how far the task is. -/
def showProgress (task : DecodeTask) (method : String) (progress : Int) (s : BCURController) :
    BCURController × List BCUREffect :=
  if task.prompt.any fun asked => asked = "" || asked = method then s.setProgress progress
  else (s, [])

/-- The task asks for a code with this method, by the prompt it has or by a new one. -/
def ask (task : DecodeTask) (method : String) (progress : Int) (s : BCURController) :
    BCURController × List BCUREffect :=
  thenNext ((s.withTask { task with prompt := some method }).showProgress task method progress)

/-- `AuthHandlerTask::next` with the slots of the controller; a result, also that of an
error, makes it look for a part once more. A task that has been dropped is not heard of
again. -/
def answer (task : DecodeTask) (s : BCURController) :
    DecodeReply → BCURController × List BCUREffect
  | .failed => (s.dropTask, [.dataDiscarded task.part])
  | .notConnected => (s, [])
  | .error => (s.next.1.dropTask, s.next.2 ++ [.dataDiscarded task.part])
  | .done decoded => ({ s.next.1.dropTask with decoded := decoded }, s.next.2 ++ [.resultDecoded])
  | .resolveCode method progress => s.ask task method progress

end BCURController

namespace DecodeTask

def start (task : DecodeTask) : DecodeTask := { task with stage := .calling }

/-- Without a connection the task is `Ready` again. -/
def called (reply : DecodeReply) (task : DecodeTask) : DecodeTask :=
  { task with stage := if reply = .notConnected then .ready else .called }

def resolved (task : DecodeTask) : DecodeTask := { task with resolving := task.resolving - 1 }

end DecodeTask

namespace BCURController

def start (s : BCURController) : BCURController := s.task.elim s fun task => s.withTask task.start

def called (reply : DecodeReply) (s : BCURController) : BCURController × List BCUREffect :=
  s.task.elim (s, []) fun task =>
    (s.withTask (task.called reply)).answer (task.called reply) reply

def resolved (reply : DecodeReply) (s : BCURController) : BCURController × List BCUREffect :=
  s.task.elim (s, []) fun task => (s.withTask task.resolved).answer task.resolved reply

def handle (s : BCURController) : BCUREvent → BCURController × List BCUREffect
  | .process data => s.process data
  | .start => (s.start, [])
  | .called reply => s.called reply
  | .resolved reply => s.resolved reply

/-- A call that is running returns, and so does a code resolution. -/
def enabled (s : BCURController) : BCUREvent → Prop
  | .process _ => True
  | .start => ∃ task ∈ s.task, task.stage = .ready
  | .called _ => ∃ task ∈ s.task, task.stage = .calling
  | .resolved reply => reply ≠ .notConnected ∧ ∃ task ∈ s.task, 0 < task.resolving

instance (s : BCURController) (e : BCUREvent) : Decidable (s.enabled e) := by
  cases e <;> unfold enabled <;> infer_instance

end BCURController

def bcur : Reactive BCURController BCUREvent BCUREffect where
  enabled := BCURController.enabled
  next s e := (s.handle e).1
  emits s e := (s.handle e).2

instance (s : BCURController) (e : BCUREvent) : Decidable (bcur.enabled s e) :=
  inferInstanceAs (Decidable (s.enabled e))

end GreenWallet.Controllers
