import IotaSdk.Types

/-!
# The client's calls to the node

`high_level.rs` is async code that awaits the node, and also the client's clock, proof-of-work
provider and settings. Each such await is a `Request`, whose answer has type `Request.Resp`. A
`Node` answers a request from the calls made before it, so a statement over every node is a
statement over every behaviour of the network. `ClientM` runs a computation against a node and
keeps the log of the calls, newest first. An error propagated by `?` ends the computation and
keeps the log.
-/

namespace IotaSdk.Client

inductive Request where
  | getBlock (blockId : BlockId)
  | getBlockMetadata (blockId : BlockId)
  | getIncludedBlock (transactionId : TransactionId)
  | getTips
  | postBlockRaw (block : Block)
  | basicOutputIds (queryParameters : List QueryParameter)
  | getOutputs (outputIds : List OutputId)
  | getInfo
  | getMinPowScore
  | getLocalPow
  | finishPow (payload : Option Payload)
  | doPow (minPowScore : UInt32) (payload : Option Payload) (parents : List BlockId)
  | sleep (seconds : UInt64)
  | systemTime

/-- Fallible calls answer with `Except Error`. `systemTime` answers
`SystemTime::now().duration_since(UNIX_EPOCH)` in whole seconds, `none` before the epoch. -/
def Request.Resp : Request → Type
  | .getBlock _ | .getIncludedBlock _ | .finishPow _ | .doPow .. => Except Error Block
  | .getBlockMetadata _ => Except Error BlockMetadata
  | .getTips => Except Error (List BlockId)
  | .postBlockRaw _ => Except Error BlockId
  | .basicOutputIds _ => Except Error (List OutputId)
  | .getOutputs _ => Except Error (List OutputResponse)
  | .getInfo => Except Error NodeInfo
  | .getMinPowScore => Except Error UInt32
  | .getLocalPow => Bool
  | .sleep _ => Unit
  | .systemTime => Option UInt64

structure Call where
  request : Request
  answer : request.Resp

def Node : Type := List Call → (request : Request) → request.Resp

def ClientM (α : Type) : Type := Node → List Call → Except Error α × List Call

namespace ClientM

protected def pure (a : α) : ClientM α := fun _ log => (.ok a, log)

protected def bind (x : ClientM α) (f : α → ClientM β) : ClientM β := fun node log =>
  match x node log with
  | (.ok a, log) => f a node log
  | (.error e, log) => (.error e, log)

instance : Monad ClientM where
  pure := ClientM.pure
  bind := ClientM.bind

def fail (e : Error) : ClientM α := fun _ log => (.error e, log)

def liftExcept : Except Error α → ClientM α
  | .ok a => pure a
  | .error e => fail e

def call (request : Request) : ClientM request.Resp := fun node log =>
  (.ok (node log request), ⟨request, node log request⟩ :: log)

def run (x : ClientM α) (node : Node) : Except Error α × List Call := x node []

variable {node : Node} {log : List Call}

@[simp] theorem pure_apply (a : α) : (pure a : ClientM α) node log = (.ok a, log) := rfl

@[simp] theorem fail_apply (e : Error) : (fail e : ClientM α) node log = (.error e, log) := rfl

@[simp] theorem call_apply (request : Request) :
    call request node log = (.ok (node log request), ⟨request, node log request⟩ :: log) := rfl

theorem bind_apply (x : ClientM α) (f : α → ClientM β) :
    (x >>= f) node log = match x node log with
      | (.ok a, log) => f a node log
      | (.error e, log) => (.error e, log) := rfl

theorem bind_of_ok {x : ClientM α} {a : α} {log' : List Call} (f : α → ClientM β)
    (h : x node log = (.ok a, log')) : (x >>= f) node log = f a node log' := by
  rw [bind_apply, h]

theorem bind_of_error {x : ClientM α} {e : Error} {log' : List Call} (f : α → ClientM β)
    (h : x node log = (.error e, log')) : (x >>= f) node log = (.error e, log') := by
  rw [bind_apply, h]

theorem bind_assoc_apply (x : ClientM α) (f : α → ClientM β) (g : β → ClientM γ) :
    (x >>= f >>= g) node log = (x >>= fun a => f a >>= g) node log := by
  simp only [bind_apply]
  rcases x node log with ⟨_ | _, _⟩ <;> rfl

instance : LawfulMonad ClientM := LawfulMonad.mk' ClientM
  (fun x => funext fun node => funext fun log => by
    show (x >>= fun a => pure a) node log = x node log
    rw [bind_apply]
    rcases x node log with ⟨_ | _, _⟩ <;> rfl)
  (fun _ _ => rfl)
  (fun x f g => funext fun _ => funext fun _ => bind_assoc_apply x f g)

@[simp] theorem liftExcept_error (e : Error) : liftExcept (.error e : Except Error α) = fail e := rfl

end ClientM

open ClientM

def getBlock (blockId : BlockId) : ClientM Block := call (.getBlock blockId) >>= liftExcept

def getBlockMetadata (blockId : BlockId) : ClientM BlockMetadata :=
  call (.getBlockMetadata blockId) >>= liftExcept

def getIncludedBlock (transactionId : TransactionId) : ClientM Block :=
  call (.getIncludedBlock transactionId) >>= liftExcept

def getTips : ClientM (List BlockId) := call .getTips >>= liftExcept

def postBlockRaw (block : Block) : ClientM BlockId := call (.postBlockRaw block) >>= liftExcept

def basicOutputIds (queryParameters : List QueryParameter) : ClientM (List OutputId) :=
  call (.basicOutputIds queryParameters) >>= liftExcept

def getOutputs (outputIds : List OutputId) : ClientM (List OutputResponse) :=
  call (.getOutputs outputIds) >>= liftExcept

def getInfo : ClientM NodeInfo := call .getInfo >>= liftExcept

def getMinPowScore : ClientM UInt32 := call .getMinPowScore >>= liftExcept

def getLocalPow : ClientM Bool := call .getLocalPow

def finishPow (payload : Option Payload) : ClientM Block := call (.finishPow payload) >>= liftExcept

def doPow (minPowScore : UInt32) (payload : Option Payload) (parents : List BlockId) : ClientM Block :=
  call (.doPow minPowScore payload parents) >>= liftExcept

def sleep (seconds : UInt64) : ClientM Unit := call (.sleep seconds)

end IotaSdk.Client
