import IotaSdk.Client.Clock
import Mathlib.Data.List.Sort

/-!
# Input selection and output queries

`find_inputs` collects the basic outputs of the addresses that have no expiration, timelock or
storage deposit return, reads the clock, turns each output into `(UtxoInput, amount)`, sorts
these by amount, largest first, and takes inputs from the front of the first `INPUT_COUNT_MAX`
until their total reaches the amount. `find_outputs` shares the collecting loop.
-/

namespace IotaSdk.Client
open ClientM

/-- The conversions `find_inputs` applies to a fetched output, whose code is outside the
sources: `Output::try_from_dto` with the token supply and `get_output_amount_and_address` at the
checked time give the amount, `TransactionId::from_str` and `UtxoInput::new` the input. -/
structure Conversions where
  amount : Output → UInt32 → Except Error UInt64
  utxoInput : TransactionId → UInt16 → Except Error UtxoInput

variable (conversions : Conversions)

def basicOutputQuery (address : String) : List QueryParameter :=
  [.address address, .hasExpiration false, .hasTimelock false, .hasStorageDepositReturn false]

def collectOutputs (outputResponses : List OutputResponse) :
    List String → ClientM (List OutputResponse)
  | [] => pure outputResponses
  | address :: addresses => do
    let basicOutputIds ← basicOutputIds (basicOutputQuery address)
    let outputs ← getOutputs basicOutputIds
    collectOutputs (outputResponses ++ outputs) addresses

def toBasicOutputs (currentTime : UInt32) :
    List OutputResponse → Except Error (List (UtxoInput × UInt64))
  | [] => .ok []
  | outputResp :: rest => do
    let amount ← conversions.amount outputResp.output currentTime
    let input ← conversions.utxoInput outputResp.metadata.transactionId
      outputResp.metadata.outputIndex
    pure ((input, amount) :: (← toBasicOutputs currentTime rest))

def amountGe (l r : UtxoInput × UInt64) : Prop := r.2 ≤ l.2

instance : DecidableRel amountGe := fun l r => inferInstanceAs (Decidable (r.2 ≤ l.2))

instance : IsTotal (UtxoInput × UInt64) amountGe :=
  ⟨fun l r => (UInt64.le_total r.2 l.2).imp id id⟩

instance : IsTrans (UtxoInput × UInt64) amountGe :=
  ⟨fun _ _ _ h₁ h₂ => UInt64.le_trans h₂ h₁⟩

/-- Rust's `sort_by` is stable; the insertion sort gives the same list as every stable sort
(`sortByAmount_eq_of_stable` in `Selection`). -/
def sortByAmount (basicOutputs : List (UtxoInput × UInt64)) : List (UtxoInput × UInt64) :=
  basicOutputs.insertionSort amountGe

def selectInputs (amount : UInt64) :
    List (UtxoInput × UInt64) → UInt64 → List UtxoInput → Except Error (UInt64 × List UtxoInput)
  | [], totalAlreadySpent, selectedInputs => .ok (totalAlreadySpent, selectedInputs)
  | (input, outputAmount) :: rest, totalAlreadySpent, selectedInputs =>
    if totalAlreadySpent = amount ∨ totalAlreadySpent ≥ amount then
      .ok (totalAlreadySpent, selectedInputs)
    else do
      let total ← checkedAdd totalAlreadySpent outputAmount
      selectInputs amount rest total (selectedInputs ++ [input])

def selectFromOutputs (basicOutputs : List (UtxoInput × UInt64)) (amount : UInt64) :
    Except Error (List UtxoInput) := do
  let (totalAlreadySpent, selectedInputs) ←
    selectInputs amount ((sortByAmount basicOutputs).take inputCountMax) 0 []
  if totalAlreadySpent < amount then .error (.notEnoughBalance totalAlreadySpent amount)
  else .ok selectedInputs

def fetchBasicOutputs (addresses : List String) : ClientM (List (UtxoInput × UInt64)) := do
  let availableOutputs ← collectOutputs [] addresses
  let currentTime ← getTimeChecked
  liftExcept (toBasicOutputs conversions currentTime availableOutputs)

def findInputs (addresses : List String) (amount : UInt64) : ClientM (List UtxoInput) := do
  let basicOutputs ← fetchBasicOutputs conversions addresses
  liftExcept (selectFromOutputs basicOutputs amount)

def findOutputs (outputIds : List OutputId) (addresses : List String) :
    ClientM (List OutputResponse) := do
  let outputResponses ← getOutputs outputIds
  collectOutputs outputResponses addresses

def unreachable : ClientM α := fail (.panic "internal error: entered unreachable code")

def inputsFromTransactionId (transactionId : TransactionId) : ClientM (List OutputResponse) := do
  let block ← getIncludedBlock transactionId
  let inputs ← match block.payload with
    | some (.transaction transaction) => pure transaction.essence.inputs
    | _ => unreachable
  let inputIds ← inputs.mapM fun
    | .utxo input => pure input.outputId
    | .treasury => unreachable
  getOutputs inputIds

end IotaSdk.Client
