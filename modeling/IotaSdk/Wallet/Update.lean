import IotaSdk.Wallet.Types

/-!
# `update_account`

The commit of a sync, under the account's write lock. The guard writes the account in place, so
an error returned by `?` leaves every write made before it: the commit is an `EStateM` over the
account. It marks the synced addresses used (a binary search on `(key_index, internal)`), keeps
the old `addresses_with_balance` below `address_start_index`, inserts the fetched outputs,
updates the transactions, unlocks the spent outputs and those of conflicting transactions, and
saves the account.
-/

namespace IotaSdk.Wallet

/-- The loop of Rust's `binary_search_by` (std 1.52 to 1.74) on `[left, right)`; `cmp` compares
an element with the key sought. Each round shrinks `right - left`, so `fuel = len` suffices. -/
def binarySearchLoop {α : Type} (cmp : α → Ordering) (l : List α) :
    Nat → Nat → Nat → Except Nat Nat
  | 0, left, _ => .error left
  | fuel + 1, left, right =>
    if left < right then
      let mid := left + (right - left) / 2
      match l[mid]?.map cmp with
      | some .lt => binarySearchLoop cmp l fuel (mid + 1) right
      | some .gt => binarySearchLoop cmp l fuel left mid
      | some .eq => .ok mid
      | none => .error left
    else .error left

def binarySearchBy {α : Type} (cmp : α → Ordering) (l : List α) : Except Nat Nat :=
  binarySearchLoop cmp l l.length 0 l.length

def compareKey (a : AccountAddress) (key : UInt32 × Bool) : Ordering :=
  (compare a.keyIndex key.1).then (compare a.internal key.2)

def markAddressUsed (addresses : List AccountAddress) (address : AddressWithBalance) :
    Except Error (List AccountAddress) :=
  match binarySearchBy (compareKey · (address.keyIndex, address.internal)) addresses with
  | .ok position => .ok (addresses.modify (fun a => { a with used := true }) position)
  | .error _ => .error .inputAddressNotFound

def markUsed : List AddressWithBalance → EStateM Error Account Unit
  | [] => pure ()
  | address :: rest => fun account =>
    if address.internal then
      match markAddressUsed account.internalAddresses address with
      | .ok internalAddresses => markUsed rest { account with internalAddresses }
      | .error e => .error e account
    else
      match markAddressUsed account.publicAddresses address with
      | .ok publicAddresses => markUsed rest { account with publicAddresses }
      | .error e => .error e account

def retainAddressesWithBalance (options : SyncOptions) (addressesWithBalance : List AddressWithBalance)
    (account : Account) : Account :=
  { account with
    addressesWithBalance :=
      account.addressesWithBalance.filter (·.keyIndex < options.addressStartIndex) ++
        addressesWithBalance }

def insertOutput (account : Account) (output : OutputData) : Account :=
  { account with
    outputs := Function.update account.outputs output.outputId (some output)
    unspentOutputs :=
      if output.isSpent then account.unspentOutputs
      else Function.update account.unspentOutputs output.outputId (some output) }

def updateTransaction (hashing : Hashing) (account : Account) (transaction : Transaction) :
    Account :=
  let transactionId := hashing.transactionId transaction.payload
  { account with
    pendingTransactions :=
      match transaction.inclusionState with
      | .confirmed | .conflicting => account.pendingTransactions.erase transactionId
      | _ => account.pendingTransactions
    transactions := Function.update account.transactions transactionId (some transaction) }

def markSpent (outputs : OutputId → Option OutputData) (outputId : OutputId) :
    OutputId → Option OutputData :=
  Function.update outputs outputId ((outputs outputId).map fun output => { output with isSpent := true })

def unlockSpentOutput (account : Account) (outputId : OutputId) : Account :=
  { account with
    outputs := markSpent account.outputs outputId
    lockedOutputs := account.lockedOutputs.erase outputId
    unspentOutputs := Function.update account.unspentOutputs outputId none }

/-- One round of `for output_to_unlock in output_ids_to_unlock`: unlike `unlockSpentOutput`, it
leaves `unspent_outputs` as it is. -/
def unlockOutput (account : Account) (outputId : OutputId) : Account :=
  { account with
    outputs := markSpent account.outputs outputId
    lockedOutputs := account.lockedOutputs.erase outputId }

def commitWrites (hashing : Hashing) (input : CommitInput) (account : Account) : Account :=
  let account := retainAddressesWithBalance input.options input.addressesWithBalance account
  let account := input.outputs.foldl insertOutput account
  let account := input.transactionSyncResult.updatedTransactions.foldl (updateTransaction hashing) account
  let account := input.transactionSyncResult.spentOutputIds.foldl unlockSpentOutput account
  input.transactionSyncResult.outputIdsToUnlock.foldl unlockOutput account

/-- `storage::manager::get()` and `save_account`; the storage is a parameter. -/
def saveAccount (storage : Account → Except Error Unit) : EStateM Error Account Unit := fun account =>
  match storage account with
  | .ok () => .ok () account
  | .error e => .error e account

def updateAccount (hashing : Hashing) (storage : Account → Except Error Unit)
    (input : CommitInput) : EStateM Error Account Unit := do
  markUsed input.addressesWithBalance
  modify (commitWrites hashing input)
  saveAccount storage

theorem updateAccount_eq (hashing : Hashing) (storage : Account → Except Error Unit)
    (input : CommitInput) (account : Account) :
    updateAccount hashing storage input account =
      match markUsed input.addressesWithBalance account with
      | .ok () marked => saveAccount storage (commitWrites hashing input marked)
      | .error e marked => .error e marked := by
  unfold updateAccount
  simp only [bind, EStateM.bind, modify, modifyGet, MonadStateOf.modifyGet, EStateM.modifyGet]
  cases markUsed input.addressesWithBalance account <;> rfl

end IotaSdk.Wallet
