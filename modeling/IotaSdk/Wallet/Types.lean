import IotaSdk.Types
import Mathlib.Data.Finset.Basic

/-!
# The account

The account that `update_account` writes under the account's write lock. Its declaration is not
in the sources; its fields are those `update_account` reads and writes, as the spec lists them.
Hash maps are partial functions and hash sets are finite sets.
-/

namespace IotaSdk.Wallet

/-- Modelled from the spec: an address derived at `key_index`, in the internal or the public
half, with its `used` flag. -/
structure AccountAddress where
  address : String
  keyIndex : UInt32
  internal : Bool
  used : Bool
  deriving DecidableEq

/-- Modelled from the spec: a synced address with the sum of its outputs' amounts. -/
structure AddressWithBalance where
  address : String
  keyIndex : UInt32
  internal : Bool
  amount : UInt64
  outputIds : List OutputId
  deriving DecidableEq

/-- Modelled from the spec: an output of the account and whether it is spent. -/
structure OutputData where
  outputId : OutputId
  amount : UInt64
  isSpent : Bool
  deriving DecidableEq

/-- Modelled from the spec: the inclusion state of a transaction of the account. -/
inductive InclusionState where
  | pending | confirmed | conflicting
  deriving DecidableEq

/-- Modelled from the spec: a transaction of the account. -/
structure Transaction where
  payload : TransactionPayload
  inclusionState : InclusionState
  deriving DecidableEq

/-- Modelled from the spec: what `sync_transactions` hands to the commit. -/
structure TransactionSyncResult where
  updatedTransactions : List Transaction
  spentOutputIds : List OutputId
  outputIdsToUnlock : List OutputId

/-- Modelled from the spec: the options of a sync that the commit and the interval check read. -/
structure SyncOptions where
  addressStartIndex : UInt32
  forceSyncing : Bool

/-- Modelled from the spec: the fields of the account that a sync writes. -/
structure Account where
  internalAddresses : List AccountAddress
  publicAddresses : List AccountAddress
  addressesWithBalance : List AddressWithBalance
  outputs : OutputId → Option OutputData
  unspentOutputs : OutputId → Option OutputData
  lockedOutputs : Finset OutputId
  transactions : TransactionId → Option Transaction
  pendingTransactions : Finset TransactionId

structure CommitInput where
  addressesWithBalance : List AddressWithBalance
  outputs : List OutputData
  transactionSyncResult : TransactionSyncResult
  options : SyncOptions

end IotaSdk.Wallet
