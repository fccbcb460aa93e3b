import Mathlib.Data.List.Basic

/-!
# Types of the blocks, outputs and errors

The block, payload and output types that `high_level.rs` and the account syncing read, kept to
the fields those functions read. Identifiers are their 32 bytes. Hashes (`Block::id`,
`TransactionPayload::id`) are computed by code outside the sources, so they are a parameter
(`Hashing`) of every function that uses them. Integer `+` and `-` follow Rust's debug build,
which panics on overflow (`checkedAdd`, `checkedAddU32`, `checkedSubU32`); a release build wraps
instead.
-/

namespace IotaSdk

instance exceptDecidableEq {ε α : Type} [DecidableEq ε] [DecidableEq α] :
    DecidableEq (Except ε α)
  | .ok a, .ok b => decidable_of_iff (a = b) ⟨congrArg _, Except.ok.inj⟩
  | .error a, .error b => decidable_of_iff (a = b) ⟨congrArg _, Except.error.inj⟩
  | .ok _, .error _ => isFalse nofun
  | .error _, .ok _ => isFalse nofun

structure BlockId where
  bytes : List UInt8
  length_bytes : bytes.length = 32
  deriving DecidableEq

structure TransactionId where
  bytes : List UInt8
  length_bytes : bytes.length = 32
  deriving DecidableEq

structure OutputId where
  transactionId : TransactionId
  index : UInt16
  deriving DecidableEq

structure UtxoInput where
  outputId : OutputId
  deriving DecidableEq

inductive Input where
  | utxo (input : UtxoInput)
  | treasury
  deriving DecidableEq

inductive UnlockCondition where
  | address
  | storageDepositReturn (returnAmount : UInt64)
  | timelock (unixTime : UInt32)
  | expiration (unixTime : UInt32)
  deriving DecidableEq

inductive OutputKind where
  | basic | account | foundry | nft | treasury
  deriving DecidableEq

structure Output where
  kind : OutputKind
  amount : UInt64
  unlockConditions : List UnlockCondition
  deriving DecidableEq

structure RegularTransactionEssence where
  networkId : UInt64
  inputs : List Input
  outputs : List Output
  deriving DecidableEq

structure TransactionPayload where
  essence : RegularTransactionEssence
  deriving DecidableEq

inductive Payload where
  | transaction (payload : TransactionPayload)
  | milestone
  | treasuryTransaction
  | taggedData
  deriving DecidableEq

structure Block where
  parents : List BlockId
  payload : Option Payload
  nonce : UInt64
  deriving DecidableEq

/-- The content hashes, computed by code outside the sources. -/
structure Hashing where
  blockId : Block → BlockId
  transactionId : TransactionPayload → TransactionId

inductive LedgerInclusionState where
  | included | conflicting | noTransaction
  deriving DecidableEq

structure BlockMetadata where
  ledgerInclusionState : Option LedgerInclusionState
  shouldPromote : Option Bool
  shouldReattach : Option Bool
  deriving DecidableEq

structure OutputMetadata where
  transactionId : TransactionId
  outputIndex : UInt16
  isSpent : Bool
  deriving DecidableEq

structure OutputResponse where
  metadata : OutputMetadata
  output : Output
  deriving DecidableEq

inductive QueryParameter where
  | address (bech32 : String)
  | hasExpiration (value : Bool)
  | hasTimelock (value : Bool)
  | hasStorageDepositReturn (value : Bool)
  deriving DecidableEq

structure NodeInfo where
  latestMilestoneTimestamp : Option UInt32
  deriving DecidableEq

/-- The errors of the client and the wallet. A Rust panic is `panic` with its message. -/
inductive Error where
  | noNeedPromoteOrReattach (blockId : BlockId)
  | tangleInclusionError (blockId : BlockId)
  | notEnoughBalance (found required : UInt64)
  | timeNotSynced (currentTime milestoneTimestamp : UInt32)
  | inputAddressNotFound
  | node (message : String)
  | storage (message : String)
  | panic (message : String)
  deriving DecidableEq

/-- Modelled from the spec: `INPUT_COUNT_MAX = 128`. -/
def inputCountMax : Nat := 128

/-- Modelled from the spec: `DEFAULT_RETRY_UNTIL_INCLUDED_INTERVAL = 5` seconds. -/
def defaultRetryUntilIncludedInterval : UInt64 := 5

/-- Modelled from the spec: `DEFAULT_RETRY_UNTIL_INCLUDED_MAX_AMOUNT = 40`. -/
def defaultRetryUntilIncludedMaxAmount : UInt64 := 40

/-- Modelled from the spec: `FIVE_MINUTES_IN_SECONDS = 300`. -/
def fiveMinutesInSeconds : UInt32 := 300

def checkedAdd (a b : UInt64) : Except Error UInt64 :=
  if a.toNat + b.toNat < UInt64.size then .ok (a + b) else .error (.panic "attempt to add with overflow")

def checkedAddU32 (a b : UInt32) : Except Error UInt32 :=
  if a.toNat + b.toNat < UInt32.size then .ok (a + b) else .error (.panic "attempt to add with overflow")

def checkedSubU32 (a b : UInt32) : Except Error UInt32 :=
  if b ≤ a then .ok (a - b) else .error (.panic "attempt to subtract with overflow")

theorem UInt64.le_iff_toNat (a b : UInt64) : a ≤ b ↔ a.toNat ≤ b.toNat := Iff.rfl

theorem UInt64.lt_iff_toNat (a b : UInt64) : a < b ↔ a.toNat < b.toNat := Iff.rfl

@[simp] theorem UInt64.ofNat_toNat (a : UInt64) : UInt64.ofNat a.toNat = a :=
  UInt64.toNat.inj (UInt64.toNat_ofNat_of_lt a.toNat_lt_size)

theorem UInt64.toNat_add_of_lt {a b : UInt64} (h : a.toNat + b.toNat < UInt64.size) :
    (a + b).toNat = a.toNat + b.toNat :=
  Nat.mod_eq_of_lt h

end IotaSdk
