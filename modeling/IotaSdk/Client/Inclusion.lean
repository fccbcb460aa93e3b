import IotaSdk.Client.Api

/-!
# Promotion, reattachment and `retry_until_included`

`retry_until_included` keeps the attachments of a block (`block_ids`, the original first) and
the reattached blocks (`blocks_with_id`). Each round sleeps, then checks every attachment of the
round's start in order: an included one ends the call, a conflicting one is noted, and the last
one is promoted or reattached when the node says so. After the scan, a noted conflict makes the
client ask the node for the block that included the transaction.
-/

namespace IotaSdk.Client
open ClientM

variable (hashing : Hashing)

def reattachUnchecked (blockId : BlockId) : ClientM (BlockId × Block) := do
  let block ← getBlock blockId
  let reattachBlock ← finishPow block.payload
  let blockId ← postBlockRaw reattachBlock
  let block ← if (← getLocalPow) then pure reattachBlock else getBlock blockId
  pure (blockId, block)

def promoteUnchecked (blockId : BlockId) : ClientM (BlockId × Block) := do
  let tips ← getTips
  let minPowScore ← getMinPowScore
  let promoteBlock ← doPow minPowScore none (tips ++ [blockId])
  let blockId ← postBlockRaw promoteBlock
  let block ← if (← getLocalPow) then pure promoteBlock else getBlock blockId
  pure (blockId, block)

def retry (blockId : BlockId) : ClientM (BlockId × Block) := do
  let blockMetadata ← getBlockMetadata blockId
  if blockMetadata.shouldPromote.getD false then promoteUnchecked blockId
  else if blockMetadata.shouldReattach.getD false then reattachUnchecked blockId
  else fail (.noNeedPromoteOrReattach blockId)

def reattach (blockId : BlockId) : ClientM (BlockId × Block) := do
  let metadata ← getBlockMetadata blockId
  if metadata.shouldReattach.getD false then reattachUnchecked blockId
  else fail (.noNeedPromoteOrReattach blockId)

def promote (blockId : BlockId) : ClientM (BlockId × Block) := do
  let metadata ← getBlockMetadata blockId
  if metadata.shouldPromote.getD false then promoteUnchecked blockId
  else fail (.noNeedPromoteOrReattach blockId)

structure Attachments where
  blockIds : List BlockId
  blocksWithId : List (BlockId × Block)

/-- How a loop body ends: the function returns `value`, or the loop goes on with `state`. -/
inductive Loop (α σ : Type) where
  | ret (value : α)
  | next (state : σ)

def rotateLeft (l : List α) (mid : Nat) : ClientM (List α) :=
  if mid ≤ l.length then pure (l.drop mid ++ l.take mid)
  else fail (.panic "assertion failed: mid <= self.len()")

def lastUnwrap (blockIds : List BlockId) : ClientM BlockId :=
  match blockIds.getLast? with
  | some blockId => pure blockId
  | none => fail (.panic "called Option::unwrap() on a None value")

def retryLatest (attachments : Attachments) (blockMetadata : BlockMetadata) :
    ClientM Attachments := do
  if blockMetadata.shouldPromote.getD false then
    let _ ← promoteUnchecked (← lastUnwrap attachments.blockIds)
    pure attachments
  else if blockMetadata.shouldReattach.getD false then
    let reattached ← reattachUnchecked (← lastUnwrap attachments.blockIds)
    pure ⟨attachments.blockIds ++ [reattached.1], attachments.blocksWithId ++ [reattached]⟩
  else pure attachments

/-- The scan of one round over `block_ids.clone().iter().enumerate()`; `conflicting` is the
flag of the round. -/
def checkAttachments (blockId : BlockId) (blockIdsLen : Nat) :
    List (Nat × BlockId) → Attachments → Bool →
      ClientM (Loop (List (BlockId × Block)) (Attachments × Bool))
  | [], attachments, conflicting => pure (.next (attachments, conflicting))
  | (index, blockId') :: rest, attachments, conflicting => do
    let blockMetadata ← getBlockMetadata blockId'
    match blockMetadata.ledgerInclusionState with
    | some .included | some .noTransaction =>
      if blockId = blockId' then
        let block ← getBlock blockId
        pure (.ret ((blockId, block) :: attachments.blocksWithId))
      else
        pure (.ret (← rotateLeft attachments.blocksWithId index))
    | state =>
      let attachments ← if index = blockIdsLen - 1 then retryLatest attachments blockMetadata
        else pure attachments
      checkAttachments blockId blockIdsLen rest attachments
        (conflicting || state = some .conflicting)

def retryRound (blockId : BlockId) (interval : UInt64) (attachments : Attachments) :
    ClientM (Loop (List (BlockId × Block)) Attachments) := do
  sleep interval
  match ← checkAttachments blockId attachments.blockIds.length attachments.blockIds.enum
      attachments false with
  | .ret value => pure (.ret value)
  | .next (attachments, conflicting) =>
    if conflicting then
      let block ← getBlock blockId
      match block.payload with
      | some (.transaction transactionPayload) =>
        let includedBlock ← getIncludedBlock (hashing.transactionId transactionPayload)
        pure (.ret ((hashing.blockId includedBlock, includedBlock) :: attachments.blocksWithId))
      | _ => pure (.next attachments)
    else pure (.next attachments)

def retryRounds (blockId : BlockId) (interval : UInt64) :
    Nat → Attachments → ClientM (List (BlockId × Block))
  | 0, _ => fail (.tangleInclusionError blockId)
  | attempts + 1, attachments => do
    match ← retryRound hashing blockId interval attachments with
    | .ret value => pure value
    | .next attachments => retryRounds blockId interval attempts attachments

def retryUntilIncluded (blockId : BlockId) (interval maxAttempts : Option UInt64) :
    ClientM (List (BlockId × Block)) :=
  retryRounds hashing blockId (interval.getD defaultRetryUntilIncludedInterval)
    (maxAttempts.getD defaultRetryUntilIncludedMaxAmount).toNat ⟨[blockId], []⟩

def idOf (k : UInt8) : BlockId := ⟨List.replicate 32 k, List.length_replicate 32 k⟩

def scriptBlock (round : Nat) : Block := ⟨[idOf 9], some .taggedData, round.toUInt64⟩

/-- A node under which the block `idOf 0` is reattached in rounds 1 and 2 (as `idOf 1`, then
`idOf 2`), and the first reattachment `idOf 1` is included in round 3. -/
def reattachTwiceNode : Node := fun log request =>
  let round := (log.filter fun c => c.request matches .sleep _).length
  match request with
  | .getBlockMetadata blockId =>
    .ok (if round = 3 ∧ blockId = idOf 1 then ⟨some .included, none, none⟩
      else if (round = 1 ∧ blockId = idOf 0) ∨ (round = 2 ∧ blockId = idOf 1) then
        ⟨none, some false, some true⟩
      else ⟨none, none, none⟩)
  | .getBlock _ => .ok (scriptBlock 0)
  | .finishPow _ => .ok (scriptBlock round)
  | .postBlockRaw _ => .ok (idOf round.toUInt8)
  | .getLocalPow => true
  | .sleep _ => ()
  | .getIncludedBlock _ | .doPow .. => .error (.node "unexpected request")
  | .getTips | .basicOutputIds _ | .getOutputs _ | .getInfo | .getMinPowScore =>
    .error (.node "unexpected request")
  | .systemTime => none

def constHashing : Hashing := ⟨fun _ => idOf 0, fun _ => ⟨List.replicate 32 0, List.length_replicate 32 0⟩⟩

theorem retryUntilIncluded_reattachTwiceNode :
    ((retryUntilIncluded hashing (idOf 0) (some 1) (some 3)).run reattachTwiceNode).1 =
      .ok [(idOf 2, scriptBlock 2), (idOf 1, scriptBlock 1)] := by
  rfl

end IotaSdk.Client
