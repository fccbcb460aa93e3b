import IotaSdk.Client.Calls
import Mathlib.Data.List.Rotate

/-!
# What every round of `retry_until_included` keeps

`block_ids` is the original block followed by the ids of `blocks_with_id` (`Mirror`) at the start
of every round. On such a start the round's scan is `checkAttachmentsSpec`: the attachments before
the latest are only checked, the latest is promoted or reattached at most once, and an included
attachment rotates `blocks_with_id` by its index, which is at most the length, so `rotate_left`
never panics.

* `checkAttachments_enum`: on a mirrored round start the code's scan is `checkAttachmentsSpec`.
* `retryRound_grows`: a round that goes on keeps `Mirror` and adds at most one reattachment.
* `retryUntilIncluded_attachments`: over any run, every round starts mirrored, with at most as
  many reattached blocks as rounds before it.
-/

namespace IotaSdk.Client
open ClientM

/-! ## The round's scan, attachment by attachment -/

/-- `block_ids` is the original block followed by the ids of `blocks_with_id`. -/
def Mirror (blockId : BlockId) (attachments : Attachments) : Prop :=
  attachments.blockIds = blockId :: attachments.blocksWithId.map Prod.fst

def Attachments.push (attachments : Attachments) (reattached : BlockId × Block) : Attachments :=
  ⟨attachments.blockIds ++ [reattached.1], attachments.blocksWithId ++ [reattached]⟩

def Attachments.Grows (before after : Attachments) : Prop :=
  after = before ∨ ∃ reattached, after = before.push reattached

def includedResult (blockId blockId' : BlockId) (index : Nat)
    (blocksWithId : List (BlockId × Block)) : ClientM (List (BlockId × Block)) :=
  if blockId = blockId' then do
    let block ← getBlock blockId
    pure ((blockId, block) :: blocksWithId)
  else pure (blocksWithId.rotate index)

def checkEarlier (blockId : BlockId) (blocksWithId : List (BlockId × Block)) :
    List (Nat × BlockId) → Bool → ClientM (Loop (List (BlockId × Block)) Bool)
  | [], conflicting => pure (.next conflicting)
  | (index, blockId') :: rest, conflicting => do
    let blockMetadata ← getBlockMetadata blockId'
    match blockMetadata.ledgerInclusionState with
    | some .included | some .noTransaction =>
      pure (.ret (← includedResult blockId blockId' index blocksWithId))
    | state => checkEarlier blockId blocksWithId rest (conflicting || state = some .conflicting)

def retryLatestOf (latest : BlockId) (attachments : Attachments) (blockMetadata : BlockMetadata) :
    ClientM Attachments :=
  if blockMetadata.shouldPromote.getD false then do
    let _ ← promoteUnchecked latest
    pure attachments
  else if blockMetadata.shouldReattach.getD false then do
    let reattached ← reattachUnchecked latest
    pure (attachments.push reattached)
  else pure attachments

def checkLatest (blockId latest : BlockId) (index : Nat) (attachments : Attachments)
    (conflicting : Bool) : ClientM (Loop (List (BlockId × Block)) (Attachments × Bool)) := do
  let blockMetadata ← getBlockMetadata latest
  match blockMetadata.ledgerInclusionState with
  | some .included | some .noTransaction =>
    pure (.ret (← includedResult blockId latest index attachments.blocksWithId))
  | state =>
    let attachments ← retryLatestOf latest attachments blockMetadata
    pure (.next (attachments, conflicting || state = some .conflicting))

/-- The scan of a round whose start has the attachments `earlier ++ [latest]`. -/
def checkAttachmentsSpec (blockId : BlockId) (earlier : List BlockId) (latest : BlockId)
    (attachments : Attachments) : ClientM (Loop (List (BlockId × Block)) (Attachments × Bool)) := do
  match ← checkEarlier blockId attachments.blocksWithId earlier.enum false with
  | .ret value => pure (.ret value)
  | .next conflicting => checkLatest blockId latest earlier.length attachments conflicting

/-! ## The code's scan is `checkAttachmentsSpec` -/

section Scan

variable {σ : Type} {blockId : BlockId} {attachments : Attachments}

theorem includedResult_eq {blockId' : BlockId} {index : Nat} {blocksWithId : List (BlockId × Block)}
    (inside : index ≤ blocksWithId.length) :
    (includedResult blockId blockId' index blocksWithId >>= fun value => pure (Loop.ret value : Loop _ σ)) =
      if blockId = blockId' then
        getBlock blockId >>= fun block => pure (.ret ((blockId, block) :: blocksWithId))
      else rotateLeft blocksWithId index >>= fun rotated => pure (.ret rotated) := by
  unfold includedResult rotateLeft
  split
  · simp only [bind_assoc, pure_bind]
  · rw [List.rotate_eq_drop_append_take inside]

theorem retryLatest_eq {latest : BlockId} (last : attachments.blockIds.getLast? = some latest)
    (blockMetadata : BlockMetadata) :
    retryLatest attachments blockMetadata = retryLatestOf latest attachments blockMetadata := by
  have unwrapped : lastUnwrap attachments.blockIds = pure latest := by simp [lastUnwrap, last]
  simp only [retryLatest, retryLatestOf, unwrapped, pure_bind]
  rfl

theorem checkAttachments_append (blockIdsLen : Nat) (tail : List (Nat × BlockId)) :
    ∀ (earlier : List (Nat × BlockId)) (conflicting : Bool),
      (∀ p ∈ earlier, p.1 + 1 < blockIdsLen ∧ p.1 ≤ attachments.blocksWithId.length) →
      checkAttachments blockId blockIdsLen (earlier ++ tail) attachments conflicting =
        checkEarlier blockId attachments.blocksWithId earlier conflicting >>= fun
          | .ret value => pure (.ret value)
          | .next conflicting => checkAttachments blockId blockIdsLen tail attachments conflicting
  | [], conflicting, _ => rfl
  | (index, blockId') :: rest, conflicting, bounds => by
    have ⟨earlier_index, inside⟩ := bounds _ (List.mem_cons_self _ _)
    simp only [List.cons_append, checkAttachments, checkEarlier, bind_assoc]
    congr 1
    funext blockMetadata
    -- Included or no transaction: the call ends, rotating within the length. Otherwise the
    -- scan goes on with the same attachments.
    rcases blockMetadata with ⟨_ | (_ | _ | _), promote, reattach⟩ <;> dsimp only <;> first
      | (simp only [bind_assoc, pure_bind]; exact (includedResult_eq inside).symm)
      | (rw [if_neg (show index ≠ blockIdsLen - 1 by omega), pure_bind]
         exact checkAttachments_append blockIdsLen tail rest _ fun p member =>
           bounds p (List.mem_cons_of_mem _ member))

theorem checkAttachments_latest {latest : BlockId} {index : Nat}
    (last : attachments.blockIds.getLast? = some latest)
    (inside : index ≤ attachments.blocksWithId.length) (conflicting : Bool) :
    checkAttachments blockId (index + 1) [(index, latest)] attachments conflicting =
      checkLatest blockId latest index attachments conflicting := by
  simp only [checkAttachments, checkLatest]
  congr 1
  funext blockMetadata
  -- Included or no transaction: the call ends as in the earlier indices. Otherwise the index is
  -- the last one, and `retry_latest` acts on the attachment `lastUnwrap` finds.
  rcases blockMetadata with ⟨_ | (_ | _ | _), promote, reattach⟩ <;> dsimp only <;> first
    | exact (includedResult_eq inside).symm
    | rw [if_pos (Nat.add_sub_cancel index 1).symm, retryLatest_eq last]

theorem checkAttachments_enum {earlier : List BlockId} {latest : BlockId}
    (mirror : Mirror blockId attachments) (split : attachments.blockIds = earlier ++ [latest]) :
    checkAttachments blockId attachments.blockIds.length attachments.blockIds.enum attachments false =
      checkAttachmentsSpec blockId earlier latest attachments := by
  have lengths : attachments.blocksWithId.length = earlier.length := by
    have := congrArg List.length (mirror.symm.trans split)
    simp only [List.length_cons, List.length_map, List.length_append, List.length_nil] at this
    omega
  have last : attachments.blockIds.getLast? = some latest := by rw [split, List.getLast?_concat]
  rw [split, List.enum_append, List.enumFrom_singleton, List.length_append, List.length_singleton,
    checkAttachments_append _ _ _ _ fun p member => by
      have := List.fst_lt_of_mem_enum member
      omega]
  unfold checkAttachmentsSpec
  congr 1
  funext outcome
  cases outcome with
  | ret value => rfl
  | next conflicting => exact checkAttachments_latest last (by omega) conflicting

end Scan

/-! ## A round keeps the mirror -/

def Loop.Continues {α σ : Type} (P : σ → Prop) : Loop α σ → Prop
  | .ret _ => True
  | .next state => P state

section Round

variable {blockId : BlockId} {attachments : Attachments}

theorem Mirror.push (mirror : Mirror blockId attachments) (reattached : BlockId × Block) :
    Mirror blockId (attachments.push reattached) := by
  show attachments.blockIds ++ [reattached.1] = _
  rw [mirror]
  simp [Attachments.push]

theorem Attachments.Grows.mirror {after : Attachments} (grows : attachments.Grows after)
    (mirror : Mirror blockId attachments) : Mirror blockId after := by
  rcases grows with rfl | ⟨reattached, rfl⟩
  · exact mirror
  · exact mirror.push reattached

theorem Attachments.Grows.length_le {after : Attachments} (grows : attachments.Grows after) :
    after.blocksWithId.length ≤ attachments.blocksWithId.length + 1 := by
  rcases grows with rfl | ⟨reattached, rfl⟩ <;> simp [Attachments.push]

theorem includedResult_quiet (blockId blockId' : BlockId) (index : Nat)
    (blocksWithId : List (BlockId × Block)) :
    Adds (includedResult blockId blockId' index blocksWithId) (Quiet 0) :=
  Adds.ite ((getBlock_quiet _).silent_bind fun _ => Adds.pure Quiet.nil) (Adds.pure Quiet.nil)

theorem checkEarlier_quiet (blockId : BlockId) (blocksWithId : List (BlockId × Block)) :
    ∀ (entries : List (Nat × BlockId)) (conflicting : Bool),
      Adds (checkEarlier blockId blocksWithId entries conflicting) (Quiet 0)
  | [], _ => Adds.pure Quiet.nil
  | (index, blockId') :: rest, conflicting => by
    rw [checkEarlier]
    refine (getBlockMetadata_quiet _).silent_bind fun blockMetadata => ?_
    split
    case h_3 => exact checkEarlier_quiet blockId blocksWithId rest _
    all_goals exact (includedResult_quiet _ _ _ _).silent_bind fun _ => Adds.pure Quiet.nil

theorem retryLatestOf_grows (latest : BlockId) (blockMetadata : BlockMetadata) :
    Yields (retryLatestOf latest attachments blockMetadata) fun next _ => attachments.Grows next := by
  unfold retryLatestOf
  split
  · exact (promoteUnchecked_quiet _).yields.bind fun _ _ _ => Yields.pure (.inl rfl)
  · split
    · exact (reattachUnchecked_quiet _).yields.bind fun reattached _ _ =>
        Yields.pure (.inr ⟨reattached, rfl⟩)
    · exact Yields.pure (.inl rfl)

theorem checkAttachmentsSpec_grows (earlier : List BlockId) (latest : BlockId) :
    Yields (checkAttachmentsSpec blockId earlier latest attachments)
      fun outcome _ => Loop.Continues (fun next => attachments.Grows next.1) outcome := by
  refine (checkEarlier_quiet _ _ _ _).yields.bind fun outcome _ _ => ?_
  cases outcome with
  | ret value => exact Yields.pure trivial
  | next conflicting =>
    refine (getBlockMetadata_quiet _).yields.bind fun blockMetadata _ _ => ?_
    split <;> first
      | exact (includedResult_quiet _ _ _ _).yields.bind fun _ _ _ => Yields.pure trivial
      | exact (retryLatestOf_grows latest blockMetadata).bind fun _ _ grows => Yields.pure grows

theorem retryRound_grows (hashing : Hashing) (interval : UInt64) (mirror : Mirror blockId attachments) :
    Yields (retryRound hashing blockId interval attachments)
      fun outcome _ => Loop.Continues attachments.Grows outcome := by
  have nonempty : attachments.blockIds ≠ [] := by
    rw [mirror]
    exact List.cons_ne_nil _ _
  unfold retryRound
  rw [checkAttachments_enum mirror (List.dropLast_append_getLast nonempty).symm]
  refine (Yields.call _).bind fun _ _ _ => (checkAttachmentsSpec_grows _ _).bind fun outcome _ grows => ?_
  rcases outcome with value | ⟨after, conflicting⟩ <;> dsimp only
  · exact Yields.pure trivial
  · split
    · refine (getBlock_quiet _).yields.bind fun block _ _ => ?_
      split
      · exact (getIncludedBlock_quiet _).yields.bind fun _ _ _ => Yields.pure trivial
      · exact Yields.pure grows
    · exact Yields.pure grows

end Round

/-! ## Every round of a run -/

section Run

variable (hashing : Hashing) (blockId : BlockId) (interval : UInt64) (node : Node)

def afterRounds : Nat → Attachments → List Call → Option (Attachments × List Call)
  | 0, attachments, log => some (attachments, log)
  | rounds + 1, attachments, log =>
    match retryRound hashing blockId interval attachments node log with
    | (.ok (.next attachments), log) => afterRounds rounds attachments log
    | _ => none

variable {hashing blockId interval node}

theorem afterRounds_zero {attachments after : Attachments} {log log' : List Call} :
    afterRounds hashing blockId interval node 0 attachments log = some (after, log') ↔
      after = attachments ∧ log' = log := by
  simp only [afterRounds, Option.some.injEq, Prod.mk.injEq, eq_comm]

theorem afterRounds_succ {rounds : Nat} {attachments : Attachments} {log : List Call}
    {reached : Attachments × List Call} :
    afterRounds hashing blockId interval node (rounds + 1) attachments log = some reached ↔
      ∃ next log₁, retryRound hashing blockId interval attachments node log = (.ok (.next next), log₁) ∧
        afterRounds hashing blockId interval node rounds next log₁ = some reached := by
  simp only [afterRounds]
  split
  · rename_i next log₁ round
    refine ⟨fun rest => ⟨next, log₁, round, rest⟩, fun ⟨next', log', round', rest⟩ => ?_⟩
    rw [round] at round'
    cases round'
    exact rest
  · rename_i other
    exact ⟨nofun, fun ⟨next, log₁, round, _⟩ => (other next log₁ round).elim⟩

theorem retryRounds_afterRounds : ∀ {rounds : Nat} {attachments after : Attachments}
    {log log' : List Call},
    afterRounds hashing blockId interval node rounds attachments log = some (after, log') →
      ∀ attempts, retryRounds hashing blockId interval (rounds + attempts) attachments node log =
        retryRounds hashing blockId interval attempts after node log'
  | 0, _, _, _, _, reached, attempts => by
    obtain ⟨rfl, rfl⟩ := afterRounds_zero.mp reached
    rw [Nat.zero_add]
  | rounds + 1, _, _, _, _, reached, attempts => by
    obtain ⟨next, log₁, round, rest⟩ := afterRounds_succ.mp reached
    rw [Nat.add_right_comm, retryRounds, bind_apply, round]
    exact retryRounds_afterRounds rest attempts

theorem afterRounds_mirror : ∀ {rounds : Nat} {attachments after : Attachments}
    {log log' : List Call}, Mirror blockId attachments →
    afterRounds hashing blockId interval node rounds attachments log = some (after, log') →
      Mirror blockId after ∧ after.blocksWithId.length ≤ attachments.blocksWithId.length + rounds
  | 0, _, _, _, _, mirror, reached => by
    obtain ⟨rfl, rfl⟩ := afterRounds_zero.mp reached
    exact ⟨mirror, Nat.le_add_right _ _⟩
  | rounds + 1, attachments, _, log, _, mirror, reached => by
    obtain ⟨next, log₁, round, rest⟩ := afterRounds_succ.mp reached
    obtain ⟨-, -, grows⟩ := retryRound_grows hashing interval mirror node log _ log₁ round
    obtain ⟨mirrored, bounded⟩ := afterRounds_mirror (grows.mirror mirror) rest
    exact ⟨mirrored, by have := grows.length_le; omega⟩

end Run

/-- Over any run of `retry_until_included(blockId)`, every round starts with `block_ids` the
original block followed by the ids of `blocks_with_id`, and with at most as many reattached
blocks as rounds before it; its scan promotes or reattaches at most once, the attachment that
is last at its start, and rotates within the length; and if it goes on it adds at most one
reattached block. -/
theorem retryUntilIncluded_attachments (hashing : Hashing) (blockId : BlockId) (interval : UInt64)
    (node : Node) :
    Mirror blockId ⟨[blockId], []⟩ ∧
    ∀ rounds attachments log,
      afterRounds hashing blockId interval node rounds ⟨[blockId], []⟩ [] = some (attachments, log) →
        (∀ attempts, retryRounds hashing blockId interval (rounds + attempts) ⟨[blockId], []⟩ node [] =
          retryRounds hashing blockId interval attempts attachments node log) ∧
        Mirror blockId attachments ∧ attachments.blocksWithId.length ≤ rounds ∧
        (∃ earlier latest, attachments.blockIds = earlier ++ [latest] ∧
          checkAttachments blockId attachments.blockIds.length attachments.blockIds.enum attachments
            false = checkAttachmentsSpec blockId earlier latest attachments) ∧
        Yields (retryRound hashing blockId interval attachments)
          fun outcome _ => Loop.Continues attachments.Grows outcome := by
  have start : Mirror blockId ⟨[blockId], []⟩ := rfl
  refine ⟨start, fun rounds attachments log reached => ?_⟩
  obtain ⟨mirror, bounded⟩ := afterRounds_mirror start reached
  have split := (List.dropLast_append_getLast (show attachments.blockIds ≠ [] by
    rw [mirror]
    exact List.cons_ne_nil _ _)).symm
  exact ⟨retryRounds_afterRounds reached, mirror, by simpa using bounded,
    ⟨_, _, split, checkAttachments_enum mirror split⟩, retryRound_grows hashing interval mirror⟩

theorem retryUntilIncluded_attachments_reattachTwice :
    ∃ log, afterRounds constHashing (idOf 0) 1 reattachTwiceNode 2 ⟨[idOf 0], []⟩ [] =
        some (⟨[idOf 0, idOf 1, idOf 2], [(idOf 1, scriptBlock 1), (idOf 2, scriptBlock 2)]⟩, log) ∧
      Mirror (idOf 0) ⟨[idOf 0, idOf 1, idOf 2], [(idOf 1, scriptBlock 1), (idOf 2, scriptBlock 2)]⟩ ∧
      [(idOf 1, scriptBlock 1), (idOf 2, scriptBlock 2)].length ≤ 2 :=
  ⟨_, rfl, ((retryUntilIncluded_attachments constHashing (idOf 0) 1 reattachTwiceNode).2 2 _ _ rfl).2.1,
    ((retryUntilIncluded_attachments constHashing (idOf 0) 1 reattachTwiceNode).2 2 _ _ rfl).2.2.1⟩

end IotaSdk.Client
