import IotaSdk.Wallet.Marking
import IotaSdk.Wallet.Sync

/-!
# What a commit writes

Each write pass of `update_account` works entry by entry. At an output id, `outputs` ends with the
last fetched output of that id, or the old entry, marked spent if an unlock loop names the id;
`unspent_outputs` with the last unspent one, or the old entry, unless the id is spent; at a
transaction id, `transactions` ends with the last updated transaction of that id, or the old one.
The sets only lose ids. So the writes, applied a second time, change nothing, except that
`addresses_with_balance` gains again every synced address below `address_start_index`.

* `commitWrites_eq_commitSpec`: the loops compute the per-entry description `commitSpec`.
* `commitSpec_commitSpec`: the writes applied twice are the writes applied once.
* `updateAccount_idempotent`: with sorted halves and synced addresses from `address_start_index`
  on, a commit that succeeded succeeds again on its own result and leaves it as it is.
* `syncRun_addressesKept`: over every interleaving of syncs, the address halves only gain `used`
  flags.
* `syncRun_historyKept`: over every interleaving of syncs, no output or transaction record is
  lost, and outputs are locked and transactions made pending only by consolidation.
-/

namespace IotaSdk.Wallet

attribute [ext] Account

def spentIf (unlocked : Prop) [Decidable unlocked] (entry : Option OutputData) : Option OutputData :=
  if unlocked then entry.map fun output => { output with isSpent := true } else entry

@[simp] theorem isSome_spentIf (unlocked : Prop) [Decidable unlocked] (entry : Option OutputData) :
    (spentIf unlocked entry).isSome = entry.isSome := by
  unfold spentIf
  split <;> simp

theorem outputId_of_spentIf {unlocked : Prop} [Decidable unlocked] {entry : Option OutputData}
    {output : OutputData} (found : spentIf unlocked entry = some output) :
    ∃ stored, entry = some stored ∧ output.outputId = stored.outputId := by
  unfold spentIf at found
  split at found
  · obtain ⟨stored, rfl, rfl⟩ := Option.map_eq_some'.mp found
    exact ⟨stored, rfl, rfl⟩
  · exact ⟨output, found, rfl⟩

theorem spentIf_spentIf (first second : Prop) [Decidable first] [Decidable second]
    (entry : Option OutputData) :
    spentIf first (spentIf second (spentIf first (spentIf second entry))) =
      spentIf first (spentIf second entry) := by
  unfold spentIf
  split_ifs <;> simp [Option.map_map, Function.comp_def]

theorem or_or_self {α : Type} (x y : Option α) : x.or (x.or y) = x.or y := by
  cases x <;> rfl

/-! ## Each pass, entry by entry -/

section Passes

variable (hashing : Hashing)

theorem markSpent_apply (outputs : OutputId → Option OutputData) (outputId other : OutputId) :
    markSpent outputs outputId other =
      (outputs other).map fun output =>
        if other = outputId then { output with isSpent := true } else output := by
  by_cases same : other = outputId
  · subst same
    simp [markSpent]
  · simp [markSpent, Function.update_noteq same, same]

theorem outputs_foldl_insertOutput (k : OutputId) :
    ∀ (outputs : List OutputData) (account : Account),
      (outputs.foldl insertOutput account).outputs k =
        (outputs.reverse.find? (·.outputId = k)).or (account.outputs k)
  | [], _ => rfl
  | output :: outputs, account => by
    rw [List.foldl_cons, outputs_foldl_insertOutput k outputs, List.reverse_cons, List.find?_append,
      Option.or_assoc]
    by_cases same : output.outputId = k
    · subst same
      simp [insertOutput]
    · simp [insertOutput, same, Function.update_noteq (Ne.symm same)]

theorem unspentOutputs_foldl_insertOutput (k : OutputId) :
    ∀ (outputs : List OutputData) (account : Account),
      (outputs.foldl insertOutput account).unspentOutputs k =
        (outputs.reverse.find? fun output => output.outputId = k ∧ output.isSpent = false).or
          (account.unspentOutputs k)
  | [], _ => rfl
  | output :: outputs, account => by
    rw [List.foldl_cons, unspentOutputs_foldl_insertOutput k outputs, List.reverse_cons,
      List.find?_append, Option.or_assoc]
    by_cases same : output.outputId = k
    · subst same
      cases spent : output.isSpent <;> simp [insertOutput, spent]
    · cases spent : output.isSpent <;>
        simp [insertOutput, spent, same, Function.update_noteq (Ne.symm same)]

theorem transactions_foldl_updateTransaction (k : TransactionId) :
    ∀ (transactions : List Transaction) (account : Account),
      (transactions.foldl (updateTransaction hashing) account).transactions k =
        (transactions.reverse.find? (hashing.transactionId ·.payload = k)).or (account.transactions k)
  | [], _ => rfl
  | transaction :: transactions, account => by
    rw [List.foldl_cons, transactions_foldl_updateTransaction k transactions, List.reverse_cons,
      List.find?_append, Option.or_assoc]
    by_cases same : hashing.transactionId transaction.payload = k
    · subst same
      simp [updateTransaction]
    · simp [updateTransaction, same, Function.update_noteq (Ne.symm same)]

theorem mem_pendingTransactions_foldl (k : TransactionId) :
    ∀ (transactions : List Transaction) (account : Account),
      k ∈ (transactions.foldl (updateTransaction hashing) account).pendingTransactions ↔
        k ∈ account.pendingTransactions ∧ ∀ transaction ∈ transactions,
          hashing.transactionId transaction.payload = k → transaction.inclusionState = .pending
  | [], _ => by simp
  | transaction :: transactions, account => by
    rw [List.foldl_cons, mem_pendingTransactions_foldl k transactions, List.forall_mem_cons]
    by_cases same : hashing.transactionId transaction.payload = k
    · subst same
      cases state : transaction.inclusionState <;> simp [updateTransaction, state]
    · have kept : k ∈ (updateTransaction hashing account transaction).pendingTransactions ↔
          k ∈ account.pendingTransactions := by
        simp only [updateTransaction]
        split <;> simp [Finset.mem_erase, Ne.symm same]
      simp [kept, same]

theorem outputs_foldl_markSpent (k : OutputId) (f : Account → OutputId → Account)
    (marks : ∀ account outputId, (f account outputId).outputs = markSpent account.outputs outputId) :
    ∀ (outputIds : List OutputId) (account : Account),
      (outputIds.foldl f account).outputs k = spentIf (k ∈ outputIds) (account.outputs k)
  | [], _ => by simp [spentIf]
  | outputId :: outputIds, account => by
    rw [List.foldl_cons, outputs_foldl_markSpent k f marks outputIds, marks, markSpent_apply]
    by_cases same : k = outputId
    · subst same
      cases account.outputs k <;> simp [spentIf, apply_ite, Option.map_map, Function.comp_def]
    · simp [spentIf, same]

theorem unspentOutputs_foldl_unlockSpentOutput (k : OutputId) :
    ∀ (outputIds : List OutputId) (account : Account),
      (outputIds.foldl unlockSpentOutput account).unspentOutputs k =
        if k ∈ outputIds then none else account.unspentOutputs k
  | [], _ => rfl
  | outputId :: outputIds, account => by
    rw [List.foldl_cons, unspentOutputs_foldl_unlockSpentOutput k outputIds]
    by_cases same : k = outputId
    · simp [unlockSpentOutput, same]
    · simp [unlockSpentOutput, same, Function.update_noteq same]

end Passes

/-! ## The writes of a commit, entry by entry -/

section Writes

variable (hashing : Hashing) (input : CommitInput) (account : Account)

theorem commitWrites_field {γ : Type} (field : Account → γ)
    (insert : ∀ account output, field (insertOutput account output) = field account)
    (update : ∀ account transaction,
      field (updateTransaction hashing account transaction) = field account)
    (spent : ∀ account outputId, field (unlockSpentOutput account outputId) = field account)
    (unlock : ∀ account outputId, field (unlockOutput account outputId) = field account) :
    field (commitWrites hashing input account) =
      field (retainAddressesWithBalance input.options input.addressesWithBalance account) := by
  unfold commitWrites
  rw [foldl_field field _ unlock, foldl_field field _ spent, foldl_field field _ update,
    foldl_field field _ insert]

@[simp] theorem commitWrites_internalAddresses :
    (commitWrites hashing input account).internalAddresses = account.internalAddresses :=
  commitWrites_field hashing input account Account.internalAddresses (fun _ _ => rfl) (fun _ _ => rfl)
    (fun _ _ => rfl) (fun _ _ => rfl)

@[simp] theorem commitWrites_publicAddresses :
    (commitWrites hashing input account).publicAddresses = account.publicAddresses :=
  commitWrites_field hashing input account Account.publicAddresses (fun _ _ => rfl) (fun _ _ => rfl)
    (fun _ _ => rfl) (fun _ _ => rfl)

theorem commitWrites_addressesWithBalance :
    (commitWrites hashing input account).addressesWithBalance =
      account.addressesWithBalance.filter (·.keyIndex < input.options.addressStartIndex) ++
        input.addressesWithBalance :=
  commitWrites_field hashing input account Account.addressesWithBalance (fun _ _ => rfl)
    (fun _ _ => rfl) (fun _ _ => rfl) (fun _ _ => rfl)

theorem commitWrites_outputs (k : OutputId) :
    (commitWrites hashing input account).outputs k =
      spentIf (k ∈ input.transactionSyncResult.outputIdsToUnlock)
        (spentIf (k ∈ input.transactionSyncResult.spentOutputIds)
          ((input.outputs.reverse.find? (·.outputId = k)).or (account.outputs k))) := by
  unfold commitWrites
  rw [outputs_foldl_markSpent _ _ (fun _ _ => rfl), outputs_foldl_markSpent _ _ (fun _ _ => rfl),
    foldl_field _ _ (updateTransaction_outputs hashing · ·), outputs_foldl_insertOutput]
  rfl

theorem commitWrites_unspentOutputs (k : OutputId) :
    (commitWrites hashing input account).unspentOutputs k =
      if k ∈ input.transactionSyncResult.spentOutputIds then none
      else (input.outputs.reverse.find? fun output => output.outputId = k ∧ output.isSpent = false).or
        (account.unspentOutputs k) := by
  unfold commitWrites
  rw [foldl_field _ _ (unlockOutput_unspentOutputs · ·), unspentOutputs_foldl_unlockSpentOutput,
    foldl_field _ _ (updateTransaction_unspentOutputs hashing · ·), unspentOutputs_foldl_insertOutput]
  rfl

theorem commitWrites_transactions (k : TransactionId) :
    (commitWrites hashing input account).transactions k =
      (input.transactionSyncResult.updatedTransactions.reverse.find?
        (hashing.transactionId ·.payload = k)).or (account.transactions k) := by
  unfold commitWrites
  rw [foldl_field _ _ (unlockOutput_transactions · ·),
    foldl_field _ _ (unlockSpentOutput_transactions · ·),
    transactions_foldl_updateTransaction, foldl_field _ _ (insertOutput_transactions · ·)]
  rfl

theorem mem_commitWrites_pendingTransactions (k : TransactionId) :
    k ∈ (commitWrites hashing input account).pendingTransactions ↔
      k ∈ account.pendingTransactions ∧
        ∀ transaction ∈ input.transactionSyncResult.updatedTransactions,
        hashing.transactionId transaction.payload = k → transaction.inclusionState = .pending := by
  unfold commitWrites
  rw [foldl_field _ _ (unlockOutput_pendingTransactions · ·),
    foldl_field _ _ (unlockSpentOutput_pendingTransactions · ·), mem_pendingTransactions_foldl,
    foldl_field _ _ (insertOutput_pendingTransactions · ·)]
  rfl

/-- What the writes of a commit leave, entry by entry, written without the loops: at each id the
newest fetched record over the old entry, spent where an unlock list names the id; the sets lose
the ids that the unlock lists name, or that an update confirms or rejects. -/
def commitSpec : Account where
  internalAddresses := account.internalAddresses
  publicAddresses := account.publicAddresses
  addressesWithBalance :=
    account.addressesWithBalance.filter (·.keyIndex < input.options.addressStartIndex) ++
      input.addressesWithBalance
  outputs k := spentIf (k ∈ input.transactionSyncResult.outputIdsToUnlock)
    (spentIf (k ∈ input.transactionSyncResult.spentOutputIds)
      ((input.outputs.reverse.find? (·.outputId = k)).or (account.outputs k)))
  unspentOutputs k := if k ∈ input.transactionSyncResult.spentOutputIds then none
    else (input.outputs.reverse.find? fun output => output.outputId = k ∧ output.isSpent = false).or
      (account.unspentOutputs k)
  lockedOutputs := account.lockedOutputs.filter fun k =>
    k ∉ input.transactionSyncResult.spentOutputIds ∧ k ∉ input.transactionSyncResult.outputIdsToUnlock
  transactions k := (input.transactionSyncResult.updatedTransactions.reverse.find?
    (hashing.transactionId ·.payload = k)).or (account.transactions k)
  pendingTransactions := account.pendingTransactions.filter fun k =>
    ∀ transaction ∈ input.transactionSyncResult.updatedTransactions,
      hashing.transactionId transaction.payload = k → transaction.inclusionState = .pending

theorem commitWrites_eq_commitSpec :
    commitWrites hashing input account = commitSpec hashing input account :=
  Account.ext (commitWrites_internalAddresses ..) (commitWrites_publicAddresses ..)
    (commitWrites_addressesWithBalance ..) (funext (commitWrites_outputs hashing input account))
    (funext (commitWrites_unspentOutputs hashing input account))
    (Finset.ext fun k => by simp [commitSpec, commitWrites_lockedOutputs, mem_foldl_erase, and_assoc])
    (funext (commitWrites_transactions hashing input account))
    (Finset.ext fun k => by rw [mem_commitWrites_pendingTransactions]; simp [commitSpec])

theorem commitSpec_commitSpec
    (fresh : ∀ address ∈ input.addressesWithBalance, input.options.addressStartIndex ≤ address.keyIndex) :
    commitSpec hashing input (commitSpec hashing input account) = commitSpec hashing input account := by
  have above : input.addressesWithBalance.filter (·.keyIndex < input.options.addressStartIndex) = [] :=
    List.filter_eq_nil_iff.mpr fun address member => by simpa using fresh address member
  apply Account.ext
  · rfl
  · rfl
  · simp [commitSpec, List.filter_append, List.filter_filter, above]
  · funext k
    simp only [commitSpec]
    cases input.outputs.reverse.find? (·.outputId = k)
    · exact spentIf_spentIf _ _ _
    · rfl
  · funext k
    simp only [commitSpec]
    split <;> simp only [or_or_self]
  · ext k
    simp only [commitSpec, Finset.mem_filter]
    tauto
  · funext k
    exact or_or_self _ _
  · ext k
    simp only [commitSpec, Finset.mem_filter]
    tauto

end Writes

/-! ## The whole commit -/

theorem AccountAddress.markMatched_markMatched (a : AccountAddress) (synced : List AddressWithBalance) :
    (a.markMatched synced).markMatched synced = a.markMatched synced := by
  rw [AccountAddress.markMatched_append]
  simp [AccountAddress.markMatched, List.any_append]

theorem markSynced_markSynced (synced : List AddressWithBalance) (account : Account) :
    markSynced synced (markSynced synced account) = markSynced synced account := by
  simp [markSynced, Function.comp_def, AccountAddress.markMatched_markMatched]

theorem markSynced_commitSpec (synced : List AddressWithBalance) (hashing : Hashing)
    (input : CommitInput) (account : Account) :
    markSynced synced (commitSpec hashing input account) =
      commitSpec hashing input (markSynced synced account) := rfl

theorem HalvesSorted.commitWrites {account : Account} (sorted : HalvesSorted account)
    (hashing : Hashing) (input : CommitInput) : HalvesSorted (commitWrites hashing input account) := by
  obtain ⟨internalSorted, publicSorted, internalFlag, publicFlag⟩ := sorted
  exact ⟨by simpa using internalSorted, by simpa using publicSorted, by simpa using internalFlag,
    by simpa using publicFlag⟩

theorem found_commitWrites (hashing : Hashing) (input : CommitInput) (account : Account)
    (address : AddressWithBalance) :
    Found (commitWrites hashing input account) address = Found account address := by
  simp [Found]

theorem updateAccount_idempotent {hashing : Hashing} {storage : Account → Except Error Unit}
    {input : CommitInput} {account after : Account} (sorted : HalvesSorted account)
    (fresh : ∀ address ∈ input.addressesWithBalance, input.options.addressStartIndex ≤ address.keyIndex)
    (succeeded : updateAccount hashing storage input account = .ok () after) :
    updateAccount hashing storage input after = .ok () after := by
  obtain ⟨_, _, _, ⟨⟩⟩ | ⟨marked, marking, ⟨saved, ⟨⟩⟩ | ⟨_, _, ⟨⟩⟩⟩ :=
    updateAccount_cases succeeded
  have all : ∀ address ∈ input.addressesWithBalance, Found account address := by
    by_contra missing
    obtain ⟨_, failed⟩ := markUsed_missing _ sorted (by simpa using missing)
    rw [marking] at failed
    cases failed
  rw [markUsed_all_found _ sorted all] at marking
  cases marking
  have markedSorted := (sorted.markSynced input.addressesWithBalance).commitWrites hashing input
  rw [updateAccount_eq, markUsed_all_found _ markedSorted fun address member => by
    rw [found_commitWrites, found_markSynced]; exact all address member]
  dsimp only
  simp only [commitWrites_eq_commitSpec] at saved ⊢
  rw [markSynced_commitSpec, markSynced_markSynced, commitSpec_commitSpec _ _ _ fresh]
  unfold saveAccount
  rw [saved]

def resyncInput : CommitInput :=
  commitOf [⟨"a0", 0, true, 10, [firstOutputId]⟩] [firstOutput false] ⟨[], [], []⟩

theorem updateAccount_idempotent_sample :
    HalvesSorted (sampleAccount false) ∧
      (∀ address ∈ resyncInput.addressesWithBalance,
        resyncInput.options.addressStartIndex ≤ address.keyIndex) ∧
      ∃ after, updateAccount zeroHashing acceptingStorage resyncInput (sampleAccount false) = .ok () after ∧
        updateAccount zeroHashing acceptingStorage resyncInput after = .ok () after := by
  have ran : updateAccount zeroHashing acceptingStorage resyncInput (sampleAccount false) = .ok () _ := rfl
  exact ⟨sampleAccount_halvesSorted, by decide, _, ran,
    updateAccount_idempotent sampleAccount_halvesSorted (by decide) ran⟩

/-! ## The address halves over syncs -/

/-- `after` has the address halves of `before`, in order, with some more `used` flags set. -/
def AddressesKept (before after : Account) : Prop :=
  UsedMarked before.internalAddresses after.internalAddresses ∧
    UsedMarked before.publicAddresses after.publicAddresses

theorem AddressesKept.trans {a b c : Account} (first : AddressesKept a b) (second : AddressesKept b c) :
    AddressesKept a c :=
  ⟨first.1.trans second.1, first.2.trans second.2⟩

theorem updateAccount_addressesKept (hashing : Hashing) (storage : Account → Except Error Unit)
    (input : CommitInput) (account : Account) :
    AddressesKept account (resultAccount (updateAccount hashing storage input account)) := by
  obtain ⟨-, internal, public, -⟩ := markUsed_state input.addressesWithBalance account
  rw [resultAccount_updateAccount]
  revert internal public
  cases markUsed input.addressesWithBalance account with
  | ok _ marked => exact fun internal public => ⟨by simpa using internal, by simpa using public⟩
  | error _ marked => exact fun internal public => ⟨internal, public⟩

theorem syncRun_addressesKept {minSyncInterval : Nat} {hashing : Hashing}
    {storage : Account → Except Error Unit} :
    ∀ (actions : List SyncAction) (s s' : SyncState),
      syncRun minSyncInterval hashing storage actions s = some s' → AddressesKept s.account s'.account
  | [], _, _, ran => Option.some.inj ran ▸ ⟨.refl _, .refl _⟩
  | _ :: actions, s, _, ran => by
    obtain ⟨t, stepped, rest⟩ := syncRun_cons minSyncInterval hashing storage ran
    refine AddressesKept.trans ?_ (syncRun_addressesKept actions t _ rest)
    rcases syncStep_account minSyncInterval hashing storage stepped with
      same | ⟨input, committed⟩ | ⟨_, consolidation, -, -, submitted⟩
    · exact same ▸ ⟨.refl _, .refl _⟩
    · exact committed ▸ updateAccount_addressesKept hashing storage input s.account
    · exact submitted ▸ ⟨.refl _, .refl _⟩

theorem syncRun_addressesKept_staleReading :
    ∃ s', syncRun 5000 zeroHashing acceptingStorage staleReadingTrace twoCallsStart = some s' ∧
      AddressesKept twoCallsStart.account s'.account := by
  have ran : syncRun 5000 zeroHashing acceptingStorage staleReadingTrace twoCallsStart = some _ := rfl
  exact ⟨_, ran, syncRun_addressesKept _ _ _ ran⟩

/-! ## The history over syncs -/

def submitted : List SyncAction → List Consolidation
  | [] => []
  | .consolidate _ consolidation :: actions => consolidation :: submitted actions
  | _ :: actions => submitted actions

theorem submitted_subset_cons (action : SyncAction) (actions : List SyncAction) :
    submitted actions ⊆ submitted (action :: actions) := by
  cases action <;> simp [submitted]

/-- `after` records every output and transaction that `before` records; an output locked or a
transaction pending in `after` and not in `before` is an input or the id of a transaction of
`consolidations`. -/
structure HistoryKept (hashing : Hashing) (consolidations : List Consolidation)
    (before after : Account) : Prop where
  outputs_kept : ∀ outputId, (before.outputs outputId).isSome → (after.outputs outputId).isSome
  transactions_kept : ∀ transactionId,
    (before.transactions transactionId).isSome → (after.transactions transactionId).isSome
  locked_from : ∀ outputId ∈ after.lockedOutputs, outputId ∈ before.lockedOutputs ∨
    ∃ consolidation ∈ consolidations, outputId ∈ consolidation.inputs
  pending_from : ∀ transactionId ∈ after.pendingTransactions, transactionId ∈ before.pendingTransactions ∨
    ∃ consolidation ∈ consolidations, hashing.transactionId consolidation.transaction.payload = transactionId

section History

variable {hashing : Hashing} {consolidations : List Consolidation}

theorem HistoryKept.refl (account : Account) : HistoryKept hashing consolidations account account :=
  ⟨fun _ => id, fun _ => id, fun _ locked => .inl locked, fun _ pending => .inl pending⟩

theorem HistoryKept.trans {a b c : Account} (first : HistoryKept hashing consolidations a b)
    (second : HistoryKept hashing consolidations b c) : HistoryKept hashing consolidations a c :=
  ⟨fun k h => second.1 k (first.1 k h), fun k h => second.2 k (first.2 k h),
    fun k locked => (second.3 k locked).elim (first.3 k) .inr,
    fun k pending => (second.4 k pending).elim (first.4 k) .inr⟩

theorem HistoryKept.mono {before after : Account} {more : List Consolidation}
    (kept : HistoryKept hashing consolidations before after) (sub : consolidations ⊆ more) :
    HistoryKept hashing more before after :=
  ⟨kept.1, kept.2, fun k locked => (kept.3 k locked).imp_right fun ⟨c, member, input⟩ => ⟨c, sub member, input⟩,
    fun k pending => (kept.4 k pending).imp_right fun ⟨c, member, same⟩ => ⟨c, sub member, same⟩⟩

end History

theorem commitWrites_historyKept (hashing : Hashing) (consolidations : List Consolidation)
    (input : CommitInput) (account : Account) :
    HistoryKept hashing consolidations account (commitWrites hashing input account) := by
  rw [commitWrites_eq_commitSpec]
  exact ⟨fun _ recorded => by simp [commitSpec, recorded], fun _ recorded => by simp [commitSpec, recorded],
    fun _ locked => .inl (Finset.mem_filter.mp locked).1, fun _ pending => .inl (Finset.mem_filter.mp pending).1⟩

theorem submitTransaction_historyKept (hashing : Hashing) (account : Account)
    (consolidation : Consolidation) :
    HistoryKept hashing [consolidation] account (submitTransaction hashing account consolidation) := by
  refine ⟨fun _ recorded => recorded, fun k recorded => ?_, fun k locked => ?_, fun k pending => ?_⟩
  · by_cases same : k = hashing.transactionId consolidation.transaction.payload
    · simp [submitTransaction, same]
    · simpa [submitTransaction, same] using recorded
  · simp only [submitTransaction, Finset.mem_union, List.mem_toFinset] at locked
    exact locked.imp_right fun input => ⟨consolidation, List.mem_singleton_self _, input⟩
  · simp only [submitTransaction, Finset.mem_insert] at pending
    exact pending.symm.imp_right fun same => ⟨consolidation, List.mem_singleton_self _, same.symm⟩

theorem syncRun_historyKept {minSyncInterval : Nat} {hashing : Hashing}
    {storage : Account → Except Error Unit} :
    ∀ (actions : List SyncAction) (s s' : SyncState),
      syncRun minSyncInterval hashing storage actions s = some s' →
        HistoryKept hashing (submitted actions) s.account s'.account
  | [], _, _, ran => Option.some.inj ran ▸ .refl _
  | action :: actions, s, _, ran => by
    obtain ⟨t, stepped, rest⟩ := syncRun_cons minSyncInterval hashing storage ran
    refine HistoryKept.trans ?_ ((syncRun_historyKept actions t _ rest).mono (submitted_subset_cons _ _))
    rcases syncStep_account minSyncInterval hashing storage stepped with
      same | ⟨input, committed⟩ | ⟨call, consolidation, rfl, -, submittedOne⟩
    · exact same ▸ .refl _
    · exact committed ▸ updateAccount_invariant (HistoryKept hashing _ s.account)
        (fun _ _ _ kept => ⟨kept.1, kept.2, kept.3, kept.4⟩)
        (fun _ kept => kept.trans (commitWrites_historyKept hashing _ input _)) (.refl _)
    · exact submittedOne ▸ (submitTransaction_historyKept hashing s.account consolidation).mono
        fun _ member => by simp [submitted, List.mem_singleton.mp member]

theorem syncRun_historyKept_consolidating :
    ∃ s', syncRun 5000 zeroHashing acceptingStorage consolidatingTrace twoCallsStart = some s' ∧
      HistoryKept zeroHashing (submitted consolidatingTrace) twoCallsStart.account s'.account := by
  have ran : syncRun 5000 zeroHashing acceptingStorage consolidatingTrace twoCallsStart = some _ := rfl
  exact ⟨_, ran, syncRun_historyKept _ _ _ ran⟩

end IotaSdk.Wallet
