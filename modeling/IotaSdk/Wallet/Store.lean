import IotaSdk.Wallet.Commit

/-!
# A well-formed account

`update_account` inserts each output under `output.output_id` and each transaction under
`transaction.payload.id()`, copies into `unspent_outputs` only outputs whose own `is_spent` is
false and that it also writes to `outputs`, unlocks an output whenever it removes it from
`unspent_outputs`, and drops a transaction from `pending_transactions` when it records it as
confirmed or conflicting; consolidation locks only unspent outputs and records its transactions
as pending. So every account that the syncs reach from a well-formed account is well formed
(`StoreWellFormed`), whether their commits return or stop at an error. The copy in
`unspent_outputs` is not checked against the record in `outputs`: the second unlock loop marks
the record spent and keeps the copy.

* `syncRun_storeWellFormed`: over every interleaving of `sync_account` calls, whose commits
  succeed or fail.
-/

namespace IotaSdk.Wallet

def Keyed (outputs : OutputId → Option OutputData) : Prop :=
  ∀ outputId output, outputs outputId = some output → output.outputId = outputId

theorem Keyed.update {outputs : OutputId → Option OutputData} (keyed : Keyed outputs)
    (output : OutputData) : Keyed (Function.update outputs output.outputId (some output)) := by
  intro outputId stored found
  by_cases same : outputId = output.outputId
  · subst same
    simp only [Function.update_same, Option.some.injEq] at found
    rw [← found]
  · rw [Function.update_noteq same] at found
    exact keyed _ _ found

variable (hashing : Hashing)

/-- The account's maps hold each record under its own id; each copy in `unspent_outputs` has its
own `is_spent` false and an id that `outputs` records, and `unspent_outputs` holds every locked
output; every pending transaction is recorded and neither confirmed nor conflicting. -/
structure StoreWellFormed (account : Account) : Prop where
  outputs_keyed : Keyed account.outputs
  unspent_keyed : Keyed account.unspentOutputs
  unspent_recorded : ∀ outputId output, account.unspentOutputs outputId = some output →
    output.isSpent = false ∧ (account.outputs outputId).isSome
  transactions_keyed : ∀ transactionId transaction,
    account.transactions transactionId = some transaction →
      hashing.transactionId transaction.payload = transactionId
  locked_unspent : LockedUnspent account
  pending_consistent : PendingConsistent account

theorem commitSpec_storeWellFormed (input : CommitInput) {account : Account}
    (wellFormed : StoreWellFormed hashing account) :
    StoreWellFormed hashing (commitSpec hashing input account) := by
  have unspent (outputId : OutputId) (kept : outputId ∉ input.transactionSyncResult.spentOutputIds) :
      (commitSpec hashing input account).unspentOutputs outputId =
        (input.outputs.reverse.find? fun output => output.outputId = outputId ∧ output.isSpent = false).or
          (account.unspentOutputs outputId) := if_neg kept
  refine ⟨fun outputId output found => ?outputs_keyed, fun outputId output found => ?unspent_keyed,
    fun outputId output found => ?unspent_recorded,
    fun transactionId transaction found => ?transactions_keyed, fun outputId locked => ?locked_unspent,
    fun transactionId pending => ?pending_consistent⟩
  case outputs_keyed =>
    obtain ⟨marked, found, markedId⟩ := outputId_of_spentIf found
    obtain ⟨stored, found, storedId⟩ := outputId_of_spentIf found
    rw [markedId, storedId]
    rcases Option.or_eq_some.mp found with fetched | ⟨-, old⟩
    exacts [by simpa using List.find?_some fetched, wellFormed.outputs_keyed _ _ old]
  case unspent_keyed =>
    by_cases spent : outputId ∈ input.transactionSyncResult.spentOutputIds
    · simp [commitSpec, spent] at found
    rcases Option.or_eq_some.mp (unspent outputId spent ▸ found) with fetched | ⟨-, old⟩
    · have holds : output.outputId = outputId ∧ output.isSpent = false := by
        simpa using List.find?_some fetched
      exact holds.1
    · exact wellFormed.unspent_keyed _ _ old
  case unspent_recorded =>
    by_cases spent : outputId ∈ input.transactionSyncResult.spentOutputIds
    · simp [commitSpec, spent] at found
    rcases Option.or_eq_some.mp (unspent outputId spent ▸ found) with fetched | ⟨-, old⟩
    · have holds : output.outputId = outputId ∧ output.isSpent = false := by
        simpa using List.find?_some fetched
      have present : ∃ fetched ∈ input.outputs, fetched.outputId = outputId :=
        ⟨output, List.mem_reverse.mp (List.mem_of_find?_eq_some fetched), holds.1⟩
      exact ⟨holds.2, by simp [commitSpec, present]⟩
    · obtain ⟨unspentOld, recorded⟩ := wellFormed.unspent_recorded _ _ old
      exact ⟨unspentOld, by simp [commitSpec, recorded]⟩
  case transactions_keyed =>
    rcases Option.or_eq_some.mp found with fetched | ⟨-, old⟩
    exacts [by simpa using List.find?_some fetched, wellFormed.transactions_keyed _ _ old]
  case locked_unspent =>
    simp only [commitSpec, Finset.mem_filter] at locked
    rw [unspent outputId locked.2.1, Option.isSome_or, wellFormed.locked_unspent _ locked.1,
      Bool.or_true]
  case pending_consistent =>
    simp only [commitSpec, Finset.mem_filter] at pending
    cases fetched : input.transactionSyncResult.updatedTransactions.reverse.find?
        (hashing.transactionId ·.payload = transactionId) with
    | some transaction =>
      have stays := pending.2 transaction (List.mem_reverse.mp (List.mem_of_find?_eq_some fetched))
        (by simpa using List.find?_some fetched)
      exact ⟨transaction, by simp [commitSpec, fetched], by simp [stays], by simp [stays]⟩
    | none =>
      obtain ⟨transaction, old, state⟩ := wellFormed.pending_consistent _ pending.1
      exact ⟨transaction, by simp [commitSpec, fetched, old], state⟩

theorem StoreWellFormed.addresses {account : Account} (wellFormed : StoreWellFormed hashing account)
    (internal public : List AccountAddress) (withBalance : List AddressWithBalance) :
    StoreWellFormed hashing { account with
      internalAddresses := internal, publicAddresses := public, addressesWithBalance := withBalance } :=
  ⟨wellFormed.1, wellFormed.2, wellFormed.3, wellFormed.4, wellFormed.5, wellFormed.6⟩

theorem commitWrites_storeWellFormed (input : CommitInput) {account : Account}
    (wellFormed : StoreWellFormed hashing account) :
    StoreWellFormed hashing (commitWrites hashing input account) := by
  rw [commitWrites_eq_commitSpec]
  exact commitSpec_storeWellFormed hashing input wellFormed

theorem submitTransaction_storeWellFormed (consolidation : Consolidation) {account : Account}
    (unspent : ∀ outputId ∈ consolidation.inputs, (account.unspentOutputs outputId).isSome)
    (wellFormed : StoreWellFormed hashing account) :
    StoreWellFormed hashing (submitTransaction hashing account consolidation) := by
  refine ⟨wellFormed.1, wellFormed.2, wellFormed.3, fun transactionId transaction found => ?_,
    fun outputId locked => ?_, fun transactionId pending => ?_⟩
  · by_cases same : transactionId = hashing.transactionId consolidation.transaction.payload
    · simp only [submitTransaction, same, Function.update_same, Option.some.injEq] at found
      rw [same, ← found]
    · simp only [submitTransaction, Function.update_noteq same] at found
      exact wellFormed.transactions_keyed _ _ found
  · simp only [submitTransaction, Finset.mem_union, List.mem_toFinset] at locked
    exact locked.elim (wellFormed.locked_unspent _) (unspent _)
  · by_cases same : transactionId = hashing.transactionId consolidation.transaction.payload
    · exact ⟨{ consolidation.transaction with inclusionState := .pending },
        by simp [submitTransaction, same], nofun, nofun⟩
    · simp only [submitTransaction, Finset.mem_insert, same, false_or] at pending
      simpa [submitTransaction, same] using wellFormed.pending_consistent _ pending

theorem sampleAccount_storeWellFormed : StoreWellFormed zeroHashing (sampleAccount false) := by
  have empty : Keyed fun _ => none := nofun
  refine ⟨empty.update (firstOutput false), empty.update (firstOutput false), ?_, ?_,
    sampleAccount_lockedUnspent, sampleAccount_pendingConsistent false⟩
  · intro outputId output found
    by_cases same : outputId = firstOutputId
    · subst same
      simp only [sampleAccount, Bool.false_eq_true, if_false, Function.update_same,
        Option.some.injEq] at found
      subst found
      exact ⟨rfl, rfl⟩
    · simp [sampleAccount, same] at found
  · intro transactionId transaction found
    by_cases same : transactionId = zeroTransactionId
    · exact same.symm
    · simp [sampleAccount, same] at found

theorem syncRun_storeWellFormed {minSyncInterval : Nat} {storage : Account → Except Error Unit} :
    ∀ (actions : List SyncAction) (s s' : SyncState),
      syncRun minSyncInterval hashing storage actions s = some s' →
        StoreWellFormed hashing s.account → StoreWellFormed hashing s'.account
  | [], _, _, ran, wellFormed => Option.some.inj ran ▸ wellFormed
  | _ :: actions, _, _, ran, wellFormed => by
    obtain ⟨t, stepped, rest⟩ := syncRun_cons minSyncInterval hashing storage ran
    refine syncRun_storeWellFormed actions t _ rest ?_
    rcases syncStep_account minSyncInterval hashing storage stepped with
      same | ⟨input, committed⟩ | ⟨_, consolidation, -, unspent, submitted⟩
    · exact same ▸ wellFormed
    · exact committed ▸ updateAccount_invariant _
        (fun account internal public h => h.addresses hashing internal public account.addressesWithBalance)
        (fun _ => commitWrites_storeWellFormed hashing input) wellFormed
    · exact submitted ▸ submitTransaction_storeWellFormed hashing consolidation unspent wellFormed

theorem syncRun_storeWellFormed_consolidating :
    StoreWellFormed zeroHashing twoCallsStart.account ∧ ∃ s', syncRun 5000 zeroHashing
      acceptingStorage consolidatingTrace twoCallsStart = some s' ∧
      StoreWellFormed zeroHashing s'.account := by
  have ran : syncRun 5000 zeroHashing acceptingStorage consolidatingTrace twoCallsStart = some _ := rfl
  exact ⟨sampleAccount_storeWellFormed, _, ran,
    syncRun_storeWellFormed zeroHashing _ _ _ ran sampleAccount_storeWellFormed⟩

end IotaSdk.Wallet
