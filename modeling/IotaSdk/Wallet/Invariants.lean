import IotaSdk.Wallet.Update

/-!
# What a commit keeps

Each pass of `update_account` writes a few fields of the account and leaves the others; the
lemmas below say which. From them:

* `updateAccount_pending_consistent`: pending transactions stay known and not final.
* `updateAccount_unlocks`: locked outputs stay unspent, and the commit unlocks every spent or
  conflicting output.
* `commitRun_spent_stays_spent`: over any run of commits, a spent output stays spent until a
  commit fetches it as unspent.
* `updateAccount_error_keeps_marks`: an error does not roll back the flags set before it.
-/

namespace IotaSdk.Wallet

/-- The account after a commit, whether it returned `Ok` or an error. -/
def resultAccount : EStateM.Result Error Account Unit → Account
  | .ok () account => account
  | .error _ account => account

def commitRun (hashing : Hashing) (storage : Account → Except Error Unit) :
    List CommitInput → Account → Account
  | [], account => account
  | input :: inputs, account =>
    commitRun hashing storage inputs (resultAccount (updateAccount hashing storage input account))

/-! ## Accounts to run on -/

def zeroTransactionId : TransactionId := ⟨List.replicate 32 0, List.length_replicate 32 0⟩

def zeroBlockId : BlockId := ⟨List.replicate 32 0, List.length_replicate 32 0⟩

def zeroHashing : Hashing := ⟨fun _ => zeroBlockId, fun _ => zeroTransactionId⟩

def acceptingStorage : Account → Except Error Unit := fun _ => .ok ()

def firstOutputId : OutputId := ⟨zeroTransactionId, 0⟩

def firstOutput (isSpent : Bool) : OutputData := ⟨firstOutputId, 10, isSpent⟩

def emptyPayload : TransactionPayload := ⟨⟨0, [], []⟩⟩

def sampleAccount (isSpent : Bool) : Account where
  internalAddresses := [⟨"a0", 0, true, false⟩]
  publicAddresses := []
  addressesWithBalance := []
  outputs := Function.update (fun _ => none) firstOutputId (some (firstOutput isSpent))
  unspentOutputs := if isSpent then fun _ => none
    else Function.update (fun _ => none) firstOutputId (some (firstOutput false))
  lockedOutputs := if isSpent then ∅ else {firstOutputId}
  transactions := Function.update (fun _ => none) zeroTransactionId (some ⟨emptyPayload, .pending⟩)
  pendingTransactions := {zeroTransactionId}

def commitOf (addressesWithBalance : List AddressWithBalance) (outputs : List OutputData)
    (transactionSyncResult : TransactionSyncResult) : CommitInput :=
  ⟨addressesWithBalance, outputs, transactionSyncResult, ⟨0, false⟩⟩

theorem foldl_invariant_of_mem {β : Type} (P : Account → Prop) (f : Account → β → Account) :
    ∀ (l : List β), (∀ account, ∀ b ∈ l, P account → P (f account b)) →
      ∀ account, P account → P (l.foldl f account)
  | [], _, _, h => h
  | b :: l, step, account, h =>
    foldl_invariant_of_mem P f l (fun a c hc => step a c (List.mem_cons_of_mem b hc)) _
      (step account b (List.mem_cons_self b l) h)

theorem foldl_invariant {β : Type} (P : Account → Prop) (f : Account → β → Account)
    (step : ∀ account b, P account → P (f account b)) (l : List β) (account : Account)
    (holds : P account) : P (l.foldl f account) :=
  foldl_invariant_of_mem P f l (fun a b _ => step a b) account holds

theorem foldl_field {β γ : Type} (field : Account → γ) (f : Account → β → Account)
    (step : ∀ account b, field (f account b) = field account) (l : List β) (account : Account) :
    field (l.foldl f account) = field account :=
  foldl_invariant (field · = field account) f (fun a b h => (step a b).trans h) l account rfl

/-! ## The marking of used addresses -/

def UsedMarked (before after : List AccountAddress) : Prop :=
  List.Forall₂ (fun a b => b = a ∨ b = { a with used := true }) before after

theorem UsedMarked.refl : ∀ addresses : List AccountAddress, UsedMarked addresses addresses
  | [] => .nil
  | _ :: addresses => .cons (.inl rfl) (UsedMarked.refl addresses)

theorem UsedMarked.trans {l₁ l₂ l₃ : List AccountAddress} (h₁ : UsedMarked l₁ l₂)
    (h₂ : UsedMarked l₂ l₃) : UsedMarked l₁ l₃ := by
  unfold UsedMarked at *
  induction h₁ generalizing l₃ with
  | nil => exact h₂
  | cons first _ ih =>
    cases h₂ with
    | cons second rest =>
      refine .cons ?_ (ih rest)
      rcases first with rfl | rfl <;> rcases second with rfl | rfl <;> simp

theorem usedMarked_modify : ∀ (addresses : List AccountAddress) (position : Nat),
    UsedMarked addresses (addresses.modify (fun a => { a with used := true }) position)
  | [], _ => by rw [List.modify_nil]; exact .nil
  | _ :: addresses, 0 => .cons (.inr rfl) (UsedMarked.refl addresses)
  | _ :: addresses, position + 1 => .cons (.inl rfl) (usedMarked_modify addresses position)

theorem markAddressUsed_marked {addresses marked : List AccountAddress}
    {address : AddressWithBalance} (h : markAddressUsed addresses address = .ok marked) :
    UsedMarked addresses marked := by
  unfold markAddressUsed at h
  split at h <;> cases h
  exact usedMarked_modify _ _

theorem markAddressUsed_error {addresses : List AccountAddress} {address : AddressWithBalance}
    {e : Error} (h : markAddressUsed addresses address = .error e) : e = .inputAddressNotFound := by
  unfold markAddressUsed at h
  split at h <;> cases h
  rfl

theorem markUsed_state : ∀ (addresses : List AddressWithBalance) (account : Account),
    let after := resultAccount (markUsed addresses account)
    after = { account with
      internalAddresses := after.internalAddresses, publicAddresses := after.publicAddresses } ∧
    UsedMarked account.internalAddresses after.internalAddresses ∧
    UsedMarked account.publicAddresses after.publicAddresses ∧
    ∀ e marked, markUsed addresses account = .error e marked → e = .inputAddressNotFound
  | [], account => ⟨rfl, .refl _, .refl _, fun _ _ h => nomatch h⟩
  | address :: rest, account => by
    simp only [markUsed]
    split <;> split
    · rename_i marked h
      obtain ⟨frame, internal, public, errors⟩ :=
        markUsed_state rest { account with internalAddresses := marked }
      exact ⟨frame, (markAddressUsed_marked h).trans internal, public, errors⟩
    · exact ⟨rfl, .refl _, .refl _, fun _ _ failed => by cases failed; exact markAddressUsed_error ‹_›⟩
    · rename_i marked h
      obtain ⟨frame, internal, public, errors⟩ :=
        markUsed_state rest { account with publicAddresses := marked }
      exact ⟨frame, internal, (markAddressUsed_marked h).trans public, errors⟩
    · exact ⟨rfl, .refl _, .refl _, fun _ _ failed => by cases failed; exact markAddressUsed_error ‹_›⟩

theorem resultAccount_saveAccount (storage : Account → Except Error Unit) (account : Account) :
    resultAccount (saveAccount storage account) = account := by
  unfold saveAccount
  cases storage account <;> rfl

theorem resultAccount_updateAccount (hashing : Hashing) (storage : Account → Except Error Unit)
    (input : CommitInput) (account : Account) :
    resultAccount (updateAccount hashing storage input account) =
      match markUsed input.addressesWithBalance account with
      | .ok () marked => commitWrites hashing input marked
      | .error _ marked => marked := by
  rw [updateAccount_eq]
  cases markUsed input.addressesWithBalance account with
  | ok _ marked => exact resultAccount_saveAccount _ _
  | error => rfl

theorem saveAccount_cases {storage : Account → Except Error Unit} {account : Account}
    {result : EStateM.Result Error Account Unit} (saved : saveAccount storage account = result) :
    (storage account = .ok () ∧ result = .ok () account) ∨
      ∃ e, storage account = .error e ∧ result = .error e account := by
  unfold saveAccount at saved
  cases h : storage account <;> simp [h] at saved <;> simp [← saved]

theorem updateAccount_cases {hashing : Hashing} {storage : Account → Except Error Unit}
    {input : CommitInput} {account : Account} {result : EStateM.Result Error Account Unit}
    (committed : updateAccount hashing storage input account = result) :
    (∃ e marked, markUsed input.addressesWithBalance account = .error e marked ∧
      result = .error e marked) ∨
    ∃ marked, markUsed input.addressesWithBalance account = .ok () marked ∧
      ((storage (commitWrites hashing input marked) = .ok () ∧
          result = .ok () (commitWrites hashing input marked)) ∨
        ∃ e, storage (commitWrites hashing input marked) = .error e ∧
          result = .error e (commitWrites hashing input marked)) := by
  rw [updateAccount_eq] at committed
  cases marking : markUsed input.addressesWithBalance account with
  | ok _ marked =>
    rw [marking] at committed
    exact .inr ⟨marked, rfl, saveAccount_cases committed⟩
  | error e marked =>
    rw [marking] at committed
    exact .inl ⟨e, marked, rfl, committed.symm⟩

theorem updateAccount_invariant (P : Account → Prop) {hashing : Hashing}
    {storage : Account → Except Error Unit} {input : CommitInput} {account : Account}
    (addresses : ∀ account internal public, P account →
      P { account with internalAddresses := internal, publicAddresses := public })
    (writes : ∀ account, P account → P (commitWrites hashing input account)) (holds : P account) :
    P (resultAccount (updateAccount hashing storage input account)) := by
  have marked : P (resultAccount (markUsed input.addressesWithBalance account)) :=
    (markUsed_state input.addressesWithBalance account).1 ▸ addresses _ _ _ holds
  rw [resultAccount_updateAccount]
  revert marked
  cases markUsed input.addressesWithBalance account with
  | ok _ marked => exact writes marked
  | error _ marked => exact id

/-! ## Fields each pass leaves -/

section Frames

variable (hashing : Hashing) (account : Account)

@[simp] theorem insertOutput_lockedOutputs (output : OutputData) :
    (insertOutput account output).lockedOutputs = account.lockedOutputs := rfl

@[simp] theorem insertOutput_transactions (output : OutputData) :
    (insertOutput account output).transactions = account.transactions := rfl

@[simp] theorem insertOutput_pendingTransactions (output : OutputData) :
    (insertOutput account output).pendingTransactions = account.pendingTransactions := rfl

@[simp] theorem updateTransaction_outputs (transaction : Transaction) :
    (updateTransaction hashing account transaction).outputs = account.outputs := rfl

@[simp] theorem updateTransaction_unspentOutputs (transaction : Transaction) :
    (updateTransaction hashing account transaction).unspentOutputs = account.unspentOutputs := rfl

@[simp] theorem updateTransaction_lockedOutputs (transaction : Transaction) :
    (updateTransaction hashing account transaction).lockedOutputs = account.lockedOutputs := rfl

@[simp] theorem unlockSpentOutput_transactions (outputId : OutputId) :
    (unlockSpentOutput account outputId).transactions = account.transactions := rfl

@[simp] theorem unlockSpentOutput_pendingTransactions (outputId : OutputId) :
    (unlockSpentOutput account outputId).pendingTransactions = account.pendingTransactions := rfl

@[simp] theorem unlockOutput_transactions (outputId : OutputId) :
    (unlockOutput account outputId).transactions = account.transactions := rfl

@[simp] theorem unlockOutput_pendingTransactions (outputId : OutputId) :
    (unlockOutput account outputId).pendingTransactions = account.pendingTransactions := rfl

@[simp] theorem unlockOutput_unspentOutputs (outputId : OutputId) :
    (unlockOutput account outputId).unspentOutputs = account.unspentOutputs := rfl

end Frames

/-! ## Pending transactions -/

/-- `pending_transactions ⊆ keys(transactions)`, and no pending transaction is `Confirmed` or
`Conflicting`. -/
def PendingConsistent (account : Account) : Prop :=
  ∀ transactionId ∈ account.pendingTransactions, ∃ transaction,
    account.transactions transactionId = some transaction ∧
      transaction.inclusionState ≠ .confirmed ∧ transaction.inclusionState ≠ .conflicting

theorem updateTransaction_pendingConsistent (hashing : Hashing) (account : Account)
    (transaction : Transaction) (consistent : PendingConsistent account) :
    PendingConsistent (updateTransaction hashing account transaction) := by
  intro transactionId pending
  simp only [updateTransaction] at pending ⊢
  by_cases updated : transactionId = hashing.transactionId transaction.payload
  · subst updated
    cases state : transaction.inclusionState <;> simp [state] at pending ⊢
  · rw [Function.update_noteq updated]
    refine consistent transactionId ?_
    split at pending <;> first | exact Finset.mem_of_mem_erase pending | exact pending

theorem commitWrites_pendingConsistent (hashing : Hashing) (input : CommitInput)
    (account : Account) (consistent : PendingConsistent account) :
    PendingConsistent (commitWrites hashing input account) := by
  have frame (a b : Account) (transactions : a.transactions = b.transactions)
      (pending : a.pendingTransactions = b.pendingTransactions) :
      PendingConsistent a → PendingConsistent b := by
    unfold PendingConsistent; rw [transactions, pending]; exact id
  unfold commitWrites
  refine frame _ _ (foldl_field _ _ (unlockOutput_transactions · ·) _ _).symm
    (foldl_field _ _ (unlockOutput_pendingTransactions · ·) _ _).symm ?_
  refine frame _ _ (foldl_field _ _ (unlockSpentOutput_transactions · ·) _ _).symm
    (foldl_field _ _ (unlockSpentOutput_pendingTransactions · ·) _ _).symm ?_
  refine foldl_invariant _ _ (fun a t => updateTransaction_pendingConsistent hashing a t) _ _ ?_
  exact frame _ _ (foldl_field _ _ (insertOutput_transactions · ·) _ _).symm
    (foldl_field _ _ (insertOutput_pendingTransactions · ·) _ _).symm consistent

theorem updateAccount_pending_consistent {hashing : Hashing}
    {storage : Account → Except Error Unit} {input : CommitInput} {account : Account}
    (consistent : PendingConsistent account) :
    PendingConsistent (resultAccount (updateAccount hashing storage input account)) :=
  updateAccount_invariant PendingConsistent (fun _ _ _ h => h)
    (commitWrites_pendingConsistent hashing input) consistent

theorem sampleAccount_pendingConsistent (isSpent : Bool) :
    PendingConsistent (sampleAccount isSpent) := by
  intro transactionId pending
  simp only [sampleAccount, Finset.mem_singleton] at pending
  subst pending
  exact ⟨⟨emptyPayload, .pending⟩, by simp [sampleAccount], by decide, by decide⟩

theorem updateAccount_pending_consistent_sample :
    PendingConsistent (sampleAccount false) ∧
      PendingConsistent (resultAccount (updateAccount zeroHashing acceptingStorage
        (commitOf [] [] ⟨[⟨emptyPayload, .pending⟩, ⟨emptyPayload, .confirmed⟩], [], []⟩)
        (sampleAccount false))) :=
  ⟨sampleAccount_pendingConsistent false,
    updateAccount_pending_consistent (sampleAccount_pendingConsistent false)⟩

/-! ## Locked outputs -/

/-- Every locked output is in `unspent_outputs`. -/
def LockedUnspent (account : Account) : Prop :=
  ∀ outputId ∈ account.lockedOutputs, (account.unspentOutputs outputId).isSome

theorem mem_foldl_erase {outputId : OutputId} :
    ∀ (l : List OutputId) (s : Finset OutputId),
      outputId ∈ l.foldl Finset.erase s ↔ outputId ∈ s ∧ outputId ∉ l
  | [], s => by simp
  | b :: l, s => by
    rw [List.foldl_cons, mem_foldl_erase l, Finset.mem_erase, List.mem_cons]
    tauto

theorem lockedOutputs_foldl (f : Account → OutputId → Account)
    (erases : ∀ account outputId, (f account outputId).lockedOutputs = account.lockedOutputs.erase outputId) :
    ∀ (l : List OutputId) (account : Account),
      (l.foldl f account).lockedOutputs = l.foldl Finset.erase account.lockedOutputs
  | [], _ => rfl
  | b :: l, account => by
    rw [List.foldl_cons, List.foldl_cons, lockedOutputs_foldl f erases l, erases]

theorem commitWrites_lockedOutputs (hashing : Hashing) (input : CommitInput) (account : Account) :
    (commitWrites hashing input account).lockedOutputs =
      input.transactionSyncResult.outputIdsToUnlock.foldl Finset.erase
        (input.transactionSyncResult.spentOutputIds.foldl Finset.erase account.lockedOutputs) := by
  unfold commitWrites
  rw [lockedOutputs_foldl _ (fun _ _ => rfl), lockedOutputs_foldl _ (fun _ _ => rfl),
    foldl_field _ _ (updateTransaction_lockedOutputs hashing · ·),
    foldl_field _ _ (insertOutput_lockedOutputs · ·)]
  rfl

theorem insertOutput_lockedUnspent (account : Account) (output : OutputData)
    (lockedUnspent : LockedUnspent account) : LockedUnspent (insertOutput account output) := by
  intro outputId locked
  have before := lockedUnspent outputId locked
  by_cases spent : output.isSpent
  · simpa [insertOutput, spent] using before
  · by_cases same : outputId = output.outputId
    · simp [insertOutput, spent, same]
    · simpa [insertOutput, spent, Function.update_noteq same] using before

theorem unlockSpentOutput_lockedUnspent (account : Account) (unlocked : OutputId)
    (lockedUnspent : LockedUnspent account) : LockedUnspent (unlockSpentOutput account unlocked) := by
  intro outputId locked
  obtain ⟨other, locked⟩ := Finset.mem_erase.mp locked
  simpa [unlockSpentOutput, Function.update_noteq other] using lockedUnspent outputId locked

theorem unlockOutput_lockedUnspent (account : Account) (unlocked : OutputId)
    (lockedUnspent : LockedUnspent account) : LockedUnspent (unlockOutput account unlocked) :=
  fun outputId locked => lockedUnspent outputId (Finset.mem_of_mem_erase locked)

theorem commitWrites_lockedUnspent (hashing : Hashing) (input : CommitInput) (account : Account)
    (lockedUnspent : LockedUnspent account) : LockedUnspent (commitWrites hashing input account) := by
  unfold commitWrites
  exact foldl_invariant _ _ unlockOutput_lockedUnspent _ _
    (foldl_invariant _ _ unlockSpentOutput_lockedUnspent _ _
      (foldl_invariant _ (updateTransaction hashing) (fun _ _ h => h) _ _
        (foldl_invariant _ _ insertOutput_lockedUnspent _ _ lockedUnspent)))

theorem updateAccount_unlocks {hashing : Hashing} {storage : Account → Except Error Unit}
    {input : CommitInput} {account after : Account} (lockedUnspent : LockedUnspent account)
    (succeeded : updateAccount hashing storage input account = .ok () after) :
    LockedUnspent after ∧
      ∀ outputId ∈ input.transactionSyncResult.spentOutputIds ++
        input.transactionSyncResult.outputIdsToUnlock, outputId ∉ after.lockedOutputs := by
  have kept : LockedUnspent (resultAccount (updateAccount hashing storage input account)) :=
    updateAccount_invariant LockedUnspent (fun _ _ _ h => h) (commitWrites_lockedUnspent hashing input)
      lockedUnspent
  rw [succeeded] at kept
  refine ⟨kept, fun outputId unlocked => ?_⟩
  rcases updateAccount_cases succeeded with ⟨_, _, _, ⟨⟩⟩ | ⟨marked, -, ⟨-, ⟨⟩⟩ | ⟨_, _, ⟨⟩⟩⟩
  rw [commitWrites_lockedOutputs, mem_foldl_erase, mem_foldl_erase]
  rw [List.mem_append] at unlocked
  tauto

theorem sampleAccount_lockedUnspent : LockedUnspent (sampleAccount false) := by
  intro outputId locked
  simp only [sampleAccount, Bool.false_eq_true, if_false, Finset.mem_singleton] at locked
  subst locked
  simp [sampleAccount]

theorem updateAccount_unlocks_sample :
    LockedUnspent (sampleAccount false) ∧
    updateAccount zeroHashing acceptingStorage (commitOf [] [] ⟨[], [firstOutputId], []⟩)
        (sampleAccount false) =
      .ok () (commitWrites zeroHashing (commitOf [] [] ⟨[], [firstOutputId], []⟩)
        (sampleAccount false)) ∧
    (LockedUnspent (commitWrites zeroHashing (commitOf [] [] ⟨[], [firstOutputId], []⟩)
        (sampleAccount false)) ∧
      ∀ outputId ∈ [firstOutputId] ++ [], outputId ∉ (commitWrites zeroHashing
        (commitOf [] [] ⟨[], [firstOutputId], []⟩) (sampleAccount false)).lockedOutputs) :=
  have committed : updateAccount zeroHashing acceptingStorage
      (commitOf [] [] ⟨[], [firstOutputId], []⟩) (sampleAccount false) =
      .ok () (commitWrites zeroHashing (commitOf [] [] ⟨[], [firstOutputId], []⟩)
        (sampleAccount false)) := rfl
  ⟨sampleAccount_lockedUnspent, committed, updateAccount_unlocks sampleAccount_lockedUnspent committed⟩

theorem updateAccount_unlocked_output_stays_unspent :
    updateAccount zeroHashing acceptingStorage (commitOf [] [] ⟨[], [], [firstOutputId]⟩)
        (sampleAccount false) =
      .ok () (commitWrites zeroHashing (commitOf [] [] ⟨[], [], [firstOutputId]⟩)
        (sampleAccount false)) ∧
    ((commitWrites zeroHashing (commitOf [] [] ⟨[], [], [firstOutputId]⟩)
        (sampleAccount false)).outputs firstOutputId).map (·.isSpent) = some true ∧
    ((commitWrites zeroHashing (commitOf [] [] ⟨[], [], [firstOutputId]⟩)
        (sampleAccount false)).unspentOutputs firstOutputId).isSome := by
  refine ⟨rfl, ?_, ?_⟩ <;> decide

/-! ## Spent outputs -/

def SpentIn (outputs : OutputId → Option OutputData) (outputId : OutputId) : Prop :=
  (outputs outputId).map (·.isSpent) = some true

theorem markSpent_spentIn {outputs : OutputId → Option OutputData} {outputId : OutputId}
    (unlocked : OutputId) (spent : SpentIn outputs outputId) : SpentIn (markSpent outputs unlocked) outputId := by
  unfold SpentIn markSpent at *
  by_cases same : outputId = unlocked
  · subst same
    cases h : outputs outputId <;> simp_all
  · rwa [Function.update_noteq same]

def StaysSpent (outputId : OutputId) (unspent : Option OutputData) (account : Account) : Prop :=
  SpentIn account.outputs outputId ∧
    (account.unspentOutputs outputId = none ∨ account.unspentOutputs outputId = unspent)

theorem commitWrites_staysSpent {hashing : Hashing} {input : CommitInput} {outputId : OutputId}
    {unspent : Option OutputData} {account : Account}
    (notRefetched : ∀ output ∈ input.outputs, output.outputId = outputId → output.isSpent = true)
    (holds : StaysSpent outputId unspent account) :
    StaysSpent outputId unspent (commitWrites hashing input account) := by
  have spentStep (a : Account) (b : OutputId) (h : StaysSpent outputId unspent a) :
      StaysSpent outputId unspent (unlockSpentOutput a b) := by
    refine ⟨markSpent_spentIn b h.1, ?_⟩
    by_cases same : outputId = b
    · simp [unlockSpentOutput, same]
    · simpa [unlockSpentOutput, Function.update_noteq same] using h.2
  have insertStep (a : Account) (output : OutputData) (fetched : output ∈ input.outputs)
      (h : StaysSpent outputId unspent a) : StaysSpent outputId unspent (insertOutput a output) := by
    by_cases same : output.outputId = outputId
    · have spent := notRefetched output fetched same
      have unspentSame : (insertOutput a output).unspentOutputs = a.unspentOutputs := if_pos spent
      exact ⟨by simp [SpentIn, insertOutput, ← same, spent], unspentSame ▸ h.2⟩
    · have unspentAt : (insertOutput a output).unspentOutputs outputId = a.unspentOutputs outputId := by
        unfold insertOutput
        split <;> simp [Function.update_noteq (Ne.symm same)]
      exact ⟨by simpa [SpentIn, insertOutput, Function.update_noteq (Ne.symm same)] using h.1,
        unspentAt ▸ h.2⟩
  unfold commitWrites
  exact foldl_invariant _ _ (fun a b h => ⟨markSpent_spentIn b h.1, h.2⟩) _ _
    (foldl_invariant _ _ spentStep _ _ (foldl_invariant _ (updateTransaction hashing)
      (fun a b h => h) _ _ (foldl_invariant_of_mem _ _ _ insertStep
        (retainAddressesWithBalance input.options input.addressesWithBalance account) holds)))

theorem commitRun_spent_stays_spent {hashing : Hashing} {storage : Account → Except Error Unit}
    {outputId : OutputId} :
    ∀ (inputs : List CommitInput) (account : Account),
      (account.outputs outputId).map (·.isSpent) = some true →
      (∀ input ∈ inputs, ∀ output ∈ input.outputs, output.outputId = outputId → output.isSpent = true) →
      ((commitRun hashing storage inputs account).outputs outputId).map (·.isSpent) = some true ∧
        ((commitRun hashing storage inputs account).unspentOutputs outputId = none ∨
          (commitRun hashing storage inputs account).unspentOutputs outputId =
            account.unspentOutputs outputId)
  | [], account, spent, _ => ⟨spent, .inr rfl⟩
  | input :: inputs, account, spent, notRefetched => by
    have first : StaysSpent outputId (account.unspentOutputs outputId)
        (resultAccount (updateAccount hashing storage input account)) :=
      updateAccount_invariant _ (fun _ _ _ h => h)
        (fun _ => commitWrites_staysSpent (notRefetched input (List.mem_cons_self _ _)))
        ⟨spent, .inr rfl⟩
    obtain ⟨spentAfter, unspentAfter⟩ := commitRun_spent_stays_spent inputs _ first.1
      fun i member => notRefetched i (List.mem_cons_of_mem _ member)
    refine ⟨spentAfter, ?_⟩
    rcases unspentAfter with none | same
    · exact .inl none
    · rcases first.2 with none' | same'
      · exact .inl (same.trans none')
      · exact .inr (same.trans same')

theorem commitRun_spent_stays_spent_sample :
    ((sampleAccount true).outputs firstOutputId).map (·.isSpent) = some true ∧
    (∀ input ∈ [commitOf [] [] ⟨[], [], [firstOutputId]⟩, commitOf [] [firstOutput true] ⟨[], [], []⟩],
      ∀ output ∈ input.outputs, output.outputId = firstOutputId → output.isSpent = true) ∧
    (((commitRun zeroHashing acceptingStorage
        [commitOf [] [] ⟨[], [], [firstOutputId]⟩, commitOf [] [firstOutput true] ⟨[], [], []⟩]
        (sampleAccount true)).outputs firstOutputId).map (·.isSpent) = some true ∧
      ((commitRun zeroHashing acceptingStorage
        [commitOf [] [] ⟨[], [], [firstOutputId]⟩, commitOf [] [firstOutput true] ⟨[], [], []⟩]
        (sampleAccount true)).unspentOutputs firstOutputId = none ∨
      (commitRun zeroHashing acceptingStorage
        [commitOf [] [] ⟨[], [], [firstOutputId]⟩, commitOf [] [firstOutput true] ⟨[], [], []⟩]
        (sampleAccount true)).unspentOutputs firstOutputId =
          (sampleAccount true).unspentOutputs firstOutputId)) :=
  have spent : ((sampleAccount true).outputs firstOutputId).map (·.isSpent) = some true := by decide
  have fetched : ∀ input ∈ [commitOf [] [] ⟨[], [], [firstOutputId]⟩,
      commitOf [] [firstOutput true] ⟨[], [], []⟩],
      ∀ output ∈ input.outputs, output.outputId = firstOutputId → output.isSpent = true := by
    simp [commitOf, firstOutput]
  ⟨spent, fetched, commitRun_spent_stays_spent _ _ spent fetched⟩

theorem updateAccount_refetched_output_unspent :
    updateAccount zeroHashing acceptingStorage (commitOf [] [firstOutput false] ⟨[], [], []⟩)
        (sampleAccount true) =
      .ok () (commitWrites zeroHashing (commitOf [] [firstOutput false] ⟨[], [], []⟩)
        (sampleAccount true)) ∧
    ((sampleAccount true).outputs firstOutputId).map (·.isSpent) = some true ∧
    ((commitWrites zeroHashing (commitOf [] [firstOutput false] ⟨[], [], []⟩)
        (sampleAccount true)).outputs firstOutputId).map (·.isSpent) = some false ∧
    ((commitWrites zeroHashing (commitOf [] [firstOutput false] ⟨[], [], []⟩)
        (sampleAccount true)).unspentOutputs firstOutputId).isSome := by
  refine ⟨rfl, ?_, ?_, ?_⟩ <;> decide

/-! ## Errors -/

def missingSecondAddress : CommitInput :=
  commitOf [⟨"a0", 0, true, 0, []⟩, ⟨"a1", 1, true, 0, []⟩] [] ⟨[], [], []⟩

theorem updateAccount_missingSecondAddress :
    updateAccount zeroHashing acceptingStorage missingSecondAddress (sampleAccount false) =
      .error .inputAddressNotFound
        { sampleAccount false with internalAddresses := [⟨"a0", 0, true, true⟩] } :=
  rfl

theorem updateAccount_error_keeps_marks :
    updateAccount zeroHashing acceptingStorage missingSecondAddress (sampleAccount false) =
      .error .inputAddressNotFound
        { sampleAccount false with internalAddresses := [⟨"a0", 0, true, true⟩] } ∧
    [(⟨"a0", 0, true, true⟩ : AccountAddress)] ≠ (sampleAccount false).internalAddresses :=
  ⟨updateAccount_missingSecondAddress, by decide⟩

end IotaSdk.Wallet
