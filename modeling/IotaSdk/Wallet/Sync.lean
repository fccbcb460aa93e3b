import IotaSdk.Wallet.Invariants

/-!
# Concurrent syncs of one account

`sync_account` reads the clock, then waits for the account's `last_synced` mutex, and only
once it holds the mutex compares its reading with `last_synced`. Calls on one account interleave
at their awaits. A state holds the wall clock, the mutex with its holder and content, the account,
and where each call is; a step is the clock moving on, one call running to its next await, or a
transaction that output consolidation submits while a call holds the mutex. The clock only moves
on: the source reads `SystemTime::now`, which can go back, and the model assumes it does not.

* `syncRun_check_of_no_finish`: a call during whose wait no other sync stored its end time
  passes the check without underflow, and returns the cached balance after a recent sync.
* `syncRun_stale_reading`: a call that read the clock before another sync stored a later time
  underflows in `time_now - last_synced`.
-/

namespace IotaSdk.Wallet

def checkedSubMillis (a b : Nat) : Except Error Nat :=
  if b ≤ a then .ok (a - b) else .error (.panic "attempt to subtract with overflow")

inductive Outcome where
  | cached
  | synced
  | failed (error : Error)
  deriving DecidableEq

inductive Phase where
  | ready
  | waiting (timeNow : Nat)
  | syncing
  | committed
  | returned (outcome : Outcome)
  deriving DecidableEq

def Phase.holdsLock : Phase → Bool
  | .syncing | .committed => true
  | _ => false

structure SyncCall where
  options : SyncOptions
  phase : Phase

/-- The calls on one account, the `last_synced` mutex with its holder and content, the wall
clock in milliseconds, and the account. -/
structure SyncState where
  clock : Nat
  lastSynced : Nat
  holder : Option Nat
  calls : Nat → SyncCall
  account : Account

/-- Modelled from the spec: a transaction that output consolidation submits during a sync, with
the outputs of the account it spends. -/
structure Consolidation where
  transaction : Transaction
  inputs : List OutputId

/-- Modelled from the spec: a submitted transaction enters `transactions` and
`pending_transactions` as pending, and reserves its inputs in `locked_outputs`. -/
def submitTransaction (hashing : Hashing) (account : Account) (consolidation : Consolidation) :
    Account :=
  let transactionId := hashing.transactionId consolidation.transaction.payload
  { account with
    transactions := Function.update account.transactions transactionId
      (some { consolidation.transaction with inclusionState := .pending })
    pendingTransactions := insert transactionId account.pendingTransactions
    lockedOutputs := account.lockedOutputs ∪ consolidation.inputs.toFinset }

/-- One step: the clock moves on, or one call runs to its next await. `commit` carries what the
node returned to the call; `fail` is an error of a node request or of `balance`. -/
inductive SyncAction where
  | tick (elapsed : Nat)
  | start (call : Nat)
  | lock (call : Nat)
  | consolidate (call : Nat) (consolidation : Consolidation)
  | commit (call : Nat) (addressesWithBalance : List AddressWithBalance) (outputs : List OutputData)
      (transactionSyncResult : TransactionSyncResult)
  | fail (call : Nat) (error : Error)
  | finish (call : Nat)

def SyncState.setPhase (s : SyncState) (call : Nat) (phase : Phase) : SyncState :=
  { s with calls := Function.update s.calls call { s.calls call with phase := phase } }

section SetPhase

variable (s : SyncState) (call : Nat) (phase : Phase)

@[simp] theorem SyncState.setPhase_clock : (s.setPhase call phase).clock = s.clock := rfl

@[simp] theorem SyncState.setPhase_lastSynced :
    (s.setPhase call phase).lastSynced = s.lastSynced := rfl

@[simp] theorem SyncState.setPhase_holder : (s.setPhase call phase).holder = s.holder := rfl

@[simp] theorem SyncState.setPhase_options (i : Nat) :
    ((s.setPhase call phase).calls i).options = (s.calls i).options := by
  by_cases same : i = call
  · subst same; simp [SyncState.setPhase]
  · simp [SyncState.setPhase, Function.update_noteq same]

@[simp] theorem SyncState.setPhase_phase (i : Nat) :
    ((s.setPhase call phase).calls i).phase = if i = call then phase else (s.calls i).phase := by
  by_cases same : i = call
  · subst same; simp [SyncState.setPhase]
  · simp [SyncState.setPhase, Function.update_noteq same, same]

end SetPhase

/-! ## Steps -/

section Step

variable (minSyncInterval : Nat) (hashing : Hashing) (storage : Account → Except Error Unit)

def intervalCheck (timeNow lastSynced : Nat) (options : SyncOptions) : Except Error Bool := do
  let elapsed ← checkedSubMillis timeNow lastSynced
  pure (decide (elapsed < minSyncInterval) && !options.forceSyncing)

def afterLock (s : SyncState) (call timeNow : Nat) : SyncState :=
  match intervalCheck minSyncInterval timeNow s.lastSynced (s.calls call).options with
  | .ok true => s.setPhase call (.returned .cached)
  | .ok false => { s with holder := some call }.setPhase call .syncing
  | .error e => s.setPhase call (.returned (.failed e))

def syncStep (s : SyncState) : SyncAction → Option SyncState
  | .tick elapsed => some { s with clock := s.clock + elapsed }
  | .start call =>
    match (s.calls call).phase with
    | .ready => some (s.setPhase call (.waiting s.clock))
    | _ => none
  | .lock call =>
    match (s.calls call).phase, s.holder with
    | .waiting timeNow, none => some (afterLock minSyncInterval s call timeNow)
    | _, _ => none
  | .consolidate call consolidation =>
    match (s.calls call).phase with
    | .syncing =>
      if ∀ outputId ∈ consolidation.inputs, (s.account.unspentOutputs outputId).isSome then
        some { s with account := submitTransaction hashing s.account consolidation }
      else none
    | _ => none
  | .commit call addressesWithBalance outputs transactionSyncResult =>
    match (s.calls call).phase with
    | .syncing =>
      match updateAccount hashing storage
          ⟨addressesWithBalance, outputs, transactionSyncResult, (s.calls call).options⟩ s.account with
      | .ok () account => some ({ s with account := account }.setPhase call .committed)
      | .error e account =>
        some ({ s with account := account, holder := none }.setPhase call (.returned (.failed e)))
    | _ => none
  | .fail call error =>
    match (s.calls call).phase with
    | .syncing | .committed =>
      some ({ s with holder := none }.setPhase call (.returned (.failed error)))
    | _ => none
  | .finish call =>
    match (s.calls call).phase with
    | .committed =>
      some ({ s with lastSynced := s.clock, holder := none }.setPhase call (.returned .synced))
    | _ => none

def syncRun : List SyncAction → SyncState → Option SyncState
  | [], s => some s
  | action :: actions, s => (syncStep minSyncInterval hashing storage s action).bind (syncRun actions)

theorem syncRun_cons {action : SyncAction} {actions : List SyncAction} {s s' : SyncState}
    (ran : syncRun minSyncInterval hashing storage (action :: actions) s = some s') :
    ∃ t, syncStep minSyncInterval hashing storage s action = some t ∧
      syncRun minSyncInterval hashing storage actions t = some s' :=
  Option.bind_eq_some.mp ran

theorem afterLock_cases (s : SyncState) (call timeNow : Nat) :
    afterLock minSyncInterval s call timeNow = s.setPhase call (.returned .cached) ∨
      afterLock minSyncInterval s call timeNow =
        { s with holder := some call }.setPhase call .syncing ∨
      ∃ e, afterLock minSyncInterval s call timeNow = s.setPhase call (.returned (.failed e)) := by
  unfold afterLock
  split
  · exact .inl rfl
  · exact .inr (.inl rfl)
  · exact .inr (.inr ⟨_, rfl⟩)

@[simp] theorem afterLock_clock (s : SyncState) (call timeNow : Nat) :
    (afterLock minSyncInterval s call timeNow).clock = s.clock := by
  unfold afterLock; split <;> rfl

@[simp] theorem afterLock_lastSynced (s : SyncState) (call timeNow : Nat) :
    (afterLock minSyncInterval s call timeNow).lastSynced = s.lastSynced := by
  unfold afterLock; split <;> rfl

theorem intervalCheck_of_le {timeNow lastSynced : Nat} (options : SyncOptions)
    (fresh : lastSynced ≤ timeNow) :
    intervalCheck minSyncInterval timeNow lastSynced options =
      .ok (decide (timeNow - lastSynced < minSyncInterval) && !options.forceSyncing) := by
  simp [intervalCheck, checkedSubMillis, fresh]

theorem syncStep_cases {s s' : SyncState} {action : SyncAction}
    (stepped : syncStep minSyncInterval hashing storage s action = some s') :
    (∃ elapsed, action = .tick elapsed ∧ s' = { s with clock := s.clock + elapsed }) ∨
    (∃ call, action = .start call ∧ (s.calls call).phase = .ready ∧
      s' = s.setPhase call (.waiting s.clock)) ∨
    (∃ call timeNow, action = .lock call ∧ (s.calls call).phase = .waiting timeNow ∧
      s.holder = none ∧ s' = afterLock minSyncInterval s call timeNow) ∨
    (∃ call, (s.calls call).phase = .syncing ∧ ∃ account,
      s' = { s with account := account }.setPhase call .committed ∨
      ∃ e, s' = { s with account := account, holder := none }.setPhase call (.returned (.failed e))) ∨
    (∃ call e, (s.calls call).phase.holdsLock ∧
      s' = { s with holder := none }.setPhase call (.returned (.failed e))) ∨
    (∃ call, action = .finish call ∧ (s.calls call).phase = .committed ∧
      s' = { s with lastSynced := s.clock, holder := none }.setPhase call (.returned .synced)) ∨
    (∃ call consolidation, action = .consolidate call consolidation ∧ (s.calls call).phase = .syncing ∧
      (∀ outputId ∈ consolidation.inputs, (s.account.unspentOutputs outputId).isSome) ∧
      s' = { s with account := submitTransaction hashing s.account consolidation }) := by
  cases action with
  | tick elapsed => exact .inl ⟨elapsed, rfl, (Option.some.inj stepped).symm⟩
  | start call =>
    simp only [syncStep] at stepped
    split at stepped <;> cases stepped
    exact .inr (.inl ⟨call, rfl, ‹_›, rfl⟩)
  | lock call =>
    simp only [syncStep] at stepped
    split at stepped <;> cases stepped
    exact .inr (.inr (.inl ⟨call, _, rfl, ‹_›, ‹_›, rfl⟩))
  | commit call addressesWithBalance outputs transactionSyncResult =>
    simp only [syncStep] at stepped
    split at stepped
    · split at stepped <;> cases stepped
      · exact .inr (.inr (.inr (.inl ⟨call, ‹_›, _, .inl rfl⟩)))
      · exact .inr (.inr (.inr (.inl ⟨call, ‹_›, _, .inr ⟨_, rfl⟩⟩)))
    · cases stepped
  | fail call error =>
    simp only [syncStep] at stepped
    split at stepped <;> cases stepped <;>
      exact .inr (.inr (.inr (.inr (.inl ⟨call, error, by simp [Phase.holdsLock, *], rfl⟩))))
  | finish call =>
    simp only [syncStep] at stepped
    split at stepped <;> cases stepped
    exact .inr (.inr (.inr (.inr (.inr (.inl ⟨call, rfl, ‹_›, rfl⟩)))))
  | consolidate call consolidation =>
    simp only [syncStep] at stepped
    split at stepped
    · split at stepped <;> cases stepped
      exact .inr (.inr (.inr (.inr (.inr (.inr ⟨call, consolidation, rfl, ‹_›, ‹_›, rfl⟩)))))
    · cases stepped

@[simp] theorem afterLock_account (s : SyncState) (call timeNow : Nat) :
    (afterLock minSyncInterval s call timeNow).account = s.account := by
  unfold afterLock; split <;> rfl

theorem syncStep_account {s s' : SyncState} {action : SyncAction}
    (stepped : syncStep minSyncInterval hashing storage s action = some s') :
    s'.account = s.account ∨
      (∃ input, s'.account = resultAccount (updateAccount hashing storage input s.account)) ∨
      ∃ call consolidation, action = .consolidate call consolidation ∧
        (∀ outputId ∈ consolidation.inputs, (s.account.unspentOutputs outputId).isSome) ∧
        s'.account = submitTransaction hashing s.account consolidation := by
  cases action with
  | commit call addressesWithBalance outputs transactionSyncResult =>
    simp only [syncStep] at stepped
    split at stepped
    · split at stepped <;> cases stepped <;> rename_i committed <;>
        exact .inr (.inl ⟨_, by rw [committed]; rfl⟩)
    · cases stepped
  | consolidate call consolidation =>
    simp only [syncStep] at stepped
    split at stepped
    · split at stepped <;> cases stepped
      exact .inr (.inr ⟨call, consolidation, rfl, ‹_›, rfl⟩)
    · cases stepped
  | tick => exact .inl (by cases stepped; rfl)
  | lock =>
    simp only [syncStep] at stepped
    split at stepped <;> cases stepped
    exact .inl (afterLock_account _ _ _ _)
  | _ =>
    simp only [syncStep] at stepped
    split at stepped <;> cases stepped <;> exact .inl rfl

end Step

/-! ## A call that read the clock before another sync finished -/

def twoCallsStart : SyncState where
  clock := 100
  lastSynced := 0
  holder := none
  calls := fun call => ⟨⟨0, call = 1⟩, .ready⟩
  account := sampleAccount false

def staleReadingTrace : List SyncAction :=
  [.start 1, .lock 1, .start 0, .commit 1 [] [] ⟨[], [], []⟩, .tick 100, .finish 1, .lock 0]

def consolidationOfFirst : Consolidation := ⟨⟨emptyPayload, .pending⟩, [firstOutputId]⟩

def consolidatingTrace : List SyncAction :=
  [.start 1, .lock 1, .consolidate 1 consolidationOfFirst, .commit 1 [] [] ⟨[], [], []⟩, .finish 1]

/-- Call 0 takes the mutex 0 ms after call 1 stored `last_synced`, and panics in the check
instead of returning the cached balance, whatever `MIN_SYNC_INTERVAL` is. -/
theorem syncRun_stale_reading (minSyncInterval : Nat) :
    (syncRun minSyncInterval zeroHashing acceptingStorage staleReadingTrace twoCallsStart).map
        (fun s => (s.clock, s.lastSynced, (s.calls 0).phase)) =
      some (200, 200, .returned (.failed (.panic "attempt to subtract with overflow"))) := by
  have committed (options : SyncOptions) (account : Account) :
      updateAccount zeroHashing acceptingStorage ⟨[], [], ⟨[], [], []⟩, options⟩ account =
        .ok () (commitWrites zeroHashing ⟨[], [], ⟨[], [], []⟩, options⟩ account) := rfl
  simp only [syncRun, syncStep, staleReadingTrace, twoCallsStart, SyncState.setPhase, afterLock,
    intervalCheck, checkedSubMillis, committed, bind_pure_comp, Option.bind_some, Option.some_bind,
    Function.update_same, Function.update_idem, Function.update_noteq, ne_eq, Nat.zero_ne_one,
    Nat.succ_ne_self, not_false_eq_true, decide_True, decide_False, Bool.not_true, Bool.not_false,
    Bool.and_false, Bool.and_true, Nat.zero_le, Nat.sub_zero, Nat.reduceAdd, Nat.reduceLeDiff,
    ↓reduceIte, Except.map_ok, Except.map_error, Option.map_some']

section Runs

variable {minSyncInterval : Nat} {hashing : Hashing} {storage : Account → Except Error Unit}

/-! ## `last_synced` and the clock -/

theorem syncStep_lastSynced {s s' : SyncState} {action : SyncAction}
    (stepped : syncStep minSyncInterval hashing storage s action = some s') :
    s.clock ≤ s'.clock ∧
      (s'.lastSynced = s.lastSynced ∨ (∃ call, action = .finish call) ∧ s'.lastSynced = s'.clock) := by
  rcases syncStep_cases minSyncInterval hashing storage stepped with
    ⟨_, -, rfl⟩ | ⟨_, -, -, rfl⟩ | ⟨_, _, -, -, -, rfl⟩ | ⟨_, -, _, rfl | ⟨_, rfl⟩⟩ |
    ⟨_, _, -, rfl⟩ | ⟨call, rfl, -, rfl⟩ | ⟨_, _, -, -, -, rfl⟩
  · exact ⟨Nat.le_add_right _ _, .inl rfl⟩
  · exact ⟨le_rfl, .inl rfl⟩
  · simp
  iterate 3 exact ⟨le_rfl, .inl rfl⟩
  · exact ⟨le_rfl, .inr ⟨⟨call, rfl⟩, rfl⟩⟩
  · exact ⟨le_rfl, .inl rfl⟩

theorem syncStep_lastSynced_le_clock {s s' : SyncState} {action : SyncAction}
    (stepped : syncStep minSyncInterval hashing storage s action = some s')
    (valid : s.lastSynced ≤ s.clock) : s'.lastSynced ≤ s'.clock := by
  obtain ⟨grows, same | ⟨-, stored⟩⟩ := syncStep_lastSynced stepped <;> omega

/-! ## The interval check -/

def ReadingFresh (call : Nat) (s : SyncState) : Prop :=
  ∀ timeNow, (s.calls call).phase = .waiting timeNow → s.lastSynced ≤ timeNow ∧ timeNow ≤ s.clock

theorem readingFresh_setPhase {call other : Nat} {s : SyncState} {phase : Phase}
    (fresh : ReadingFresh call s)
    (fresh' : ∀ timeNow, phase = .waiting timeNow → s.lastSynced ≤ timeNow ∧ timeNow ≤ s.clock) :
    ReadingFresh call (s.setPhase other phase) := by
  intro timeNow waiting
  rw [SyncState.setPhase_phase] at waiting
  split at waiting
  · exact fresh' timeNow waiting
  · exact fresh timeNow waiting

theorem syncStep_readingFresh {s s' : SyncState} {action : SyncAction} {call : Nat}
    (stepped : syncStep minSyncInterval hashing storage s action = some s')
    (notFinish : ∀ c, action ≠ .finish c) (valid : s.lastSynced ≤ s.clock)
    (fresh : ReadingFresh call s) : ReadingFresh call s' := by
  rcases syncStep_cases minSyncInterval hashing storage stepped with
    ⟨_, -, rfl⟩ | ⟨_, -, -, rfl⟩ | ⟨c, timeNow, -, -, -, rfl⟩ | ⟨_, -, _, rfl | ⟨_, rfl⟩⟩ |
    ⟨_, _, -, rfl⟩ | ⟨c, rfl, -, rfl⟩ | ⟨_, _, -, -, -, rfl⟩
  · exact fun timeNow waiting => (fresh timeNow waiting).imp_right (·.trans (Nat.le_add_right _ _))
  · exact readingFresh_setPhase fresh fun _ waiting => by cases waiting; exact ⟨valid, le_rfl⟩
  · rcases afterLock_cases minSyncInterval s c timeNow with after | after | ⟨_, after⟩ <;>
      rw [after] <;> exact readingFresh_setPhase fresh fun _ waiting => nomatch waiting
  all_goals first
    | exact readingFresh_setPhase fresh fun _ waiting => nomatch waiting
    | exact absurd rfl (notFinish c)
    | exact fresh

theorem syncRun_readingFresh {call : Nat} :
    ∀ (actions : List SyncAction) (s s' : SyncState),
      syncRun minSyncInterval hashing storage actions s = some s' →
      (∀ c, .finish c ∉ actions) → s.lastSynced ≤ s.clock → ReadingFresh call s →
      ReadingFresh call s'
  | [], _, _, ran, _, _, fresh => Option.some.inj ran ▸ fresh
  | action :: actions, _, _, ran, noFinish, valid, fresh =>
    let ⟨_, stepped, rest⟩ := syncRun_cons minSyncInterval hashing storage ran
    have notFinish (c : Nat) : action ≠ .finish c :=
      fun same => noFinish c (same ▸ List.mem_cons_self _ _)
    syncRun_readingFresh actions _ _ rest (fun c member => noFinish c (List.mem_cons_of_mem _ member))
      (syncStep_lastSynced_le_clock stepped valid) (syncStep_readingFresh stepped notFinish valid fresh)

theorem syncStep_start_readingFresh {s s' : SyncState} {call : Nat}
    (stepped : syncStep minSyncInterval hashing storage s (.start call) = some s')
    (valid : s.lastSynced ≤ s.clock) : ReadingFresh call s' := by
  simp only [syncStep] at stepped
  split at stepped <;> cases stepped
  intro timeNow waiting
  simp only [SyncState.setPhase_phase, if_pos, Phase.waiting.injEq] at waiting
  exact waiting ▸ ⟨valid, le_rfl⟩

theorem syncRun_check_of_no_finish {s s' : SyncState} {call timeNow : Nat}
    {actions : List SyncAction} (valid : s.lastSynced ≤ s.clock)
    (ran : syncRun minSyncInterval hashing storage (.start call :: actions) s = some s')
    (noFinish : ∀ c, .finish c ∉ actions) (waiting : (s'.calls call).phase = .waiting timeNow) :
    intervalCheck minSyncInterval timeNow s'.lastSynced (s'.calls call).options =
        .ok (decide (timeNow - s'.lastSynced < minSyncInterval) &&
          !(s'.calls call).options.forceSyncing) ∧
      (s'.holder = none → s'.clock - s'.lastSynced < minSyncInterval →
        (s'.calls call).options.forceSyncing = false →
        syncStep minSyncInterval hashing storage s' (.lock call) =
          some (s'.setPhase call (.returned .cached))) := by
  obtain ⟨started, stepped, rest⟩ := syncRun_cons minSyncInterval hashing storage ran
  obtain ⟨fresh, reading⟩ := syncRun_readingFresh actions started s' rest noFinish
    (syncStep_lastSynced_le_clock stepped valid) (syncStep_start_readingFresh stepped valid)
    timeNow waiting
  have check := intervalCheck_of_le minSyncInterval (s'.calls call).options fresh
  refine ⟨check, fun free recent notForced => ?_⟩
  have cached : intervalCheck minSyncInterval timeNow s'.lastSynced (s'.calls call).options =
      .ok true := by
    rw [check, notForced, decide_eq_true (by omega)]
    rfl
  simp [syncStep, waiting, free, afterLock, cached]

theorem syncRun_check_of_no_finish_tick :
    ∃ s', syncRun 5000 zeroHashing acceptingStorage [.start 0, .tick 50] twoCallsStart = some s' ∧
      syncStep 5000 zeroHashing acceptingStorage s' (.lock 0) =
        some (s'.setPhase 0 (.returned .cached)) := by
  have ran : syncRun 5000 zeroHashing acceptingStorage [.start 0, .tick 50] twoCallsStart =
      some _ := rfl
  exact ⟨_, ran, (syncRun_check_of_no_finish (by decide) ran (by simp) rfl).2 rfl (by decide) rfl⟩

end Runs

end IotaSdk.Wallet
