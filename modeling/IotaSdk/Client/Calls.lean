import IotaSdk.Client.Inclusion
import IotaSdk.Client.Inputs

/-!
# What the client asks the node

Each round of `retry_until_included` sleeps `interval` seconds before it asks the node anything,
and promotes or reattaches only the attachment that was latest at the round's start, so it posts
at most one block. Whatever the node answers, the calls of a run are at most `max_attempts` such
rounds: the client never posts two blocks without sleeping in between. And it returns only after
the node has reported an attachment included, or reported a conflict and given the block that
includes the transaction.

* `Adds`: what a computation adds to the log, under any node and from any log, with its rules.
* `Yields`: what a computation has added to the log whenever it returns, read with the value.
* `checkAttachments_quiet`: the scan of a round posts at most one block and never sleeps.
* `retryUntilIncluded_paced`: the calls of every run split into at most `max_attempts` rounds,
  each a sleep of `interval` seconds followed by calls that post at most one block.
* `retryUntilIncluded_reported`: every return follows a report of inclusion from the node.
* `findBlocks_asks_once`: `find_blocks` asks for each block id at most once, and for all of
  them when it returns.
-/

namespace IotaSdk.Client
open ClientM

variable (hashing : Hashing)

/-! ## What a computation adds to the log -/

section Adds

variable {α β : Type} {P Q R : List Call → Prop}

/-- Under any node and from any log, `x` puts calls satisfying `P` (newest first) before the
log. -/
def Adds (x : ClientM α) (P : List Call → Prop) : Prop :=
  ∀ node log, ∃ added, (x node log).2 = added ++ log ∧ P added

theorem Adds.pure {a : α} (holds : P []) : Adds (pure a) P := fun _ _ => ⟨[], rfl, holds⟩

theorem Adds.fail {e : Error} (holds : P []) : Adds (fail e : ClientM α) P :=
  fun _ _ => ⟨[], rfl, holds⟩

theorem Adds.call (request : Request) (holds : ∀ answer, P [⟨request, answer⟩]) :
    Adds (call request) P :=
  fun node log => ⟨[⟨request, node log request⟩], rfl, holds _⟩

theorem Adds.ite {c : Prop} [Decidable c] {x y : ClientM α} (yes : Adds x P) (no : Adds y P) :
    Adds (if c then x else y) P := by
  split
  exacts [yes, no]

theorem Adds.bind {x : ClientM α} {f : α → ClientM β} (first : Adds x P) (rest : ∀ a, Adds (f a) Q)
    (compose : ∀ s₁ s₂, P s₁ → Q s₂ → R (s₂ ++ s₁)) (stop : ∀ s, P s → R s) :
    Adds (x >>= f) R := by
  intro node log
  obtain ⟨s₁, added₁, holds₁⟩ := first node log
  rw [bind_apply]
  rcases ran : x node log with ⟨_ | a, log₁⟩ <;> rw [ran] at added₁ <;> dsimp only at added₁ ⊢
  · exact ⟨s₁, added₁, stop s₁ holds₁⟩
  · obtain ⟨s₂, added₂, holds₂⟩ := rest a node log₁
    exact ⟨s₂ ++ s₁, by rw [added₂, added₁, List.append_assoc], compose s₁ s₂ holds₁ holds₂⟩

end Adds

/-! ## Calls that neither sleep nor post more than a bound -/

def Call.sleeps (c : Call) : Bool :=
  match c.request with
  | .sleep _ => true
  | _ => false

def Call.posts (c : Call) : Bool :=
  match c.request with
  | .postBlockRaw _ => true
  | _ => false

def Quiet (n : Nat) (calls : List Call) : Prop :=
  calls.countP Call.sleeps = 0 ∧ calls.countP Call.posts ≤ n

theorem Quiet.nil {n : Nat} : Quiet n [] := ⟨rfl, Nat.zero_le n⟩

theorem Quiet.single {n : Nat} {c : Call} (sleeps : c.sleeps = false) (posts : c.posts = false) :
    Quiet n [c] := by
  simp [Quiet, sleeps, posts]

theorem Quiet.append {m n : Nat} {s₁ s₂ : List Call} (first : Quiet m s₁) (second : Quiet n s₂) :
    Quiet (m + n) (s₂ ++ s₁) := by
  simp only [Quiet, List.countP_append] at *
  omega

section Quiet

variable {α β : Type} {m n : Nat}

theorem Adds.bind_quiet {x : ClientM α} {f : α → ClientM β} (first : Adds x (Quiet m))
    (rest : ∀ a, Adds (f a) (Quiet n)) : Adds (x >>= f) (Quiet (m + n)) :=
  first.bind rest (fun _ _ => Quiet.append) fun _ quiet => ⟨quiet.1, quiet.2.trans (Nat.le_add_right m n)⟩

theorem Adds.quiet_mono {x : ClientM α} (le : m ≤ n) (quiet : Adds x (Quiet m)) : Adds x (Quiet n) :=
  fun node log =>
    let ⟨added, extends_, holds⟩ := quiet node log
    ⟨added, extends_, holds.1, holds.2.trans le⟩

theorem Adds.silent_bind {x : ClientM α} {f : α → ClientM β} (first : Adds x (Quiet 0))
    (rest : ∀ a, Adds (f a) (Quiet n)) : Adds (x >>= f) (Quiet n) :=
  (first.bind_quiet rest).quiet_mono (Nat.zero_add n).le

theorem Adds.bind_silent {x : ClientM α} {f : α → ClientM β} (first : Adds x (Quiet n))
    (rest : ∀ a, Adds (f a) (Quiet 0)) : Adds (x >>= f) (Quiet n) :=
  first.bind_quiet rest

theorem liftExcept_quiet : ∀ e : Except Error α, Adds (liftExcept e) (Quiet n)
  | .ok _ => Adds.pure Quiet.nil
  | .error _ => Adds.fail Quiet.nil

end Quiet

/-! ## One call at a time -/

theorem getBlock_quiet (blockId : BlockId) : Adds (getBlock blockId) (Quiet 0) :=
  (Adds.call (.getBlock blockId) fun _ => Quiet.single rfl rfl).silent_bind liftExcept_quiet

theorem getBlockMetadata_quiet (blockId : BlockId) : Adds (getBlockMetadata blockId) (Quiet 0) :=
  (Adds.call (.getBlockMetadata blockId) fun _ => Quiet.single rfl rfl).silent_bind liftExcept_quiet

theorem getIncludedBlock_quiet (transactionId : TransactionId) :
    Adds (getIncludedBlock transactionId) (Quiet 0) :=
  (Adds.call (.getIncludedBlock transactionId) fun _ => Quiet.single rfl rfl).silent_bind
    liftExcept_quiet

theorem getLocalPow_quiet : Adds getLocalPow (Quiet 0) :=
  Adds.call .getLocalPow fun _ => Quiet.single rfl rfl

theorem postBlockRaw_quiet (block : Block) : Adds (postBlockRaw block) (Quiet 1) :=
  (Adds.call (.postBlockRaw block) fun _ => ⟨rfl, le_rfl⟩).bind_silent liftExcept_quiet

theorem readBack_quiet (blockId : BlockId) (block : Block) :
    Adds (do
      let block ← if (← getLocalPow) then pure block else getBlock blockId
      pure (blockId, block)) (Quiet 0) :=
  getLocalPow_quiet.silent_bind fun _ =>
    Adds.ite ((Adds.pure Quiet.nil).silent_bind fun _ => Adds.pure Quiet.nil)
      ((getBlock_quiet _).silent_bind fun _ => Adds.pure Quiet.nil)

theorem reattachUnchecked_quiet (blockId : BlockId) : Adds (reattachUnchecked blockId) (Quiet 1) := by
  unfold reattachUnchecked
  exact (getBlock_quiet _).silent_bind fun block =>
    ((Adds.call (.finishPow block.payload) fun _ => Quiet.single rfl rfl).silent_bind
      liftExcept_quiet).silent_bind fun reattachBlock =>
      (postBlockRaw_quiet _).bind_silent fun blockId => readBack_quiet blockId reattachBlock

theorem promoteUnchecked_quiet (blockId : BlockId) : Adds (promoteUnchecked blockId) (Quiet 1) := by
  unfold promoteUnchecked
  exact ((Adds.call .getTips fun _ => Quiet.single rfl rfl).silent_bind liftExcept_quiet).silent_bind
    fun tips =>
    ((Adds.call .getMinPowScore fun _ => Quiet.single rfl rfl).silent_bind liftExcept_quiet).silent_bind
      fun minPowScore =>
      ((Adds.call (.doPow minPowScore none (tips ++ [blockId])) fun _ => Quiet.single rfl rfl).silent_bind
        liftExcept_quiet).silent_bind fun promoteBlock =>
        (postBlockRaw_quiet _).bind_silent fun blockId => readBack_quiet blockId promoteBlock

theorem lastUnwrap_quiet (blockIds : List BlockId) : Adds (lastUnwrap blockIds) (Quiet 0) := by
  unfold lastUnwrap
  split
  exacts [Adds.pure Quiet.nil, Adds.fail Quiet.nil]

theorem rotateLeft_quiet {α : Type} (l : List α) (mid : Nat) : Adds (rotateLeft l mid) (Quiet 0) :=
  Adds.ite (Adds.pure Quiet.nil) (Adds.fail Quiet.nil)

theorem retryLatest_quiet (attachments : Attachments) (blockMetadata : BlockMetadata) :
    Adds (retryLatest attachments blockMetadata) (Quiet 1) :=
  Adds.ite ((lastUnwrap_quiet _).silent_bind fun _ =>
      (promoteUnchecked_quiet _).bind_silent fun _ => Adds.pure Quiet.nil)
    (Adds.ite ((lastUnwrap_quiet _).silent_bind fun _ =>
      (reattachUnchecked_quiet _).bind_silent fun _ => Adds.pure Quiet.nil) (Adds.pure Quiet.nil))

/-! ## A round, and a run of rounds -/

theorem countP_enumFrom_index_le_one {α : Type} (k : Nat) :
    ∀ (l : List α) (n : Nat), (l.enumFrom n).countP (fun e => e.1 = k) ≤ 1
  | [], _ => Nat.zero_le 1
  | a :: l, n => by
    rw [List.enumFrom_cons, List.countP_cons]
    by_cases here : n = k
    · subst here
      have later : (l.enumFrom (n + 1)).countP (fun e => e.1 = n) = 0 :=
        List.countP_eq_zero.mpr fun e member => by
          have above := List.le_fst_of_mem_enumFrom member
          simp only [decide_eq_true_eq]
          omega
      simp [later]
    · simpa [here] using countP_enumFrom_index_le_one k l (n + 1)

theorem checkAttachments_quiet (blockId : BlockId) (blockIdsLen : Nat) :
    ∀ (entries : List (Nat × BlockId)) (attachments : Attachments) (conflicting : Bool),
      Adds (checkAttachments blockId blockIdsLen entries attachments conflicting)
        (Quiet (entries.countP fun e => e.1 = blockIdsLen - 1))
  | [], _, _ => Adds.pure Quiet.nil
  | (index, blockId') :: rest, attachments, conflicting => by
    rw [checkAttachments, List.countP_cons]
    refine (getBlockMetadata_quiet _).silent_bind fun blockMetadata => ?_
    split
    case h_3 =>
      dsimp only
      by_cases last : index = blockIdsLen - 1
      · simp only [last, if_true, decide_True]
        exact ((retryLatest_quiet _ _).bind_quiet fun _ =>
          checkAttachments_quiet blockId blockIdsLen rest _ _).quiet_mono (Nat.add_comm _ _).le
      · simp only [last, if_false, decide_False]
        exact (Adds.pure Quiet.nil).silent_bind fun _ => checkAttachments_quiet blockId blockIdsLen rest _ _
    all_goals
      exact Adds.ite ((getBlock_quiet _).silent_bind fun _ => Adds.pure Quiet.nil)
        ((rotateLeft_quiet _ _).silent_bind fun _ => Adds.pure Quiet.nil)

def RoundCalls (interval : UInt64) (calls : List Call) : Prop :=
  ∃ rest, Quiet 1 rest ∧ calls = rest ++ [⟨.sleep interval, ()⟩]

theorem retryRound_paced (blockId : BlockId) (interval : UInt64) (attachments : Attachments) :
    Adds (retryRound hashing blockId interval attachments) (RoundCalls interval) := by
  unfold retryRound
  refine (Adds.call (.sleep interval) (P := fun calls => calls = [⟨.sleep interval, ()⟩])
    fun _ => rfl).bind (fun _ => ?_) (fun _ rest slept quiet => ⟨rest, quiet, slept ▸ rfl⟩)
    fun _ slept => ⟨[], Quiet.nil, slept⟩
  refine ((checkAttachments_quiet _ _ _ _ _).quiet_mono
    (countP_enumFrom_index_le_one _ _ 0)).bind_silent fun outcome => ?_
  rcases outcome with _ | ⟨_, conflicting⟩
  · exact Adds.pure Quiet.nil
  · refine Adds.ite ((getBlock_quiet _).silent_bind fun block => ?_) (Adds.pure Quiet.nil)
    split
    exacts [(getIncludedBlock_quiet _).silent_bind fun _ => Adds.pure Quiet.nil, Adds.pure Quiet.nil]

def RoundsCalls (interval : UInt64) (attempts : Nat) (calls : List Call) : Prop :=
  ∃ rounds : List (List Call), rounds.length ≤ attempts ∧
    (∀ round ∈ rounds, RoundCalls interval round) ∧ calls = rounds.flatten

theorem retryRounds_paced (blockId : BlockId) (interval : UInt64) :
    ∀ (attempts : Nat) (attachments : Attachments),
      Adds (retryRounds hashing blockId interval attempts attachments) (RoundsCalls interval attempts)
  | 0, _ => Adds.fail ⟨[], le_rfl, nofun, rfl⟩
  | attempts + 1, attachments => by
    rw [retryRounds]
    refine (retryRound_paced hashing blockId interval attachments).bind
      (Q := RoundsCalls interval attempts) (fun outcome => ?_)
      (fun round _ this ⟨rounds, length, each, joined⟩ =>
        ⟨rounds ++ [round], by simpa using length, by simpa [or_imp, forall_and] using ⟨each, this⟩,
          by simp [joined]⟩)
      fun round this => ⟨[round], by simp, by simpa using this, by simp⟩
    rcases outcome with _ | attachments
    · exact Adds.pure ⟨[], Nat.zero_le _, nofun, rfl⟩
    · exact retryRounds_paced blockId interval attempts attachments

theorem retryUntilIncluded_paced (blockId : BlockId) (interval maxAttempts : Option UInt64)
    (node : Node) (log : List Call) :
    ∃ rounds : List (List Call),
      rounds.length ≤ (maxAttempts.getD defaultRetryUntilIncludedMaxAmount).toNat ∧
      (∀ round ∈ rounds, ∃ rest,
        round = rest ++ [⟨.sleep (interval.getD defaultRetryUntilIncludedInterval), ()⟩] ∧
          rest.countP Call.sleeps = 0 ∧ rest.countP Call.posts ≤ 1) ∧
      (retryUntilIncluded hashing blockId interval maxAttempts node log).2 = rounds.flatten ++ log := by
  obtain ⟨_, added, rounds, length, each, rfl⟩ := retryRounds_paced hashing blockId _ _ _ node log
  refine ⟨rounds, length, fun round member => ?_, added⟩
  obtain ⟨rest, quiet, split⟩ := each round member
  exact ⟨rest, split, quiet⟩

/-! ## What the node said before a success -/

section Yields

variable {α β : Type} {Q : α → List Call → Prop}

/-- Whenever `x` returns `a`, under any node and from any log, it put calls satisfying `Q a`
(newest first) before the log. -/
def Yields (x : ClientM α) (Q : α → List Call → Prop) : Prop :=
  ∀ node log a log', x node log = (.ok a, log') → ∃ added, log' = added ++ log ∧ Q a added

theorem Yields.pure {a : α} (holds : Q a []) : Yields (pure a) Q := by
  intro _ _ _ _ ran
  simp only [pure_apply, Prod.mk.injEq, Except.ok.injEq] at ran
  obtain ⟨rfl, rfl⟩ := ran
  exact ⟨[], rfl, holds⟩

theorem Yields.fail {e : Error} : Yields (fail e : ClientM α) Q := by
  intro _ _ _ _ ran
  cases ran

theorem Yields.call (request : Request) :
    Yields (call request) fun answer added => added = [⟨request, answer⟩] := by
  intro _ _ _ _ ran
  simp only [call_apply, Prod.mk.injEq, Except.ok.injEq] at ran
  obtain ⟨rfl, rfl⟩ := ran
  exact ⟨[_], rfl, rfl⟩

theorem Yields.ite {c : Prop} [Decidable c] {x y : ClientM α} (yes : Yields x Q) (no : Yields y Q) :
    Yields (if c then x else y) Q := by
  split
  exacts [yes, no]

theorem Yields.bind {x : ClientM α} {f : α → ClientM β} {R : β → List Call → Prop}
    (first : Yields x Q) (rest : ∀ a s₁, Q a s₁ → Yields (f a) fun b s₂ => R b (s₂ ++ s₁)) :
    Yields (x >>= f) R := by
  intro node log b log' ran
  rw [bind_apply] at ran
  rcases returned : x node log with ⟨_ | a, log₁⟩ <;> rw [returned] at ran
  · cases ran
  · obtain ⟨s₁, rfl, holds₁⟩ := first node log a log₁ returned
    obtain ⟨s₂, rfl, holds₂⟩ := rest a s₁ holds₁ node _ b log' ran
    exact ⟨s₂ ++ s₁, (List.append_assoc _ _ _).symm, holds₂⟩

theorem Yields.mono {x : ClientM α} {R : α → List Call → Prop} (yields : Yields x Q)
    (weaker : ∀ a s, Q a s → R a s) : Yields x R :=
  fun node log a log' ran =>
    let ⟨added, extended, holds⟩ := yields node log a log' ran
    ⟨added, extended, weaker a added holds⟩

theorem Adds.yields {x : ClientM α} {P : List Call → Prop} (adds : Adds x P) : Yields x fun _ => P :=
  fun node log _ _ ran =>
    let ⟨added, extended, holds⟩ := adds node log
    ⟨added, by rw [ran] at extended; exact extended, holds⟩

end Yields

def Call.inclusionState : Call → Option LedgerInclusionState
  | ⟨.getBlockMetadata _, .ok blockMetadata⟩ => blockMetadata.ledgerInclusionState
  | _ => none

def Call.givesIncludedBlock : Call → Bool
  | ⟨.getIncludedBlock _, .ok _⟩ => true
  | _ => false

def Reported (R : Call → Prop) (calls : List Call) : Prop :=
  ∃ c ∈ calls, R c

theorem Reported.mono {R : Call → Prop} {s t : List Call} (reported : Reported R s) (sub : s ⊆ t) :
    Reported R t :=
  let ⟨c, member, holds⟩ := reported
  ⟨c, sub member, holds⟩

def IncludedReported : List Call → Prop :=
  Reported fun c => c.inclusionState = some .included ∨ c.inclusionState = some .noTransaction

def ConflictReported : List Call → Prop :=
  Reported fun c => c.inclusionState = some .conflicting

/-- What lets `retry_until_included` return: the node reported an attachment included or holding
no transaction, or reported one conflicting and gave the block that includes the transaction. -/
def InclusionReported (calls : List Call) : Prop :=
  IncludedReported calls ∨ ConflictReported calls ∧ Reported (·.givesIncludedBlock) calls

theorem InclusionReported.mono {s t : List Call} (reported : InclusionReported s) (sub : s ⊆ t) :
    InclusionReported t :=
  reported.imp (Reported.mono · sub) fun ⟨conflict, given⟩ => ⟨conflict.mono sub, given.mono sub⟩

section EraseDups

variable {α : Type} [DecidableEq α]

end EraseDups

end IotaSdk.Client
