import IotaSdk.Wallet.Invariants

/-!
# The marking of used addresses

`update_account` looks up each synced address in its half with `binary_search_by_key` on
`(key_index, internal)`, and sets `used` on the entry found. On halves sorted strictly by
`key_index`, whose entries carry their half's `internal` flag, the search is exact:

* `binarySearchBy_ok`, `binarySearchBy_error`: the search returns a position whose element
  compares equal, and fails only when no element does, on a list whose elements compare `Less`,
  then `Equal`, then `Greater`.
* `markAddressUsed_sorted`: one lookup sets `used` on exactly the matching entry.
* `markUsed_all_found`, `markUsed_missing`: the whole marking fails exactly when some synced
  address has no entry, and otherwise sets `used` on exactly the entries some synced address
  matches (`markSynced`).
* `updateAccount_marks_synced`: the same for `update_account`, whose storage reports its own
  errors.
* `updateAccount_error_state`: an error keeps the writes made before it; on sorted halves a
  missing address leaves `used` set on exactly the synced addresses before it.
-/

namespace IotaSdk.Wallet

/-! ## Rust's `binary_search_by` -/

section BinarySearch

variable {α : Type} (cmp : α → Ordering) (l : List α)

/-- Along `l`, `cmp` answers `Less`, then `Equal`, then `Greater`. -/
def Partitioned : Prop :=
  ∀ (i j : Nat) (a b : α), i < j → l[i]? = some a → l[j]? = some b →
    (cmp b = .lt → cmp a = .lt) ∧ (cmp a = .gt → cmp b = .gt)

theorem binarySearchLoop_ok :
    ∀ {fuel left right i : Nat}, binarySearchLoop cmp l fuel left right = .ok i →
      ∃ a, l[i]? = some a ∧ cmp a = .eq
  | 0, _, _, _, found => nomatch found
  | fuel + 1, left, right, i, found => by
    simp only [binarySearchLoop] at found
    split at found
    · split at found
      · exact binarySearchLoop_ok found
      · exact binarySearchLoop_ok found
      · rename_i compared
        cases found
        exact Option.map_eq_some'.mp compared
      · cases found
    · cases found

theorem no_eq_of_le {left right : Nat}
    (below : ∀ k a, k < left → l[k]? = some a → cmp a = .lt)
    (above : ∀ k a, right ≤ k → l[k]? = some a → cmp a = .gt) (crossed : right ≤ left) :
    ∀ a ∈ l, cmp a ≠ .eq := by
  intro a member equal
  obtain ⟨k, at_k⟩ := List.mem_iff_getElem?.mp member
  by_cases low : k < left
  · simp [below k a low at_k] at equal
  · simp [above k a (by omega) at_k] at equal

theorem binarySearchLoop_error (partitioned : Partitioned cmp l) :
    ∀ {fuel left right e : Nat}, right ≤ l.length → right - left ≤ fuel →
      (∀ k a, k < left → l[k]? = some a → cmp a = .lt) →
      (∀ k a, right ≤ k → l[k]? = some a → cmp a = .gt) →
      binarySearchLoop cmp l fuel left right = .error e → ∀ a ∈ l, cmp a ≠ .eq
  | 0, _, _, _, _, fuel, below, above, _ => no_eq_of_le cmp l below above (by omega)
  | fuel + 1, left, right, e, inside, enough, below, above, missed => by
    simp only [binarySearchLoop] at missed
    split at missed
    · rename_i nonempty
      have bound : left + (right - left) / 2 < l.length := by omega
      obtain ⟨m, at_mid⟩ : ∃ m, l[left + (right - left) / 2]? = some m :=
        ⟨_, List.getElem?_eq_getElem bound⟩
      split at missed
      · rename_i compared
        rw [at_mid, Option.map_some', Option.some.injEq] at compared
        refine binarySearchLoop_error partitioned inside (by omega) (fun k a low at_k => ?_) above
          missed
        by_cases older : k < left
        · exact below k a older at_k
        · rcases Nat.lt_or_eq_of_le (Nat.le_of_lt_succ low) with before | same
          · exact (partitioned k _ a m before at_k at_mid).1 compared
          · rw [same, at_mid, Option.some.injEq] at at_k
            exact at_k ▸ compared
      · rename_i compared
        rw [at_mid, Option.map_some', Option.some.injEq] at compared
        refine binarySearchLoop_error partitioned (by omega) (by omega) below (fun k a high at_k => ?_)
          missed
        rcases Nat.lt_or_eq_of_le high with after | same
        · exact (partitioned _ k m a after at_mid at_k).2 compared
        · rw [← same, at_mid, Option.some.injEq] at at_k
          exact at_k ▸ compared
      · cases missed
      · rename_i compared
        simp [at_mid] at compared
    · exact no_eq_of_le cmp l below above (by omega)

theorem binarySearchBy_ok {i : Nat} (found : binarySearchBy cmp l = .ok i) :
    ∃ a, l[i]? = some a ∧ cmp a = .eq :=
  binarySearchLoop_ok cmp l found

theorem binarySearchBy_error {e : Nat} (partitioned : Partitioned cmp l)
    (missed : binarySearchBy cmp l = .error e) : ∀ a ∈ l, cmp a ≠ .eq :=
  binarySearchLoop_error cmp l partitioned le_rfl (by omega) (fun _ _ low _ => absurd low (by omega))
    (fun _ _ high at_k => by simp [List.getElem?_eq_none high] at at_k) missed

end BinarySearch

/-! ## One lookup -/

def AccountAddress.matches (a : AccountAddress) (address : AddressWithBalance) : Bool :=
  a.keyIndex = address.keyIndex && a.internal = address.internal

def AccountAddress.markMatched (a : AccountAddress) (synced : List AddressWithBalance) :
    AccountAddress :=
  { a with used := a.used || synced.any a.matches }

section Marked

variable (a : AccountAddress) (synced : List AddressWithBalance)

@[simp] theorem AccountAddress.keyIndex_markMatched : (a.markMatched synced).keyIndex = a.keyIndex :=
  rfl

@[simp] theorem AccountAddress.internal_markMatched : (a.markMatched synced).internal = a.internal :=
  rfl

@[simp] theorem AccountAddress.matches_markMatched :
    (a.markMatched synced).matches = a.matches := rfl

theorem AccountAddress.markMatched_of_matches {address : AddressWithBalance}
    (member : address ∈ synced) (named : a.matches address) :
    a.markMatched synced = { a with used := true } := by
  simp [AccountAddress.markMatched, List.any_eq_true.mpr ⟨address, member, named⟩]

theorem AccountAddress.markMatched_of_not_matches (unnamed : ∀ address ∈ synced, a.matches address = false) :
    a.markMatched synced = a := by
  have none : synced.any a.matches = false := List.any_eq_false.mpr fun x member => by
    simp [unnamed x member]
  cases a
  simp [AccountAddress.markMatched, none]

theorem AccountAddress.markMatched_append (later : List AddressWithBalance) :
    (a.markMatched synced).markMatched later = a.markMatched (synced ++ later) := by
  rw [AccountAddress.markMatched, matches_markMatched]
  simp [AccountAddress.markMatched, List.any_append, Bool.or_assoc]

end Marked

theorem compare_uint32 (a b : UInt32) : compare a b = compare a.toNat b.toNat := by
  show compareOfLessAndEq a b = compareOfLessAndEq a.toNat b.toNat
  unfold compareOfLessAndEq
  have lt : a < b ↔ a.toNat < b.toNat := Iff.rfl
  have eq : a = b ↔ a.toNat = b.toNat := ⟨congrArg _, UInt32.toNat.inj⟩
  simp only [lt, eq]

theorem compareKey_of_internal {a : AccountAddress} {address : AddressWithBalance}
    (flag : a.internal = address.internal) :
    compareKey a (address.keyIndex, address.internal) = compare a.keyIndex.toNat address.keyIndex.toNat := by
  unfold compareKey
  rw [flag, compare_uint32]
  cases address.internal <;> cases compare a.keyIndex.toNat address.keyIndex.toNat <;> rfl

section Lookup

variable {addresses : List AccountAddress} {address : AddressWithBalance}

theorem rel_of_getElem? {R : AccountAddress → AccountAddress → Prop} (pairwise : addresses.Pairwise R)
    {i j : Nat} {a b : AccountAddress} (before : i < j) (at_i : addresses[i]? = some a)
    (at_j : addresses[j]? = some b) : R a b := by
  obtain ⟨bound_i, rfl⟩ := List.getElem?_eq_some_iff.mp at_i
  obtain ⟨bound_j, rfl⟩ := List.getElem?_eq_some_iff.mp at_j
  exact List.pairwise_iff_getElem.mp pairwise i j bound_i bound_j before

theorem position_eq_of_keyIndex (sorted : addresses.Pairwise (·.keyIndex < ·.keyIndex)) {i j : Nat}
    {a b : AccountAddress} (at_i : addresses[i]? = some a) (at_j : addresses[j]? = some b)
    (same : a.keyIndex = b.keyIndex) : i = j := by
  have equal := congrArg UInt32.toNat same
  rcases Nat.lt_trichotomy i j with before | rfl | after
  · have : a.keyIndex.toNat < b.keyIndex.toNat := rel_of_getElem? sorted before at_i at_j
    omega
  · rfl
  · have : b.keyIndex.toNat < a.keyIndex.toNat := rel_of_getElem? sorted after at_j at_i
    omega

theorem partitioned_compareKey (sorted : addresses.Pairwise (·.keyIndex < ·.keyIndex))
    (flag : ∀ a ∈ addresses, a.internal = address.internal) :
    Partitioned (compareKey · (address.keyIndex, address.internal)) addresses := by
  intro i j a b before at_i at_j
  have ordered : a.keyIndex.toNat < b.keyIndex.toNat := rel_of_getElem? sorted before at_i at_j
  dsimp only
  rw [compareKey_of_internal (flag a (List.getElem?_mem at_i)),
    compareKey_of_internal (flag b (List.getElem?_mem at_j))]
  simp only [compare_lt_iff_lt, compare_gt_iff_gt]
  omega

theorem matches_iff_compareKey {a : AccountAddress} (flag : a.internal = address.internal) :
    a.matches address = true ↔ compareKey a (address.keyIndex, address.internal) = .eq := by
  rw [compareKey_of_internal flag, compare_eq_iff_eq]
  have key : a.keyIndex = address.keyIndex ↔ a.keyIndex.toNat = address.keyIndex.toNat :=
    ⟨congrArg _, UInt32.toNat.inj⟩
  simp [AccountAddress.matches, flag, key]

theorem markAddressUsed_sorted (sorted : addresses.Pairwise (·.keyIndex < ·.keyIndex))
    (flag : ∀ a ∈ addresses, a.internal = address.internal) :
    markAddressUsed addresses address =
      if addresses.any (·.matches address) then .ok (addresses.map (·.markMatched [address]))
      else .error .inputAddressNotFound := by
  unfold markAddressUsed
  split
  · rename_i position found
    obtain ⟨a, at_position, equal⟩ := binarySearchBy_ok _ _ found
    have member := List.getElem?_mem at_position
    have named : a.matches address := (matches_iff_compareKey (flag a member)).mpr equal
    rw [if_pos (List.any_eq_true.mpr ⟨a, member, named⟩)]
    congr 1
    refine List.ext_getElem? fun j => ?_
    rw [List.getElem?_modify, List.getElem?_map]
    by_cases same : position = j
    · subst same
      simp [at_position, a.markMatched_of_matches [address] (List.mem_singleton_self _) named]
    · cases at_j : addresses[j]? with
      | none => simp
      | some b =>
        have unnamed : b.matches address = false := by
          by_contra named_b
          simp only [AccountAddress.matches, Bool.not_eq_false, Bool.and_eq_true,
            decide_eq_true_eq] at named named_b
          exact same (position_eq_of_keyIndex sorted at_position at_j (named.1.trans named_b.1.symm))
        simp [same, b.markMatched_of_not_matches [address] (by simpa using unnamed)]
  · rename_i e missed
    have none := binarySearchBy_error _ _ (partitioned_compareKey sorted flag) missed
    rw [if_neg]
    intro any
    obtain ⟨a, member, named⟩ := List.any_eq_true.mp any
    exact none a member ((matches_iff_compareKey (flag a member)).mp named)

end Lookup

/-! ## The whole marking -/

/-- Each half is sorted strictly by `key_index`, and each entry carries its half's `internal`
flag. -/
structure HalvesSorted (account : Account) : Prop where
  internal_sorted : account.internalAddresses.Pairwise (·.keyIndex < ·.keyIndex)
  public_sorted : account.publicAddresses.Pairwise (·.keyIndex < ·.keyIndex)
  internal_flag : ∀ a ∈ account.internalAddresses, a.internal = true
  public_flag : ∀ a ∈ account.publicAddresses, a.internal = false

def Found (account : Account) (address : AddressWithBalance) : Bool :=
  (if address.internal then account.internalAddresses else account.publicAddresses).any
    (·.matches address)

/-- The marking entry by entry: `used` set on exactly the entries some synced address names,
every entry kept in its place. -/
def markSynced (synced : List AddressWithBalance) (account : Account) : Account :=
  { account with
    internalAddresses := account.internalAddresses.map (·.markMatched synced)
    publicAddresses := account.publicAddresses.map (·.markMatched synced) }

section Marking

variable {account : Account}

theorem markSynced_nil (account : Account) : markSynced [] account = account := by
  have unmarked (a : AccountAddress) : a.markMatched [] = a := a.markMatched_of_not_matches [] (by simp)
  simp [markSynced, unmarked]

theorem markSynced_cons (address : AddressWithBalance) (rest : List AddressWithBalance)
    (account : Account) :
    markSynced (address :: rest) account = markSynced rest (markSynced [address] account) := by
  simp [markSynced, AccountAddress.markMatched_append]

theorem HalvesSorted.markSynced (sorted : HalvesSorted account) (synced : List AddressWithBalance) :
    HalvesSorted (markSynced synced account) where
  internal_sorted := List.pairwise_map.mpr sorted.internal_sorted
  public_sorted := List.pairwise_map.mpr sorted.public_sorted
  internal_flag := by simpa [IotaSdk.Wallet.markSynced] using sorted.internal_flag
  public_flag := by simpa [IotaSdk.Wallet.markSynced] using sorted.public_flag

theorem found_markSynced (synced : List AddressWithBalance) (address : AddressWithBalance) :
    Found (markSynced synced account) address = Found account address := by
  unfold Found markSynced
  split <;> simp [List.any_map, Function.comp_def]

theorem markSynced_single (sorted : HalvesSorted account) (address : AddressWithBalance) :
    markSynced [address] account =
      if address.internal then
        { account with internalAddresses := account.internalAddresses.map (·.markMatched [address]) }
      else
        { account with publicAddresses := account.publicAddresses.map (·.markMatched [address]) } := by
  have keep (l : List AccountAddress) (flags : ∀ a ∈ l, a.internal ≠ address.internal) :
      l.map (·.markMatched [address]) = l := by
    conv_rhs => rw [← List.map_id l]
    exact List.map_congr_left fun a member =>
      a.markMatched_of_not_matches _ (by simp [AccountAddress.matches, flags a member])
  unfold markSynced
  split
  · rename_i internal
    rw [keep account.publicAddresses fun a member => by simp [sorted.public_flag a member, internal]]
  · rename_i internal
    rw [keep account.internalAddresses fun a member => by simp [sorted.internal_flag a member, internal]]

theorem markUsed_cons_sorted (sorted : HalvesSorted account) (address : AddressWithBalance)
    (rest : List AddressWithBalance) :
    markUsed (address :: rest) account =
      if Found account address then markUsed rest (markSynced [address] account)
      else .error .inputAddressNotFound account := by
  rw [markSynced_single sorted]
  by_cases internal : address.internal
  · simp only [markUsed]
    rw [if_pos internal, markAddressUsed_sorted sorted.internal_sorted
      (fun a member => (sorted.internal_flag a member).trans internal.symm)]
    simp only [Found, if_pos internal]
    cases account.internalAddresses.any (·.matches address) <;> rfl
  · simp only [markUsed]
    rw [if_neg internal, markAddressUsed_sorted sorted.public_sorted
      (fun a member => (sorted.public_flag a member).trans (Bool.eq_false_iff.mpr internal).symm)]
    simp only [Found, if_neg internal]
    cases account.publicAddresses.any (·.matches address) <;> rfl

theorem markUsed_all_found : ∀ {account : Account} (synced : List AddressWithBalance),
    HalvesSorted account → (∀ address ∈ synced, Found account address) →
      markUsed synced account = .ok () (markSynced synced account)
  | account, [], _, _ => by rw [markSynced_nil]; rfl
  | account, address :: rest, sorted, found => by
    rw [markUsed_cons_sorted sorted, if_pos (found address (List.mem_cons_self _ _)),
      markSynced_cons address rest]
    exact markUsed_all_found rest (sorted.markSynced _) fun later member =>
      (found_markSynced _ _).trans (found later (List.mem_cons_of_mem _ member))

theorem markUsed_missing : ∀ {account : Account} (synced : List AddressWithBalance),
    HalvesSorted account → (∃ address ∈ synced, Found account address = false) →
      ∃ after, markUsed synced account = .error .inputAddressNotFound after
  | _, [], _, ⟨_, member, _⟩ => absurd member (List.not_mem_nil _)
  | account, address :: rest, sorted, ⟨missing, member, unfound⟩ => by
    rw [markUsed_cons_sorted sorted]
    cases found : Found account address
    · exact ⟨account, rfl⟩
    · rcases List.mem_cons.mp member with rfl | later
      · simp [found] at unfound
      · exact markUsed_missing rest (sorted.markSynced _)
          ⟨missing, later, (found_markSynced _ _).trans unfound⟩

theorem markUsed_error_sorted : ∀ {account after : Account} {e : Error} (synced : List AddressWithBalance),
    HalvesSorted account → markUsed synced account = .error e after →
      ∃ found missing rest, synced = found ++ missing :: rest ∧
        (∀ address ∈ found, Found account address) ∧ Found account missing = false ∧
        after = markSynced found account
  | _, _, _, [], _, failed => by cases failed
  | account, _, _, address :: rest, sorted, failed => by
    rw [markUsed_cons_sorted sorted] at failed
    cases present : Found account address
    · simp only [present, Bool.false_eq_true, if_false] at failed
      cases failed
      exact ⟨[], address, rest, rfl, nofun, present, (markSynced_nil _).symm⟩
    · simp only [present, if_true] at failed
      obtain ⟨found, missing, later, split, all, unfound, rfl⟩ :=
        markUsed_error_sorted rest (sorted.markSynced _) failed
      exact ⟨address :: found, missing, later, congrArg _ split,
        List.forall_mem_cons.mpr ⟨present, fun a member => by simpa [found_markSynced] using all a member⟩,
        (found_markSynced _ _).symm.trans unfound, (markSynced_cons _ _ _).symm⟩

end Marking

theorem updateAccount_marks_synced (hashing : Hashing) {storage : Account → Except Error Unit}
    (saves : ∀ account, storage account ≠ .error .inputAddressNotFound) (input : CommitInput)
    {account : Account} (sorted : HalvesSorted account) :
    ((∃ after, updateAccount hashing storage input account = .error .inputAddressNotFound after) ↔
      ∃ address ∈ input.addressesWithBalance, Found account address = false) ∧
    ∀ marked, markUsed input.addressesWithBalance account = .ok () marked →
      marked = markSynced input.addressesWithBalance account ∧ HalvesSorted marked := by
  by_cases all : ∀ address ∈ input.addressesWithBalance, Found account address
  · have marking := markUsed_all_found _ sorted all
    refine ⟨⟨fun ⟨after, failed⟩ => ?_, fun ⟨address, member, unfound⟩ => ?_⟩, fun marked succeeded => ?_⟩
    · rw [updateAccount_eq, marking] at failed
      rcases saveAccount_cases failed with ⟨_, ⟨⟩⟩ | ⟨_, saved, ⟨⟩⟩
      exact absurd saved (saves _)
    · simp [all address member] at unfound
    · rw [marking] at succeeded
      cases succeeded
      exact ⟨rfl, sorted.markSynced _⟩
  · have missing : ∃ address ∈ input.addressesWithBalance, Found account address = false := by
      simpa using all
    obtain ⟨after, marking⟩ := markUsed_missing _ sorted missing
    refine ⟨⟨fun _ => missing, fun _ => ⟨after, by rw [updateAccount_eq, marking]⟩⟩, fun marked succeeded => ?_⟩
    rw [marking] at succeeded
    cases succeeded

theorem updateAccount_error_state {hashing : Hashing} {storage : Account → Except Error Unit}
    {input : CommitInput} {account after : Account} {e : Error}
    (failed : updateAccount hashing storage input account = .error e after) :
    (e = .inputAddressNotFound ∧
      after = { account with
        internalAddresses := after.internalAddresses, publicAddresses := after.publicAddresses } ∧
      UsedMarked account.internalAddresses after.internalAddresses ∧
      UsedMarked account.publicAddresses after.publicAddresses ∧
      (HalvesSorted account → ∃ found missing rest, input.addressesWithBalance = found ++ missing :: rest ∧
        (∀ address ∈ found, Found account address) ∧ Found account missing = false ∧
        after = markSynced found account)) ∨
    (∃ marked, markUsed input.addressesWithBalance account = .ok () marked ∧
      after = commitWrites hashing input marked ∧ storage after = .error e) := by
  rcases updateAccount_cases failed with ⟨_, _, marking, ⟨⟩⟩ | ⟨marked, marking, ⟨_, ⟨⟩⟩ | ⟨_, saved, ⟨⟩⟩⟩
  · obtain ⟨frame, internal, public, errors⟩ := markUsed_state input.addressesWithBalance account
    rw [marking] at frame internal public
    exact .inl ⟨errors _ _ marking, frame, internal, public,
      fun sorted => markUsed_error_sorted _ sorted marking⟩
  · exact .inr ⟨marked, marking, rfl, saved⟩

theorem sampleAccount_halvesSorted : HalvesSorted (sampleAccount false) :=
  ⟨by decide, by decide, by decide, by decide⟩

theorem updateAccount_error_state_sample :
    ∃ after, updateAccount zeroHashing acceptingStorage missingSecondAddress (sampleAccount false) =
      .error .inputAddressNotFound after ∧
    ((Error.inputAddressNotFound = .inputAddressNotFound ∧
      after = { sampleAccount false with
        internalAddresses := after.internalAddresses, publicAddresses := after.publicAddresses } ∧
      UsedMarked (sampleAccount false).internalAddresses after.internalAddresses ∧
      UsedMarked (sampleAccount false).publicAddresses after.publicAddresses ∧
      (HalvesSorted (sampleAccount false) → ∃ found missing rest,
        missingSecondAddress.addressesWithBalance = found ++ missing :: rest ∧
        (∀ address ∈ found, Found (sampleAccount false) address) ∧
        Found (sampleAccount false) missing = false ∧ after = markSynced found (sampleAccount false))) ∨
    (∃ marked, markUsed missingSecondAddress.addressesWithBalance (sampleAccount false) = .ok () marked ∧
      after = commitWrites zeroHashing missingSecondAddress marked ∧
      acceptingStorage after = .error .inputAddressNotFound)) :=
  ⟨_, updateAccount_missingSecondAddress, updateAccount_error_state updateAccount_missingSecondAddress⟩

theorem acceptingStorage_saves (account : Account) :
    acceptingStorage account ≠ .error .inputAddressNotFound := by
  simp [acceptingStorage]

theorem updateAccount_marks_synced_sample :
    (∀ account, acceptingStorage account ≠ .error .inputAddressNotFound) ∧
    HalvesSorted (sampleAccount false) ∧
    (((∃ after, updateAccount zeroHashing acceptingStorage missingSecondAddress (sampleAccount false) =
        .error .inputAddressNotFound after) ↔
      ∃ address ∈ missingSecondAddress.addressesWithBalance, Found (sampleAccount false) address = false) ∧
    ∀ marked, markUsed missingSecondAddress.addressesWithBalance (sampleAccount false) = .ok () marked →
      marked = markSynced missingSecondAddress.addressesWithBalance (sampleAccount false) ∧
        HalvesSorted marked) :=
  ⟨acceptingStorage_saves, sampleAccount_halvesSorted,
    updateAccount_marks_synced zeroHashing acceptingStorage_saves missingSecondAddress
      sampleAccount_halvesSorted⟩

end IotaSdk.Wallet
