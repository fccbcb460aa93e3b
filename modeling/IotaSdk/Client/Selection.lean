import IotaSdk.Client.Inputs
import Mathlib

/-!
# What `find_inputs` selects

* `sortByAmount_eq_of_stable`: every stable sort by amount, largest first, gives the list the
  model's sort gives, so the model of Rust's `sort_by` is exact.
* `selectInputs_eq`: the greedy loop takes the shortest prefix whose total reaches the amount,
  or all of the list, and panics when the `u64` total of that prefix overflows.
* `sum_le_sum_take_of_subperm`: in a list sorted largest first, no `m` elements sum to more
  than the first `m`; so the greedy prefix has the fewest inputs.
-/

namespace IotaSdk.Client

def amounts (outputs : List (UtxoInput × UInt64)) : List Nat := outputs.map (·.2.toNat)

/-- `S` is `E` sorted by amount, largest first, with equal amounts in `E`'s order. -/
def StableSortDesc (E S : List (UtxoInput × UInt64)) : Prop :=
  S.Sorted amountGe ∧ ∀ v : UInt64, S.filter (·.2 = v) = E.filter (·.2 = v)

/-! ## The sort -/

theorem sortByAmount_stableSortDesc (E : List (UtxoInput × UInt64)) :
    StableSortDesc E (sortByAmount E) := by
  refine ⟨List.sorted_insertionSort amountGe E, fun v => ?_⟩
  have equal : (E.filter (·.2 = v)).Pairwise amountGe :=
    List.pairwise_of_forall_mem_list fun a ha b hb => by
      simp only [List.mem_filter, decide_eq_true_eq] at ha hb
      simp [amountGe, ha.2, hb.2]
  have sub := (List.sublist_insertionSort equal (List.filter_sublist E)).filter (·.2 = v)
  simp only [List.filter_filter, Bool.and_self] at sub
  exact (sub.eq_of_length
    ((List.perm_insertionSort amountGe E).filter _).length_eq.symm).symm

theorem eq_of_sorted_of_filter_eq :
    ∀ {S₁ S₂ : List (UtxoInput × UInt64)}, S₁.Sorted amountGe → S₂.Sorted amountGe →
      (∀ v : UInt64, S₁.filter (·.2 = v) = S₂.filter (·.2 = v)) → S₁ = S₂
  | [], [], _, _, _ => rfl
  | [], b :: _, _, _, same => by simpa using same b.2
  | a :: _, [], _, _, same => by simpa using same a.2
  | a :: t₁, b :: t₂, sorted₁, sorted₂, same => by
    have below {x y : UtxoInput × UInt64} {t : List (UtxoInput × UInt64)}
        (sorted : (y :: t).Sorted amountGe) (member : x ∈ y :: t) : x.2 ≤ y.2 := by
      rcases List.mem_cons.mp member with rfl | member
      · exact UInt64.le_refl _
      · exact List.rel_of_sorted_cons sorted x member
    have mem {x y : UtxoInput × UInt64} {t t' : List (UtxoInput × UInt64)}
        (same : (x :: t).filter (·.2 = x.2) = (y :: t').filter (·.2 = x.2)) : x ∈ y :: t' :=
      (List.mem_filter.mp (same ▸ List.mem_filter.mpr ⟨List.mem_cons_self _ _, by simp⟩)).1
    have key : a.2 = b.2 := UInt64.toNat.inj (Nat.le_antisymm
      ((UInt64.le_iff_toNat _ _).mp (below sorted₂ (mem (same a.2))))
      ((UInt64.le_iff_toNat _ _).mp (below sorted₁ (mem (same b.2).symm))))
    have heads := same a.2
    simp only [List.filter_cons, key, decide_True, ite_true, List.cons.injEq] at heads
    obtain ⟨rfl, tails⟩ := heads
    refine congrArg _ (eq_of_sorted_of_filter_eq sorted₁.of_cons sorted₂.of_cons fun v => ?_)
    by_cases hv : a.2 = v
    · exact hv ▸ tails
    · simpa [List.filter_cons, hv] using same v

theorem sortByAmount_eq_of_stable {E S : List (UtxoInput × UInt64)} (stable : StableSortDesc E S) :
    sortByAmount E = S :=
  eq_of_sorted_of_filter_eq (sortByAmount_stableSortDesc E).1 stable.1 fun v =>
    ((sortByAmount_stableSortDesc E).2 v).trans (stable.2 v).symm

/-! ## The greedy loop -/

@[simp] theorem amounts_cons (input : UtxoInput) (amount : UInt64) (rest : List (UtxoInput × UInt64)) :
    amounts ((input, amount) :: rest) = amount.toNat :: amounts rest := rfl

@[simp] theorem length_amounts (outputs : List (UtxoInput × UInt64)) :
    (amounts outputs).length = outputs.length := List.length_map _ _

theorem amounts_take (outputs : List (UtxoInput × UInt64)) (n : Nat) :
    amounts (outputs.take n) = (amounts outputs).take n := List.map_take _ _ _

@[simp] theorem take_length_amounts (outputs : List (UtxoInput × UInt64)) :
    (amounts outputs).take outputs.length = amounts outputs := by
  rw [← length_amounts, List.take_length]

theorem selectInputs_eq {amount : UInt64} :
    ∀ {P : List (UtxoInput × UInt64)} {total : UInt64} {selected : List UtxoInput} {k : Nat},
      k ≤ P.length → (∀ j < k, total.toNat + ((amounts P).take j).sum < amount.toNat) →
      (k = P.length ∨ amount.toNat ≤ total.toNat + ((amounts P).take k).sum) →
      selectInputs amount P total selected =
        if total.toNat + ((amounts P).take k).sum < UInt64.size then
          .ok (UInt64.ofNat (total.toNat + ((amounts P).take k).sum),
            selected ++ (P.take k).map Prod.fst)
        else .error (.panic "attempt to add with overflow")
  | [], total, selected, k, hk, _, _ => by
    obtain rfl : k = 0 := Nat.le_zero.mp hk
    simp [selectInputs, amounts, total.toNat_lt_size]
  | (input, a) :: rest, total, selected, 0, _, _, stop => by
    have reached : total ≥ amount := by simpa [UInt64.le_iff_toNat] using stop
    simp [selectInputs, reached, total.toNat_lt_size]
  | (input, a) :: rest, total, selected, k + 1, hk, below, stop => by
    have short : ¬(total = amount ∨ total ≥ amount) := by
      have := below 0 (Nat.succ_pos k)
      simp only [List.take_zero, List.sum_nil, Nat.add_zero] at this
      rintro (rfl | reached)
      · exact Nat.lt_irrefl _ this
      · exact absurd ((UInt64.le_iff_toNat _ _).mp reached) (Nat.not_le.mpr this)
    simp only [selectInputs, short, if_false]
    by_cases fits : total.toNat + a.toNat < UInt64.size
    · have added : (total + a).toNat = total.toNat + a.toNat := UInt64.toNat_add_of_lt fits
      have step : selectInputs amount rest (total + a) (selected ++ [input]) = _ :=
        selectInputs_eq (Nat.le_of_succ_le_succ hk)
        (fun j hj => by simpa [added, Nat.add_assoc] using below (j + 1) (Nat.succ_lt_succ hj))
        (by simpa [added, Nat.add_assoc] using stop)
      simp only [checkedAdd, fits, if_true, bind, Except.bind, step, added, amounts_cons,
        List.take_succ_cons, List.sum_cons, List.map_cons, List.append_assoc, List.singleton_append,
        Nat.add_assoc]
    · have over : ¬ total.toNat + (a.toNat + ((amounts rest).take k).sum) < UInt64.size := by omega
      simp [checkedAdd, fits, over, bind, Except.bind]

theorem sum_take_mono (L : List Nat) {j k : Nat} (h : j ≤ k) : (L.take j).sum ≤ (L.take k).sum := by
  rw [← Nat.min_eq_left h, ← List.take_take]
  exact (List.take_sublist _ _).sum_le_sum fun _ _ => Nat.zero_le _

theorem exists_stop (P : List (UtxoInput × UInt64)) (amount : Nat) :
    ∃ k ≤ P.length, (∀ j < k, ((amounts P).take j).sum < amount) ∧
      (k = P.length ∨ amount ≤ ((amounts P).take k).sum) := by
  have stops : ∃ k, k ≤ P.length ∧ (k = P.length ∨ amount ≤ ((amounts P).take k).sum) :=
    ⟨_, le_rfl, .inl rfl⟩
  refine ⟨Nat.find stops, (Nat.find_spec stops).1, fun j hj => ?_, (Nat.find_spec stops).2⟩
  have early := Nat.find_min stops hj
  simp only [not_and, not_or, not_le] at early
  exact (early (hj.le.trans (Nat.find_spec stops).1)).2

theorem selectFromOutputs_eq {E P : List (UtxoInput × UInt64)} {amount : UInt64} {k : Nat}
    (candidates : (sortByAmount E).take inputCountMax = P) (hk : k ≤ P.length)
    (below : ∀ j < k, ((amounts P).take j).sum < amount.toNat)
    (stop : k = P.length ∨ amount.toNat ≤ ((amounts P).take k).sum) :
    selectFromOutputs E amount =
      if ((amounts P).take k).sum < UInt64.size then
        if ((amounts P).take k).sum < amount.toNat then
          .error (.notEnoughBalance (UInt64.ofNat ((amounts P).take k).sum) amount)
        else .ok ((P.take k).map Prod.fst)
      else .error (.panic "attempt to add with overflow") := by
  unfold selectFromOutputs
  rw [candidates, selectInputs_eq hk (by simpa using below) (by simpa using stop)]
  simp only [UInt64.toNat_zero, Nat.zero_add, List.nil_append]
  split_ifs with fits short
  · have back := UInt64.toNat_ofNat_of_lt fits
    simp [bind, Except.bind, UInt64.lt_iff_toNat, back, short]
  · have back := UInt64.toNat_ofNat_of_lt fits
    simp [bind, Except.bind, UInt64.lt_iff_toNat, back, short]
  · rfl

/-! ## The fewest inputs -/

theorem sum_take_succ_le {L : List Nat} {a : Nat} (bound : ∀ x ∈ L, x ≤ a) (m : Nat) :
    (L.take (m + 1)).sum ≤ (L.take m).sum + a := by
  rw [List.take_succ, List.sum_append]
  cases h : L[m]? with
  | none => simp
  | some x => simpa using bound x (List.getElem?_mem h)

/-- The exchange argument: in a list sorted largest first, any `m` of its elements sum to at
most its first `m`. -/
theorem sum_le_sum_take_of_subperm :
    ∀ {L T : List Nat}, L.Sorted (· ≥ ·) → T.Subperm L → T.sum ≤ (L.take T.length).sum
  | [], T, _, sub => by simp [List.subperm_nil.mp sub]
  | a :: L, T, sorted, sub => by
    by_cases ha : a ∈ T
    · have ih := sum_le_sum_take_of_subperm sorted.of_cons (by simpa using sub.erase a)
      have length : T.length = (T.erase a).length + 1 := by
        rw [List.length_erase_of_mem ha]
        exact (Nat.succ_pred_eq_of_pos (List.length_pos_of_mem ha)).symm
      rw [(List.perm_cons_erase ha).sum_eq, length, List.take_succ_cons, List.sum_cons,
        List.sum_cons]
      omega
    · have ih := sum_le_sum_take_of_subperm sorted.of_cons
        (by simpa [List.erase_of_not_mem ha] using sub.erase a)
      cases hT : T.length with
      | zero => simp [List.length_eq_zero.mp hT]
      | succ m =>
        rw [hT] at ih
        have step := sum_take_succ_le (fun x hx => List.rel_of_sorted_cons sorted x hx) m
        rw [List.take_succ_cons, List.sum_cons]
        omega

theorem amounts_sortByAmount_sorted (E : List (UtxoInput × UInt64)) :
    (amounts (sortByAmount E)).Sorted (· ≥ ·) :=
  (List.sorted_insertionSort amountGe E).map _ fun _ _ h => (UInt64.le_iff_toNat _ _).mp h

theorem amounts_sortByAmount_perm (E : List (UtxoInput × UInt64)) :
    (amounts (sortByAmount E)).Perm (amounts E) :=
  (List.perm_insertionSort amountGe E).map _

variable {conversions : Conversions}

theorem findInputs_of_fetch {addresses : List String} {amount : UInt64} {node : Node}
    {log log' : List Call} {E : List (UtxoInput × UInt64)}
    (fetched : fetchBasicOutputs conversions addresses node log = (.ok E, log')) :
    findInputs conversions addresses amount node log = (selectFromOutputs E amount, log') := by
  unfold findInputs
  rw [ClientM.bind_of_ok _ fetched]
  cases selectFromOutputs E amount <;> rfl

/-! ## `find_inputs` -/

def txOf (k : UInt8) : TransactionId := ⟨List.replicate 32 k, List.length_replicate 32 k⟩

def outputIdOf (response : OutputResponse) : OutputId :=
  ⟨response.metadata.transactionId, response.metadata.outputIndex⟩

def basicOutputAt (index : UInt16) (amount : UInt64) : OutputResponse :=
  ⟨⟨txOf 0, index, false⟩, ⟨.basic, amount, [.address]⟩⟩

def inputAt (index : UInt16) : UtxoInput := ⟨⟨txOf 0, index⟩⟩

def plainConversions : Conversions := ⟨fun output _ => .ok output.amount, fun id index => .ok ⟨⟨id, index⟩⟩⟩

def ledgerNode (ledger : List (String × OutputResponse)) : Node := fun _ request =>
  match request with
  | .basicOutputIds queryParameters =>
    .ok ((ledger.filter fun entry => queryParameters.head? = some (.address entry.1)).map
      fun entry => outputIdOf entry.2)
  | .getOutputs outputIds =>
    .ok (outputIds.filterMap fun id => (ledger.find? fun entry => outputIdOf entry.2 = id).map (·.2))
  | .getInfo => .ok ⟨none⟩
  | .systemTime => some 0
  | .getLocalPow => true
  | .sleep _ => ()
  | .getBlock _ | .getIncludedBlock _ | .finishPow _ | .doPow .. => .error (.node "unexpected request")
  | .getBlockMetadata _ | .getTips | .postBlockRaw _ | .getMinPowScore =>
    .error (.node "unexpected request")

def scenarioLedger : List (String × OutputResponse) :=
  [("addrA", basicOutputAt 0 600), ("addrA", basicOutputAt 1 400), ("addrA", basicOutputAt 2 400),
    ("addrA", basicOutputAt 3 300)]

def scenarioPool : List (UtxoInput × UInt64) :=
  [(inputAt 0, 600), (inputAt 1, 400), (inputAt 2, 400), (inputAt 3, 300)]

theorem fetchBasicOutputs_scenario :
    fetchBasicOutputs plainConversions ["addrA"] (ledgerNode scenarioLedger) [] =
      (.ok scenarioPool, (fetchBasicOutputs plainConversions ["addrA"] (ledgerNode scenarioLedger) []).2) :=
  Prod.ext (by decide) rfl

section FindInputs

variable {addresses : List String} {amount : UInt64} {node : Node} {log log' : List Call}
  {E : List (UtxoInput × UInt64)}

theorem findInputs_eq_greedy_prefix {S : List (UtxoInput × UInt64)}
    (fetched : fetchBasicOutputs conversions addresses node log = (.ok E, log'))
    (stable : StableSortDesc E S) :
    (∀ k ≤ (S.take inputCountMax).length,
      amount.toNat ≤ ((amounts (S.take inputCountMax)).take k).sum →
      (∀ j < k, ((amounts (S.take inputCountMax)).take j).sum < amount.toNat) →
      findInputs conversions addresses amount node log =
        (if ((amounts (S.take inputCountMax)).take k).sum < UInt64.size then
          .ok (((S.take inputCountMax).take k).map Prod.fst)
        else .error (.panic "attempt to add with overflow"), log')) ∧
    ((amounts (S.take inputCountMax)).sum < amount.toNat →
      findInputs conversions addresses amount node log =
        (.error (.notEnoughBalance (UInt64.ofNat (amounts (S.take inputCountMax)).sum) amount), log')) := by
  have candidates := congrArg (List.take inputCountMax) (sortByAmount_eq_of_stable stable)
  rw [findInputs_of_fetch fetched]
  refine ⟨fun k hk reach least => ?_, fun short => ?_⟩
  · rw [selectFromOutputs_eq candidates hk least (.inr reach)]
    split_ifs with fits short
    · exact absurd reach (Nat.not_le.mpr short)
    · rfl
    · rfl
  · have below : ∀ j < (S.take inputCountMax).length,
        ((amounts (S.take inputCountMax)).take j).sum < amount.toNat := fun j hj =>
      (sum_take_mono _ hj.le).trans_lt (by rwa [take_length_amounts])
    rw [selectFromOutputs_eq candidates le_rfl below (.inl rfl), take_length_amounts,
      if_pos (short.trans amount.toNat_lt_size), if_pos short]

theorem findInputs_eq_greedy_prefix_scenario :
    fetchBasicOutputs plainConversions ["addrA"] (ledgerNode scenarioLedger) [] =
      (.ok scenarioPool, (fetchBasicOutputs plainConversions ["addrA"] (ledgerNode scenarioLedger) []).2) ∧
    StableSortDesc scenarioPool (sortByAmount scenarioPool) ∧
    ((∀ k ≤ ((sortByAmount scenarioPool).take inputCountMax).length,
      (1000 : UInt64).toNat ≤ ((amounts ((sortByAmount scenarioPool).take inputCountMax)).take k).sum →
      (∀ j < k, ((amounts ((sortByAmount scenarioPool).take inputCountMax)).take j).sum < (1000 : UInt64).toNat) →
      findInputs plainConversions ["addrA"] 1000 (ledgerNode scenarioLedger) [] =
        (if ((amounts ((sortByAmount scenarioPool).take inputCountMax)).take k).sum < UInt64.size then
          .ok ((((sortByAmount scenarioPool).take inputCountMax).take k).map Prod.fst)
        else .error (.panic "attempt to add with overflow"),
          (fetchBasicOutputs plainConversions ["addrA"] (ledgerNode scenarioLedger) []).2)) ∧
    ((amounts ((sortByAmount scenarioPool).take inputCountMax)).sum < (1000 : UInt64).toNat →
      findInputs plainConversions ["addrA"] 1000 (ledgerNode scenarioLedger) [] =
        (.error (.notEnoughBalance
          (UInt64.ofNat (amounts ((sortByAmount scenarioPool).take inputCountMax)).sum) 1000),
          (fetchBasicOutputs plainConversions ["addrA"] (ledgerNode scenarioLedger) []).2))) :=
  ⟨fetchBasicOutputs_scenario, sortByAmount_stableSortDesc _,
    findInputs_eq_greedy_prefix fetchBasicOutputs_scenario (sortByAmount_stableSortDesc _)⟩

/-- Two outputs of `2^63` each: their exact total reaches `2^64 - 1`, their `u64` total
overflows. -/
def overflowLedger : List (String × OutputResponse) :=
  [("addrA", basicOutputAt 0 9223372036854775808), ("addrA", basicOutputAt 1 9223372036854775808)]

theorem findInputs_overflowLedger :
    ((findInputs plainConversions ["addrA"] 18446744073709551615).run (ledgerNode overflowLedger)).1 =
      .error (.panic "attempt to add with overflow") := by
  decide

theorem findInputs_fewest_inputs
    (fetched : fetchBasicOutputs conversions addresses node log = (.ok E, log')) :
    (∀ R, (findInputs conversions addresses amount node log).1 = .ok R →
      ∃ S, S.Subperm E ∧ R = S.map Prod.fst ∧ amount.toNat ≤ (amounts S).sum ∧
        ∀ T : List Nat, T.Subperm (amounts E) → T.length < R.length → T.sum < amount.toNat) ∧
    (∀ found required,
      (findInputs conversions addresses amount node log).1 = .error (.notEnoughBalance found required) →
      ∀ T : List Nat, T.Subperm (amounts E) → T.length ≤ inputCountMax → T.sum < amount.toNat) := by
  rw [findInputs_of_fetch fetched]
  obtain ⟨k, hk, least, stop⟩ := exists_stop ((sortByAmount E).take inputCountMax) amount.toNat
  rw [selectFromOutputs_eq rfl hk least stop]
  have largest {T : List Nat} (sub : T.Subperm (amounts E)) :=
    sum_le_sum_take_of_subperm (amounts_sortByAmount_sorted E)
      (sub.trans (amounts_sortByAmount_perm E).symm.subperm)
  have taken (m : Nat) : (amounts ((sortByAmount E).take inputCountMax)).take m =
      (amounts (sortByAmount E)).take (min m inputCountMax) := by
    rw [amounts_take, List.take_take]
  refine ⟨fun R result => ?_, fun found required result T sub few => ?_⟩
  · split_ifs at result with fits short
    cases result
    have reaches : amount.toNat ≤ (amounts (((sortByAmount E).take inputCountMax).take k)).sum := by
      rw [amounts_take]
      omega
    refine ⟨_, ((List.take_sublist _ _).trans (List.take_sublist _ _)).subperm.trans
      (List.perm_insertionSort amountGe E).subperm, rfl, reaches, fun T sub fewer => ?_⟩
    have length : (((sortByAmount E).take inputCountMax).take k).length = k := by
      simpa using hk
    rw [List.length_map, length] at fewer
    have inside : T.length ≤ inputCountMax := by
      have := hk.trans (List.length_take_le _ _)
      omega
    calc T.sum ≤ ((amounts (sortByAmount E)).take T.length).sum := largest sub
      _ = ((amounts ((sortByAmount E).take inputCountMax)).take T.length).sum := by
        rw [taken, Nat.min_eq_left inside]
      _ < amount.toNat := least _ fewer
  · split_ifs at result with fits short <;> cases result
    have all : k = ((sortByAmount E).take inputCountMax).length :=
      stop.resolve_right (Nat.not_le.mpr short)
    calc T.sum ≤ ((amounts (sortByAmount E)).take T.length).sum := largest sub
      _ ≤ ((amounts (sortByAmount E)).take inputCountMax).sum := sum_take_mono _ few
      _ = ((amounts ((sortByAmount E).take inputCountMax)).take k).sum := by
        rw [all, take_length_amounts, amounts_take]
      _ < amount.toNat := short

theorem findInputs_fewest_inputs_scenario :
    fetchBasicOutputs plainConversions ["addrA"] (ledgerNode scenarioLedger) [] =
      (.ok scenarioPool, (fetchBasicOutputs plainConversions ["addrA"] (ledgerNode scenarioLedger) []).2) ∧
    (∀ R, (findInputs plainConversions ["addrA"] 1001 (ledgerNode scenarioLedger) []).1 = .ok R →
      ∃ S, S.Subperm scenarioPool ∧ R = S.map Prod.fst ∧ (1001 : UInt64).toNat ≤ (amounts S).sum ∧
        ∀ T : List Nat, T.Subperm (amounts scenarioPool) → T.length < R.length →
          T.sum < (1001 : UInt64).toNat) ∧
    (∀ found required,
      (findInputs plainConversions ["addrA"] 1001 (ledgerNode scenarioLedger) []).1 =
        .error (.notEnoughBalance found required) →
      ∀ T : List Nat, T.Subperm (amounts scenarioPool) → T.length ≤ inputCountMax →
        T.sum < (1001 : UInt64).toNat) :=
  ⟨fetchBasicOutputs_scenario, findInputs_fewest_inputs fetchBasicOutputs_scenario⟩

theorem findInputs_repeated_address :
    ((findInputs plainConversions ["addrA", "addrA"] 20).run
      (ledgerNode [("addrA", basicOutputAt 0 10)])).1 = .ok [inputAt 0, inputAt 0] := by
  decide

end FindInputs

end IotaSdk.Client
