import IotaSdk.Types
import Mathlib.Data.Finset.Basic
import Mathlib.Data.List.Sort

/-!
# What to burn, and its DTO

`Burn` names the accounts, NFTs and foundries a transaction destroys, and the amounts of native
tokens. Its DTO writes each collection as `Option`, `None` where the collection is empty. A
`HashSet` is a `Finset`, and a `BTreeMap` its entries in ascending key order, each key once.

* `fromIter_iter`: a map rebuilt from its own iteration is the map.
* `get_addNativeTokens`: after a run of `add_native_token` calls each token has the amount of its
  last call.
* `setNativeTokens_iteration_order`: `set_native_tokens` burns exactly the pairs of the
  `HashMap`, whatever order it iterates them in.
* `burnDto_round_trip`: `Burn::from(BurnDto::from(&b)) = b` for every burn, and
  `BurnDto::from(&Burn::from(d)) = d` exactly for the DTOs with no `Some` of an empty
  collection.
-/

namespace IotaSdk

/-! ## Rust's `BTreeMap` -/

/-- The entries of a `BTreeMap`, in ascending key order, each key once. -/
@[ext] structure BTreeMap (K V : Type) [LinearOrder K] where
  entries : List (K × V)
  sorted : entries.Pairwise (·.1 < ·.1)

namespace BTreeMap

variable {K V : Type} [LinearOrder K]

instance [DecidableEq V] : DecidableEq (BTreeMap K V) := fun a b =>
  decidable_of_iff (a.entries = b.entries) BTreeMap.ext_iff.symm

instance : EmptyCollection (BTreeMap K V) := ⟨⟨[], List.Pairwise.nil⟩⟩

@[simp] theorem entries_empty : (∅ : BTreeMap K V).entries = [] := rfl

theorem eq_empty_iff {m : BTreeMap K V} : m = ∅ ↔ m.entries = [] := BTreeMap.ext_iff

def insertEntry (key : K) (value : V) : List (K × V) → List (K × V)
  | [] => [(key, value)]
  | (k, v) :: rest =>
    match compare key k with
    | .lt => (key, value) :: (k, v) :: rest
    | .eq => (k, value) :: rest
    | .gt => (k, v) :: insertEntry key value rest

theorem key_mem_insertEntry {key : K} {value : V} :
    ∀ {l : List (K × V)} {e : K × V}, e ∈ insertEntry key value l → e.1 = key ∨ ∃ v, (e.1, v) ∈ l
  | [], e, member => .inl (by simp_all [insertEntry])
  | (k, v) :: rest, e, member => by
    simp only [insertEntry] at member
    split at member
    · rcases List.mem_cons.mp member with rfl | later
      · exact .inl rfl
      · exact .inr ⟨e.2, later⟩
    · rcases List.mem_cons.mp member with rfl | later
      · exact .inr ⟨v, List.mem_cons_self _ _⟩
      · exact .inr ⟨e.2, List.mem_cons_of_mem _ later⟩
    · rcases List.mem_cons.mp member with rfl | later
      · exact .inr ⟨v, List.mem_cons_self _ _⟩
      · rcases key_mem_insertEntry later with same | ⟨w, older⟩
        · exact .inl same
        · exact .inr ⟨w, List.mem_cons_of_mem _ older⟩

theorem insertEntry_sorted (key : K) (value : V) :
    ∀ {l : List (K × V)}, l.Pairwise (·.1 < ·.1) → (insertEntry key value l).Pairwise (·.1 < ·.1)
  | [], _ => List.pairwise_singleton _ _
  | (k, v) :: rest, sorted => by
    have ⟨above, sorted_rest⟩ := List.pairwise_cons.mp sorted
    simp only [insertEntry]
    split
    · rename_i compared
      have below : key < k := compare_lt_iff_lt.mp compared
      refine List.Pairwise.cons (fun e member => ?_) sorted
      rcases List.mem_cons.mp member with rfl | later
      · exact below
      · exact below.trans (above e later)
    · exact List.Pairwise.cons above sorted_rest
    · rename_i compared
      have after : k < key := compare_gt_iff_gt.mp compared
      refine List.Pairwise.cons (fun e member => ?_) (insertEntry_sorted key value sorted_rest)
      rcases key_mem_insertEntry member with same | ⟨w, older⟩
      · exact same ▸ after
      · exact above (e.1, w) older

theorem insertEntry_of_lt (key : K) (value : V) :
    ∀ {l : List (K × V)}, (∀ e ∈ l, e.1 < key) → insertEntry key value l = l ++ [(key, value)]
  | [], _ => rfl
  | (k, v) :: rest, below => by
    have compared : compare key k = .gt := compare_gt_iff_gt.mpr (below _ (List.mem_cons_self _ _))
    simp only [insertEntry, compared, List.cons_append,
      insertEntry_of_lt key value fun e member => below e (List.mem_cons_of_mem _ member)]

def insert (m : BTreeMap K V) (key : K) (value : V) : BTreeMap K V :=
  ⟨insertEntry key value m.entries, insertEntry_sorted key value m.sorted⟩

/-- `BTreeMap::from_iter`. Rust sorts the pairs and builds the tree keeping the last value of a
key, which is the map that inserting them one after another gives. -/
def fromIter (iter : List (K × V)) : BTreeMap K V :=
  iter.foldl (fun m (k, v) => m.insert k v) ∅

def iter (m : BTreeMap K V) : List (K × V) := m.entries

def isEmpty (m : BTreeMap K V) : Bool := m.entries.isEmpty

theorem isEmpty_eq_decide [DecidableEq V] (m : BTreeMap K V) : m.isEmpty = decide (m = ∅) := by
  rw [isEmpty, Bool.eq_iff_iff, decide_eq_true_iff, eq_empty_iff, List.isEmpty_iff]

theorem foldl_insert_of_lt :
    ∀ {l : List (K × V)} (m : BTreeMap K V), l.Pairwise (·.1 < ·.1) →
      (∀ e ∈ m.entries, ∀ f ∈ l, e.1 < f.1) →
      (l.foldl (fun m (k, v) => m.insert k v) m).entries = m.entries ++ l
  | [], m, _, _ => (List.append_nil _).symm
  | (k, v) :: rest, m, sorted, below => by
    have ⟨above, sorted_rest⟩ := List.pairwise_cons.mp sorted
    have appended : (m.insert k v).entries = m.entries ++ [(k, v)] :=
      insertEntry_of_lt k v fun e member => below e member _ (List.mem_cons_self _ _)
    rw [List.foldl_cons, foldl_insert_of_lt (m.insert k v) sorted_rest, appended,
      List.append_assoc, List.singleton_append]
    intro e member f later
    rw [appended] at member
    rcases List.mem_append.mp member with older | newer
    · exact below e older f (List.mem_cons_of_mem _ later)
    · rw [List.mem_singleton.mp newer]
      exact above f later

theorem fromIter_iter (m : BTreeMap K V) : fromIter m.iter = m :=
  BTreeMap.ext (foldl_insert_of_lt ∅ m.sorted nofun)

/-! ### The map as a partial function -/

def get (m : BTreeMap K V) (key : K) : Option V := m.entries.lookup key

theorem lookup_cons_ite (k k' : K) (v : V) (l : List (K × V)) :
    ((k', v) :: l).lookup k = if k = k' then some v else l.lookup k := by
  simp only [List.lookup_cons]
  split <;> simp_all

theorem lookup_insertEntry (key k : K) (value : V) :
    ∀ l : List (K × V), (insertEntry key value l).lookup k = if k = key then some value else l.lookup k
  | [] => lookup_cons_ite _ _ _ _
  | (k', v) :: rest => by
    simp only [insertEntry]
    split
    · rw [lookup_cons_ite]
    · rename_i compared
      rw [compare_eq_iff_eq.mp compared, lookup_cons_ite, lookup_cons_ite]
      split <;> rfl
    · rename_i compared
      have after : k' < key := compare_gt_iff_gt.mp compared
      rw [lookup_cons_ite, lookup_cons_ite, lookup_insertEntry key k value rest]
      by_cases same : k = k'
      · simp [same, after.ne]
      · simp [same]

@[simp] theorem get_insert (m : BTreeMap K V) (key k : K) (value : V) :
    (m.insert key value).get k = if k = key then some value else m.get k :=
  lookup_insertEntry key k value m.entries

@[simp] theorem get_empty (k : K) : (∅ : BTreeMap K V).get k = none := rfl

theorem get_foldl_insert (k : K) :
    ∀ (l : List (K × V)) (m : BTreeMap K V),
      (l.foldl (fun m (k, v) => m.insert k v) m).get k = (l.reverse.lookup k).or (m.get k)
  | [], _ => rfl
  | (k', v) :: rest, m => by
    rw [List.foldl_cons, get_foldl_insert k rest, List.reverse_cons, List.lookup_append,
      Option.or_assoc, get_insert, lookup_cons_ite]
    split <;> rfl

theorem get_fromIter (l : List (K × V)) (k : K) : (fromIter l).get k = l.reverse.lookup k := by
  rw [fromIter, get_foldl_insert, get_empty, Option.or_none]

theorem mem_iff_lookup {k : K} {v : V} :
    ∀ {l : List (K × V)}, (l.map Prod.fst).Nodup → ((k, v) ∈ l ↔ l.lookup k = some v)
  | [], _ => by simp
  | (k', v') :: rest, nodup => by
    rw [List.map_cons, List.nodup_cons] at nodup
    rw [List.mem_cons, lookup_cons_ite]
    by_cases same : k = k'
    · subst same
      have absent : (k, v) ∉ rest := fun member => nodup.1 (List.mem_map.mpr ⟨_, member, rfl⟩)
      simp [absent, eq_comm]
    · simp [same, mem_iff_lookup nodup.2]

theorem keys_nodup (m : BTreeMap K V) : (m.entries.map Prod.fst).Nodup :=
  (List.pairwise_map.mpr m.sorted).imp ne_of_lt

theorem fromIter_perm {l : List (K × V)} (nodup : (l.map Prod.fst).Nodup) : (fromIter l).entries.Perm l := by
  have reversed : (l.reverse.map Prod.fst).Nodup := by
    rw [List.map_reverse]
    exact List.nodup_reverse.mpr nodup
  refine (List.perm_ext_iff_of_nodup ((keys_nodup _).of_map _) (nodup.of_map _)).mpr fun (k, v) => ?_
  rw [mem_iff_lookup (keys_nodup _), ← get, get_fromIter, ← mem_iff_lookup reversed, List.mem_reverse]

instance : IsAntisymm (K × V) (·.1 < ·.1) :=
  ⟨fun _ _ below above => absurd (below.trans above) (lt_irrefl _)⟩

theorem eq_of_perm {m m' : BTreeMap K V} (same : m.entries.Perm m'.entries) : m = m' :=
  BTreeMap.ext (List.eq_of_perm_of_sorted same m.sorted m'.sorted)

end BTreeMap

/-- The pairs a `HashMap` iterates over: each key once, in an order the map does not fix. -/
structure HashMap (K V : Type) where
  iter : List (K × V)
  nodup : (iter.map Prod.fst).Nodup

/-! ## The burn and its DTO -/

/-- Modelled from the spec: an account id, 32 bytes. -/
structure AccountId where
  bytes : List UInt8
  length_bytes : bytes.length = 32
  deriving DecidableEq

/-- Modelled from the spec: an NFT id, 32 bytes. -/
structure NftId where
  bytes : List UInt8
  length_bytes : bytes.length = 32
  deriving DecidableEq

/-- Modelled from the spec: a foundry id, 38 bytes. -/
structure FoundryId where
  bytes : List UInt8
  length_bytes : bytes.length = 38
  deriving DecidableEq

/-- Modelled from the spec: a token id, 38 bytes, ordered as Rust orders byte arrays:
lexicographically, which on one length is the order of the big-endian value. The id is that
value. -/
@[ext] structure TokenId where
  value : Nat
  value_lt : value < 2 ^ 304

instance : LinearOrder TokenId := LinearOrder.lift' TokenId.value fun _ _ => TokenId.ext

def U256 : Type := BitVec 256

instance : DecidableEq U256 := inferInstanceAs (DecidableEq (BitVec 256))

structure Burn where
  accounts : Finset AccountId
  nfts : Finset NftId
  foundries : Finset FoundryId
  nativeTokens : BTreeMap TokenId U256
  deriving DecidableEq

namespace Burn

def new : Burn := ⟨∅, ∅, ∅, ∅⟩

def addAccount (self : Burn) (accountId : AccountId) : Burn :=
  { self with accounts := insert accountId self.accounts }

def setAccounts (self : Burn) (accounts : Finset AccountId) : Burn := { self with accounts }

def addNft (self : Burn) (nftId : NftId) : Burn := { self with nfts := insert nftId self.nfts }

def setNfts (self : Burn) (nfts : Finset NftId) : Burn := { self with nfts }

def addFoundry (self : Burn) (foundryId : FoundryId) : Burn :=
  { self with foundries := insert foundryId self.foundries }

def setFoundries (self : Burn) (foundries : Finset FoundryId) : Burn := { self with foundries }

def addNativeToken (self : Burn) (tokenId : TokenId) (amount : U256) : Burn :=
  { self with nativeTokens := self.nativeTokens.insert tokenId amount }

def setNativeTokens (self : Burn) (nativeTokens : HashMap TokenId U256) : Burn :=
  { self with
    nativeTokens := BTreeMap.fromIter (nativeTokens.iter.map fun (tokenId, amount) => (tokenId, amount)) }

def ofFoundryId (id : FoundryId) : Burn := new.addFoundry id

def ofAccountId (id : AccountId) : Burn := new.addAccount id

def ofNftId (id : NftId) : Burn := new.addNft id

theorem nativeTokens_foldl_addNativeToken :
    ∀ (calls : List (TokenId × U256)) (self : Burn),
      (calls.foldl (fun burn (tokenId, amount) => burn.addNativeToken tokenId amount) self).nativeTokens =
        calls.foldl (fun m (k, v) => m.insert k v) self.nativeTokens
  | [], _ => rfl
  | _ :: calls, _ => nativeTokens_foldl_addNativeToken calls _

theorem get_addNativeTokens (self : Burn) (calls : List (TokenId × U256)) (tokenId : TokenId) :
    (calls.foldl (fun burn (tokenId, amount) => burn.addNativeToken tokenId amount) self).nativeTokens.get
        tokenId =
      (calls.reverse.lookup tokenId).or (self.nativeTokens.get tokenId) := by
  rw [nativeTokens_foldl_addNativeToken, BTreeMap.get_foldl_insert]

theorem setNativeTokens_iteration_order (self : Burn) (nativeTokens other : HashMap TokenId U256)
    (same : nativeTokens.iter.Perm other.iter) :
    (self.setNativeTokens nativeTokens).nativeTokens.entries.Perm nativeTokens.iter ∧
      self.setNativeTokens nativeTokens = self.setNativeTokens other := by
  have copied (m : HashMap TokenId U256) :
      (m.iter.map fun (tokenId, amount) => (tokenId, amount)) = m.iter :=
    List.map_id'' (fun _ => rfl) _
  have collected (m : HashMap TokenId U256) :
      (self.setNativeTokens m).nativeTokens.entries.Perm m.iter := by
    simp only [setNativeTokens, copied]
    exact BTreeMap.fromIter_perm m.nodup
  refine ⟨collected nativeTokens, ?_⟩
  simp only [setNativeTokens, Burn.mk.injEq, true_and]
  exact BTreeMap.eq_of_perm ((collected nativeTokens).trans (same.trans (collected other).symm))

set_option exponentiation.threshold 304 in
def sampleTokens (swapped : Bool) : HashMap TokenId U256 :=
  let first : TokenId × U256 := (⟨0, by decide⟩, BitVec.ofNat 256 5)
  let second : TokenId × U256 := (⟨1, by decide⟩, BitVec.ofNat 256 7)
  if swapped then ⟨[second, first], by decide⟩ else ⟨[first, second], by decide⟩

theorem setNativeTokens_iteration_order_sample :
    (new.setNativeTokens (sampleTokens false)).nativeTokens.entries.Perm (sampleTokens false).iter ∧
      new.setNativeTokens (sampleTokens false) = new.setNativeTokens (sampleTokens true) :=
  setNativeTokens_iteration_order new _ _ (List.Perm.swap _ _ _)

end Burn

@[ext] structure BurnDto where
  accounts : Option (Finset AccountId)
  nfts : Option (Finset NftId)
  foundries : Option (Finset FoundryId)
  nativeTokens : Option (BTreeMap TokenId U256)
  deriving DecidableEq

def thenSome {α : Type} (condition : Bool) (value : α) : Option α :=
  if condition then some value else none

def BurnDto.fromBurn (value : Burn) : BurnDto where
  accounts := thenSome (!decide (value.accounts = ∅)) value.accounts
  nfts := thenSome (!decide (value.nfts = ∅)) value.nfts
  foundries := thenSome (!decide (value.foundries = ∅)) value.foundries
  nativeTokens := thenSome (!value.nativeTokens.isEmpty)
    (BTreeMap.fromIter (value.nativeTokens.iter.map fun (tokenId, amount) => (tokenId, amount)))

def Burn.fromBurnDto (value : BurnDto) : Burn where
  accounts := value.accounts.getD ∅
  nfts := value.nfts.getD ∅
  foundries := value.foundries.getD ∅
  nativeTokens := value.nativeTokens.getD ∅

/-! ## One field -/

section Field

variable {α : Type} [EmptyCollection α] [DecidableEq α]

theorem getD_thenSome (x : α) : (thenSome (!decide (x = ∅)) x).getD ∅ = x := by
  by_cases empty : x = ∅ <;> simp [thenSome, empty]

theorem thenSome_getD (o : Option α) :
    thenSome (!decide (o.getD ∅ = ∅)) (o.getD ∅) = o ↔ o ≠ some ∅ := by
  cases o with
  | none => simp [thenSome]
  | some x => by_cases empty : x = ∅ <;> simp [thenSome, empty]

end Field

theorem nativeTokens_fromBurn (value : Burn) :
    (BurnDto.fromBurn value).nativeTokens =
      thenSome (!decide (value.nativeTokens = ∅)) value.nativeTokens := by
  have copied : (value.nativeTokens.iter.map fun (tokenId, amount) => (tokenId, amount)) =
      value.nativeTokens.iter :=
    List.map_id'' (fun _ => rfl) _
  rw [BurnDto.fromBurn, copied, BTreeMap.fromIter_iter, BTreeMap.isEmpty_eq_decide]

theorem burnDto_round_trip :
    (∀ b : Burn, Burn.fromBurnDto (BurnDto.fromBurn b) = b) ∧
    ∀ d : BurnDto, BurnDto.fromBurn (Burn.fromBurnDto d) = d ↔
      d.accounts ≠ some ∅ ∧ d.nfts ≠ some ∅ ∧ d.foundries ≠ some ∅ ∧ d.nativeTokens ≠ some ∅ := by
  constructor
  · intro b
    rw [Burn.fromBurnDto, nativeTokens_fromBurn]
    simp only [BurnDto.fromBurn, getD_thenSome]
  · intro d
    rw [BurnDto.ext_iff, nativeTokens_fromBurn]
    simp only [BurnDto.fromBurn, Burn.fromBurnDto, thenSome_getD]

/-- An empty set written out in the DTO comes back as absent. -/
example : BurnDto.fromBurn (Burn.fromBurnDto ⟨some ∅, none, none, none⟩) = ⟨none, none, none, none⟩ := by
  decide

end IotaSdk
