import Solfees.Geyser.Transaction

/-!
# The roles that a message header gives

A message names its accounts by position: signers first, the read-only ones at the end
of each part.  `GeyserTransactionAccounts::from` cuts the static keys at these four
positions; over a sanitized header the cuts tile the keys, so each account gets one
role and no slice is out of range.
-/

namespace Solfees.AccountRoles

open Solfees.Message
open Solfees.Transaction

/-- What is checked of a header before a message runs. -/
structure Sanitized (message : VersionedMessage) : Prop where
  signed : message.header.numReadonlySignedAccounts.toNat <
    message.header.numRequiredSignatures.toNat
  unsigned : message.header.numRequiredSignatures.toNat +
      message.header.numReadonlyUnsignedAccounts.toNat ≤
    message.staticAccountKeys.length

/-- The header lets the account at a static index be written. -/
def WritableIndex (message : VersionedMessage) (index : ℕ) : Prop :=
  index < message.header.numRequiredSignatures.toNat -
      message.header.numReadonlySignedAccounts.toNat ∨
    message.header.numRequiredSignatures.toNat ≤ index ∧
      index < message.staticAccountKeys.length -
        message.header.numReadonlyUnsignedAccounts.toNat

instance decidableWritableIndex (message : VersionedMessage) (index : ℕ) :
    Decidable (WritableIndex message index) :=
  inferInstanceAs (Decidable (_ ∨ _))

variable (message : VersionedMessage) (statusMeta : TransactionStatusMeta)

/-- The message lets the account be written. -/
def IsWritable (key : Pubkey) : Prop :=
  key ∈ statusMeta.loadedAddresses.writable ∨
    ∃ index < message.staticAccountKeys.length,
      message.staticAccountKeys[index]? = some key ∧ WritableIndex message index

/-- The message names the account, and lets it be read only. -/
def IsReadonly (key : Pubkey) : Prop :=
  key ∈ accountKeys message statusMeta ∧ ¬ IsWritable message statusMeta key

instance decidableIsWritable (key : Pubkey) :
    Decidable (IsWritable message statusMeta key) :=
  inferInstanceAs (Decidable (_ ∨ _))

instance decidableIsReadonly (key : Pubkey) :
    Decidable (IsReadonly message statusMeta key) :=
  inferInstanceAs (Decidable (_ ∧ _))

/-- The lists hold the accounts of the message by their roles, each list in order. -/
structure HasRoles (accounts : GeyserTransactionAccounts) : Prop where
  writable_sorted : accounts.writable.Pairwise (· < ·)
  readable_sorted : accounts.readable.Pairwise (· < ·)
  signers_sorted : accounts.signers.Pairwise (· < ·)
  disjoint : accounts.writable.Disjoint accounts.readable
  cover : ∀ key, key ∈ accounts.writable ∨ key ∈ accounts.readable ↔
    key ∈ accountKeys message statusMeta
  writable : ∀ key, key ∈ accounts.writable ↔ IsWritable message statusMeta key
  signers : ∀ key, key ∈ accounts.signers ↔
    key ∈ message.staticAccountKeys.take message.header.numRequiredSignatures.toNat

variable {message} {statusMeta}

/-- The accounts that are not writable are read-only. -/
theorem HasRoles.readable {accounts : GeyserTransactionAccounts}
    (h : HasRoles message statusMeta accounts) (key : Pubkey) :
    key ∈ accounts.readable ↔ IsReadonly message statusMeta key := by
  rw [IsReadonly, ← h.writable, ← h.cover]
  constructor
  · exact fun hkey => ⟨Or.inr hkey, fun hwritable => h.disjoint hwritable hkey⟩
  · exact fun hkey => hkey.1.resolve_left hkey.2

/-! ## Keys in order -/

theorem mem_sortKeys {keys : List Pubkey} {key : Pubkey} :
    key ∈ sortKeys keys ↔ key ∈ keys := by
  rw [sortKeys, List.mem_insertionSort, List.mem_dedup]

theorem sortKeys_sorted (keys : List Pubkey) : (sortKeys keys).Pairwise (· < ·) := by
  have hsorted : (sortKeys keys).Pairwise (· ≤ ·) := List.pairwise_insertionSort _ _
  have hnodup : (sortKeys keys).Nodup :=
    (List.perm_insertionSort _ _).nodup_iff.2 (List.nodup_dedup keys)
  exact (hsorted.and hnodup).imp fun h => lt_of_le_of_ne h.1 h.2

/-! ## Cutting the static keys -/

theorem checkedSub_of_le {a b : ℕ} (h : b ≤ a) : checkedSub a b = .ok (a - b) :=
  if_pos h

/-- `keys[first..last]` within the bounds. -/
def between (keys : List Pubkey) (first last : ℕ) : List Pubkey :=
  (keys.drop first).take (last - first)

theorem slice_of_le {keys : List Pubkey} {first last : ℕ} (hle : first ≤ last)
    (hlast : last ≤ keys.length) : slice keys first last = .ok (between keys first last) :=
  if_pos ⟨hle, hlast⟩

theorem mem_between {keys : List Pubkey} {first last : ℕ} {key : Pubkey} :
    key ∈ between keys first last ↔
      ∃ index, keys[index]? = some key ∧ first ≤ index ∧ index < last := by
  rw [between, List.mem_iff_getElem?]
  constructor
  · rintro ⟨index, hget⟩
    rw [List.getElem?_take] at hget
    split at hget
    · rw [List.getElem?_drop] at hget
      exact ⟨first + index, hget, by omega, by omega⟩
    · cases hget
  · rintro ⟨index, hget, hfirst, hlast⟩
    apply Exists.intro (index - first)
    rw [List.getElem?_take, if_pos (by omega), List.getElem?_drop,
      Nat.add_sub_cancel' hfirst]
    exact hget

/-- A sanitized header cuts the static keys within their bounds. -/
theorem accountsFrom_eq (statusMeta : TransactionStatusMeta) (h : Sanitized message) :
    ∃ feePayer, accountsFrom message statusMeta = .ok {
      writable := sortKeys (statusMeta.loadedAddresses.writable ++
        between message.staticAccountKeys 0
          (message.header.numRequiredSignatures.toNat -
            message.header.numReadonlySignedAccounts.toNat) ++
        between message.staticAccountKeys message.header.numRequiredSignatures.toNat
          (message.staticAccountKeys.length -
            message.header.numReadonlyUnsignedAccounts.toNat))
      readable := sortKeys (statusMeta.loadedAddresses.readonly ++
        between message.staticAccountKeys
          (message.header.numRequiredSignatures.toNat -
            message.header.numReadonlySignedAccounts.toNat)
          message.header.numRequiredSignatures.toNat ++
        between message.staticAccountKeys
          (message.staticAccountKeys.length -
            message.header.numReadonlyUnsignedAccounts.toNat)
          message.staticAccountKeys.length)
      signers := sortKeys
        (between message.staticAccountKeys 0 message.header.numRequiredSignatures.toNat)
      feePayer := feePayer } := by
  have hsigned := h.signed
  have hunsigned := h.unsigned
  rw [accountsFrom]
  dsimp only
  rw [checkedSub_of_le hsigned.le, checkedSub_of_le (by omega)]
  dsimp only [bind, Except.bind]
  rw [slice_of_le (Nat.zero_le _) (by omega), slice_of_le (by omega) (Nat.sub_le _ _),
    slice_of_le (Nat.sub_le _ _) (by omega), slice_of_le (Nat.sub_le _ _) le_rfl,
    slice_of_le (Nat.zero_le _) (by omega)]
  obtain ⟨feePayer, rest, hkeys⟩ := List.exists_cons_of_length_pos
    (show 0 < message.staticAccountKeys.length by omega)
  apply Exists.intro feePayer
  rw [hkeys]
  rfl

/-- Among the static indices the four cuts tile the range: the read-only cuts hold
those that the writable cuts leave out. -/
theorem readonlyIndex_iff (h : Sanitized message) {index : ℕ}
    (hindex : index < message.staticAccountKeys.length) :
    (message.header.numRequiredSignatures.toNat -
          message.header.numReadonlySignedAccounts.toNat ≤ index ∧
        index < message.header.numRequiredSignatures.toNat ∨
      message.staticAccountKeys.length -
          message.header.numReadonlyUnsignedAccounts.toNat ≤ index ∧
        index < message.staticAccountKeys.length) ↔ ¬ WritableIndex message index := by
  have hsigned := h.signed
  have hunsigned := h.unsigned
  rw [WritableIndex]
  omega

/-- The loaded accounts and the writable cuts, by index. -/
theorem mem_writableCuts (h : Sanitized message) {loaded : List Pubkey} {key : Pubkey} :
    key ∈ sortKeys (loaded ++
        between message.staticAccountKeys 0
          (message.header.numRequiredSignatures.toNat -
            message.header.numReadonlySignedAccounts.toNat) ++
        between message.staticAccountKeys message.header.numRequiredSignatures.toNat
          (message.staticAccountKeys.length -
            message.header.numReadonlyUnsignedAccounts.toNat)) ↔
      key ∈ loaded ∨ ∃ index < message.staticAccountKeys.length,
        message.staticAccountKeys[index]? = some key ∧ WritableIndex message index := by
  have hunsigned := h.unsigned
  rw [mem_sortKeys, List.append_assoc, List.mem_append, List.mem_append, mem_between,
    mem_between]
  apply or_congr_right
  constructor
  · rintro (⟨index, hget, -, hlast⟩ | ⟨index, hget, hfirst, hlast⟩)
    · exact ⟨index, by omega, hget, Or.inl hlast⟩
    · exact ⟨index, by omega, hget, Or.inr ⟨hfirst, hlast⟩⟩
  · rintro ⟨index, -, hget, hlast | ⟨hfirst, hlast⟩⟩
    · exact Or.inl ⟨index, hget, Nat.zero_le index, hlast⟩
    · exact Or.inr ⟨index, hget, hfirst, hlast⟩

/-- The loaded accounts and the read-only cuts, by index. -/
theorem mem_readonlyCuts (h : Sanitized message) {loaded : List Pubkey} {key : Pubkey} :
    key ∈ sortKeys (loaded ++
        between message.staticAccountKeys
          (message.header.numRequiredSignatures.toNat -
            message.header.numReadonlySignedAccounts.toNat)
          message.header.numRequiredSignatures.toNat ++
        between message.staticAccountKeys
          (message.staticAccountKeys.length -
            message.header.numReadonlyUnsignedAccounts.toNat)
          message.staticAccountKeys.length) ↔
      key ∈ loaded ∨ ∃ index < message.staticAccountKeys.length,
        message.staticAccountKeys[index]? = some key ∧ ¬ WritableIndex message index := by
  rw [mem_sortKeys, List.append_assoc, List.mem_append, List.mem_append, mem_between,
    mem_between, ← exists_or]
  apply or_congr_right
  apply exists_congr
  intro index
  rw [← and_or_left, and_left_comm]
  apply and_congr_right
  intro hget
  obtain ⟨hindex, -⟩ := List.getElem?_eq_some_iff.1 hget
  rw [readonlyIndex_iff h hindex]
  exact (and_iff_right hindex).symm

theorem mem_accountKeys {key : Pubkey} :
    key ∈ accountKeys message statusMeta ↔
      (∃ index < message.staticAccountKeys.length,
        message.staticAccountKeys[index]? = some key) ∨
      key ∈ statusMeta.loadedAddresses.writable ∨
      key ∈ statusMeta.loadedAddresses.readonly := by
  have hstatic : key ∈ message.staticAccountKeys ↔
      ∃ index < message.staticAccountKeys.length,
        message.staticAccountKeys[index]? = some key := by
    rw [List.mem_iff_getElem?]
    apply exists_congr
    intro index
    exact ⟨fun hget => ⟨(List.getElem?_eq_some_iff.1 hget).1, hget⟩, And.right⟩
  rw [accountKeys, List.mem_append, List.mem_append, hstatic, or_assoc]

/-- The accounts of a sanitized message whose keys are distinct have the roles that its
header gives. -/
theorem accountsFrom_hasRoles (h : Sanitized message)
    (hdistinct : (accountKeys message statusMeta).Nodup) :
    ∃ accounts, accountsFrom message statusMeta = .ok accounts ∧
      HasRoles message statusMeta accounts := by
  obtain ⟨feePayer, haccounts⟩ := accountsFrom_eq statusMeta h
  refine ⟨_, haccounts, sortKeys_sorted _, sortKeys_sorted _, sortKeys_sorted _, ?_, ?_,
    fun key => mem_writableCuts h, ?_⟩
  · intro key hwritable hreadable
    have hwritable := (mem_writableCuts h).1 hwritable
    have hreadable := (mem_readonlyCuts h).1 hreadable
    rw [accountKeys, List.nodup_append, List.nodup_append] at hdistinct
    obtain ⟨⟨hstatic, -, hwritables⟩, -, hreadonlys⟩ := hdistinct
    rcases hwritable with hloaded | ⟨index, hindex, hget, hrole⟩
    · rcases hreadable with hloaded' | ⟨index', -, hget', -⟩
      · exact hreadonlys key (List.mem_append_right _ hloaded) key hloaded' rfl
      · exact hwritables key (List.mem_of_getElem? hget') key hloaded rfl
    · rcases hreadable with hloaded' | ⟨index', -, hget', hrole'⟩
      · exact hreadonlys key (List.mem_append_left _ (List.mem_of_getElem? hget)) key
          hloaded' rfl
      · -- one key stands at one static index only, and an index has one role
        rw [← hget'] at hget
        rw [(List.getElem?_inj hindex hstatic).1 hget] at hrole
        exact hrole' hrole
  · intro key
    dsimp only
    rw [mem_writableCuts h, mem_readonlyCuts h, mem_accountKeys]
    constructor
    · rintro ((hloaded | ⟨index, hindex, hget, -⟩) | hloaded | ⟨index, hindex, hget, -⟩)
      · exact Or.inr (Or.inl hloaded)
      · exact Or.inl ⟨index, hindex, hget⟩
      · exact Or.inr (Or.inr hloaded)
      · exact Or.inl ⟨index, hindex, hget⟩
    · rintro (⟨index, hindex, hget⟩ | hloaded | hloaded)
      · by_cases hrole : WritableIndex message index
        · exact Or.inl (Or.inr ⟨index, hindex, hget, hrole⟩)
        · exact Or.inr (Or.inr ⟨index, hindex, hget, hrole⟩)
      · exact Or.inl (Or.inl hloaded)
      · exact Or.inr (Or.inl hloaded)
  · intro key
    dsimp only
    rw [mem_sortKeys, between, List.drop_zero, Nat.sub_zero]

end Solfees.AccountRoles
