import Mathlib

/-!
# Geyser messages

The data that travels from the geyser stream through Redis to the RPC server.
Slots are only compared and counted down, so a slot is a natural number;
heights, prices and fees are added up, so they are 64-bit words, whose
arithmetic wraps as it does in the release profile.
-/

namespace Solfees.Message

abbrev Slot := ℕ
abbrev Height := UInt64
abbrev UnixTimestamp := ℤ

/-- A 32-byte key, read big-endian: the numeric order is the order of the
bytes. -/
abbrev Pubkey := Fin (2 ^ 256)
abbrev Hash := Fin (2 ^ 256)
abbrev Signature := Fin (2 ^ 512)

instance keyCount_neZero : NeZero (2 ^ 256 : ℕ) := ⟨pow_ne_zero 256 two_ne_zero⟩

instance signatureCount_neZero : NeZero (2 ^ 512 : ℕ) := ⟨pow_ne_zero 512 two_ne_zero⟩

/-- The laws of the order of keys, as one constant for every map. -/
instance (priority := high) transOrd_pubkey : Std.TransOrd Pubkey := inferInstance

inductive CommitmentLevel
  | processed
  | confirmed
  | finalized
  deriving DecidableEq, Repr

instance : Inhabited CommitmentLevel := ⟨.finalized⟩

structure GeyserTransactionAccounts where
  writable : List Pubkey
  readable : List Pubkey
  signers : List Pubkey
  feePayer : Pubkey
  deriving DecidableEq, Repr

structure GeyserTransaction where
  signature : Signature
  vote : Bool
  accounts : GeyserTransactionAccounts
  sigsCount : UInt32
  unitLimit : UInt32
  unitPrice : UInt64
  unitsConsumed : Option UInt64
  fee : UInt64
  deriving DecidableEq, Repr

/-- The fields of `GeyserMessage::Slot`. -/
structure Block where
  leader : Option Pubkey
  slot : Slot
  hash : Hash
  time : UnixTimestamp
  height : Height
  parentSlot : Slot
  parentHash : Hash
  transactions : List GeyserTransaction
  deriving DecidableEq, Repr

/-- A block without transactions. -/
def Block.bare (slot parentSlot : Slot) (height : Height) (hash : Hash) :
    Block where
  leader := none
  slot := slot
  hash := hash
  time := 0
  height := height
  parentSlot := parentSlot
  parentHash := 0
  transactions := []

inductive GeyserMessage
  | status (slot : Slot) (commitment : CommitmentLevel)
  | slot (block : Block)
  deriving DecidableEq, Repr

/-- The slot a message is about. -/
def GeyserMessage.slotOf : GeyserMessage → Slot
  | .status target _ => target
  | .slot block => block.slot

/-- The level of a status; `none` for a block. -/
def GeyserMessage.commitmentOf : GeyserMessage → Option CommitmentLevel
  | .status _ commitment => some commitment
  | .slot _ => none

/-! ## The finalized slots of a sequence -/

/-- The finalized slots, oldest first. -/
def finalizedSlots (messages : List GeyserMessage) : List Slot :=
  messages.filterMap fun
    | .status slot .finalized => some slot
    | _ => none

@[simp]
theorem mem_finalizedSlots {before : List GeyserMessage} {slot : Slot} :
    slot ∈ finalizedSlots before ↔ .status slot .finalized ∈ before := by
  rw [finalizedSlots, List.mem_filterMap]
  constructor
  · rintro ⟨message, hmem, hslot⟩
    split at hslot
    · rwa [← Option.some.inj hslot]
    · simp at hslot
  · exact fun hmem => ⟨_, hmem, rfl⟩

theorem finalizedSlots_concat (before : List GeyserMessage)
    (message : GeyserMessage) :
    finalizedSlots (before ++ [message]) = finalizedSlots before ++
      if message.commitmentOf = some .finalized then [message.slotOf] else [] := by
  rw [finalizedSlots, List.filterMap_append, ← finalizedSlots]
  cases message with
  | slot block => rfl
  | status slot commitment => cases commitment <;> rfl

end Solfees.Message
