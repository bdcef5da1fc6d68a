import Mathlib

/-!
# Transaction ids

`sharding::transaction_id` is not among the repository's files, so this module takes
what the rest of the code relies on from the spec. An id is a `u64` logical counter
stamped with the node that issued it. Ids are ordered lexicographically, on the counter
first and then on the node, and the counter 0 marks the id of an object that no
transaction has committed. Every other module reasons about ids through the linear
order alone.
-/

namespace TxServer

/-- `tx_common::config::NodeId`: a node is named by one character. -/
abbrev NodeId := Char

/-- Modelled from the spec: `TransactionId` (`sharding::transaction_id`, missing), a logical
counter and the tag of the node that issued it. -/
structure TransactionId where
  /-- Logical counter; 0 only in a default id. -/
  counter : UInt64
  /-- The issuing node. -/
  node : NodeId
  deriving DecidableEq, Repr

namespace TransactionId

/-- Modelled from the spec: the order of ids is lexicographic on `(counter, node)`. -/
def key (id : TransactionId) : ℕ ×ₗ NodeId := toLex (id.counter.toNat, id.node)

/-- Distinct ids have distinct order keys. -/
theorem key_injective : Function.Injective key := by
  rintro ⟨counter, node⟩ ⟨counter', node'⟩ same
  simp only [key, toLex_inj, Prod.mk.injEq] at same
  rw [UInt64.toNat.inj same.1, same.2]

instance : LinearOrder TransactionId := LinearOrder.lift' key key_injective

/-- The order of ids unfolds to the counter, then the node. -/
theorem lt_iff {left right : TransactionId} : left < right ↔
    left.counter.toNat < right.counter.toNat ∨
      (left.counter.toNat = right.counter.toNat ∧ left.node < right.node) :=
  Prod.Lex.lt_iff _ _

/-- Modelled from the spec: `TransactionId::default(owner)`, the id of an object that was
never committed. -/
def default (owner : NodeId) : TransactionId := ⟨0, owner⟩

/-- Modelled from the spec: `TransactionId::is_default`, the counter is 0. -/
def isDefault (id : TransactionId) : Bool := id.counter == 0

@[simp] theorem isDefault_default (owner : NodeId) : (default owner).isDefault = true := rfl

/-- A default id is below every id with a positive counter. -/
theorem default_lt {id : TransactionId} (owner : NodeId) (issued : id.isDefault = false) :
    default owner < id := by
  have positive : id.counter.toNat ≠ 0 := fun zero => by
    simp [isDefault, UInt64.toNat.inj (zero.trans UInt64.toNat_zero.symm)] at issued
  exact lt_iff.2 (Or.inl (by simp [default]; omega))

end TransactionId

/-- Modelled from the spec: `TransactionIdGenerator`, the counter it issues next and its
node. -/
structure TransactionIdGenerator where
  /-- Counter of the next id. -/
  counter : UInt64
  /-- Node stamped on every id. -/
  node : NodeId
  deriving DecidableEq, Repr

namespace TransactionIdGenerator

/-- Modelled from the spec: `TransactionIdGenerator::new`, the counter starts at 1. -/
def new (node : NodeId) : TransactionIdGenerator := ⟨1, node⟩

/-- Modelled from the spec: `TransactionIdGenerator::next`, issue the counter and increment
it (a `u64` increment). -/
def next (gen : TransactionIdGenerator) : TransactionId × TransactionIdGenerator :=
  (⟨gen.counter, gen.node⟩, { gen with counter := gen.counter + 1 })

/-- Below `u64::MAX` the increment does not wrap, so the next id is above every id issued. -/
theorem next_counter (gen : TransactionIdGenerator) (room : gen.counter.toNat + 1 < 2 ^ 64) :
    gen.next.2.counter.toNat = gen.counter.toNat + 1 := by
  show (gen.counter.toBitVec + 1).toNat = gen.counter.toBitVec.toNat + 1
  simpa [BitVec.toNat_add] using room

end TransactionIdGenerator

end TxServer
