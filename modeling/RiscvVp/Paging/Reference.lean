import Mathlib.Logic.Function.Basic
import Mathlib.Data.Nat.Bitwise

/-!
# The walk of page tables

The reference walk through radix page tables, on natural numbers and a byte
memory.  A scheme says how many levels there are, how many index bits one
level translates and how long an entry is.  The walk keeps the addresses of
the entries it has read; it ends without a leaf when it faults, and otherwise
with the leaf entry and the translated address.  The leaf entry is then marked
as accessed, and as dirty by a store.
-/

namespace RiscvVp.Paging

/-! ## Schemes -/

structure Scheme where
  levels : ℕ
  indexBits : ℕ
  entryBytes : ℕ
  /-- the width of the registers that hold a virtual address -/
  registerBits : ℕ
  deriving DecidableEq

def sv32 : Scheme := ⟨2, 10, 4, 32⟩

def sv39 : Scheme := ⟨3, 9, 8, 64⟩

def sv48 : Scheme := ⟨4, 9, 8, 64⟩

def pageBits : ℕ := 12

namespace Scheme

variable (scheme : Scheme)

/-- The address bits that are translated at levels below this one. -/
def span (level : ℕ) : ℕ := level * scheme.indexBits

def virtualBits : ℕ := pageBits + scheme.span scheme.levels

/-- The bits above the virtual address repeat its highest bit. -/
def Canonical (va : ℕ) : Prop :=
  ∀ bit < scheme.registerBits, scheme.virtualBits ≤ bit →
    va.testBit bit = va.testBit (scheme.virtualBits - 1)

instance (va : ℕ) : Decidable (scheme.Canonical va) :=
  inferInstanceAs (Decidable (∀ bit < _, _ → _))

def index (level va : ℕ) : ℕ :=
  va / 2 ^ (pageBits + scheme.span level) % 2 ^ scheme.indexBits

/-- Where the entry of this level is in the table at this address. -/
def entryAddress (level table va : ℕ) : ℕ :=
  table + scheme.index level va * scheme.entryBytes

end Scheme

/-! ## Memory -/

abbrev Memory : Type := ℕ → BitVec 8

/-- The bytes from an address on, the lowest first. -/
def entryAt (memory : Memory) (address : ℕ) : ℕ → ℕ
  | 0 => 0
  | bytes + 1 => (memory address).toNat + 256 * entryAt memory (address + 1) bytes

theorem entryAt_lt (memory : Memory) (address bytes : ℕ) :
    entryAt memory address bytes < 256 ^ bytes := by
  induction bytes generalizing address with
  | zero => exact Nat.one_pos
  | succ bytes inductionHypothesis =>
      have low := (memory address).isLt
      have high := inductionHypothesis (address + 1)
      rw [entryAt, Nat.pow_succ]
      omega

/-- One of the bytes. -/
theorem entryAt_byte (memory : Memory) (address : ℕ) {bytes offset : ℕ}
    (within : offset < bytes) :
    entryAt memory address bytes / 256 ^ offset % 256 =
      (memory (address + offset)).toNat := by
  induction bytes generalizing address offset with
  | zero => exact absurd within (Nat.not_lt_zero offset)
  | succ bytes inductionHypothesis =>
      have low := (memory address).isLt
      cases offset with
      | zero =>
          simp only [entryAt, Nat.pow_zero, Nat.div_one, Nat.add_zero]
          omega
      | succ offset =>
          have tail := inductionHypothesis (address + 1)
            (Nat.lt_of_succ_lt_succ within)
          have shifted : entryAt memory address (bytes + 1) / 256 =
              entryAt memory (address + 1) bytes := by
            rw [entryAt]
            omega
          rw [Nat.pow_succ, Nat.mul_comm, ← Nat.div_div_eq_div_mul, shifted,
            tail, Nat.add_assoc, Nat.add_comm 1]

/-! ## Entries -/

inductive Access : Type
  | fetch
  | load
  | store
  deriving DecidableEq

/-- What the walk depends on besides the tables. -/
structure Context where
  supervisor : Bool
  /-- supervisor access to user pages -/
  sum : Bool
  /-- executable pages can be loaded from -/
  mxr : Bool

namespace Entry

variable (entry : ℕ)

def readable : Bool := entry.testBit 1

def writable : Bool := entry.testBit 2

def executable : Bool := entry.testBit 3

def user : Bool := entry.testBit 4

def frame : ℕ := entry / 2 ^ 10

/-- Writable without readable is reserved. -/
def valid : Bool := entry.testBit 0 && (readable entry || !writable entry)

/-- The others point to a table of the next level. -/
def leaf : Bool := readable entry || executable entry

/-- The accesses that the permission bits of a leaf allow. -/
def permits (context : Context) : Access → Bool
  | .fetch =>
      executable entry && (user entry != context.supervisor)
  | .load =>
      (readable entry || (context.mxr && executable entry)) &&
        (if user entry then !context.supervisor || context.sum
        else context.supervisor)
  | .store =>
      writable entry &&
        (if user entry then !context.supervisor || context.sum
        else context.supervisor)

end Entry

/-! ## The walk -/

structure Leaf where
  entryAddress : ℕ
  physical : ℕ

structure Walk where
  reads : List ℕ
  leaf : Option Leaf

/-- The lower parts of the frame of a superpage come from the virtual
address. -/
def Scheme.physical (scheme : Scheme) (level entry va : ℕ) : ℕ :=
  let span := scheme.span level
  (Entry.frame entry / 2 ^ span * 2 ^ span + va / 2 ^ pageBits % 2 ^ span) *
    2 ^ pageBits + va % 2 ^ pageBits

section Walk

variable (scheme : Scheme) (context : Context) (access : Access)
  (memory : Memory) (va : ℕ)

/-- The walk with this many levels to go, from the table at an address. -/
def walkFrom : ℕ → ℕ → Walk
  | 0, _ => ⟨[], none⟩
  | level + 1, table =>
      let address := scheme.entryAddress level table va
      let entry := entryAt memory address scheme.entryBytes
      if !Entry.valid entry then ⟨[address], none⟩
      else if !Entry.leaf entry then
        let rest := walkFrom level (Entry.frame entry * 2 ^ pageBits)
        ⟨address :: rest.reads, rest.leaf⟩
      else if Entry.permits entry context access ∧
          Entry.frame entry % 2 ^ scheme.span level = 0 then
        ⟨[address], some ⟨address, scheme.physical level entry va⟩⟩
      else ⟨[address], none⟩

/-- The walk from the root table. -/
def walk (root : ℕ) : Walk :=
  if scheme.Canonical va then
    walkFrom scheme context access memory va scheme.levels root
  else ⟨[], none⟩

/-- The first entry is read in any case. -/
theorem entryAddress_mem_reads (level table : ℕ) :
    scheme.entryAddress level table va ∈
      (walkFrom scheme context access memory va (level + 1) table).reads := by
  rw [walkFrom]
  dsimp only
  split
  · exact List.mem_singleton_self _
  split
  · exact List.mem_cons_self
  split <;> exact List.mem_singleton_self _

/-- A walk reads one entry a level. -/
theorem length_reads_walkFrom_le (levels table : ℕ) :
    (walkFrom scheme context access memory va levels table).reads.length ≤
      levels := by
  induction levels generalizing table with
  | zero => exact Nat.zero_le 0
  | succ level inductionHypothesis =>
      rw [walkFrom]
      dsimp only
      split
      · exact Nat.succ_le_succ (Nat.zero_le level)
      split
      · exact Nat.succ_le_succ (inductionHypothesis _)
      split <;> exact Nat.succ_le_succ (Nat.zero_le level)

theorem length_reads_walk_le (root : ℕ) :
    (walk scheme context access memory va root).reads.length ≤
      scheme.levels := by
  rw [walk]
  split
  · apply length_reads_walkFrom_le
  · exact Nat.zero_le _

end Walk

/-! ## The marks -/

/-- The accessed bit, and the dirty bit for a store. -/
def marks (access : Access) : BitVec 8 :=
  if access = .store then 0xc0 else 0x40

/-- Mark the entry at this address. -/
def mark (access : Access) (memory : Memory) (address : ℕ) : Memory :=
  Function.update memory address (memory address ||| marks access)

/-- What a walk leaves of the memory. -/
def Walk.marked (walk : Walk) (access : Access) (memory : Memory) : Memory :=
  match walk.leaf with
  | none => memory
  | some leaf => mark access memory leaf.entryAddress

end RiscvVp.Paging
