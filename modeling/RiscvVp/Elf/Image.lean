import Mathlib.Data.BitVec

/-!
# Executable images

`elf_loader.h` of the two cores and of `core/common`: the program headers of an
image and those of them that are loaded.  The loader is generic in the width of
the addresses.
-/

namespace RiscvVp

namespace Elf

abbrev Byte : Type := BitVec 8

/-- `Elf32Types` and `Elf64Types` -/
inductive ElfTypes : Type
  | elf32
  | elf64
  deriving DecidableEq, Repr

def ElfTypes.bits : ElfTypes → ℕ
  | elf32 => 32
  | elf64 => 64

/-- `addr_t` -/
abbrev Addr (types : ElfTypes) : Type := BitVec types.bits

/-- `Elf_Phdr` -/
structure Phdr (types : ElfTypes) where
  pType : BitVec 32
  pOffset : Addr types
  pVaddr : Addr types
  pPaddr : Addr types
  pFilesz : Addr types
  pMemsz : Addr types
  deriving DecidableEq, Repr

def ptLoad : BitVec 32 := 1

/-- The file and the program headers that `e_phoff`, `e_phentsize` and `e_phnum`
locate in it. -/
structure Image (types : ElfTypes) where
  data : List Byte
  phdrs : List (Phdr types)
  deriving DecidableEq, Repr

variable {types : ElfTypes}

/-- `get_load_sections` -/
def getLoadSections (elf : Image types) : List (Phdr types) :=
  elf.phdrs.filter fun p =>
    p.pType = ptLoad ∧ ¬ (p.pFilesz = 0 ∧ p.pMemsz = 0)

theorem not_empty_of_mem {elf : Image types} {p : Phdr types}
    (member : p ∈ getLoadSections elf) : ¬ (p.pFilesz = 0 ∧ p.pMemsz = 0) := by
  have loaded := (List.mem_filter.1 member).2
  exact (decide_eq_true_iff.1 loaded).2

theorem ElfTypes.bits_le (types : ElfTypes) : types.bits ≤ 64 := by
  cases types <;> decide

end Elf

end RiscvVp
