import RiscvVp.Elf.Image
import Mathlib.Data.Set.Finite.Lemmas

/-!
# Where the heap begins

The heap is to begin at the first multiple of eight after the loaded segments.
The loader takes the end of the last program header for the end of the image,
whatever its type, and adds to that end its remainder modulo eight.
-/

namespace RiscvVp

namespace Elf

variable {types : ElfTypes}

/-- `get_memory_end`, when there are program headers. -/
def getMemoryEnd (elf : Image types) : Option (Addr types) :=
  elf.phdrs.getLast?.map fun last => last.pVaddr + last.pMemsz

/-- `get_heap_addr` -/
def getHeapAddr (elf : Image types) : Option (Addr types) :=
  (getMemoryEnd elf).map fun s => s + s % 8

/-! ## What the heap address is for -/

/-- The first address after a segment. -/
def Phdr.vaddrEnd (p : Phdr types) : ℕ := p.pVaddr.toNat + p.pMemsz.toNat

/-- The ends of the loaded segments. -/
def loadedEnds (elf : Image types) : Set ℕ :=
  { last | ∃ p ∈ getLoadSections elf, p.vaddrEnd = last }

/-- The heap begins at the first multiple of eight after the loaded
segments. -/
structure HeapFollows (elf : Image types) (heap : Addr types) : Prop where
  aligned : 8 ∣ heap.toNat
  above : heap.toNat ∈ upperBounds (loadedEnds elf)
  near : ∀ top, IsGreatest (loadedEnds elf) top → heap.toNat < top + 8

/-- The least multiple of eight that is not smaller. -/
def roundUp (n : ℕ) : ℕ := (n + 7) / 8 * 8

/-- The end of the last program header is as good as the highest loaded end, and
one of the two remainders for which adding the remainder rounds up. -/
def EndsHighest (elf : Image types) : Prop :=
  ∃ s, getMemoryEnd elf = some s ∧ 4 ∣ s.toNat ∧
    ∀ top, IsGreatest (loadedEnds elf) top →
      roundUp s.toNat = roundUp top ∧ roundUp top < 2 ^ types.bits

theorem eq_roundUp_iff {n top : ℕ} :
    n = roundUp top ↔ 8 ∣ n ∧ top ≤ n ∧ n < top + 8 := by
  unfold roundUp
  omega

/-- Adding the remainder rounds a multiple of four up. -/
theorem add_mod_eq_roundUp {n : ℕ} (fourfold : 4 ∣ n) : n + n % 8 = roundUp n := by
  unfold roundUp
  omega

theorem toNat_heap (s : Addr types) :
    (s + s % 8).toNat = (s.toNat + s.toNat % 8) % 2 ^ types.bits := by
  rw [BitVec.toNat_add, BitVec.toNat_umod]
  cases types <;> rfl

/-- Only the remainders zero and four lead to a multiple of eight. -/
theorem dvd_heap_iff (s : Addr types) :
    8 ∣ (s + s % 8).toNat ↔ 4 ∣ s.toNat := by
  rw [toNat_heap]
  cases types <;> simp only [ElfTypes.bits] <;> omega

theorem exists_isGreatest_of_mem {elf : Image types} {n : ℕ}
    (member : n ∈ loadedEnds elf) :
    ∃ top, IsGreatest (loadedEnds elf) top ∧ n ≤ top := by
  have finite : (loadedEnds elf).Finite :=
    (getLoadSections elf).toFinset.finite_toSet.image Phdr.vaddrEnd |>.subset <| by
      rintro last ⟨p, loaded, rfl⟩
      exact ⟨p, List.mem_toFinset.2 loaded, rfl⟩
  obtain ⟨top, topMember, highest⟩ :=
    Set.exists_max_image (loadedEnds elf) id finite ⟨n, member⟩
  exact ⟨top, ⟨topMember, highest⟩, highest n member⟩

/-- A well formed loaded segment does not end at zero. -/
theorem pos_of_mem_loadedEnds {elf : Image types}
    (wellFormed : ∀ p ∈ getLoadSections elf, p.pFilesz ≤ p.pMemsz)
    {n : ℕ} (member : n ∈ loadedEnds elf) : 0 < n := by
  obtain ⟨p, loaded, rfl⟩ := member
  have fits := BitVec.le_def.1 (wellFormed p loaded)
  have nonempty := not_empty_of_mem loaded
  have filled : p.pFilesz.toNat ≠ 0 ∨ p.pMemsz.toNat ≠ 0 := by
    rw [not_and_or] at nonempty
    exact nonempty.imp BitVec.toNat_ne.1 BitVec.toNat_ne.1
  rw [Phdr.vaddrEnd]
  omega

theorem heapFollows_iff {elf : Image types}
    (wellFormed : ∀ p ∈ getLoadSections elf, p.pFilesz ≤ p.pMemsz)
    (s : Addr types) :
    HeapFollows elf (s + s % 8) ↔
      4 ∣ s.toNat ∧
        ∀ top, IsGreatest (loadedEnds elf) top →
          roundUp s.toNat = roundUp top ∧ roundUp top < 2 ^ types.bits := by
  constructor
  · rintro ⟨aligned, above, near⟩
    have fourfold := (dvd_heap_iff s).1 aligned
    refine ⟨fourfold, fun top greatest => ?_⟩
    have heapEq : (s + s % 8).toNat = roundUp top :=
      eq_roundUp_iff.2 ⟨aligned, above greatest.1, near top greatest⟩
    have positive := pos_of_mem_loadedEnds wellFormed greatest.1
    have bounded := (s + s % 8).isLt
    rw [toNat_heap, add_mod_eq_roundUp fourfold] at heapEq
    rw [toNat_heap, add_mod_eq_roundUp fourfold, heapEq] at bounded
    refine ⟨?_, bounded⟩
    -- Past the last address the heap would begin at zero, below every segment.
    have small : roundUp s.toNat < 2 ^ types.bits := by
      by_contra! large
      have sBounded := s.isLt
      have zero : roundUp s.toNat % 2 ^ types.bits = 0 := by
        clear heapEq bounded
        revert large sBounded
        unfold roundUp
        cases types <;> simp only [ElfTypes.bits] <;> omega
      have topZero : roundUp top = 0 := by rw [← heapEq, zero]
      have topRounded := (@eq_roundUp_iff _ top).1 rfl
      omega
    rwa [Nat.mod_eq_of_lt small] at heapEq
  · rintro ⟨fourfold, highest⟩
    have rounded : ∀ top, IsGreatest (loadedEnds elf) top →
        (s + s % 8).toNat = roundUp top := by
      intro top greatest
      obtain ⟨same, small⟩ := highest top greatest
      rw [toNat_heap, add_mod_eq_roundUp fourfold, same, Nat.mod_eq_of_lt small]
    refine ⟨(dvd_heap_iff s).2 fourfold, fun n member => ?_,
      fun top greatest => ?_⟩
    · obtain ⟨top, greatest, below⟩ := exists_isGreatest_of_mem member
      have heapEq := eq_roundUp_iff.1 (rounded top greatest)
      omega
    · exact (eq_roundUp_iff.1 (rounded top greatest)).2.2

/-- The heap of a well formed image is placed right exactly when the last
program header ends highest. -/
theorem getHeapAddr_iff {elf : Image types}
    (wellFormed : ∀ p ∈ getLoadSections elf, p.pFilesz ≤ p.pMemsz) :
    (∃ heap, getHeapAddr elf = some heap ∧ HeapFollows elf heap) ↔
      EndsHighest elf := by
  simp only [getHeapAddr, Option.map_eq_some_iff, EndsHighest]
  constructor
  · rintro ⟨heap, ⟨s, memoryEnd, rfl⟩, follows⟩
    exact ⟨s, memoryEnd, (heapFollows_iff wellFormed s).1 follows⟩
  · rintro ⟨s, memoryEnd, highest⟩
    exact ⟨s + s % 8, ⟨s, memoryEnd, rfl⟩,
      (heapFollows_iff wellFormed s).2 highest⟩

/-- One segment of one instruction. -/
def fourBytes : Image .elf32 where
  data := [0x13, 0x00, 0x00, 0x00]
  phdrs := [⟨ptLoad, 0, 0x10000, 0x10000, 4, 4⟩]

theorem getHeapAddr_fourBytes :
    ∃ heap, getHeapAddr fourBytes = some heap ∧ HeapFollows fourBytes heap := by
  refine (@getHeapAddr_iff _ fourBytes (by decide)).2
    ⟨0x10004#32, rfl, by decide, ?_⟩
  rintro top ⟨⟨p, loaded, rfl⟩, -⟩
  have only : p = ⟨ptLoad, 0, 0x10000, 0x10000, 4, 4⟩ :=
    List.mem_singleton.1 (List.mem_filter.1 loaded).1
  subst only
  decide

/-- One segment of two bytes. -/
def twoBytes : Image .elf32 where
  data := [0x13, 0x00]
  phdrs := [⟨ptLoad, 0, 0x10000, 0x10000, 2, 2⟩]

theorem twoBytes_wellFormed :
    ∀ p ∈ getLoadSections twoBytes, p.pFilesz ≤ p.pMemsz := by
  decide

/-- Its end is even but not a multiple of four. -/
theorem not_heapFollows_twoBytes :
    ¬ ∀ elf : Image .elf32,
      (∀ p ∈ getLoadSections elf, p.pFilesz ≤ p.pMemsz) →
        ∃ heap, getHeapAddr elf = some heap ∧ HeapFollows elf heap := by
  intro placed
  obtain ⟨heap, heapAddr, follows⟩ := placed twoBytes twoBytes_wellFormed
  have heapEq : heap = 0x10004#32 := Option.some.inj (heapAddr.symm.trans rfl)
  have aligned := follows.aligned
  rw [heapEq] at aligned
  revert aligned
  decide

end Elf

end RiscvVp
