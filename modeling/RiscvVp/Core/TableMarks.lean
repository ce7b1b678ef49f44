import RiscvVp.Core.TableLookup

/-!
# Lookups and the marks of the walk

A walk stores the flags of its access in the leaf that it found.  That moves no
other entry, and of the leaf only the two flags, which no lookup reads.  So every
lookup ends where it ended before.
-/

namespace RiscvVp

namespace Mmu

open Interaction

/-! ## Flags -/

namespace Pte

variable (pte : Pte) (type : MemoryAccessType)

theorem getLsbD_accessedDirty {bit : Nat} (other : bit ≠ 6 ∧ bit ≠ 7) :
    (accessedDirty type).getLsbD bit = false := by
  by_cases low : bit < 8
  · obtain rfl | rfl | rfl | rfl | rfl | rfl :
        bit = 0 ∨ bit = 1 ∨ bit = 2 ∨ bit = 3 ∨ bit = 4 ∨ bit = 5 := by omega
    all_goals cases type <;> rfl
  · have bounded : (accessedDirty type).toNat < 2 ^ 8 := by
      cases type <;> decide
    exact Nat.testBit_lt_two_pow <| bounded.trans_le <|
      Nat.pow_le_pow_right Nat.two_pos (Nat.le_of_not_lt low)

theorem getLsbD_marked {bit : Nat} (other : bit ≠ 6 ∧ bit ≠ 7) :
    (pte ||| accessedDirty type).getLsbD bit = pte.getLsbD bit := by
  rw [BitVec.getLsbD_or, getLsbD_accessedDirty type other, Bool.or_false]

@[simp]
theorem v_marked : (pte ||| accessedDirty type).v = pte.v :=
  getLsbD_marked pte type (by decide)

@[simp]
theorem r_marked : (pte ||| accessedDirty type).r = pte.r :=
  getLsbD_marked pte type (by decide)

@[simp]
theorem w_marked : (pte ||| accessedDirty type).w = pte.w :=
  getLsbD_marked pte type (by decide)

@[simp]
theorem x_marked : (pte ||| accessedDirty type).x = pte.x :=
  getLsbD_marked pte type (by decide)

@[simp]
theorem u_marked : (pte ||| accessedDirty type).u = pte.u :=
  getLsbD_marked pte type (by decide)

@[simp]
theorem ppn_marked : (pte ||| accessedDirty type).ppn = pte.ppn := by
  apply BitVec.eq_of_getLsbD_eq
  intro bit _
  change ((pte ||| accessedDirty type) >>> ptePpnShift).getLsbD bit =
    (pte >>> ptePpnShift).getLsbD bit
  rw [BitVec.getLsbD_ushiftRight, BitVec.getLsbD_ushiftRight]
  refine getLsbD_marked pte type ⟨?_, ?_⟩ <;> rw [ptePpnShift] <;> omega

@[simp]
theorem isInvalid_marked :
    (pte ||| accessedDirty type).isInvalid = pte.isInvalid := by
  simp [isInvalid]

@[simp]
theorem isPointer_marked :
    (pte ||| accessedDirty type).isPointer = pte.isPointer := by
  simp [isPointer]

/-- An entry keeps the flags it has. -/
theorem keeps_flags {flags : BitVec 64} (flagged : pte &&& flags = flags) :
    (pte ||| accessedDirty type) &&& flags = flags := by
  apply BitVec.eq_of_getLsbD_eq
  intro bit _
  have set : (pte.getLsbD bit && flags.getLsbD bit) = flags.getLsbD bit := by
    rw [← BitVec.getLsbD_and, flagged]
  rw [BitVec.getLsbD_and, BitVec.getLsbD_or]
  revert set
  cases pte.getLsbD bit <;> cases flags.getLsbD bit <;> simp

theorem has_flags :
    (pte ||| accessedDirty type) &&& accessedDirty type =
      accessedDirty type := by
  apply BitVec.eq_of_getLsbD_eq
  intro bit _
  rw [BitVec.getLsbD_and, BitVec.getLsbD_or]
  cases (accessedDirty type).getLsbD bit <;> simp

end Pte

/-- The checks read neither flag. -/
@[simp]
theorem checkPte_marked (core : Core) (type : MemoryAccessType) (sMode : Bool)
    (ptshift : Nat) (pte : Pte) (marks : MemoryAccessType) :
    checkPte core type sMode ptshift (pte ||| Pte.accessedDirty marks) =
      checkPte core type sMode ptshift pte := by
  simp [checkPte]

@[simp]
theorem leafAddress_marked (vaddr : BitVec 64) (ptshift : Nat) (pte : Pte)
    (marks : MemoryAccessType) :
    leafAddress vaddr ptshift (pte ||| Pte.accessedDirty marks) =
      leafAddress vaddr ptshift pte := by
  simp [leafAddress]

/-! ## Entries in memory -/

namespace VmInfo

variable (vm : VmInfo) (bytes : Paging.Memory)

/-- Entries lie at multiples of their size. -/
def Aligned (address : BitVec 64) : Prop :=
  address.toNat % vm.entryBytes = 0

theorem entryBytes_cases : vm.entryBytes = 4 ∨ vm.entryBytes = 8 := by
  unfold entryBytes
  split
  · exact .inl rfl
  · exact .inr rfl

theorem four_le_entryBytes : 4 ≤ vm.entryBytes := by
  rcases vm.entryBytes_cases with four | eight <;> omega

theorem entryBytes_le_eight : vm.entryBytes ≤ 8 := by
  rcases vm.entryBytes_cases with four | eight <;> omega

/-- The bytes of an entry determine it. -/
theorem entry_ext {bytes bytes' : Paging.Memory} {address address' : BitVec 64}
    (same : ∀ offset < vm.entryBytes,
      bytes' (address'.toNat + offset) = bytes (address.toNat + offset)) :
    vm.entry bytes' address' = vm.entry bytes address := by
  unfold entry
  congr 1
  generalize vm.entryBytes = size at same
  generalize address.toNat = place at same ⊢
  generalize address'.toNat = place' at same ⊢
  induction size generalizing place place' with
  | zero => rfl
  | succ size inductionHypothesis =>
      have first : bytes' place' = bytes place := same 0 (Nat.succ_pos size)
      have rest := inductionHypothesis (place + 1) (place' + 1)
        fun offset within => by
          have this := same (offset + 1) (Nat.succ_lt_succ within)
          rwa [Nat.add_comm offset, ← Nat.add_assoc, ← Nat.add_assoc] at this
      rw [Paging.entryAt, Paging.entryAt, first, rest]

/-- A bit of an entry is a bit of one of its bytes. -/
theorem getLsbD_entry {address : BitVec 64} {bit : Nat}
    (within : bit / 8 < vm.entryBytes) :
    (vm.entry bytes address).getLsbD bit =
      (bytes (address.toNat + bit / 8)).getLsbD (bit % 8) := by
  have byte : (BitVec.ofNat 64 (Paging.entryAt bytes address.toNat
      vm.entryBytes)).extractLsb' (8 * (bit / 8)) 8 =
        bytes (address.toNat + bit / 8) :=
    extract_entryAt vm.entryBytes_le_eight within
  have small : bit % 8 < 8 := Nat.mod_lt _ (by decide)
  rw [← byte, BitVec.getLsbD_extractLsb', decide_eq_true small, Bool.true_and,
    Nat.div_add_mod]
  rfl

/-- Nothing is above its bytes. -/
theorem getLsbD_entry_of_le {address : BitVec 64} {bit : Nat}
    (above : vm.entryBytes ≤ bit / 8) :
    (vm.entry bytes address).getLsbD bit = false := by
  have bound := Paging.entryAt_lt bytes address.toNat vm.entryBytes
  rw [show 256 = 2 ^ 8 from rfl, ← Nat.pow_mul] at bound
  have high : Paging.entryAt bytes address.toNat vm.entryBytes <
      2 ^ bit := bound.trans_le <| Nat.pow_le_pow_right Nat.two_pos (by omega)
  rw [entry, BitVec.getLsbD_ofNat, Nat.testBit_lt_two_pow high, Bool.and_false]

/-- A byte with marks is the byte of the marked entry. -/
theorem entry_mark (address : BitVec 64) (type : MemoryAccessType) :
    vm.entry (Paging.mark (access type) bytes address.toNat) address =
      vm.entry bytes address ||| Pte.accessedDirty type := by
  apply BitVec.eq_of_getLsbD_eq
  intro bit _
  rw [BitVec.getLsbD_or]
  by_cases within : bit / 8 < vm.entryBytes
  · rw [vm.getLsbD_entry _ within, vm.getLsbD_entry _ within, Paging.mark]
    by_cases first : bit / 8 = 0
    · have small : bit < 8 := by omega
      have flags := congrArg (fun byte => byte.getLsbD bit)
        (extract_accessedDirty type (show 0 < 4 by decide))
      simp only [if_pos] at flags
      rw [first, Nat.add_zero, Function.update_self, BitVec.getLsbD_or,
        Nat.mod_eq_of_lt small, ← flags, BitVec.getLsbD_extractLsb',
        decide_eq_true small, Bool.true_and, Nat.mul_zero, Nat.zero_add]
    · rw [Function.update_of_ne (by omega), Pte.getLsbD_accessedDirty _
        (by omega), Bool.or_false]
  · have above := Nat.le_of_not_lt within
    have := vm.four_le_entryBytes
    rw [vm.getLsbD_entry_of_le _ above, vm.getLsbD_entry_of_le _ above,
      Pte.getLsbD_accessedDirty _ (by omega), Bool.or_false]

variable {vm bytes}

/-- A mark moves no other entry. -/
theorem entry_mark_of_ne {address other : BitVec 64}
    (aligned : vm.Aligned address) (otherAligned : vm.Aligned other)
    (different : other ≠ address) (type : MemoryAccessType) :
    vm.entry (Paging.mark (access type) bytes address.toNat) other =
      vm.entry bytes other := by
  apply vm.entry_ext
  intro offset within
  apply Function.update_of_ne
  intro same
  have apart : other.toNat ≠ address.toNat := fun equal =>
    different (BitVec.eq_of_toNat_eq equal)
  unfold Aligned at aligned otherAligned
  have sizes := vm.entryBytes_cases
  generalize vm.entryBytes = size at *
  obtain rfl | rfl := sizes <;> omega

end VmInfo

/-! ## Marked lookups -/

/-- The same end, with the marks of an access in one entry. -/
def Found.marked (type : MemoryAccessType) (address : BitVec 64) :
    Found → Found
  | .leaf level place pte =>
      .leaf level place
        (if place = address then pte ||| Pte.accessedDirty type else pte)
  | found => found

/-- Tables begin at multiples of the page size. -/
def PageAligned (base : BitVec 64) : Prop := base.toNat % 4096 = 0

theorem pageAligned_shiftLeft (frame : BitVec 64) :
    PageAligned (frame <<< pgShift) := by
  rw [PageAligned, BitVec.toNat_shiftLeft, Nat.shiftLeft_eq,
    show pgShift = 12 from rfl]
  omega

theorem VmInfo.aligned_pteAddress {vm : VmInfo} (vaddr : BitVec 64)
    (level : Nat) {base : BitVec 64} (whole : PageAligned base)
    (sized : vm.ptesize = vm.entryBytes) :
    vm.Aligned (pteAddress vm vaddr level base) := by
  unfold VmInfo.Aligned PageAligned pteAddress at *
  dsimp only
  rw [BitVec.toNat_add, BitVec.toNat_mul, sized]
  generalize BitVec.toNat (_ &&& _) = index
  rcases vm.entryBytes_cases with size | size
  · rw [size]
    change (base.toNat + index * 4 % 2 ^ 64) % 2 ^ 64 % 4 = 0
    omega
  · rw [size]
    change (base.toNat + index * 8 % 2 ^ 64) % 2 ^ 64 % 8 = 0
    omega

section Find

variable {refusals : Refusals} {vm : VmInfo} {bytes : Paging.Memory}
  {vaddr : BitVec 64}

/-- What a lookup finds is in memory. -/
theorem find_eq_leaf {levels level : Nat} {base address : BitVec 64}
    {pte : Pte} (whole : PageAligned base)
    (sized : vm.ptesize = vm.entryBytes)
    (found : find refusals vm vaddr bytes levels base =
      .leaf level address pte) :
    vm.Aligned address ∧ pte = vm.entry bytes address ∧
      pte.isInvalid = false ∧ pte.isPointer = false := by
  induction levels generalizing base with
  | zero => cases found
  | succ below inductionHypothesis =>
      rw [find] at found
      split at found
      · cases found
      split at found
      · cases found
      next valid =>
      split at found
      · exact inductionHypothesis (pageAligned_shiftLeft _) found
      next ends =>
      cases found
      exact ⟨VmInfo.aligned_pteAddress vaddr level whole sized, rfl,
        Bool.eq_false_of_not_eq_true valid, Bool.eq_false_of_not_eq_true ends⟩

/-- The marks of a leaf move no lookup. -/
theorem find_mark {address : BitVec 64} (aligned : vm.Aligned address)
    (valid : (vm.entry bytes address).isInvalid = false)
    (ends : (vm.entry bytes address).isPointer = false)
    (type : MemoryAccessType) (levels : Nat) {base : BitVec 64}
    (whole : PageAligned base) (sized : vm.ptesize = vm.entryBytes) :
    find refusals vm vaddr (Paging.mark (access type) bytes address.toNat)
        levels base =
      (find refusals vm vaddr bytes levels base).marked type address := by
  induction levels generalizing base with
  | zero => rfl
  | succ level inductionHypothesis =>
      rw [find, find]
      have place := VmInfo.aligned_pteAddress vaddr level whole sized
      generalize pteAddress vm vaddr level base = entryAddress at place ⊢
      cases refusals (vm.loadCall entryAddress) with
      | some cause => rfl
      | none =>
          by_cases same : entryAddress = address
          · subst same
            rw [vm.entry_mark, Pte.isInvalid_marked, Pte.isPointer_marked,
              valid, ends, if_neg Bool.false_ne_true,
              if_neg Bool.false_ne_true, if_neg Bool.false_ne_true,
              if_neg Bool.false_ne_true, Found.marked, if_pos rfl]
          rw [VmInfo.entry_mark_of_ne aligned place same]
          generalize vm.entry bytes entryAddress = pte
          by_cases isInvalid : pte.isInvalid = true
          · rw [if_pos isInvalid, if_pos isInvalid]
            rfl
          rw [if_neg isInvalid, if_neg isInvalid]
          by_cases isPointer : pte.isPointer = true
          · rw [if_pos isPointer, if_pos isPointer]
            exact inductionHypothesis (pageAligned_shiftLeft _)
          rw [if_neg isPointer, if_neg isPointer, Found.marked, if_neg same]

end Find

end Mmu

end RiscvVp
