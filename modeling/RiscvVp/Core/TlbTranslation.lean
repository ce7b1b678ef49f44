import RiscvVp.Core.TableMarks

/-!
# A translation through the buffer

A translation asks the lookaside buffer first.  On a miss it concludes from what
the lookup of the page finds, and a successful walk leaves an entry.  The entry
is kept by mode and access, but not by the status bits that the permission check
reads, and `PGMASK` has 32 bits, so that its complement cuts the frame of a page
off at 4 GiB.
-/

namespace RiscvVp

namespace Mmu

open Interaction

/-! ## Cores over the same tables -/

/-- The same tables, read in the same way; modes and status bits may differ. -/
structure SharesTables (core core' : Core) : Prop where
  xlen : core'.xlen = core.xlen
  satpMode : core'.satpMode = core.satpMode
  satpPpn : core'.satpPpn = core.satpPpn
  pageFaultOnAD : core'.pageFaultOnAD = core.pageFaultOnAD

namespace SharesTables

variable {core core' : Core} (shares : SharesTables core core')
include shares

theorem decodeVmInfo_eq : decodeVmInfo core' = decodeVmInfo core := by
  rw [decodeVmInfo, decodeVmInfo, shares.satpMode, shares.satpPpn]

theorem locate_eq (refusals : Refusals) (vm : VmInfo) (vaddr : BitVec 64)
    (bytes : Paging.Memory) :
    locate refusals core' vm vaddr bytes =
      locate refusals core vm vaddr bytes := by
  rw [locate, locate, checkVaddrExtension, checkVaddrExtension, shares.xlen]

end SharesTables

/-- The core with the two status bits of the permission check cleared. -/
def Core.plain (core : Core) : Core :=
  { core with sum := false, mxr := false }

theorem sharesTables_plain (core : Core) : SharesTables core core.plain :=
  ⟨rfl, rfl, rfl, rfl⟩

/-! ## Translations -/

/-- A translation in a state of the buffer and of memory. -/
def translate (refusals : Refusals) (core : Core) (vaddr : BitVec 64)
    (type : MemoryAccessType) (tlb : Tlb) (bytes : Paging.Memory) :
    Outcome Tlb SimulationTrap Fatal (BitVec 64) × Paging.Memory :=
  (translateVirtualToPhysicalAddr core vaddr type).attempt (respond refusals)
    tlb bytes

/-- The address of a hit. -/
def TlbEntry.address (entry : TlbEntry) (vaddr : BitVec 64) : BitVec 64 :=
  entry.ppn ||| (vaddr &&& pgMask.setWidth 64)

/-- The entry that a walk of the page leaves. -/
def TlbEntry.ofWalk (vaddr paddr : BitVec 64) : TlbEntry where
  ppn := paddr &&& (~~~pgMask).setWidth 64
  vpn := vaddr >>> pgShift

theorem TlbEntry.vpn_ofWalk (vaddr paddr : BitVec 64) :
    (TlbEntry.ofWalk vaddr paddr).vpn = vaddr >>> pgShift :=
  rfl

/-- The place of the page in its part of the buffer. -/
def tlbIndex (vaddr : BitVec 64) : BitVec 8 :=
  (vaddr >>> pgShift).setWidth 8

theorem Tlb.update_same (tlb : Tlb) (supervisor : Bool)
    (type : MemoryAccessType) (index : BitVec 8) (entry : TlbEntry) :
    tlb.update supervisor type index entry supervisor type index = entry :=
  if_pos ⟨rfl, rfl, rfl⟩

/-- The outcome of a miss. -/
def filled (tlb : Tlb) (supervisor : Bool) (type : MemoryAccessType)
    (vaddr : BitVec 64) :
    Except SimulationTrap (BitVec 64) × Paging.Memory →
      Outcome Tlb SimulationTrap Fatal (BitVec 64) × Paging.Memory
  | (.ok paddr, bytes) =>
      (.done paddr (tlb.update supervisor type (tlbIndex vaddr)
        (.ofWalk vaddr paddr)), bytes)
  | (.error cause, bytes) => (.trap cause tlb, bytes)

section Translate

variable (refusals : Refusals) {core : Core} (vaddr : BitVec 64)
  {type : MemoryAccessType} (tlb : Tlb) (bytes : Paging.Memory)

theorem translate_of_untranslated
    (untranslated : core.satpMode = 0 ∨
      effectiveMode core type = machineMode) :
    translate refusals core vaddr type tlb bytes =
      (.done vaddr tlb, bytes) := by
  unfold translate Machine.attempt translateVirtualToPhysicalAddr
  rcases untranslated with bare | machine
  · rw [if_pos bare]
    rfl
  · split
    · rfl
    · dsimp only
      rw [if_pos machine]
      rfl

theorem translate_of_invalid (translated : core.satpMode ≠ 0)
    (notMachine : effectiveMode core type ≠ machineMode)
    (invalid : ∀ supervisor,
      effectiveMode core type ≠ modeOf supervisor) :
    translate refusals core vaddr type tlb bytes =
      (.abort .mmuMode, bytes) := by
  have user : (effectiveMode core type == userMode) = false :=
    beq_false_of_ne (invalid false)
  have supervisor : (effectiveMode core type == supervisorMode) = false :=
    beq_false_of_ne (invalid true)
  unfold translate Machine.attempt translateVirtualToPhysicalAddr
  rw [if_neg translated]
  dsimp only
  rw [if_neg notMachine, user, supervisor]
  rfl

variable {supervisor : Bool}

/-- Beyond the checks of the mode there is the buffer and then the walk. -/
theorem translate_eq (translated : core.satpMode ≠ 0)
    (mode : effectiveMode core type = modeOf supervisor) :
    translate refusals core vaddr type tlb bytes =
      if (tlb supervisor type (tlbIndex vaddr)).vpn = vaddr >>> pgShift then
        (.done ((tlb supervisor type (tlbIndex vaddr)).address vaddr) tlb,
          bytes)
      else
        match decodeVmInfo core with
        | none => (.abort .unknownSatpMode, bytes)
        | some vm =>
            filled tlb supervisor type vaddr
              (conclude refusals core vm vaddr type supervisor bytes
                (locate refusals core vm vaddr bytes)) := by
  have notMachine : modeOf supervisor ≠ machineMode := by
    cases supervisor <;> decide
  have valid : (modeOf supervisor == userMode ||
      modeOf supervisor == supervisorMode) = true := by
    cases supervisor <;> decide
  have sMode : (modeOf supervisor == supervisorMode) = supervisor := by
    cases supervisor <;> decide
  unfold translate Machine.attempt translateVirtualToPhysicalAddr
  rw [if_neg translated]
  dsimp only
  rw [mode, if_neg notMachine, valid, Machine.assert_true, Machine.bind_apply,
    Machine.pure_apply, Program.ret_bind, Machine.andThen_done,
    Machine.bind_apply, Machine.reads_apply, Program.ret_bind,
    Machine.andThen_done, sMode]
  change Program.attempt _ _ ((if (tlb supervisor type (tlbIndex vaddr)).vpn =
    vaddr >>> pgShift then _ else _ : MmuM (BitVec 64)) tlb) bytes = _
  rw [Machine.ite_apply]
  split
  · rfl
  rw [Machine.bind_apply, Machine.attempt_andThen, walk]
  cases decodeVmInfo core with
  | none => rfl
  | some vm =>
      dsimp only
      rw [sMode, walkLevels_attempt, ← locate]
      rcases conclude refusals core vm vaddr type supervisor bytes
        (locate refusals core vm vaddr bytes) with ⟨concluded, later⟩
      cases concluded <;> rfl

end Translate

/-! ## Leaves -/

/-- The leaf permits the access whatever `SUM` and `MXR` are. -/
def Steady (supervisor : Bool) (type : MemoryAccessType) (pte : Pte) : Prop :=
  (type ≠ .fetch → supervisor = true → pte.u = false) ∧
    (type = .load → pte.r = true)

instance (supervisor : Bool) (type : MemoryAccessType) (pte : Pte) :
    Decidable (Steady supervisor type pte) :=
  inferInstanceAs (Decidable (_ ∧ _))

/-- The page lies below 4 GiB. -/
def Low (vaddr : BitVec 64) (ptshift : Nat) (pte : Pte) : Prop :=
  (leafAddress vaddr ptshift pte).toNat < 2 ^ 32

instance (vaddr : BitVec 64) (ptshift : Nat) (pte : Pte) :
    Decidable (Low vaddr ptshift pte) :=
  inferInstanceAs (Decidable (_ < _))

section Leaves

variable {core : Core} {type : MemoryAccessType} {supervisor : Bool}
  {ptshift : Nat} {pte : Pte}

/-- Without the status bits only steady leaves permit an access. -/
theorem steady_of_checkPte (sum : core.sum = false) (mxr : core.mxr = false)
    (permitted : checkPte core type supervisor ptshift pte = .leaf) :
    Steady supervisor type pte := by
  rw [checkPte, sum, mxr] at permitted
  repeat' split at permitted
  all_goals cases permitted
  cases type <;> cases supervisor <;> simp_all [Steady]

/-- A steady leaf that permits an access does so under any status bits. -/
theorem Steady.checkPte_eq (steady : Steady supervisor type pte)
    (permitted : checkPte core type supervisor ptshift pte = .leaf)
    (core' : Core) :
    checkPte core' type supervisor ptshift pte = .leaf := by
  obtain ⟨hidden, readable⟩ := steady
  rw [checkPte] at permitted ⊢
  repeat' split at permitted
  all_goals cases permitted
  cases type <;> cases supervisor <;> simp_all

/-! ## Frames -/

/-- The complement of `PGMASK` keeps bits 12 to 31. -/
theorem getLsbD_notPgMask {bit : Nat} (low : bit < 64) :
    ((~~~pgMask).setWidth 64).getLsbD bit =
      decide (12 ≤ bit ∧ bit < 32) := by
  revert bit
  decide

theorem getLsbD_pgMask {bit : Nat} (low : bit < 64) :
    (pgMask.setWidth 64).getLsbD bit = decide (bit < 12) := by
  revert bit
  decide

/-- A frame of a page and an offset in it. -/
theorem leafAddress_split (vaddr : BitVec 64) (ptshift : Nat) (pte : Pte) :
    ∃ frame : BitVec 64, ∀ vaddr' : BitVec 64,
      vaddr' >>> pgShift = vaddr >>> pgShift →
        leafAddress vaddr' ptshift pte =
          (frame <<< pgShift) ||| (vaddr' &&& pgMask.setWidth 64) := by
  refine ⟨(pte.ppn &&& ~~~Mask.mask 64 ptshift) |||
    ((vaddr >>> pgShift) &&& Mask.mask 64 ptshift), ?_⟩
  intro vaddr' same
  rw [← same]
  rfl

/-- What the buffer makes of a page. -/
theorem address_ofWalk (frame vaddr vaddr' : BitVec 64) :
    (TlbEntry.ofWalk vaddr ((frame <<< pgShift) |||
        (vaddr &&& pgMask.setWidth 64))).address vaddr' =
      ((frame <<< pgShift) &&& (~~~pgMask).setWidth 64) |||
        (vaddr' &&& pgMask.setWidth 64) := by
  apply BitVec.eq_of_getLsbD_eq
  intro bit bounded
  rw [TlbEntry.address, TlbEntry.ofWalk]
  simp only [BitVec.getLsbD_or, BitVec.getLsbD_and, getLsbD_notPgMask bounded,
    getLsbD_pgMask bounded]
  by_cases low : bit < 12
  · simp [low, Nat.not_le.2 low]
  · simp [low]

/-- A low page is kept whole. -/
theorem address_of_low (vaddr vaddr' : BitVec 64) (ptshift : Nat) (pte : Pte)
    (low : Low vaddr ptshift pte)
    (same : vaddr' >>> pgShift = vaddr >>> pgShift) :
    (TlbEntry.ofWalk vaddr (leafAddress vaddr ptshift pte)).address vaddr' =
      leafAddress vaddr' ptshift pte := by
  obtain ⟨frame, split⟩ := leafAddress_split vaddr ptshift pte
  rw [Low, split vaddr rfl] at low
  rw [split vaddr rfl, split vaddr' same, address_ofWalk]
  congr 1
  apply BitVec.eq_of_getLsbD_eq
  intro bit bounded
  rw [BitVec.getLsbD_and, getLsbD_notPgMask bounded]
  by_cases high : 32 ≤ bit
  · have clear := Nat.testBit_lt_two_pow
      (low.trans_le (Nat.pow_le_pow_right Nat.two_pos high))
    rw [BitVec.testBit_toNat, BitVec.getLsbD_or, Bool.or_eq_false_iff] at clear
    rw [clear.1, Bool.false_and]
  · rw [BitVec.getLsbD_shiftLeft, show pgShift = 12 from rfl]
    by_cases below : bit < 12
    · simp [below]
    · simp [Nat.lt_of_not_le high, Nat.le_of_not_lt below]

/-- Nor is a page kept whole that is not low. -/
theorem low_of_address {vaddr : BitVec 64}
    (whole : (TlbEntry.ofWalk vaddr (leafAddress vaddr ptshift pte)).address
      vaddr = leafAddress vaddr ptshift pte) :
    Low vaddr ptshift pte := by
  obtain ⟨frame, split⟩ := leafAddress_split vaddr ptshift pte
  rw [split vaddr rfl, address_ofWalk] at whole
  rw [Low, split vaddr rfl, ← whole]
  apply Nat.lt_pow_two_of_testBit
  intro bit high
  rw [BitVec.testBit_toNat]
  by_cases bounded : bit < 64
  · rw [BitVec.getLsbD_or, BitVec.getLsbD_and, BitVec.getLsbD_and,
      getLsbD_notPgMask bounded, getLsbD_pgMask bounded]
    simp [Nat.not_lt.2 high, Nat.not_lt.2 ((by decide : 12 ≤ 32).trans high)]
  · exact BitVec.getLsbD_of_ge _ _ (Nat.le_of_not_lt bounded)

end Leaves

/-! ## Lookups of a page -/

/-- The addresses of the entries that a lookup reads. -/
def entriesRead (refusals : Refusals) (vm : VmInfo) (vaddr : BitVec 64)
    (bytes : Paging.Memory) : Nat → BitVec 64 → List (BitVec 64)
  | 0, _ => []
  | level + 1, base =>
      let address := pteAddress vm vaddr level base
      let pte := vm.entry bytes address
      if (refusals (vm.loadCall address)).isSome then []
      else if pte.isInvalid ∨ ¬ pte.isPointer then [address]
      else address ::
        entriesRead refusals vm vaddr bytes level (pte.ppn <<< pgShift)

/-- The page tables of the core are the same in both memories. -/
def SameTables (refusals : Refusals) (core : Core)
    (bytes bytes' : Paging.Memory) : Prop :=
  ∀ vm, decodeVmInfo core = some vm → ∀ vaddr,
    ∀ address ∈ entriesRead refusals vm vaddr bytes vm.levels vm.ptbase,
      vm.entry bytes' address = vm.entry bytes address

section Pages

variable {refusals : Refusals} {core : Core} {vm : VmInfo}
  {bytes : Paging.Memory}

theorem facts_of_decodeVmInfo (decoded : decodeVmInfo core = some vm) :
    vm.ptesize = vm.entryBytes ∧ PageAligned vm.ptbase ∧
      0 < vm.idxbits * vm.levels := by
  unfold decodeVmInfo at decoded
  split at decoded
  case h_6 => cases decoded
  all_goals
    cases decoded
    exact ⟨rfl, pageAligned_shiftLeft _, by simp⟩

theorem shiftRight_add_congr {vaddr vaddr' : BitVec 64}
    (same : vaddr' >>> pgShift = vaddr >>> pgShift) (more : Nat) :
    vaddr' >>> (pgShift + more) = vaddr >>> (pgShift + more) := by
  rw [BitVec.shiftRight_add, BitVec.shiftRight_add, same]

theorem find_congr {vaddr vaddr' : BitVec 64}
    (same : vaddr' >>> pgShift = vaddr >>> pgShift) (levels : Nat)
    (base : BitVec 64) :
    find refusals vm vaddr' bytes levels base =
      find refusals vm vaddr bytes levels base := by
  induction levels generalizing base with
  | zero => rfl
  | succ level inductionHypothesis =>
      have place : pteAddress vm vaddr' level base =
          pteAddress vm vaddr level base := by
        rw [pteAddress, pteAddress, shiftRight_add_congr same]
      rw [find, find, place, inductionHypothesis]

/-- A lookup is about a page. -/
theorem locate_congr (decoded : decodeVmInfo core = some vm)
    {vaddr vaddr' : BitVec 64}
    (same : vaddr' >>> pgShift = vaddr >>> pgShift) :
    locate refusals core vm vaddr' bytes =
      locate refusals core vm vaddr bytes := by
  have above : vm.idxbits * vm.levels + pgShift - 1 =
      pgShift + (vm.idxbits * vm.levels - 1) := by
    have positive := (facts_of_decodeVmInfo decoded).2.2
    omega
  rw [locate, locate, find_congr same, checkVaddrExtension,
    checkVaddrExtension, above, shiftRight_add_congr same]

/-- What is located is in memory. -/
theorem locate_eq_leaf (decoded : decodeVmInfo core = some vm)
    {vaddr address : BitVec 64} {level : Nat} {pte : Pte}
    (found : locate refusals core vm vaddr bytes =
      .leaf level address pte) :
    vm.Aligned address ∧ pte = vm.entry bytes address ∧
      pte.isInvalid = false ∧ pte.isPointer = false := by
  obtain ⟨sized, whole, _⟩ := facts_of_decodeVmInfo decoded
  exact find_eq_leaf whole sized found

/-- The marks of a located leaf move no other lookup. -/
theorem locate_mark (decoded : decodeVmInfo core = some vm)
    {vaddr address : BitVec 64} {level : Nat} {pte : Pte}
    (found : locate refusals core vm vaddr bytes = .leaf level address pte)
    (type : MemoryAccessType) (vaddr' : BitVec 64) :
    locate refusals core vm vaddr'
        (Paging.mark (access type) bytes address.toNat) =
      (locate refusals core vm vaddr' bytes).marked type address := by
  obtain ⟨sized, whole, _⟩ := facts_of_decodeVmInfo decoded
  obtain ⟨aligned, rfl, valid, ends⟩ := locate_eq_leaf decoded found
  exact find_mark aligned valid ends type _ whole sized

theorem find_of_entriesRead {bytes' : Paging.Memory} {vaddr : BitVec 64}
    {levels : Nat} {base : BitVec 64}
    (same : ∀ address ∈ entriesRead refusals vm vaddr bytes levels base,
      vm.entry bytes' address = vm.entry bytes address) :
    find refusals vm vaddr bytes' levels base =
      find refusals vm vaddr bytes levels base := by
  induction levels generalizing base with
  | zero => rfl
  | succ level inductionHypothesis =>
      rw [entriesRead] at same
      rw [find, find]
      generalize pteAddress vm vaddr level base = address at same ⊢
      cases refused : refusals (vm.loadCall address) with
      | some cause => rfl
      | none =>
          rw [refused, if_neg (by decide)] at same
          by_cases ends : (vm.entry bytes address).isInvalid = true ∨
              ¬ (vm.entry bytes address).isPointer = true
          · rw [if_pos ends] at same
            rw [same address List.mem_cons_self]
            dsimp only
            rcases ends with invalid | leaf
            · rw [if_pos invalid, if_pos invalid]
            · rw [if_neg leaf, if_neg leaf]
          · rw [if_neg ends] at same
            rw [same address List.mem_cons_self, inductionHypothesis
              fun other member => same other (List.mem_cons_of_mem _ member)]

/-- Unchanged tables locate the same. -/
theorem SameTables.locate_eq {bytes' : Paging.Memory}
    (same : SameTables refusals core bytes bytes')
    (decoded : decodeVmInfo core = some vm) (vaddr : BitVec 64) :
    locate refusals core vm vaddr bytes' =
      locate refusals core vm vaddr bytes := by
  rw [locate, locate]
  split
  · exact find_of_entriesRead (same vm decoded vaddr)
  · rfl

end Pages

/-! ## Conclusions -/

/-- The leaf can carry the flags of the access. -/
def Markable (refusals : Refusals) (core : Core) (type : MemoryAccessType)
    (address : BitVec 64) (pte : Pte) : Prop :=
  pte &&& Pte.accessedDirty type = Pte.accessedDirty type ∨
    core.pageFaultOnAD = false ∧
      refusals (markCall type address pte) = none

section Conclusions

variable {refusals : Refusals} {core : Core} {vm : VmInfo}
  {bytes : Paging.Memory} {vaddr address : BitVec 64}
  {type : MemoryAccessType} {supervisor : Bool} {level : Nat} {pte : Pte}

/-- A permitted leaf that can carry the flags gives the address. -/
theorem conclude_of_markable (stored : pte = vm.entry bytes address)
    (permitted : checkPte core type supervisor (level * vm.idxbits) pte =
      .leaf)
    (markable : Markable refusals core type address pte) :
    conclude refusals core vm vaddr type supervisor bytes
        (.leaf level address pte) =
      (.ok (leafAddress vaddr (level * vm.idxbits) pte),
        Paging.mark (access type) bytes address.toNat) := by
  rw [conclude]
  rw [if_pos permitted]
  by_cases flagged : pte &&& Pte.accessedDirty type = Pte.accessedDirty type
  · rw [if_neg (not_not.2 flagged), mark_of_marked vm.four_le_entryBytes
      vm.entryBytes_le_eight type]
    rw [stored] at flagged
    exact flagged
  · obtain ⟨hardware, accepted⟩ := markable.resolve_left flagged
    rw [if_pos flagged, hardware, if_neg Bool.false_ne_true, accepted, stored]
    dsimp only
    rw [VmInfo.entry, storeWord_marks vm.four_le_entryBytes
      vm.entryBytes_le_eight]

/-- Otherwise the walk traps and leaves the memory alone. -/
theorem conclude_of_not_markable
    (refused : ¬ (checkPte core type supervisor (level * vm.idxbits) pte =
      .leaf ∧ Markable refusals core type address pte)) :
    ∃ cause, conclude refusals core vm vaddr type supervisor bytes
      (.leaf level address pte) = (.error cause, bytes) := by
  rw [conclude]
  by_cases permitted : checkPte core type supervisor (level * vm.idxbits) pte =
      .leaf
  · have unmarkable : ¬ Markable refusals core type address pte :=
      fun markable => refused ⟨permitted, markable⟩
    rw [Markable, not_or] at unmarkable
    rw [if_pos permitted, if_pos unmarkable.1]
    cases hardware : core.pageFaultOnAD with
    | true => exact ⟨_, rfl⟩
    | false =>
        rw [if_neg Bool.false_ne_true]
        cases accepted : refusals (markCall type address pte) with
        | some cause => exact ⟨cause, rfl⟩
        | none => exact absurd ⟨hardware, accepted⟩ unmarkable.2
  · rw [if_neg permitted]
    exact ⟨_, rfl⟩

theorem answer_filled (tlb tlb' : Tlb)
    (concluded : Except SimulationTrap (BitVec 64) × Paging.Memory) :
    (filled tlb supervisor type vaddr concluded).1.answer =
      (filled tlb' supervisor type vaddr concluded).1.answer := by
  obtain ⟨result, later⟩ := concluded
  cases result <;> rfl

theorem flushTlb_vpn (supervisor : Bool) (type : MemoryAccessType)
    (index : BitVec 8) (vaddr : BitVec 64) :
    (flushTlb supervisor type index).vpn ≠ vaddr >>> pgShift := by
  intro same
  have number := congrArg BitVec.toNat same
  rw [BitVec.toNat_ushiftRight, Nat.shiftRight_eq_div_pow,
    show pgShift = 12 from rfl] at number
  have bounded := vaddr.isLt
  change 2 ^ 64 - 1 = _ at number
  omega

end Conclusions

end Mmu

end RiscvVp
