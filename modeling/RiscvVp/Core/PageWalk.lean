import RiscvVp.Bits.Mask
import RiscvVp.Core.Mmu
import RiscvVp.Paging.Reference

/-!
# The walk of the MMU and the reference walk

Against a byte memory that answers every load, and with the accessed and dirty
bits kept by the hardware, `walk` ends as the reference walk does: with the
translated address, or with the page fault of the access.  It loads the
entries that the reference walk reads and leaves the memory with the same
marks.
-/

namespace RiscvVp

namespace Mmu

open Interaction

/-! ## The schemes of the MMU -/

/-- The scheme that `satp` selects on a core of this width. -/
def scheme? (core : Core) : Option Paging.Scheme :=
  match core.xlen, core.satpMode with
  | 32, 1 => some Paging.sv32
  | 64, 8 => some Paging.sv39
  | 64, 9 => some Paging.sv48
  | _, _ => none

/-- What the arithmetic of the walk needs of a scheme. -/
structure Describes (core : Core) (vm : VmInfo) (scheme : Paging.Scheme) :
    Prop where
  decoded : decodeVmInfo core = some vm
  levels : vm.levels = scheme.levels
  idxbits : vm.idxbits = scheme.indexBits
  ptesize : vm.ptesize = scheme.entryBytes
  ptbase : vm.ptbase = core.satpPpn <<< pgShift
  xlen : core.xlen = scheme.registerBits
  entryBytes : scheme.entryBytes = 4 ∨ scheme.entryBytes = 8
  indexBits : scheme.indexBits ≤ 10
  virtualBits : scheme.virtualBits ≤ scheme.registerBits
  registerBits : scheme.registerBits ≤ 64
  spread : scheme.registerBits < scheme.virtualBits + 63
  nonempty : 0 < scheme.span scheme.levels

theorem describes_of_scheme? {core : Core} {scheme : Paging.Scheme}
    (selected : scheme? core = some scheme) :
    ∃ vm, Describes core vm scheme := by
  unfold scheme? at selected
  split at selected
  case h_1 xlen mode =>
    cases selected
    exact ⟨⟨2, 10, 4, core.satpPpn <<< pgShift⟩,
      ⟨by simp [decodeVmInfo, mode], rfl, rfl, rfl, rfl, xlen, .inl rfl,
        by decide, by decide, by decide, by decide, by decide⟩⟩
  case h_2 xlen mode =>
    cases selected
    exact ⟨⟨3, 9, 8, core.satpPpn <<< pgShift⟩,
      ⟨by simp [decodeVmInfo, mode], rfl, rfl, rfl, rfl, xlen, .inr rfl,
        by decide, by decide, by decide, by decide, by decide⟩⟩
  case h_3 xlen mode =>
    cases selected
    exact ⟨⟨4, 9, 8, core.satpPpn <<< pgShift⟩,
      ⟨by simp [decodeVmInfo, mode], rfl, rfl, rfl, rfl, xlen, .inr rfl,
        by decide, by decide, by decide, by decide, by decide⟩⟩
  case h_4 => cases selected

/-! ## The memory of the walk -/

def access : MemoryAccessType → Paging.Access
  | .fetch => .fetch
  | .load => .load
  | .store => .store

/-- A translation is for user or supervisor mode. -/
def modeOf (supervisor : Bool) : PrivilegeLevel :=
  if supervisor then supervisorMode else userMode

def context (core : Core) (supervisor : Bool) : Paging.Context where
  supervisor := supervisor
  sum := core.sum
  mxr := core.mxr

/-- The bytes, and the addresses that entries were loaded from. -/
structure Tables where
  bytes : Paging.Memory
  loads : List ℕ

/-- Four bytes stored, the lowest first. -/
def storeWord (bytes : Paging.Memory) (addr : ℕ) (value : BitVec 32) :
    Paging.Memory :=
  fun address =>
    if addr ≤ address ∧ address < addr + 4 then
      value.extractLsb' (8 * (address - addr)) 8
    else bytes address

/-- How the memory answers the walk. -/
def serve : (request : Call) → Tables → Reply request × Tables
  | .loadPte32 addr, tables =>
      (BitVec.ofNat 64 (Paging.entryAt tables.bytes addr.toNat 4),
        { tables with loads := tables.loads ++ [addr.toNat] })
  | .loadPte64 addr, tables =>
      (BitVec.ofNat 64 (Paging.entryAt tables.bytes addr.toNat 8),
        { tables with loads := tables.loads ++ [addr.toNat] })
  | .storePte32 addr value, tables =>
      ((), { tables with bytes := storeWord tables.bytes addr.toNat value })

/-! ## Addresses -/

section Addresses

variable {core : Core} {vm : VmInfo} {scheme : Paging.Scheme}
  (describes : Describes core vm scheme)
include describes

theorem Describes.span_lt {level : ℕ} (below : level < scheme.levels) :
    Paging.pageBits + scheme.span level + scheme.indexBits ≤ 64 := by
  have whole := describes.virtualBits.trans describes.registerBits
  have step : scheme.span (level + 1) ≤ scheme.span scheme.levels :=
    Nat.mul_le_mul_right _ below
  rw [Paging.Scheme.span, Nat.succ_mul] at step
  rw [Paging.Scheme.virtualBits] at whole
  rw [Paging.Scheme.span] at *
  omega

theorem checkVaddrExtension_iff (vaddr : BitVec 64) :
    checkVaddrExtension core vaddr vm = true ↔
      scheme.Canonical vaddr.toNat := by
  have place : vm.idxbits * vm.levels + pgShift - 1 =
      scheme.virtualBits - 1 := by
    rw [describes.idxbits, describes.levels, Nat.mul_comm, Nat.add_comm]
    rfl
  have nonempty := describes.nonempty
  have bound := describes.virtualBits
  have spread := describes.spread
  have total : scheme.virtualBits = Paging.pageBits +
    scheme.span scheme.levels := rfl
  have narrow : scheme.registerBits - (scheme.virtualBits - 1) < 64 := by
    omega
  have uniform := Mask.uniform_iff narrow (by omega) vaddr
    (scheme.virtualBits - 1)
  rw [checkVaddrExtension, place, describes.xlen, Bool.or_eq_true,
    beq_iff_eq, beq_iff_eq]
  refine uniform.trans ⟨fun agree bit within above => ?_,
    fun canonical bit within => ?_⟩
  · have this := agree (bit - (scheme.virtualBits - 1)) (by omega)
    rwa [show scheme.virtualBits - 1 + (bit - (scheme.virtualBits - 1)) = bit
      by omega] at this
  · rcases Nat.eq_zero_or_pos bit with rfl | positive
    · rfl
    · exact canonical _ (by omega) (by omega)

theorem toNat_pteAddress (vaddr : BitVec 64) (level : ℕ)
    {base : BitVec 64} (bounded : base.toNat < 2 ^ 56) :
    (pteAddress vm vaddr level base).toNat =
      scheme.entryAddress level base.toNat vaddr.toNat := by
  have index : ((vaddr >>> (pgShift + level * vm.idxbits)) &&&
      Mask.mask 64 vm.idxbits).toNat = scheme.index level vaddr.toNat := by
    have narrow : vm.idxbits < 64 := by
      rw [describes.idxbits]
      exact describes.indexBits.trans_lt (by decide)
    rw [Mask.toNat_and_mask narrow, BitVec.toNat_ushiftRight,
      Nat.shiftRight_eq_div_pow, describes.idxbits]
    rfl
  have small : scheme.index level vaddr.toNat < 2 ^ 10 :=
    (Nat.mod_lt _ (Nat.two_pow_pos _)).trans_le
      (Nat.pow_le_pow_right Nat.two_pos describes.indexBits)
  have size : (BitVec.ofNat 64 vm.ptesize).toNat = scheme.entryBytes := by
    rw [describes.ptesize]
    rcases describes.entryBytes with four | eight
    · rw [four]
      rfl
    · rw [eight]
      rfl
  have product : scheme.index level vaddr.toNat * scheme.entryBytes <
      2 ^ 14 := by
    rcases describes.entryBytes with four | eight
    · rw [four]
      omega
    · rw [eight]
      omega
  change (base + ((vaddr >>> (pgShift + level * vm.idxbits)) &&&
    Mask.mask 64 vm.idxbits) * BitVec.ofNat 64 vm.ptesize).toNat = _
  rw [BitVec.toNat_add, BitVec.toNat_mul, index, size,
    Nat.mod_eq_of_lt (product.trans (by decide)), Nat.mod_eq_of_lt]
  · rfl
  · omega

end Addresses

/-! ## Entries -/

section Entries

variable {entry : ℕ}

theorem toNat_ppn (reserved : entry < 2 ^ 54) :
    (Pte.ppn (BitVec.ofNat 64 entry)).toNat = Paging.Entry.frame entry := by
  change (BitVec.ofNat 64 entry >>> ptePpnShift).toNat = _
  rw [BitVec.toNat_ushiftRight, BitVec.toNat_ofNat,
    Nat.mod_eq_of_lt (reserved.trans (by decide)),
    Nat.shiftRight_eq_div_pow]
  rfl

theorem frame_lt (reserved : entry < 2 ^ 54) :
    Paging.Entry.frame entry < 2 ^ 44 := by
  rw [Paging.Entry.frame]
  omega

/-- The table that a pointer leads to. -/
theorem toNat_table (reserved : entry < 2 ^ 54) :
    (Pte.ppn (BitVec.ofNat 64 entry) <<< pgShift).toNat =
      Paging.Entry.frame entry * 2 ^ Paging.pageBits := by
  have bound := frame_lt reserved
  have page : Paging.pageBits = 12 := rfl
  rw [BitVec.toNat_shiftLeft, toNat_ppn reserved, Nat.shiftLeft_eq, page,
    show pgShift = 12 from rfl, Nat.mod_eq_of_lt]
  omega

theorem leafAddress_eq (reserved : entry < 2 ^ 54) (vaddr : BitVec 64)
    {core : Core} {vm : VmInfo} {scheme : Paging.Scheme}
    (describes : Describes core vm scheme) {level : ℕ}
    (below : level < scheme.levels) :
    (leafAddress vaddr (level * vm.idxbits) (BitVec.ofNat 64 entry)).toNat =
      scheme.physical level entry vaddr.toNat := by
  have spanned : level * vm.idxbits = scheme.span level := by
    rw [describes.idxbits]
    rfl
  have narrow := describes.span_lt below
  have page : Paging.pageBits = 12 := rfl
  have within : scheme.span level < 64 := by omega
  have filled : vaddr.toNat / 2 ^ 12 % 2 ^ scheme.span level <
      2 ^ scheme.span level := Nat.mod_lt _ (Nat.two_pow_pos _)
  have kept : 2 ^ scheme.span level *
      (Paging.Entry.frame entry / 2 ^ scheme.span level) < 2 ^ 52 :=
    (Nat.mul_div_le _ _).trans_lt <|
      (frame_lt reserved).trans (by decide)
  have page_lt : vaddr.toNat / 2 ^ 12 % 2 ^ scheme.span level < 2 ^ 52 := by
    have := vaddr.isLt
    exact (Nat.mod_le _ _).trans_lt (by omega)
  have whole := Nat.or_lt_two_pow kept page_lt
  have offset : vaddr.toNat % 2 ^ 12 < 2 ^ 12 :=
    Nat.mod_lt _ (Nat.two_pow_pos _)
  change ((((Pte.ppn (BitVec.ofNat 64 entry) &&&
      ~~~Mask.mask 64 (level * vm.idxbits)) |||
    ((vaddr >>> pgShift) &&& Mask.mask 64 (level * vm.idxbits))) <<< pgShift) |||
      (vaddr &&& Mask.mask 64 12)).toNat = _
  rw [spanned, BitVec.toNat_or, BitVec.toNat_shiftLeft, BitVec.toNat_or,
    Mask.toNat_and_not_mask within, Mask.toNat_and_mask within,
    Mask.toNat_and_mask (by decide), toNat_ppn reserved,
    BitVec.toNat_ushiftRight, Nat.shiftRight_eq_div_pow,
    show pgShift = 12 from rfl, Nat.mul_comm _ (2 ^ scheme.span level),
    Nat.shiftLeft_eq, Nat.mod_eq_of_lt (by omega),
    ← Nat.two_pow_add_eq_or_of_lt filled, Nat.mul_comm _ (2 ^ 12),
    ← Nat.two_pow_add_eq_or_of_lt offset, Paging.Scheme.physical, page,
    Nat.mul_comm (2 ^ 12), Nat.mul_comm (2 ^ scheme.span level)]

theorem getLsbD_entry {bit : ℕ} (low : bit < 64) :
    (BitVec.ofNat 64 entry).getLsbD bit = entry.testBit bit := by
  rw [BitVec.getLsbD_ofNat, decide_eq_true low, Bool.true_and]

/-- The checks of one round are those of the reference walk. -/
theorem checkPte_eq (reserved : entry < 2 ^ 54) (core : Core)
    (supervisor : Bool) (type : MemoryAccessType) {span : ℕ}
    (within : span < 64) :
    checkPte core type supervisor span
        (BitVec.ofNat 64 entry) =
      if !Paging.Entry.valid entry then .fault
      else if !Paging.Entry.leaf entry then .pointer
      else if Paging.Entry.permits entry (context core supervisor) (access type) ∧
          Paging.Entry.frame entry % 2 ^ span = 0 then .leaf
      else .fault := by
  have misaligned : Pte.ppn (BitVec.ofNat 64 entry) &&&
      (((1 <<< span : ℕ) : BitVec 64) - 1) ≠ 0 ↔
        ¬ Paging.Entry.frame entry % 2 ^ span = 0 := by
    rw [ne_eq, ← BitVec.toNat_inj, ← toNat_ppn reserved,
      ← Mask.toNat_and_mask within]
    rfl
  have v : Pte.v (BitVec.ofNat 64 entry) = entry.testBit 0 :=
    getLsbD_entry (by decide)
  have r : Pte.r (BitVec.ofNat 64 entry) = Paging.Entry.readable entry :=
    getLsbD_entry (by decide)
  have w : Pte.w (BitVec.ofNat 64 entry) = Paging.Entry.writable entry :=
    getLsbD_entry (by decide)
  have x : Pte.x (BitVec.ofNat 64 entry) = Paging.Entry.executable entry :=
    getLsbD_entry (by decide)
  have u : Pte.u (BitVec.ofNat 64 entry) = Paging.Entry.user entry :=
    getLsbD_entry (by decide)
  have invalid : (!Paging.Entry.valid entry) = (!entry.testBit 0 ||
      (!Paging.Entry.readable entry && Paging.Entry.writable entry)) := by
    rw [Paging.Entry.valid, Bool.not_and, Bool.not_or, Bool.not_not]
  have pointer : (!Paging.Entry.leaf entry) =
      (!Paging.Entry.readable entry && !Paging.Entry.executable entry) := by
    rw [Paging.Entry.leaf, Bool.not_or]
  simp only [checkPte, v, r, w, x, u, misaligned, invalid, pointer]
  by_cases aligned : Paging.Entry.frame entry % 2 ^ span = 0
  · simp only [aligned, not_true_eq_false, if_false, and_true]
    rw [context]
    -- what is left is about Booleans only
    generalize core.sum = sum, core.mxr = mxr
    cases type
    all_goals
      rw [access, Paging.Entry.permits]
      generalize entry.testBit 0 = v, Paging.Entry.readable entry = r,
        Paging.Entry.writable entry = w, Paging.Entry.executable entry = x,
        Paging.Entry.user entry = u
      clear * -
      decide +revert
  · simp only [aligned, not_false_eq_true, if_true, and_false, if_false,
      ite_self]

end Entries

/-! ## Marks -/

section Marks

variable {bytes : Paging.Memory} {addr size : ℕ}

/-- A byte of a loaded entry. -/
theorem extract_entryAt (short : size ≤ 8) {offset : ℕ}
    (within : offset < size) :
    (BitVec.ofNat 64 (Paging.entryAt bytes addr size)).extractLsb'
        (8 * offset) 8 = bytes (addr + offset) := by
  have bound : Paging.entryAt bytes addr size < 2 ^ 64 :=
    (Paging.entryAt_lt bytes addr size).trans_le
      (Nat.pow_le_pow_right (by decide) short)
  apply BitVec.eq_of_toNat_eq
  rw [BitVec.extractLsb'_toNat, BitVec.toNat_ofNat, Nat.mod_eq_of_lt bound,
    Nat.shiftRight_eq_div_pow, Nat.pow_mul]
  exact Paging.entryAt_byte bytes addr within

/-- The flags an access sets are in the lowest byte. -/
theorem extract_accessedDirty (type : MemoryAccessType) {offset : ℕ}
    (within : offset < 4) :
    (Pte.accessedDirty type).extractLsb' (8 * offset) 8 =
      if offset = 0 then Paging.marks (access type) else 0 := by
  obtain rfl | rfl | rfl | rfl :
      offset = 0 ∨ offset = 1 ∨ offset = 2 ∨ offset = 3 := by omega
  all_goals cases type <;> decide

/-- An entry that has its marks is left as it is. -/
theorem mark_of_marked (four : 4 ≤ size) (short : size ≤ 8)
    (type : MemoryAccessType)
    (marked : BitVec.ofNat 64 (Paging.entryAt bytes addr size) &&&
      Pte.accessedDirty type = Pte.accessedDirty type) :
    Paging.mark (access type) bytes addr = bytes := by
  have lowest := congrArg (BitVec.extractLsb' (8 * 0) 8) marked
  rw [BitVec.extractLsb'_and, extract_accessedDirty type (by decide),
    extract_entryAt short (by omega), if_pos rfl, Nat.add_zero] at lowest
  rw [Paging.mark, Function.update_eq_self_iff, ← lowest]
  ext bit _
  rw [BitVec.getElem_or, BitVec.getElem_and]
  cases (bytes addr)[bit] <;> simp

/-- The word that is stored back sets the marks and nothing else. -/
theorem storeWord_marks (four : 4 ≤ size) (short : size ≤ 8)
    (type : MemoryAccessType) :
    storeWord bytes addr ((BitVec.ofNat 64 (Paging.entryAt bytes addr size) |||
        Pte.accessedDirty type).setWidth 32) =
      Paging.mark (access type) bytes addr := by
  funext address
  rw [storeWord, Paging.mark]
  by_cases inside : addr ≤ address ∧ address < addr + 4
  · obtain ⟨offset, rfl⟩ := Nat.exists_eq_add_of_le inside.1
    have within : offset < 4 := by omega
    rw [if_pos inside, Nat.add_sub_cancel_left,
      BitVec.extractLsb'_setWidth_of_le (by omega), BitVec.extractLsb'_or,
      extract_entryAt short (within.trans_le four),
      extract_accessedDirty type within]
    by_cases first : offset = 0
    · rw [if_pos first, first, Nat.add_zero, Function.update_self]
    · rw [if_neg first, Function.update_of_ne (by omega)]
      exact BitVec.or_zero
  · rw [if_neg inside, Function.update_of_ne]
    rintro rfl
    exact inside ⟨le_rfl, by omega⟩

end Marks

/-! ## The walk -/

/-- How `walk` ends when the reference walk is this. -/
def EndsAs (type : MemoryAccessType) (vaddr : BitVec 64) (tlb : Tlb)
    (reference : Paging.Walk)
    (outcome : Outcome Tlb SimulationTrap Fatal (BitVec 64)) : Prop :=
  match reference.leaf with
  | none => outcome = .trap (pageFault type vaddr) tlb
  | some leaf =>
      ∃ paddr : BitVec 64, outcome = .done paddr tlb ∧
        paddr.toNat = leaf.physical

/-- What the walk leaves of the tables when the reference walk is this. -/
def Tables.after (tables : Tables) (type : MemoryAccessType)
    (reference : Paging.Walk) : Tables where
  bytes := reference.marked (access type) tables.bytes
  loads := tables.loads ++ reference.reads

/-- The reserved upper bits of the entries that a walk reads are zero. -/
def ReservedZero (scheme : Paging.Scheme) (bytes : Paging.Memory)
    (reads : List ℕ) : Prop :=
  ∀ addr ∈ reads, Paging.entryAt bytes addr scheme.entryBytes < 2 ^ 54

instance (scheme : Paging.Scheme) (bytes : Paging.Memory)
    (reads : List ℕ) : Decidable (ReservedZero scheme bytes reads) :=
  inferInstanceAs (Decidable (∀ addr ∈ reads, _))

section Walk

variable {core : Core} {vm : VmInfo} {scheme : Paging.Scheme}
  (describes : Describes core vm scheme)
include describes

theorem loadPte_run (addr : BitVec 64) (tlb : Tlb) (tables : Tables)
    (continuation : Pte → MmuM (BitVec 64)) :
    ((loadPte vm addr >>= continuation) tlb).run serve tables =
      (continuation (BitVec.ofNat 64 (Paging.entryAt tables.bytes addr.toNat
        scheme.entryBytes)) tlb).run serve
          { tables with loads := tables.loads ++ [addr.toNat] } := by
  rw [loadPte, describes.ptesize]
  rcases describes.entryBytes with four | eight
  · rw [four]
    rfl
  · rw [eight]
    rfl

/-- A leaf is marked unless it has its marks. -/
theorem leaf_run (hardware : core.pageFaultOnAD = false)
    (type : MemoryAccessType) (fault : SimulationTrap) (addr paddr : BitVec 64)
    (tlb : Tlb) (tables : Tables) {pte : Pte}
    (loaded : pte = BitVec.ofNat 64
      (Paging.entryAt tables.bytes addr.toNat scheme.entryBytes)) :
    ((if pte &&& Pte.accessedDirty type ≠ Pte.accessedDirty type then
        if core.pageFaultOnAD then Machine.raise fault
        else do
          let _ ← Machine.request (Call.storePte32 addr
            ((pte ||| Pte.accessedDirty type).setWidth 32))
          pure paddr
      else pure paddr : MmuM (BitVec 64)) tlb).run serve tables =
      (.done paddr tlb, { tables with
        bytes := Paging.mark (access type) tables.bytes addr.toNat }) := by
  have four : 4 ≤ scheme.entryBytes := by
    rcases describes.entryBytes with four | eight <;> omega
  have short : scheme.entryBytes ≤ 8 := by
    rcases describes.entryBytes with four | eight <;> omega
  subst loaded
  by_cases marked : BitVec.ofNat 64 (Paging.entryAt tables.bytes addr.toNat
      scheme.entryBytes) &&& Pte.accessedDirty type = Pte.accessedDirty type
  · rw [if_neg (not_not.2 marked), mark_of_marked four short type marked,
      Machine.pure_apply, Program.run_ret]
  · rw [if_pos marked, hardware, ← storeWord_marks four short type]
    rfl

/-- The rounds of the loop follow the levels of the reference walk. -/
theorem walkLevels_run (hardware : core.pageFaultOnAD = false)
    (supervisor : Bool) (type : MemoryAccessType) (vaddr : BitVec 64)
    (tlb : Tlb) {levels : ℕ} (below : levels ≤ scheme.levels)
    {base : BitVec 64} (bounded : base.toNat < 2 ^ 56) (tables : Tables)
    {reference : Paging.Walk}
    (follows : reference = Paging.walkFrom scheme (context core supervisor)
      (access type) tables.bytes vaddr.toNat levels base.toNat)
    (reserved : ReservedZero scheme tables.bytes reference.reads) :
    EndsAs type vaddr tlb reference
        ((walkLevels core vm vaddr type supervisor levels base
          tlb).run serve tables).1 ∧
      ((walkLevels core vm vaddr type supervisor levels base
          tlb).run serve tables).2 = tables.after type reference := by
  induction levels generalizing base tables reference with
  | zero =>
      subst follows
      refine ⟨rfl, ?_⟩
      rw [walkLevels, Machine.raise_apply, Program.run_ret, Paging.walkFrom,
        Tables.after, List.append_nil]
      rfl
  | succ level inductionHypothesis =>
      have span : level * vm.idxbits = scheme.span level := by
        rw [describes.idxbits]
        rfl
      have page : Paging.pageBits = 12 := rfl
      have within : scheme.span level < 64 := by
        have := describes.span_lt below
        omega
      have located := toNat_pteAddress describes vaddr level bounded
      have entryBound := reserved _ (follows ▸
        Paging.entryAddress_mem_reads scheme _ _ _ _ level _)
      rw [walkLevels]
      dsimp only
      rw [loadPte_run describes, span, located,
        checkPte_eq entryBound core supervisor type within]
      rw [Paging.walkFrom] at follows
      dsimp only at follows
      generalize isAddress : scheme.entryAddress level base.toNat
        vaddr.toNat = address at *
      generalize isEntry : Paging.entryAt tables.bytes address
        scheme.entryBytes = entry at *
      by_cases invalid : (!Paging.Entry.valid entry) = true
      · rw [if_pos invalid] at follows ⊢
        subst follows
        exact ⟨rfl, rfl⟩
      rw [if_neg invalid] at follows ⊢
      by_cases pointer : (!Paging.Entry.leaf entry) = true
      · rw [if_pos pointer] at follows ⊢
        have table := toNat_table entryBound
        have tableBound : (Pte.ppn (BitVec.ofNat 64 entry) <<<
            pgShift).toNat < 2 ^ 56 := by
          have := frame_lt entryBound
          rw [table, page]
          omega
        subst follows
        obtain ⟨ends, leaves⟩ := inductionHypothesis (by omega) tableBound
          { tables with loads := tables.loads ++ [address] } rfl
          (by
            rw [table]
            exact fun addr read => reserved addr (.tail _ read))
        rw [table] at ends leaves
        refine ⟨ends, leaves.trans ?_⟩
        rw [Tables.after, Tables.after, List.append_assoc]
        rfl
      rw [if_neg pointer] at follows ⊢
      by_cases allowed : Paging.Entry.permits entry (context core supervisor)
          (access type) = true ∧
            Paging.Entry.frame entry % 2 ^ scheme.span level = 0
      · rw [if_pos allowed] at follows ⊢
        dsimp only
        have leaf := leafAddress_eq entryBound vaddr describes below
        rw [leaf_run describes hardware type _ _ _ tlb _
          (by rw [located, isEntry])]
        rw [span] at leaf
        subst follows
        refine ⟨⟨_, rfl, leaf⟩, ?_⟩
        rw [located]
        rfl
      · rw [if_neg allowed] at follows ⊢
        subst follows
        exact ⟨rfl, rfl⟩

end Walk

/-- The reference walk for an access of this core. -/
def reference (core : Core) (scheme : Paging.Scheme) (supervisor : Bool)
    (type : MemoryAccessType) (bytes : Paging.Memory) (vaddr : BitVec 64) :
    Paging.Walk :=
  Paging.walk scheme (context core supervisor) (access type) bytes
    vaddr.toNat (core.satpPpn.toNat * 2 ^ Paging.pageBits)

/-- `walk` gives the address of the reference walk or raises the page fault
of the access when that faults, loads the entries that the reference walk
reads, at most one a level, and sets the marks of the leaf. -/
theorem walk_refines {core : Core} {scheme : Paging.Scheme}
    (selected : scheme? core = some scheme)
    (hardware : core.pageFaultOnAD = false)
    (root : core.satpPpn.toNat < 2 ^ 44) (supervisor : Bool)
    (type : MemoryAccessType) (vaddr : BitVec 64) (bytes : Paging.Memory)
    (tlb : Tlb)
    (reserved : ReservedZero scheme bytes
      (reference core scheme supervisor type bytes vaddr).reads) :
    EndsAs type vaddr tlb (reference core scheme supervisor type bytes vaddr)
        ((walk core vaddr type (modeOf supervisor) tlb).run serve
          ⟨bytes, []⟩).1 ∧
      ((walk core vaddr type (modeOf supervisor) tlb).run serve
          ⟨bytes, []⟩).2 =
        ⟨(reference core scheme supervisor type bytes vaddr).marked
            (access type) bytes,
          (reference core scheme supervisor type bytes vaddr).reads⟩ ∧
      (reference core scheme supervisor type bytes vaddr).reads.length ≤
        scheme.levels := by
  obtain ⟨vm, describes⟩ := describes_of_scheme? selected
  have page : Paging.pageBits = 12 := rfl
  have base : vm.ptbase.toNat = core.satpPpn.toNat * 2 ^ Paging.pageBits := by
    rw [describes.ptbase, BitVec.toNat_shiftLeft, Nat.shiftLeft_eq, page,
      show pgShift = 12 from rfl, Nat.mod_eq_of_lt (by omega)]
  have bounded : vm.ptbase.toNat < 2 ^ 56 := by
    rw [base, page]
    omega
  have sMode : (modeOf supervisor == supervisorMode) = supervisor := by
    cases supervisor <;> decide
  have equation : walk core vaddr type (modeOf supervisor) =
      walkLevels core vm vaddr type supervisor
        (if checkVaddrExtension core vaddr vm then scheme.levels else 0)
        vm.ptbase := by
    rw [walk, describes.decoded, sMode, ← describes.levels]
  have levels : Paging.walkFrom scheme (context core supervisor)
      (access type) bytes vaddr.toNat
      (if checkVaddrExtension core vaddr vm then scheme.levels else 0)
      vm.ptbase.toNat = reference core scheme supervisor type bytes vaddr := by
    rw [reference, Paging.walk, base]
    by_cases canonical : scheme.Canonical vaddr.toNat
    · rw [if_pos canonical,
        if_pos ((checkVaddrExtension_iff describes vaddr).2 canonical)]
    · rw [if_neg canonical,
        if_neg ((checkVaddrExtension_iff describes vaddr).not.2 canonical)]
      rfl
  have below : (if checkVaddrExtension core vaddr vm then scheme.levels
      else 0) ≤ scheme.levels := by
    split <;> omega
  obtain ⟨ends, leaves⟩ := walkLevels_run describes hardware supervisor type
    vaddr tlb below bounded ⟨bytes, []⟩ levels.symm reserved
  rw [equation]
  exact ⟨ends, leaves, Paging.length_reads_walk_le _ _ _ _ _ _⟩

/-- A core with `Sv39` tables from `0x1000` on. -/
def gigapageCore : Core where
  xlen := 64
  satpMode := 8
  satpPpn := 1
  prv := supervisorMode
  mprv := false
  mpp := userMode
  sum := false
  mxr := false
  pageFaultOnAD := false

/-- The first entry of its root table maps a gigabyte, not accessed yet. -/
def gigapage : Paging.Memory :=
  fun address => if address = 0x1000 then 0x0f else 0

/-- A store through it. -/
theorem walk_refines_gigapage :
    EndsAs .store 0x1234 flushTlb
        (reference gigapageCore Paging.sv39 true .store gigapage 0x1234)
        ((walk gigapageCore 0x1234 .store (modeOf true) flushTlb).run serve
          ⟨gigapage, []⟩).1 ∧
      (reference gigapageCore Paging.sv39 true .store gigapage
        0x1234).reads = [0x1000] :=
  ⟨(walk_refines (by decide) rfl (by decide) true .store 0x1234 gigapage
    flushTlb (by decide +kernel)).1, by decide +kernel⟩

end Mmu

end RiscvVp
