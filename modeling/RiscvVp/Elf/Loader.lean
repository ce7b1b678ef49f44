import RiscvVp.Elf.Image
import RiscvVp.Storage.Placement

/-!
# Loading an image into a memory

`load_executable_image` and the two functions of `memory.h` it calls.  An image is
loaded once for each memory: a segment that does not start in the window of the
memory is skipped, and one that does not fit ends the load.
-/

namespace RiscvVp

namespace Elf

open Storage

variable {types : ElfTypes}

structure SimpleMemory where
  data : ℕ → Byte
  size : BitVec 32

/-- What ends a load before all segments are seen. -/
inductive Fault (types : ElfTypes) : Type
  /-- `load_executable_exception`, after "Offset overlaps into section:" -/
  | offsetOverlaps (p : Phdr types)
  /-- `load_executable_exception`, after "Section does not fit in target memory" -/
  | doesNotFit (p : Phdr types)
  /-- An assertion fails. -/
  | assertion
  /-- The array of the memory is left. -/
  | outside
  deriving DecidableEq, Repr

/-- The bytes of the array that `load_data` and `load_zero` write. -/
def SimpleMemory.store (memory : SimpleMemory) (dstAddr n : BitVec 64)
    (bytes : ℕ → Byte) : Except (Fault types) SimpleMemory :=
  if ¬ dstAddr + n ≤ memory.size.setWidth 64 then .error .assertion
  else if memory.size.toNat < dstAddr.toNat + n.toNat then .error .outside
  else .ok { memory with
    data := overwrite memory.data dstAddr.toNat n.toNat bytes }

/-- `load_data` -/
def SimpleMemory.loadData (memory : SimpleMemory) (src : ℕ → Byte)
    (dstAddr n : BitVec 64) : Except (Fault types) SimpleMemory :=
  memory.store dstAddr n src

/-- `load_zero` -/
def SimpleMemory.loadZero (memory : SimpleMemory) (dstAddr n : BitVec 64) :
    Except (Fault types) SimpleMemory :=
  memory.store dstAddr n fun _ => 0

/-- `elf.data() + offset` -/
def Image.dataFrom (elf : Image types) (offset : ℕ) : ℕ → Byte :=
  fun index => elf.data.getD (offset + index) 0

/-- The address that a segment is loaded to. -/
def Phdr.addr (useVaddr : Bool) (p : Phdr types) : Addr types :=
  if useVaddr then p.pVaddr else p.pPaddr

/-- The end of the loop: the file bytes of a segment and the zeros after them. -/
def storeSegment (elf : Image types) (idx : Addr types) (p : Phdr types)
    (memory : SimpleMemory) : Except (Fault types) SimpleMemory := do
  let copied ← memory.loadData (elf.dataFrom p.pOffset.toNat)
    (idx.setWidth 64) (p.pFilesz.setWidth 64)
  if ¬ p.pMemsz ≥ p.pFilesz then throw .assertion
  copied.loadZero ((idx + p.pFilesz).setWidth 64)
    ((p.pMemsz - p.pFilesz).setWidth 64)

/-- The body of the loop; `none` when the segment is skipped. -/
def loadSegment (elf : Image types) (size offset : Addr types) (useVaddr : Bool)
    (p : Phdr types) (memory : SimpleMemory) :
    Except (Fault types) (Option SimpleMemory) :=
  let addr := p.addr useVaddr
  if ¬ (addr ≥ offset ∧ addr < offset + size) then .ok none
  else if addr < offset then .error (.offsetOverlaps p)
  else if addr + p.pMemsz ≥ offset + size then .error (.doesNotFit p)
  else (storeSegment elf (addr - offset) p memory).map some

/-- What a load leaves: the memory, the segments that were loaded into it, and
why it ended early. -/
structure Load (types : ElfTypes) where
  memory : SimpleMemory
  accepted : List (Phdr types)
  fault : Option (Fault types)

def loadSegments (elf : Image types) (size offset : Addr types)
    (useVaddr : Bool) : List (Phdr types) → SimpleMemory → Load types
  | [], memory => ⟨memory, [], none⟩
  | p :: rest, memory =>
      match loadSegment elf size offset useVaddr p memory with
      | .error fault => ⟨memory, [], some fault⟩
      | .ok none => loadSegments elf size offset useVaddr rest memory
      | .ok (some loaded) =>
          let load := loadSegments elf size offset useVaddr rest loaded
          { load with accepted := p :: load.accepted }

/-- `load_executable_image` -/
def loadExecutableImage (elf : Image types) (memory : SimpleMemory)
    (size offset : Addr types) (useVaddr : Bool) : Load types :=
  loadSegments elf size offset useVaddr (getLoadSections elf) memory

/-! ## What a load is for -/

/-- The first address after a segment. -/
def Phdr.addrEnd (useVaddr : Bool) (p : Phdr types) : ℕ :=
  (p.addr useVaddr).toNat + p.pMemsz.toNat

/-- The bytes of a segment in the memory that starts at `offset`. -/
def segmentBlock (elf : Image types) (offset : Addr types) (useVaddr : Bool)
    (p : Phdr types) : Block Byte where
  start := (p.addr useVaddr).toNat - offset.toNat
  length := p.pMemsz.toNat
  contents := fun index =>
    if index < p.pFilesz.toNat then elf.dataFrom p.pOffset.toNat index else 0

/-- The segments have their bytes in the file and do not overlap. -/
structure Image.WellFormed (elf : Image types) (useVaddr : Bool) : Prop where
  filesz_le : ∀ p ∈ getLoadSections elf, p.pFilesz ≤ p.pMemsz
  inFile : ∀ p ∈ getLoadSections elf,
    p.pOffset.toNat + p.pFilesz.toNat ≤ elf.data.length
  apart : (getLoadSections elf).Pairwise fun left right =>
    left.addrEnd useVaddr ≤ (right.addr useVaddr).toNat ∨
      right.addrEnd useVaddr ≤ (left.addr useVaddr).toNat

section Window

variable (size offset : Addr types) (useVaddr : Bool)

/-- The first address after the window. -/
def windowEnd : ℕ := offset.toNat + size.toNat

def StartsIn (p : Phdr types) : Prop :=
  offset.toNat ≤ (p.addr useVaddr).toNat ∧
    (p.addr useVaddr).toNat < windowEnd size offset

instance (p : Phdr types) : Decidable (StartsIn size offset useVaddr p) :=
  inferInstanceAs (Decidable (_ ∧ _))

/-- A segment that starts in the window lies entirely in it. -/
def Fits (p : Phdr types) : Prop := p.addrEnd useVaddr ≤ windowEnd size offset

instance (p : Phdr types) : Decidable (Fits size offset useVaddr p) :=
  inferInstanceAs (Decidable (_ ≤ _))

/-- The loop ends when there are no further segments, or at the first one that
does not fit. -/
def EndsAt : Option (Fault types) → List (Phdr types) → Prop
  | none, rest => rest = []
  | some (.offsetOverlaps p), rest =>
      rest.head? = some p ∧ ¬ Fits size offset useVaddr p
  | some (.doesNotFit p), rest =>
      rest.head? = some p ∧ ¬ Fits size offset useVaddr p
  | some .assertion, _ => False
  | some .outside, _ => False

/-- Of the segments that start in the window those are accepted that fit, up to
the first that does not. -/
def Judges (starting : List (Phdr types)) (load : Load types) : Prop :=
  ∃ rest, starting = load.accepted ++ rest ∧
    (∀ p ∈ load.accepted, Fits size offset useVaddr p) ∧
    EndsAt size offset useVaddr load.fault rest

/-- The segments that start in the window. -/
def starting (segments : List (Phdr types)) : List (Phdr types) :=
  segments.filter fun p => StartsIn size offset useVaddr p

/-- Every segment is judged right, no function of the memory is called with a
range outside it, and the accepted segments are all that changes. -/
structure Loads (elf : Image types) (memory : SimpleMemory) (load : Load types) :
    Prop where
  judges : Judges size offset useVaddr
    (starting size offset useVaddr (getLoadSections elf)) load
  holds : ∀ p ∈ load.accepted, ∀ index < p.pMemsz.toNat,
    load.memory.data ((p.addr useVaddr).toNat - offset.toNat + index) =
      if index < p.pFilesz.toNat then elf.dataFrom p.pOffset.toNat index else 0
  unchanged : ∀ index,
    (∀ p ∈ load.accepted,
      ¬ (segmentBlock elf offset useVaddr p).Covers index) →
      load.memory.data index = memory.data index

/-- The segment does not end at the end of the window, does not wrap around, and
the window does not end with the address space. -/
def Clear (p : Phdr types) : Prop :=
  p.addrEnd useVaddr ≠ windowEnd size offset ∧
    p.addrEnd useVaddr < 2 ^ types.bits ∧
      windowEnd size offset < 2 ^ types.bits

/-- The segments are clear up to the first that does not fit. -/
def ClearUntilMisfit (segments : List (Phdr types)) : Prop :=
  ∀ before p after, segments = before ++ p :: after →
    (∀ q ∈ before, Fits size offset useVaddr q) → Clear size offset useVaddr p

end Window

/-! ## One segment -/

section Segment

variable {elf : Image types} {size offset : Addr types} {useVaddr : Bool}
  {p : Phdr types} {memory loaded : SimpleMemory}

theorem toNat_setWidth (addr : Addr types) :
    (addr.setWidth 64).toNat = addr.toNat := by
  rw [BitVec.toNat_setWidth]
  apply Nat.mod_eq_of_lt
  exact addr.isLt.trans_le (Nat.pow_le_pow_right (by decide) types.bits_le)

theorem toNat_windowEnd (window : windowEnd size offset < 2 ^ types.bits) :
    (offset + size).toNat = windowEnd size offset := by
  rw [BitVec.toNat_add]
  exact Nat.mod_eq_of_lt window

/-- The array is written when the range lies in it. -/
theorem store_inside {dstAddr n : BitVec 64} {bytes : ℕ → Byte}
    (inside : dstAddr.toNat + n.toNat ≤ memory.size.toNat) :
    (memory.store dstAddr n bytes : Except (Fault types) SimpleMemory) =
      .ok { memory with
        data := overwrite memory.data dstAddr.toNat n.toNat bytes } := by
  have bounded := memory.size.isLt
  have accepted : dstAddr + n ≤ memory.size.setWidth 64 := by
    rw [BitVec.le_def, BitVec.toNat_add, BitVec.toNat_setWidth]
    omega
  rw [SimpleMemory.store, if_neg (not_not.2 accepted),
    if_neg (Nat.not_lt.2 inside)]

/-- A range that leaves the array is met by the assertion or overruns it. -/
theorem store_outside {dstAddr n : BitVec 64} {bytes : ℕ → Byte}
    (outside : memory.size.toNat < dstAddr.toNat + n.toNat) :
    (memory.store dstAddr n bytes : Except (Fault types) SimpleMemory) =
        .error .assertion ∨
      (memory.store dstAddr n bytes : Except (Fault types) SimpleMemory) =
        .error .outside := by
  by_cases asserted : dstAddr + n ≤ memory.size.setWidth 64
  · right
    rw [SimpleMemory.store, if_neg (not_not.2 asserted), if_pos outside]
  · left
    rw [SimpleMemory.store, if_pos asserted]

/-- The file bytes and the zeros after them are written as one range. -/
theorem storeSegment_inside {idx : Addr types} (filesz : p.pFilesz ≤ p.pMemsz)
    (inside : idx.toNat + p.pMemsz.toNat ≤ memory.size.toNat)
    (noWrap : idx.toNat + p.pMemsz.toNat < 2 ^ types.bits) :
    storeSegment elf idx p memory =
      .ok { memory with
        data := overwrite memory.data idx.toNat p.pMemsz.toNat fun index =>
          if index < p.pFilesz.toNat then elf.dataFrom p.pOffset.toNat index
          else 0 } := by
  have le := BitVec.le_def.1 filesz
  have zeros : (idx + p.pFilesz).toNat = idx.toNat + p.pFilesz.toNat := by
    rw [BitVec.toNat_add]
    apply Nat.mod_eq_of_lt
    omega
  have rest : (p.pMemsz - p.pFilesz).toNat =
      p.pMemsz.toNat - p.pFilesz.toNat :=
    BitVec.toNat_sub_of_le filesz
  rw [storeSegment, SimpleMemory.loadData, store_inside]
  · simp only [if_neg (not_not.2 filesz)]
    change SimpleMemory.loadZero _ _ _ = _
    rw [SimpleMemory.loadZero, store_inside]
    · simp only [toNat_setWidth, zeros, rest]
      rw [overwrite_adjacent, Nat.add_sub_of_le le]
    · rw [toNat_setWidth, toNat_setWidth, zeros, rest]
      change _ ≤ memory.size.toNat
      omega
  · rw [toNat_setWidth, toNat_setWidth]
    omega

/-- A segment that leaves the array is not stored, even when its end wraps
around. -/
theorem storeSegment_outside {idx : Addr types} (filesz : p.pFilesz ≤ p.pMemsz)
    (bounded : memory.size.toNat < 2 ^ types.bits)
    (outside : memory.size.toNat < idx.toNat + p.pMemsz.toNat) :
    storeSegment elf idx p memory = .error .assertion ∨
      storeSegment elf idx p memory = .error .outside := by
  have le := BitVec.le_def.1 filesz
  have rest : (p.pMemsz - p.pFilesz).toNat =
      p.pMemsz.toNat - p.pFilesz.toNat :=
    BitVec.toNat_sub_of_le filesz
  rw [storeSegment, SimpleMemory.loadData]
  rcases Nat.lt_or_ge memory.size.toNat (idx.toNat + p.pFilesz.toNat) with
    leavesEarly | fileFits
  · have fileOutside : memory.size.toNat <
        (idx.setWidth 64).toNat + (p.pFilesz.setWidth 64).toNat := by
      rwa [toNat_setWidth, toNat_setWidth]
    rcases @store_outside types _ _ _ (elf.dataFrom p.pOffset.toNat) fileOutside
      with asserted | overrun
    · exact .inl (by rw [asserted]; rfl)
    · exact .inr (by rw [overrun]; rfl)
  have zeros : (idx + p.pFilesz).toNat = idx.toNat + p.pFilesz.toNat := by
    rw [BitVec.toNat_add]
    apply Nat.mod_eq_of_lt
    omega
  rw [store_inside]
  · simp only [if_neg (not_not.2 filesz)]
    change SimpleMemory.loadZero _ _ _ = _ ∨ SimpleMemory.loadZero _ _ _ = _
    apply store_outside
    rw [toNat_setWidth (idx + p.pFilesz), toNat_setWidth (p.pMemsz - p.pFilesz),
      zeros, rest]
    change memory.size.toNat < _
    omega
  · rwa [toNat_setWidth, toNat_setWidth]

/-- The segments of a window that ends with the address space are skipped. -/
theorem loadSegment_full (full : windowEnd size offset = 2 ^ types.bits) :
    loadSegment elf size offset useVaddr p memory = .ok none := by
  have zero : offset + size = 0 := by
    rw [← BitVec.toNat_inj, BitVec.toNat_add]
    exact (congrArg (· % 2 ^ types.bits) full).trans (Nat.mod_self _)
  rw [loadSegment, if_pos]
  rintro ⟨-, below⟩
  rw [zero] at below
  exact absurd (BitVec.lt_def.1 below) (Nat.not_lt_zero _)

variable (window : windowEnd size offset < 2 ^ types.bits)

include window

/-- The test of the loop decides whether the segment starts in the window. -/
theorem startsIn_iff :
    (p.addr useVaddr ≥ offset ∧ p.addr useVaddr < offset + size) ↔
      StartsIn size offset useVaddr p := by
  rw [StartsIn, ge_iff_le, BitVec.le_def, BitVec.lt_def, toNat_windowEnd window]

theorem loadSegment_skipped (skipped : ¬ StartsIn size offset useVaddr p) :
    loadSegment elf size offset useVaddr p memory = .ok none := by
  rw [← startsIn_iff window] at skipped
  rw [loadSegment, if_pos skipped]

variable (starts : StartsIn size offset useVaddr p)

include starts

/-- A segment that starts in the window is compared with the end of the
window. -/
theorem loadSegment_starts :
    loadSegment elf size offset useVaddr p memory =
      if p.addr useVaddr + p.pMemsz ≥ offset + size then .error (.doesNotFit p)
      else (storeSegment elf (p.addr useVaddr - offset) p memory).map some := by
  have tested := (startsIn_iff window).2 starts
  rw [loadSegment, if_neg (not_not.2 tested), if_neg (BitVec.not_lt.2 tested.1)]

theorem toNat_idx : (p.addr useVaddr - offset).toNat =
    (p.addr useVaddr).toNat - offset.toNat :=
  BitVec.toNat_sub_of_le ((startsIn_iff window).2 starts).1

/-- A segment that reaches the end of the window is rejected. -/
theorem loadSegment_rejected
    (reaches : windowEnd size offset ≤ p.addrEnd useVaddr)
    (noWrap : p.addrEnd useVaddr < 2 ^ types.bits) :
    loadSegment elf size offset useVaddr p memory = .error (.doesNotFit p) := by
  rw [loadSegment_starts window starts, if_pos]
  rw [ge_iff_le, BitVec.le_def, toNat_windowEnd window, BitVec.toNat_add]
  exact reaches.trans_eq (Nat.mod_eq_of_lt noWrap).symm

variable (sized : memory.size.toNat = size.toNat) (filesz : p.pFilesz ≤ p.pMemsz)

include sized filesz

/-- A segment that ends before the end of the window is loaded. -/
theorem loadSegment_accepted
    (below : p.addrEnd useVaddr < windowEnd size offset) :
    loadSegment elf size offset useVaddr p memory =
      .ok (some { memory with
        data := overwrite memory.data (segmentBlock elf offset useVaddr p).start
          (segmentBlock elf offset useVaddr p).length
          (segmentBlock elf offset useVaddr p).contents }) := by
  have noWrap : p.addrEnd useVaddr < 2 ^ types.bits := below.trans window
  have idx := toNat_idx window starts
  rw [loadSegment_starts window starts, if_neg, storeSegment_inside filesz, idx]
  · rfl
  · have above := starts.1
    rw [idx, sized]
    rw [windowEnd, Phdr.addrEnd] at below
    omega
  · rw [idx]
    rw [Phdr.addrEnd] at noWrap
    omega
  · rw [ge_iff_le, BitVec.le_def, toNat_windowEnd window, BitVec.toNat_add]
    exact Nat.not_le.2 ((Nat.mod_eq_of_lt noWrap).trans_lt below)

/-- A segment that wraps around passes the test and leaves the array. -/
theorem loadSegment_wrapped (wraps : 2 ^ types.bits ≤ p.addrEnd useVaddr) :
    loadSegment elf size offset useVaddr p memory = .error .assertion ∨
      loadSegment elf size offset useVaddr p memory = .error .outside := by
  have idx := toNat_idx window starts
  have wrapped : (p.addr useVaddr + p.pMemsz).toNat <
      windowEnd size offset := by
    have lengthBounded := p.pMemsz.isLt
    have addrBounded := (p.addr useVaddr).isLt
    have below := starts.2
    rw [Phdr.addrEnd] at wraps
    rw [BitVec.toNat_add, Nat.mod_eq_sub_mod wraps, Nat.mod_eq_of_lt]
    · omega
    · omega
  rw [loadSegment_starts window starts, if_neg]
  · have outside : memory.size.toNat <
        (p.addr useVaddr - offset).toNat + p.pMemsz.toNat := by
      have above := starts.1
      rw [idx, sized]
      rw [Phdr.addrEnd] at wraps
      rw [windowEnd] at window
      omega
    have bounded : memory.size.toNat < 2 ^ types.bits := by
      rw [sized]
      exact size.isLt
    rcases storeSegment_outside filesz bounded outside with asserted | overrun
    · exact .inl (by rw [asserted]; rfl)
    · exact .inr (by rw [overrun]; rfl)
  · rw [ge_iff_le, BitVec.le_def, toNat_windowEnd window]
    exact Nat.not_le.2 wrapped

end Segment

/-! ## All segments -/

section Segments

variable {elf : Image types} {size offset : Addr types} {useVaddr : Bool}
  {p : Phdr types} {segments : List (Phdr types)} {memory : SimpleMemory}

theorem clearUntilMisfit_nil : ClearUntilMisfit size offset useVaddr [] := by
  rintro before p after split -
  exact absurd split.symm (by simp)

theorem clearUntilMisfit_cons :
    ClearUntilMisfit size offset useVaddr (p :: segments) ↔
      Clear size offset useVaddr p ∧
        (Fits size offset useVaddr p →
          ClearUntilMisfit size offset useVaddr segments) := by
  constructor
  · intro clear
    refine ⟨clear [] p segments rfl (by simp), fun fits => ?_⟩
    rintro before q after rfl fitting
    exact clear (p :: before) q after rfl (List.forall_mem_cons.2 ⟨fits, fitting⟩)
  · rintro ⟨clear, later⟩ before q after split fitting
    cases before with
    | nil =>
        obtain ⟨rfl, -⟩ := List.cons.inj split
        exact clear
    | cons first before =>
        obtain ⟨rfl, splitRest⟩ := List.cons.inj split
        obtain ⟨fits, fittingRest⟩ := List.forall_mem_cons.1 fitting
        exact later fits before q after splitRest fittingRest

/-- An accepted segment that fits can be left out of the judgement. -/
theorem judges_cons {loaded : SimpleMemory} {accepted : List (Phdr types)}
    {fault : Option (Fault types)} (fits : Fits size offset useVaddr p) :
    Judges size offset useVaddr (p :: segments) ⟨loaded, p :: accepted, fault⟩ ↔
      Judges size offset useVaddr segments ⟨loaded, accepted, fault⟩ := by
  constructor
  · rintro ⟨rest, split, fitting, ends⟩
    exact ⟨rest, (List.cons.inj split).2,
      (List.forall_mem_cons.1 fitting).2, ends⟩
  · rintro ⟨rest, split, fitting, ends⟩
    exact ⟨rest, congrArg (p :: ·) split,
      List.forall_mem_cons.2 ⟨fits, fitting⟩, ends⟩

/-- A load that ends at once is judged by what ended it. -/
theorem judges_fault {fault : Fault types} :
    Judges size offset useVaddr segments ⟨memory, [], some fault⟩ ↔
      EndsAt size offset useVaddr (some fault) segments := by
  constructor
  · rintro ⟨rest, rfl, -, ends⟩
    exact ends
  · intro ends
    exact ⟨segments, rfl, by simp, ends⟩

/-- When the window ends with the address space all segments are skipped. -/
theorem loadSegments_full (full : windowEnd size offset = 2 ^ types.bits) :
    loadSegments elf size offset useVaddr segments memory =
      ⟨memory, [], none⟩ := by
  induction segments with
  | nil => rfl
  | cons p rest inductionHypothesis =>
      rw [loadSegments, loadSegment_full full]
      exact inductionHypothesis

theorem starting_cons_of_starts (starts : StartsIn size offset useVaddr p) :
    starting size offset useVaddr (p :: segments) =
      p :: starting size offset useVaddr segments :=
  List.filter_cons_of_pos (decide_eq_true starts)

theorem starting_cons_of_not (skipped : ¬ StartsIn size offset useVaddr p) :
    starting size offset useVaddr (p :: segments) =
      starting size offset useVaddr segments :=
  List.filter_cons_of_neg (by simpa using skipped)

/-- The segments are judged right exactly when they are clear up to the first
that does not fit. -/
theorem judges_iff (window : windowEnd size offset < 2 ^ types.bits)
    (sized : memory.size.toNat = size.toNat)
    (filesz : ∀ p ∈ segments, p.pFilesz ≤ p.pMemsz) :
    Judges size offset useVaddr (starting size offset useVaddr segments)
        (loadSegments elf size offset useVaddr segments memory) ↔
      ClearUntilMisfit size offset useVaddr
        (starting size offset useVaddr segments) := by
  induction segments generalizing memory with
  | nil =>
      refine ⟨fun _ => clearUntilMisfit_nil, fun _ => ?_⟩
      exact ⟨[], rfl, by simp [loadSegments], rfl⟩
  | cons p rest inductionHypothesis =>
      obtain ⟨pFilesz, restFilesz⟩ := List.forall_mem_cons.1 filesz
      by_cases starts : StartsIn size offset useVaddr p
      case neg =>
        rw [starting_cons_of_not starts, loadSegments,
          loadSegment_skipped window starts]
        exact inductionHypothesis sized restFilesz
      rw [starting_cons_of_starts starts, clearUntilMisfit_cons, loadSegments]
      rcases Nat.lt_or_ge (p.addrEnd useVaddr) (windowEnd size offset) with
        below | reaches
      · have clear : Clear size offset useVaddr p :=
          ⟨below.ne, below.trans window, window⟩
        rw [loadSegment_accepted window starts sized pFilesz below]
        have loadedSized : ({ memory with
            data := overwrite memory.data (segmentBlock elf offset useVaddr p).start
              (segmentBlock elf offset useVaddr p).length
              (segmentBlock elf offset useVaddr p).contents } : SimpleMemory).size.toNat =
            size.toNat := sized
        have judged := inductionHypothesis loadedSized restFilesz
        refine (judges_cons below.le).trans (judged.trans ?_)
        exact ⟨fun later => ⟨clear, fun _ => later⟩,
          fun both => both.2 below.le⟩
      rcases Nat.lt_or_ge (p.addrEnd useVaddr) (2 ^ types.bits) with
        noWrap | wraps
      · rw [loadSegment_rejected window starts reaches noWrap]
        refine judges_fault.trans ?_
        have misfit_iff : ¬ Fits size offset useVaddr p ↔
            p.addrEnd useVaddr ≠ windowEnd size offset := by
          rw [Fits]
          omega
        constructor
        · rintro ⟨-, misfit⟩
          exact ⟨⟨misfit_iff.1 misfit, noWrap, window⟩,
            fun fits => absurd fits misfit⟩
        · rintro ⟨⟨notExact, -⟩, -⟩
          exact ⟨rfl, misfit_iff.2 notExact⟩
      · have unclear : ¬ Clear size offset useVaddr p :=
          fun clear => Nat.not_lt.2 wraps clear.2.1
        refine iff_of_false ?_ fun both => unclear both.1
        rcases @loadSegment_wrapped _ elf _ _ _ _ _ window starts sized pFilesz wraps
          with asserted | overrun
        · rw [asserted]
          exact fun judged => judges_fault.1 judged
        · rw [overrun]
          exact fun judged => judges_fault.1 judged

/-- What a segment that is accepted leaves in the memory. -/
theorem loadSegment_some {loaded : SimpleMemory}
    (window : windowEnd size offset < 2 ^ types.bits)
    (sized : memory.size.toNat = size.toNat) (filesz : p.pFilesz ≤ p.pMemsz)
    (accepted : loadSegment elf size offset useVaddr p memory =
      .ok (some loaded)) :
    loaded = { memory with
      data := overwrite memory.data (segmentBlock elf offset useVaddr p).start
        (segmentBlock elf offset useVaddr p).length
        (segmentBlock elf offset useVaddr p).contents } := by
  by_cases starts : StartsIn size offset useVaddr p
  case neg =>
    rw [loadSegment_skipped window starts] at accepted
    cases accepted
  rcases Nat.lt_or_ge (p.addrEnd useVaddr) (windowEnd size offset) with
    below | reaches
  · rw [loadSegment_accepted window starts sized filesz below] at accepted
    cases accepted
    rfl
  rcases Nat.lt_or_ge (p.addrEnd useVaddr) (2 ^ types.bits) with noWrap | wraps
  · rw [loadSegment_rejected window starts reaches noWrap] at accepted
    cases accepted
  · rcases @loadSegment_wrapped _ elf _ _ _ _ _ window starts sized filesz wraps with
      asserted | overrun
    · rw [asserted] at accepted
      cases accepted
    · rw [overrun] at accepted
      cases accepted

/-- The accepted segments are placed in the memory one after the other. -/
theorem loadSegments_data (window : windowEnd size offset < 2 ^ types.bits)
    (sized : memory.size.toNat = size.toNat)
    (filesz : ∀ p ∈ segments, p.pFilesz ≤ p.pMemsz) :
    (loadSegments elf size offset useVaddr segments memory).memory.data =
      place memory.data
        ((loadSegments elf size offset useVaddr segments memory).accepted.map
          (segmentBlock elf offset useVaddr)) := by
  induction segments generalizing memory with
  | nil => rfl
  | cons p rest inductionHypothesis =>
      obtain ⟨pFilesz, restFilesz⟩ := List.forall_mem_cons.1 filesz
      rw [loadSegments]
      split
      next => rfl
      next => exact inductionHypothesis sized restFilesz
      next loaded accepted =>
        have loadedEq := loadSegment_some window sized pFilesz accepted
        subst loadedEq
        exact inductionHypothesis sized restFilesz

theorem accepted_sublist :
    (loadSegments elf size offset useVaddr segments memory).accepted.Sublist
      segments := by
  induction segments generalizing memory with
  | nil => exact List.Sublist.refl _
  | cons p rest inductionHypothesis =>
      rw [loadSegments]
      split
      next => exact List.nil_sublist _
      next => exact inductionHypothesis.cons p
      next => exact inductionHypothesis.cons_cons p

end Segments

/-! ## A whole image -/

/-- Only segments that start in the window are accepted. -/
theorem startsIn_of_judges {size offset : Addr types} {useVaddr : Bool}
    {segments : List (Phdr types)} {load : Load types} {p : Phdr types}
    (judges : Judges size offset useVaddr
      (starting size offset useVaddr segments) load)
    (accepted : p ∈ load.accepted) : StartsIn size offset useVaddr p := by
  obtain ⟨rest, split, -⟩ := judges
  have member : p ∈ starting size offset useVaddr segments := by
    rw [split]
    exact List.mem_append_left rest accepted
  exact decide_eq_true_iff.1 (List.mem_filter.1 member).2

/-- Segments that do not overlap have blocks that do not overlap. -/
theorem apart_segmentBlocks {elf : Image types} {offset : Addr types}
    {useVaddr : Bool} {segments : List (Phdr types)}
    (above : ∀ p ∈ segments, offset.toNat ≤ (p.addr useVaddr).toNat)
    (apart : segments.Pairwise fun left right =>
      left.addrEnd useVaddr ≤ (right.addr useVaddr).toNat ∨
        right.addrEnd useVaddr ≤ (left.addr useVaddr).toNat) :
    (segments.map (segmentBlock elf offset useVaddr)).Pairwise Block.Apart := by
  rw [List.pairwise_map]
  refine apart.imp_of_mem fun {left right} leftMember rightMember separate => ?_
  have leftAbove := above left leftMember
  have rightAbove := above right rightMember
  simp only [Block.Apart, segmentBlock]
  rw [Phdr.addrEnd, Phdr.addrEnd] at separate
  omega

/-- An image is loaded right exactly when its segments are clear up to the first
that does not fit in the window. -/
theorem loads_iff {elf : Image types} {size offset : Addr types}
    {useVaddr : Bool} {memory : SimpleMemory}
    (wellFormed : elf.WellFormed useVaddr)
    (window : offset.toNat + size.toNat ≤ 2 ^ types.bits)
    (sized : memory.size.toNat = size.toNat) :
    Loads size offset useVaddr elf memory
        (loadExecutableImage elf memory size offset useVaddr) ↔
      ClearUntilMisfit size offset useVaddr
        (starting size offset useVaddr (getLoadSections elf)) := by
  rcases Nat.lt_or_ge (windowEnd size offset) (2 ^ types.bits) with below | full
  · rw [← @judges_iff _ elf _ _ _ _ _ below sized wellFormed.filesz_le]
    refine ⟨Loads.judges, fun judges => ⟨judges, ?_, ?_⟩⟩
    · intro p accepted index inside
      have above : ∀ q ∈ (loadExecutableImage elf memory size offset
          useVaddr).accepted, offset.toNat ≤ (q.addr useVaddr).toNat :=
        fun q member => (startsIn_of_judges judges member).1
      have apart := @apart_segmentBlocks _ elf _ _ _ above
        (wellFormed.apart.sublist accepted_sublist)
      rw [loadExecutableImage, loadSegments_data below sized wellFormed.filesz_le]
      exact place_inside apart (List.mem_map_of_mem accepted) inside
    · intro index uncovered
      rw [loadExecutableImage, loadSegments_data below sized wellFormed.filesz_le]
      exact place_outside (List.forall_mem_map.2 uncovered)
  · have ends : windowEnd size offset = 2 ^ types.bits :=
      Nat.le_antisymm window full
    rw [loadExecutableImage, loadSegments_full ends]
    constructor
    · rintro ⟨⟨rest, split, -, rfl⟩, -, -⟩
      rw [split]
      exact clearUntilMisfit_nil
    · intro clear
      have noneStarts :
          starting size offset useVaddr (getLoadSections elf) = [] := by
        cases segments : starting size offset useVaddr (getLoadSections elf) with
        | nil => rfl
        | cons p rest =>
            have first := clear [] p rest segments (by simp)
            exact absurd ends first.2.2.ne
      exact ⟨⟨[], noneStarts, by simp, rfl⟩, by simp, fun _ _ => rfl⟩

/-- One instruction at the start of the memory. -/
def oneInstruction : Image .elf32 where
  data := [0x13, 0x00, 0x00, 0x00]
  phdrs := [⟨ptLoad, 0, 0x10000, 0x10000, 4, 4⟩]

theorem oneInstruction_wellFormed : oneInstruction.WellFormed true where
  filesz_le := by decide
  inFile := by decide
  apart := List.pairwise_singleton _ _

/-- It is loaded into a memory with room after it. -/
theorem loads_oneInstruction :
    Loads 8 0x10000 true oneInstruction ⟨fun _ => 0, 8⟩
      (loadExecutableImage oneInstruction ⟨fun _ => 0, 8⟩ 8 0x10000 true) := by
  have window : (0x10000#32).toNat + (8#32).toNat ≤ 2 ^ 32 := by decide
  refine (loads_iff oneInstruction_wellFormed window rfl).2 ?_
  rintro before p after split -
  have member : p ∈ before ++ p :: after :=
    List.mem_append_right before List.mem_cons_self
  rw [← split] at member
  have only : p = ⟨ptLoad, 0, 0x10000, 0x10000, 4, 4⟩ :=
    List.mem_singleton.1 (List.mem_filter.1 (List.mem_filter.1 member).1).1
  subst only
  exact ⟨by decide, by decide, by decide⟩

/-- It is rejected by a memory that it fits exactly. -/
theorem not_loads_exact :
    ¬ ∀ (elf : Image .elf32) (memory : SimpleMemory) (size offset : Addr .elf32)
      (useVaddr : Bool), elf.WellFormed useVaddr →
        offset.toNat + size.toNat ≤ 2 ^ 32 → memory.size.toNat = size.toNat →
          Loads size offset useVaddr elf memory
            (loadExecutableImage elf memory size offset useVaddr) := by
  intro loads
  have exact := loads oneInstruction ⟨fun _ => 0, 4⟩ 4 0x10000 true
    oneInstruction_wellFormed (by decide) rfl
  have rejected : (loadExecutableImage oneInstruction ⟨fun _ => 0, 4⟩ 4 0x10000
      true).fault = some (.doesNotFit ⟨ptLoad, 0, 0x10000, 0x10000, 4, 4⟩) := by
    decide
  obtain ⟨rest, -, -, ends⟩ := exact.judges
  rw [rejected] at ends
  exact ends.2 (by decide)

end Elf

end RiscvVp
