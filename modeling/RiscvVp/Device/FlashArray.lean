import Mathlib
import RiscvVp.Device.Flash

/-!
# The flash controller as an array of blocks

`FlashArray` is what the controller is for: an array of blocks that is read and
written in place.  The controller does the same as long as every access stays
in the window it starts in and the offset of every block it uses can be sought.
-/

namespace RiscvVp

namespace Flash

open Bits Storage
open Device (Byte Command)

/-! ## The array -/

/-- The blocks one after another, and the two registers. -/
structure FlashArray where
  bytes : ℕ → Byte
  target : Number
  numBlocks : Number

namespace FlashArray

variable (array : FlashArray)

/-- Where a byte of the selected block is. -/
def place (position : ℕ) : ℕ :=
  array.target.toNat * blockSize + position

/-- An access to the data window. -/
def transportData (access : Transaction) (position : ℕ) :
    Except Fault (FlashArray × (ℕ → Byte)) := do
  assert (decide (array.target < array.numBlocks))
  match access.command with
  | .write =>
      return ({ array with
        bytes := overwrite array.bytes (array.place position)
          access.dataLength.toNat access.data }, access.data)
  | .read =>
      return (array, overwrite access.data 0 access.dataLength.toNat
        fun index => array.bytes (array.place position + index))
  | .ignore => .error .unsupportedCommand

def transport (access : Transaction) :
    Except Fault (FlashArray × (ℕ → Byte)) := do
  let addr := (access.address.setWidth 32).toNat
  let len := access.dataLength.toNat
  assert (decide (addr < addrSpace))
  if addr < flashSizeReg then
    match access.command with
    | .write =>
        return ({ array with
          target := copyInto array.target addr len access.data }, access.data)
    | .read =>
        return (array, overwrite access.data 0 len fun index =>
          byte array.target (addr + index))
    | .ignore => .error .unsupportedCommand
  else if addr < dataAddr then
    match access.command with
    | .read =>
        return (array, overwrite access.data 0 len fun index =>
          byte array.numBlocks (addr - flashSizeReg + index))
    | _ => .error .unsupportedCommand
  else array.transportData access (addr - dataAddr)

def run (array : FlashArray) :
    List Transaction → Except Fault (FlashArray × List (ℕ → Byte))
  | [] => .ok (array, [])
  | access :: rest => do
      let (array, data) ← array.transport access
      let (last, others) ← array.run rest
      return (last, data :: others)

end FlashArray

/-! ## The buffer as a buffered store -/

theorem seek_eq_some {blockOffset : Number} {offset : ℕ}
    (below : blockOffset.toNat < 2 ^ 54) :
    seek blockOffset = some offset ↔ offset = blockOffset.toNat * blockSize := by
  have product : (blockOffset * BitVec.ofNat (8 * 8) blockSize).toNat =
      blockOffset.toNat * blockSize := by
    rw [BitVec.toNat_mul]
    apply Nat.mod_eq_of_lt
    simp only [blockSize, BitVec.toNat_ofNat]
    omega
  have positive :
      (blockOffset * BitVec.ofNat (8 * 8) blockSize).msb = false := by
    rw [BitVec.msb_eq_false_iff_two_mul_lt, product, blockSize]
    omega
  simp only [seek, positive, product]
  exact ⟨fun same => (Option.some.inj same).symm, fun same => same ▸ rfl⟩

namespace Blockbuffer

variable {buffer : Blockbuffer} {blockOffset : Number}

/-- The buffer as the library sees it. -/
def buffered (buffer : Blockbuffer) : Buffered Byte where
  store := buffer.file
  start := buffer.offs.toNat * blockSize
  contents := buffer.buf
  dirty := buffer.dirty
  active := buffer.active

/-- The offset of the block that is held can be sought. -/
def Located (buffer : Blockbuffer) : Prop :=
  buffer.active = true → buffer.offs.toNat < 2 ^ 54

/-- What is held agrees with the device, and can be brought back to it. -/
structure Good (buffer : Blockbuffer) : Prop where
  located : buffer.Located
  coherent : buffer.buffered.Coherent blockSize

theorem buffered_writeBlock (below : buffer.offs.toNat < 2 ^ 54) :
    (buffer.writeBlock buffer.offs).buffered =
      buffer.buffered.commit blockSize := by
  rw [writeBlock, (seek_eq_some below).2 rfl]
  rfl

/-- Loading a block into whatever is held. -/
theorem buffered_readBlock (below : blockOffset.toNat < 2 ^ 54) :
    ({ { buffer with offs := blockOffset }.readBlock blockOffset with
      active := true } : Blockbuffer).buffered =
        buffer.buffered.load blockSize (blockOffset.toNat * blockSize) := by
  rw [readBlock, (seek_eq_some below).2 rfl]
  rfl

theorem buffered_setPos (located : buffer.Located)
    (below : blockOffset.toNat < 2 ^ 54) :
    (buffer.setPos blockOffset).buffered =
      buffer.buffered.move blockSize (blockOffset.toNat * blockSize) := by
  have same : blockOffset = buffer.offs ↔
      blockOffset.toNat * blockSize = buffer.buffered.start := by
    rw [← BitVec.toNat_inj]
    exact (Nat.mul_left_inj (by decide)).symm
  unfold setPos Buffered.move
  by_cases moves : blockOffset ≠ buffer.offs ∨ buffer.active = false
  · have moves' : blockOffset.toNat * blockSize ≠ buffer.buffered.start ∨
        buffer.buffered.active = false :=
      moves.imp_left fun elsewhere same' => elsewhere (same.2 same')
    rw [if_pos moves, if_pos moves']
    by_cases changed : buffer.dirty = true ∧ buffer.active = true
    · rw [if_pos changed, if_pos (by exact changed)]
      rw [← buffered_writeBlock (located changed.2)]
      exact buffered_readBlock below
    · rw [if_neg changed, if_neg (by exact changed)]
      exact buffered_readBlock below
  · have stays : ¬ (blockOffset.toNat * blockSize ≠ buffer.buffered.start ∨
        buffer.buffered.active = false) := fun moves' =>
      moves (moves'.imp_left fun elsewhere same' => elsewhere (same.1 same'))
    rw [if_neg moves, if_neg stays]

theorem offs_readBlock :
    (buffer.readBlock blockOffset).offs = buffer.offs := by
  unfold readBlock
  split <;> rfl

theorem offs_setPos : (buffer.setPos blockOffset).offs = blockOffset := by
  unfold setPos
  split
  next => exact offs_readBlock
  next stays => exact (Decidable.not_not.1 (not_or.1 stays).1).symm

theorem Good.setPos (good : buffer.Good)
    (below : blockOffset.toNat < 2 ^ 54) : (buffer.setPos blockOffset).Good where
  located _ := by rwa [offs_setPos]
  coherent := by
    rw [buffered_setPos good.located below]
    exact Buffered.coherent_move good.coherent _

theorem active_setPos (located : buffer.Located)
    (below : blockOffset.toNat < 2 ^ 54) :
    (buffer.setPos blockOffset).active = true := by
  have same := congrArg Buffered.active (buffered_setPos located below)
  rwa [Buffered.active_move] at same

theorem Good.clear (good : buffer.Good) :
    buffer.clear.file = buffer.buffered.view blockSize := by
  rw [← Buffered.store_release good.coherent]
  unfold Blockbuffer.clear Buffered.release
  by_cases changed : buffer.active = true ∧ buffer.dirty = true
  · have commits := buffered_writeBlock (good.located changed.1)
    rw [if_pos changed, if_pos (by exact changed), ← commits]
    rfl
  · rw [if_neg changed, if_neg (by exact changed)]
    rfl

end Blockbuffer

/-! ## Accesses -/

/-- The end of the window that an address is in. -/
def windowEnd (addr : ℕ) : ℕ :=
  if addr < flashSizeReg then flashSizeReg
  else if addr < dataAddr then dataAddr
  else addrSpace

namespace Flashcontroller

/-- What the guest sees. -/
def array (flash : Flashcontroller) : FlashArray where
  bytes := flash.blockBuf.buffered.view blockSize
  target := flash.mTargetBlock
  numBlocks := flash.mDeviceNumBlocks

/-- The access ends in the window it starts in, and the offset of the block that
it uses can be sought. -/
def Admits (flash : Flashcontroller) (access : Transaction) : Prop :=
  let addr := (access.address.setWidth 32).toNat
  addr + access.dataLength.toNat ≤ windowEnd addr ∧
    (dataAddr ≤ addr → flash.mTargetBlock.toNat < 2 ^ 54)

end Flashcontroller

/-- The controller and the array answer alike, and nothing else is touched. -/
def Agrees {α : Type} : Except Fault (Flashcontroller × α) →
    Except Fault (FlashArray × α) → Prop
  | .ok (flash, reply), .ok (array, reply') =>
      flash.blockBuf.Good ∧ flash.array = array ∧ reply = reply'
  | .error fault, .error fault' => fault = fault' ∧ fault ≠ .outOfBounds
  | _, _ => False

namespace Agrees

variable {α β γ : Type} {first : Except Fault (Flashcontroller × α)}
  {second : Except Fault (FlashArray × α)}

/-- Two sequences that agree step by step. -/
theorem bind (agrees : Agrees first second)
    {continuation : Flashcontroller × α → Except Fault (Flashcontroller × β)}
    {continuation' : FlashArray × α → Except Fault (FlashArray × β)}
    (rest : ∀ flash reply, first = .ok (flash, reply) → flash.blockBuf.Good →
      Agrees (continuation (flash, reply))
        (continuation' (flash.array, reply))) :
    Agrees (first >>= continuation) (second >>= continuation') := by
  match first, second, agrees, rest with
  | .ok (flash, reply), .ok (_, _), ⟨good, rfl, rfl⟩, rest =>
      exact rest flash reply rfl good
  | .error fault, .error _, ⟨rfl, inside⟩, _ => exact ⟨rfl, inside⟩

/-- What can be read off both. -/
theorem map_eq (agrees : Agrees first second)
    {read : Flashcontroller × α → γ} {read' : FlashArray × α → γ}
    (same : ∀ flash reply, flash.blockBuf.Good →
      read (flash, reply) = read' (flash.array, reply)) :
    first.map read = second.map read' := by
  match first, second, agrees with
  | .ok (flash, reply), .ok (_, _), ⟨good, rfl, rfl⟩ =>
      exact congrArg Except.ok (same flash reply good)
  | .error fault, .error _, ⟨rfl, _⟩ => rfl

theorem ne_outOfBounds (agrees : Agrees first second) :
    first ≠ .error .outOfBounds := by
  rintro rfl
  match second, agrees with
  | .error _, ⟨_, inside⟩ => exact inside rfl

end Agrees

section Transport

variable {flash : Flashcontroller} {access : Transaction}

theorem span_of_le {size position length : ℕ} (inside : position + length ≤ size) :
    span size position length = .ok () :=
  if_pos inside

theorem agrees_assert {α : Type} {condition : Bool}
    {first : Except Fault (Flashcontroller × α)}
    {second : Except Fault (FlashArray × α)}
    (rest : condition = true → Agrees first second) :
    Agrees (assert condition >>= fun _ => first)
      (assert condition >>= fun _ => second) := by
  cases condition with
  | false => exact ⟨rfl, nofun⟩
  | true => exact rest rfl

theorem setData_eq_ok {buffer : Blockbuffer} (active : buffer.active = true)
    (source : ℕ → Byte) {pos length : BitVec 16}
    (inside : pos.toNat + length.toNat ≤ blockSize) :
    buffer.setData source pos length = .ok { buffer with
      buf := overwrite buffer.buf pos.toNat length.toNat source
      dirty := true } := by
  rw [Blockbuffer.setData, active, span_of_le inside]
  rfl

theorem getData_eq_ok {buffer : Blockbuffer} (active : buffer.active = true)
    (target : ℕ → Byte) {pos length : BitVec 16}
    (inside : pos.toNat + length.toNat ≤ blockSize) :
    buffer.getData target pos length = .ok
      (overwrite target 0 length.toNat fun index =>
        buffer.buf (pos.toNat + index)) := by
  rw [Blockbuffer.getData, active, span_of_le inside]
  rfl

/-- An access to the data window. -/
theorem transportData_agrees (good : flash.blockBuf.Good) {addr : ℕ}
    (window : dataAddr ≤ addr)
    (inside : addr + access.dataLength.toNat ≤ addrSpace)
    (below : flash.mTargetBlock.toNat < 2 ^ 54) :
    Agrees (flash.transportData access addr)
      (flash.array.transportData access (addr - dataAddr)) := by
  refine agrees_assert fun _ => ?_
  have fits : addr - dataAddr + access.dataLength.toNat ≤ blockSize := by
    rw [addrSpace] at inside
    omega
  have small : blockSize < 2 ^ 16 := by decide
  have pos : (BitVec.ofNat 16 (addr - dataAddr)).toNat = addr - dataAddr := by
    rw [BitVec.toNat_ofNat]
    exact Nat.mod_eq_of_lt (by omega)
  have len : (access.dataLength.setWidth 16).toNat =
      access.dataLength.toNat := by
    rw [BitVec.toNat_setWidth]
    exact Nat.mod_eq_of_lt (by omega)
  have copies : (BitVec.ofNat 16 (addr - dataAddr)).toNat +
      (access.dataLength.setWidth 16).toNat ≤ blockSize := by
    rwa [pos, len]
  let held := (flash.blockBuf.setPos flash.mTargetBlock).buffered
  have placed := good.setPos below
  have active := Blockbuffer.active_setPos good.located below
  have start : held.start = flash.mTargetBlock.toNat * blockSize :=
    congrArg (fun offs : Number => offs.toNat * blockSize)
      Blockbuffer.offs_setPos
  have view : held.view blockSize = flash.array.bytes := by
    rw [show held = _ from Blockbuffer.buffered_setPos good.located below]
    exact Buffered.view_move good.coherent _
  dsimp only
  cases access.command with
  | write =>
      dsimp only
      rw [setData_eq_ok active access.data copies, pos, len]
      let written := held.modify (addr - dataAddr) access.dataLength.toNat
        access.data
      have coherent : written.Coherent blockSize :=
        Buffered.coherent_modify _ _ _
      have changed : written.view blockSize = _ :=
        Buffered.view_modify active fits access.data
      rw [view, start] at changed
      exact ⟨⟨fun _ => placed.located active, coherent⟩,
        congrArg (fun bytes => FlashArray.mk bytes _ _) changed, rfl⟩
  | read =>
      dsimp only
      rw [getData_eq_ok active access.data copies, pos, len]
      refine ⟨placed, congrArg (fun bytes => FlashArray.mk bytes _ _) view, ?_⟩
      apply overwrite_congr
      intro index before
      have within : addr - dataAddr + index < blockSize := by omega
      have shown : held.view blockSize _ = _ :=
        Buffered.view_start active within
      rw [view, start, ← Nat.add_assoc] at shown
      exact shown.symm
  | ignore => exact ⟨rfl, nofun⟩

/-- One access, from any state whose buffer agrees with the device. -/
theorem transport_agrees (good : flash.blockBuf.Good)
    (admits : flash.Admits access) :
    Agrees (flash.transport access) (flash.array.transport access) := by
  obtain ⟨inside, below⟩ := admits
  refine agrees_assert fun _ => ?_
  unfold windowEnd at inside
  by_cases first : (access.address.setWidth 32).toNat < flashSizeReg
  · rw [if_pos first, if_pos first]
    rw [if_pos first] at inside
    have copies : span 8 _ _ = .ok () := span_of_le inside
    cases access.command with
    | write =>
        dsimp only
        rw [copies]
        exact ⟨good, rfl, rfl⟩
    | read =>
        dsimp only
        rw [copies]
        exact ⟨good, rfl, rfl⟩
    | ignore => exact ⟨rfl, nofun⟩
  rw [if_neg first] at inside
  by_cases second : (access.address.setWidth 32).toNat < dataAddr
  · rw [if_neg first, if_pos second, if_neg first, if_pos second]
    rw [if_pos second] at inside
    have copies : span 8 ((access.address.setWidth 32).toNat - flashSizeReg)
        access.dataLength.toNat = .ok () := by
      apply span_of_le
      simp only [flashSizeReg, dataAddr] at first inside ⊢
      omega
    cases access.command with
    | read =>
        dsimp only
        rw [copies]
        exact ⟨good, rfl, rfl⟩
    | write => exact ⟨rfl, nofun⟩
    | ignore => exact ⟨rfl, nofun⟩
  · rw [if_neg first, if_neg second, if_neg first, if_neg second]
    rw [if_neg second] at inside
    have window := Nat.le_of_not_lt second
    exact transportData_agrees good window inside (below window)

end Transport

/-! ## Runs -/

namespace Flashcontroller

/-- Every access of the run is admitted where it is made. -/
def Orderly : Flashcontroller → List Transaction → Prop
  | _, [] => True
  | flash, access :: rest => flash.Admits access ∧
      ∀ after data, flash.transport access = .ok (after, data) →
        after.Orderly rest

/-- The run is one of the array: every access gets the answer of the array, the
file is the array once the controller is gone, and no access leaves the buffer
or the registers. -/
structure Refines (flash : Flashcontroller) (accesses : List Transaction) :
    Prop where
  answers : (flash.run accesses).map Prod.snd =
    (flash.array.run accesses).map Prod.snd
  file : (flash.run accesses).map (fun last => last.1.destroy.blockBuf.file) =
    (flash.array.run accesses).map fun last => last.1.bytes
  inside : flash.run accesses ≠ .error .outOfBounds

theorem run_agrees {accesses : List Transaction} {flash : Flashcontroller}
    (good : flash.blockBuf.Good) (orderly : flash.Orderly accesses) :
    Agrees (flash.run accesses) (flash.array.run accesses) := by
  induction accesses generalizing flash with
  | nil => exact ⟨good, rfl, rfl⟩
  | cons access rest inductionHypothesis =>
      refine (transport_agrees good orderly.1).bind
        fun after data answered kept => ?_
      refine (inductionHypothesis kept (orderly.2 after data answered)).bind
        fun last others _ lastGood => ?_
      exact ⟨lastGood, rfl, rfl⟩

variable (file buf : ℕ → Byte) (blkGetSize64 : Option Number)
  (seekEnd : Number)

theorem good_construct :
    (construct file buf blkGetSize64 seekEnd).blockBuf.Good where
  located active := nomatch active
  coherent active := nomatch active

/-- From its construction on, a controller whose accesses stay in their windows
is the array that its file held. -/
theorem refines_of_orderly (accesses : List Transaction)
    (orderly :
      (construct file buf blkGetSize64 seekEnd).Orderly accesses) :
    (construct file buf blkGetSize64 seekEnd).array.bytes = file ∧
      (construct file buf blkGetSize64 seekEnd).Refines accesses := by
  refine ⟨rfl, ?_⟩
  have agrees := run_agrees
    (good_construct file buf blkGetSize64 seekEnd) orderly
  exact {
    answers := agrees.map_eq fun _ _ _ => rfl
    file := agrees.map_eq fun _ _ good => good.clear
    inside := agrees.ne_outOfBounds }

/-! ### An access that leaves its window -/

/-- A write of four bytes to the last two of the data window. -/
def straddling : Transaction where
  command := .write
  address := BitVec.ofNat 64 (addrSpace - 2)
  dataLength := 4
  data _ := 0xff

theorem not_refines_straddling :
    ¬ (construct (fun _ => 0) (fun _ => 0) none 512).Refines [straddling] := by
  intro refines
  exact refines.inside rfl

/-- A block number and a whole block, in windows of their own. -/
theorem refines_orderly :
    (construct (fun _ => 0) (fun _ => 0) none 1024).array.bytes =
        (fun _ => 0) ∧
      (construct (fun _ => 0) (fun _ => 0) none 1024).Refines
        [⟨.write, 0, 8, fun index => if index = 0 then 1 else 0⟩,
          ⟨.write, 16, 512, fun _ => 0xff⟩] := by
  apply refines_of_orderly
  refine ⟨⟨by decide, by decide⟩, fun after data answered => ?_⟩
  cases answered
  exact ⟨⟨by decide, by decide⟩, fun after data answered => trivial⟩

end Flashcontroller

end Flash

end RiscvVp
