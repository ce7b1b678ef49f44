import RiscvVp.Core.MmuFrame
import RiscvVp.Rv32.Memory

/-!
# What the memory interface may change

Whatever the bus, the other harts and the devices reply, an access changes
nothing of a hart but its TLB, the address of its reservation and the
interrupt bits that arrive in `mip`.

A frame that allows these changes `Serves` the memory interface; every
operation of the interface is framed by it.
-/

namespace RiscvVp

namespace Rv32

open Interaction

/-- The frame allows what the memory interface does. -/
class Serves (frame : Frame Hart Fatal) : Prop where
  tlb : ∀ tlb (hart : Hart), frame.pre hart →
    frame.related hart { hart with tlb := tlb }
  lrAddr : ∀ addr (hart : Hart), frame.pre hart →
    frame.related hart { hart with lrAddr := addr }
  interrupt : ∀ event (hart : Hart), frame.pre hart →
    frame.related hart (hart.interrupt event)
  listed : ∀ reason, reason = .dmiRange ∨ reason = .platform ∨
    reason = .nullMmu ∨ reason = .amoNotLocked → frame.aborts reason
  mode : ∀ hart, frame.pre hart → ∀ type,
    ¬ Mmu.ValidMode (Mmu.effectiveMode (Memory.mmuCore hart) type) →
      frame.aborts .mmuMode

variable {frame : Frame Hart Fatal}

instance {α : Type} (question : Call) (receive : Reply question → α) :
    Machine.Framed frame (call question receive) :=
  inferInstanceAs (Machine.Framed frame (Machine.request question receive))

instance (observation : Observation) :
    Machine.Framed frame (observe observation) := by
  unfold observe
  infer_instance

variable [serves : Serves frame]

instance (interrupts : List InterruptEvent) :
    Machine.Framed frame (deliver interrupts) := by
  refine Machine.Framed.modifies fun hart met => ?_
  induction interrupts generalizing hart with
  | nil => exact frame.refl hart
  | cons event rest inductionHypothesis =>
      have first := serves.interrupt event hart met
      exact frame.trans first <|
        inductionHypothesis _ (frame.stable met first)

namespace Memory

variable (cfg : Config)

instance : Machine.Framed frame lock := by
  unfold lock
  infer_instance

instance : Machine.Framed frame isLocked := by
  unfold isLocked
  infer_instance

instance : Machine.Framed frame waitForAccessRights := by
  unfold waitForAccessRights
  infer_instance

instance : Machine.Framed frame atomicUnlock := by
  unfold atomicUnlock
  infer_instance

instance (bytes : Nat) (addr : BitVec 64) :
    Machine.Framed frame (readTransaction bytes addr) := by
  have := Machine.Framed.abort (R := Reply) (τ := SimulationTrap)
    (α := BitVec (8 * bytes)) (serves.listed .platform (by simp))
  refine @Machine.Framed.bind _ _ _ _ _ _ _ _ _ _ _ fun reply => ?_
  cases reply <;> infer_instance

instance (kind : StoreKind) (bytes : Nat) (addr : BitVec 64)
    (data : BitVec (8 * bytes)) :
    Machine.Framed frame (writeTransaction kind bytes addr data) := by
  have := Machine.Framed.abort (R := Reply) (τ := SimulationTrap)
    (α := Unit) (serves.listed .platform (by simp))
  refine @Machine.Framed.bind _ _ _ _ _ _ _ _ _ _ _ fun reply => ?_
  cases reply <;> infer_instance

instance (condition : Bool) :
    Machine.Framed frame (Machine.assert condition .dmiRange : HartM Unit) :=
  Machine.Framed.assert (serves.listed .dmiRange (by simp))

instance (range : DmiRange) (bytes : Nat) (addr : BitVec 64) :
    Machine.Framed frame (dmiLoad range bytes addr) := by
  unfold dmiLoad
  infer_instance

instance (kind : StoreKind) (range : DmiRange) (bytes : Nat)
    (addr : BitVec 64) (data : BitVec (8 * bytes)) :
    Machine.Framed frame (dmiStore kind range bytes addr data) := by
  unfold dmiStore
  infer_instance

instance (bytes : Nat) (addr : BitVec 64) :
    Machine.Framed frame (rawLoadData cfg bytes addr) := by
  unfold rawLoadData
  refine @Machine.Framed.bind _ _ _ _ _ _ _ _ _ _ _ fun _ => ?_
  split <;> infer_instance

instance (kind : StoreKind) (bytes : Nat) (addr : BitVec 64)
    (data : BitVec (8 * bytes)) (ranges : List DmiRange) :
    Machine.Framed frame (dmiStores kind bytes addr data ranges) := by
  induction ranges with
  | nil => exact inferInstanceAs (Machine.Framed frame (pure ()))
  | cons range rest inductionHypothesis =>
      unfold dmiStores
      infer_instance

instance (kind : StoreKind) (bytes : Nat) (addr : BitVec 64)
    (data : BitVec (8 * bytes)) :
    Machine.Framed frame (rawStoreData cfg kind bytes addr data) := by
  unfold rawStoreData
  infer_instance

instance (question : Mmu.Call) :
    Machine.Framed frame (answerMmu cfg question) := by
  unfold answerMmu
  cases question <;> dsimp only <;> infer_instance

/-- The single bit of `satp.mode` names a mode with page tables. -/
theorem decodeVmInfo_mmuCore (hart : Hart)
    (translated : (mmuCore hart).satpMode ≠ 0) :
    (Mmu.decodeVmInfo (mmuCore hart)).isSome := by
  have mode : (mmuCore hart).satpMode = 1 := by
    have bound : (Csr.Satp.mode.get (hart.csrs .satp)).toNat < 2 ^ 1 :=
      (Csr.Satp.mode.get (hart.csrs .satp)).isLt
    simp only [mmuCore] at translated ⊢
    omega
  rw [Mmu.decodeVmInfo, mode]
  rfl

instance (vaddr : BitVec 64) (type : MemoryAccessType) :
    Machine.Framed frame (v2p cfg vaddr type) where
  framed hart met := by
    unfold v2p
    split
    · have quiet := (Mmu.framed_translate (Frame.aborting frame.aborts)
        (mmuCore hart) type vaddr
        (fun _ _ _ => trivial) (decodeVmInfo_mmuCore hart)
        (serves.mode hart met type)).framed hart.tlb trivial
      exact Machine.Framed.embed (answerMmu cfg) Hart.tlb
        (fun tlb hart => { hart with tlb := tlb })
        (fun tlb hart met => serves.tlb tlb hart met) met <|
          quiet.mono fun _ holds => holds.2
    · exact (frame.post_done hart vaddr hart).2 (frame.refl hart)

instance (bytes : Nat) (addr : BitVec 64) :
    Machine.Framed frame (loadData cfg bytes addr) := by
  unfold loadData
  infer_instance

instance (bytes : Nat) (addr : BitVec 64) (data : BitVec (8 * bytes)) :
    Machine.Framed frame (storeData cfg bytes addr data) := by
  unfold storeData
  infer_instance

instance (addr : BitVec 64) : Machine.Framed frame (loadWord cfg addr) := by
  unfold loadWord
  infer_instance

instance (addr : BitVec 64) : Machine.Framed frame (loadInstr cfg addr) := by
  unfold loadInstr
  split <;> infer_instance

instance : Machine.Framed frame (flushTlb cfg) := by
  have := Machine.Framed.modifies (R := Reply) (τ := SimulationTrap)
    (serves.tlb Mmu.flushTlb)
  have := Machine.Framed.abort (R := Reply) (τ := SimulationTrap)
    (α := Unit) (serves.listed .nullMmu (by simp))
  unfold flushTlb
  infer_instance

instance (addr : BitVec 64) :
    Machine.Framed frame (atomicLoadWord cfg addr) := by
  unfold atomicLoadWord
  infer_instance

instance (addr : BitVec 64) (value : BitVec 32) :
    Machine.Framed frame (atomicStoreWord cfg addr value) := by
  have (condition : Bool) : Machine.Framed frame
      (Machine.assert condition .amoNotLocked : HartM Unit) :=
    Machine.Framed.assert (serves.listed .amoNotLocked (by simp))
  unfold atomicStoreWord
  infer_instance

instance (addr : BitVec 64) :
    Machine.Framed frame (atomicLoadReservedWord cfg addr) := by
  have := Machine.Framed.modifies (R := Reply) (τ := SimulationTrap)
    (serves.lrAddr addr)
  unfold atomicLoadReservedWord
  infer_instance

instance (addr : BitVec 64) (value : BitVec 32) :
    Machine.Framed frame (atomicStoreConditionalWord cfg addr value) := by
  unfold atomicStoreConditionalWord
  infer_instance

end Memory

end Rv32

end RiscvVp
