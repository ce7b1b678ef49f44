import RiscvVp.Core.TlbTranslation

/-!
# When the translation lookaside buffer can be seen

Nobody sees the buffer, whatever the status bits become, exactly when every
entry was filled from a leaf that permits the access under all of them and lies
below 4 GiB.
-/

namespace RiscvVp

namespace Mmu

open Interaction

/-! ## Runs -/

structure State where
  tlb : Tlb
  bytes : Paging.Memory

/-- What can happen between two flushes. -/
inductive Event : Type
  | translate (core : Core) (vaddr : BitVec 64) (type : MemoryAccessType)
  /-- the memory is changed by someone else -/
  | write (bytes : Paging.Memory)

/-- An aborted translation leaves no state. -/
def State.step (refusals : Refusals) (state : State) : Event → Option State
  | .translate core vaddr type =>
      let (outcome, bytes) :=
        Mmu.translate refusals core vaddr type state.tlb state.bytes
      outcome.state?.map fun tlb => ⟨tlb, bytes⟩
  | .write bytes => some { state with bytes := bytes }

section Runs

variable (refusals : Refusals)

/-- Every state of the run has the property. -/
def Everywhere (property : State → Prop) : State → List Event → Prop
  | state, [] => property state
  | state, event :: rest =>
      property state ∧ ∀ later, state.step refusals event = some later →
        Everywhere property later rest

/-- Every step of the run meets the condition. -/
def Throughout (condition : State → Event → Prop) :
    State → List Event → Prop
  | _, [] => True
  | state, event :: rest =>
      condition state event ∧ ∀ later,
        state.step refusals event = some later →
          Throughout condition later rest

end Runs

/-- The event changes neither `satp` nor the page tables, apart from the flags
that a walk sets. -/
def Quiet (refusals : Refusals) (core : Core) (state : State) : Event → Prop
  | .translate core' _ _ => SharesTables core core'
  | .write bytes => SameTables refusals core state.bytes bytes

/-- No translation, in whatever mode and under whatever status bits, ends
otherwise than it would with an empty buffer. -/
def Transparent (refusals : Refusals) (core : Core) (state : State) : Prop :=
  ∀ core', SharesTables core core' → ∀ vaddr type,
    (translate refusals core' vaddr type state.tlb state.bytes).1.answer =
      (translate refusals core' vaddr type flushTlb state.bytes).1.answer

/-! ## The condition -/

/-- The translation misses the buffer and ends at this leaf. -/
structure Fills (refusals : Refusals) (core : Core) (vaddr : BitVec 64)
    (type : MemoryAccessType) (state : State) (supervisor : Bool) (vm : VmInfo)
    (level : Nat) (address : BitVec 64) (pte : Pte) : Prop where
  translated : core.satpMode ≠ 0
  mode : effectiveMode core type = modeOf supervisor
  decoded : decodeVmInfo core = some vm
  missed : (state.tlb supervisor type (tlbIndex vaddr)).vpn ≠
    vaddr >>> pgShift
  found : locate refusals core vm vaddr state.bytes = .leaf level address pte
  permitted : checkPte core type supervisor (level * vm.idxbits) pte = .leaf
  markable : Markable refusals core type address pte

/-- The event fills the buffer from steady leaves of low pages only. -/
def Harmless (refusals : Refusals) (state : State) : Event → Prop
  | .translate core vaddr type =>
      ∀ supervisor vm level address pte,
        Fills refusals core vaddr type state supervisor vm level address pte →
          Steady supervisor type pte ∧ Low vaddr (level * vm.idxbits) pte
  | .write _ => True

/-! ## The invariant -/

/-- The entry is what a walk of its page has left, and would leave again
whatever the status bits are. -/
structure Backed (refusals : Refusals) (core : Core) (bytes : Paging.Memory)
    (supervisor : Bool) (type : MemoryAccessType) (entry : TlbEntry)
    (vm : VmInfo) (vaddr : BitVec 64) (level : Nat) (address : BitVec 64)
    (pte : Pte) : Prop where
  decoded : decodeVmInfo core = some vm
  found : locate refusals core vm vaddr bytes = .leaf level address pte
  permitted : ∀ core',
    checkPte core' type supervisor (level * vm.idxbits) pte = .leaf
  flagged : pte &&& Pte.accessedDirty type = Pte.accessedDirty type
  low : Low vaddr (level * vm.idxbits) pte
  cached : entry = .ofWalk vaddr (leafAddress vaddr (level * vm.idxbits) pte)

/-- The entry is not in use. -/
def TlbEntry.Blank (entry : TlbEntry) : Prop :=
  ∀ vaddr : BitVec 64, entry.vpn ≠ vaddr >>> pgShift

/-- Every entry is blank or backed. -/
def Coherent (refusals : Refusals) (core : Core) (state : State) : Prop :=
  ∀ supervisor type index,
    (state.tlb supervisor type index).Blank ∨
      ∃ vm vaddr level address pte,
        Backed refusals core state.bytes supervisor type
          (state.tlb supervisor type index) vm vaddr level address pte

section Invariant

variable {refusals : Refusals} {core : Core}

theorem coherent_flushTlb (bytes : Paging.Memory) :
    Coherent refusals core ⟨flushTlb, bytes⟩ :=
  fun supervisor type index => .inl fun vaddr =>
    flushTlb_vpn supervisor type index vaddr

/-- A coherent buffer cannot be seen. -/
theorem Coherent.transparent {state : State}
    (coherent : Coherent refusals core state) :
    Transparent refusals core state := by
  intro core' shares vaddr type
  by_cases untranslated : core'.satpMode = 0 ∨
      effectiveMode core' type = machineMode
  · rw [translate_of_untranslated refusals vaddr _ _ untranslated,
      translate_of_untranslated refusals vaddr _ _ untranslated]
    rfl
  obtain ⟨translated, notMachine⟩ := not_or.1 untranslated
  by_cases valid : ∃ supervisor, effectiveMode core' type = modeOf supervisor
  case neg =>
    have invalid := not_exists.1 valid
    rw [translate_of_invalid refusals vaddr _ _ translated notMachine invalid,
      translate_of_invalid refusals vaddr _ _ translated notMachine invalid]
  obtain ⟨supervisor, mode⟩ := valid
  rw [translate_eq refusals vaddr _ _ translated mode,
    translate_eq refusals vaddr _ _ translated mode,
    if_neg (flushTlb_vpn _ _ _ _), shares.decodeVmInfo_eq]
  by_cases hit : (state.tlb supervisor type (tlbIndex vaddr)).vpn =
      vaddr >>> pgShift
  · rw [if_pos hit]
    rcases coherent supervisor type (tlbIndex vaddr) with blank | backed
    · exact absurd hit (blank vaddr)
    obtain ⟨vm, filler, level, address, pte, backed⟩ := backed
    have page : vaddr >>> pgShift = filler >>> pgShift := by
      rw [← hit, backed.cached]
      rfl
    rw [backed.decoded]
    dsimp only
    rw [shares.locate_eq, locate_congr backed.decoded page, backed.found,
      conclude_of_markable (locate_eq_leaf backed.decoded backed.found).2.1
        (backed.permitted core') (.inl backed.flagged),
      backed.cached, address_of_low _ _ _ _ backed.low page]
    rfl
  · rw [if_neg hit]
    cases decodeVmInfo core with
    | none => rfl
    | some vm => exact answer_filled _ _ _

/-- Marks keep an entry backed. -/
theorem Backed.mark {bytes : Paging.Memory} {supervisor : Bool}
    {type : MemoryAccessType} {entry : TlbEntry} {vm : VmInfo}
    {vaddr : BitVec 64} {level : Nat} {address : BitVec 64} {pte : Pte}
    (backed : Backed refusals core bytes supervisor type entry vm vaddr level
      address pte)
    {vaddr' : BitVec 64} {level' : Nat} {address' : BitVec 64} {pte' : Pte}
    (found : locate refusals core vm vaddr' bytes =
      .leaf level' address' pte')
    (marks : MemoryAccessType) :
    Backed refusals core (Paging.mark (access marks) bytes address'.toNat)
      supervisor type entry vm vaddr level address
      (if address = address' then pte ||| Pte.accessedDirty marks
        else pte) := by
  have located := locate_mark backed.decoded found marks vaddr
  rw [backed.found, Found.marked] at located
  by_cases same : address = address'
  · rw [if_pos same] at located ⊢
    exact ⟨backed.decoded, located,
      fun core' => (checkPte_marked ..).trans (backed.permitted core'),
      pte.keeps_flags marks backed.flagged,
      (congrArg (fun paddr => BitVec.toNat paddr < 2 ^ 32)
        (leafAddress_marked ..)).mpr backed.low,
      backed.cached.trans <| congrArg _ (leafAddress_marked ..).symm⟩
  · rw [if_neg same] at located ⊢
    exact { backed with found := located }

namespace Fills

variable {core' : Core} {vaddr : BitVec 64} {type : MemoryAccessType}
  {state : State} {supervisor : Bool} {vm : VmInfo} {level : Nat}
  {address : BitVec 64} {pte : Pte}
  (fills : Fills refusals core' vaddr type state supervisor vm level address
    pte)
include fills

/-- The state after the buffer is filled. -/
theorem step_eq :
    state.step refusals (.translate core' vaddr type) = some
      ⟨state.tlb.update supervisor type (tlbIndex vaddr)
          (.ofWalk vaddr (leafAddress vaddr (level * vm.idxbits) pte)),
        Paging.mark (access type) state.bytes address.toNat⟩ := by
  have stored := (locate_eq_leaf fills.decoded fills.found).2.1
  rw [State.step, translate_eq refusals vaddr _ _ fills.translated fills.mode,
    if_neg fills.missed, fills.decoded]
  dsimp only
  rw [fills.found,
    conclude_of_markable stored fills.permitted fills.markable]
  rfl

/-- The leaf is found again, with its flags. -/
theorem found_again :
    locate refusals core' vm vaddr
        (Paging.mark (access type) state.bytes address.toNat) =
      .leaf level address (pte ||| Pte.accessedDirty type) := by
  rw [locate_mark fills.decoded fills.found, fills.found, Found.marked,
    if_pos rfl]

/-- A buffer that cannot be seen afterwards was filled from a steady leaf of a
low page. -/
theorem of_transparent
    (transparent : ∀ later,
      state.step refusals (.translate core' vaddr type) = some later →
        Transparent refusals core' later) :
    Steady supervisor type pte ∧ Low vaddr (level * vm.idxbits) pte := by
  have plain := transparent _ fills.step_eq core'.plain
    (sharesTables_plain core') vaddr type
  have translated : core'.plain.satpMode ≠ 0 := fills.translated
  have mode : effectiveMode core'.plain type = modeOf supervisor := fills.mode
  have decoded : decodeVmInfo core'.plain = some vm := fills.decoded
  have found := fills.found_again
  rw [← (sharesTables_plain core').locate_eq] at found
  dsimp only at plain
  rw [translate_eq refusals vaddr _ _ translated mode,
    translate_eq refusals vaddr _ _ translated mode,
    if_neg (flushTlb_vpn _ _ _ _), Tlb.update_same,
    if_pos (TlbEntry.vpn_ofWalk _ _), decoded] at plain
  dsimp only at plain
  rw [found] at plain
  by_cases permitted : checkPte core'.plain type supervisor
      (level * vm.idxbits) (pte ||| Pte.accessedDirty type) = .leaf
  · have stored := (locate_eq_leaf fills.decoded fills.found_again).2.1
    rw [conclude_of_markable stored permitted (.inl (pte.has_flags type)),
      leafAddress_marked] at plain
    rw [checkPte_marked] at permitted
    injection plain with address
    exact ⟨steady_of_checkPte rfl rfl permitted, low_of_address address⟩
  · have refused : ¬ (checkPte core'.plain type supervisor (level * vm.idxbits)
        (pte ||| Pte.accessedDirty type) = .leaf ∧
          Markable refusals core'.plain type address (pte ||| Pte.accessedDirty type)) :=
      fun both => permitted both.1
    obtain ⟨cause, trapped⟩ := conclude_of_not_markable refused
    rw [trapped] at plain
    cases plain

end Fills

/-! ## Steps -/

/-- A translation that does not fill the buffer leaves everything alone. -/
theorem step_translate {core' : Core} {vaddr : BitVec 64}
    {type : MemoryAccessType} {state later : State}
    (stepped : state.step refusals (.translate core' vaddr type) =
      some later) :
    later = state ∨ ∃ supervisor vm level address pte,
      Fills refusals core' vaddr type state supervisor vm level address
        pte := by
  by_cases untranslated : core'.satpMode = 0 ∨
      effectiveMode core' type = machineMode
  · rw [State.step, translate_of_untranslated refusals vaddr _ _ untranslated]
      at stepped
    exact .inl (Option.some.inj stepped).symm
  obtain ⟨translated, notMachine⟩ := not_or.1 untranslated
  by_cases valid : ∃ supervisor, effectiveMode core' type = modeOf supervisor
  case neg =>
    rw [State.step, translate_of_invalid refusals vaddr _ _ translated
      notMachine (not_exists.1 valid)] at stepped
    cases stepped
  obtain ⟨supervisor, mode⟩ := valid
  rw [State.step, translate_eq refusals vaddr _ _ translated mode] at stepped
  by_cases hit : (state.tlb supervisor type (tlbIndex vaddr)).vpn =
      vaddr >>> pgShift
  · rw [if_pos hit] at stepped
    exact .inl (Option.some.inj stepped).symm
  rw [if_neg hit] at stepped
  cases decoded : decodeVmInfo core' with
  | none =>
      rw [decoded] at stepped
      cases stepped
  | some vm =>
      rw [decoded] at stepped
      dsimp only at stepped
      cases found : locate refusals core' vm vaddr state.bytes with
      | missing =>
          rw [found] at stepped
          exact .inl (Option.some.inj stepped).symm
      | refused cause =>
          rw [found] at stepped
          exact .inl (Option.some.inj stepped).symm
      | leaf level address pte =>
          by_cases passes : checkPte core' type supervisor
              (level * vm.idxbits) pte = .leaf ∧
                Markable refusals core' type address pte
          · exact .inr ⟨supervisor, vm, level, address, pte, translated, mode,
              decoded, hit, found, passes.1, passes.2⟩
          · obtain ⟨cause, trapped⟩ := conclude_of_not_markable passes
            rw [found, trapped] at stepped
            exact .inl (Option.some.inj stepped).symm

/-- A harmless step keeps the buffer coherent. -/
theorem Coherent.step {state later : State} {event : Event}
    (coherent : Coherent refusals core state)
    (quiet : Quiet refusals core state event)
    (harmless : Harmless refusals state event)
    (stepped : state.step refusals event = some later) :
    Coherent refusals core later := by
  cases event with
  | write bytes =>
      cases stepped
      intro supervisor type index
      refine (coherent supervisor type index).imp_right fun backing => ?_
      obtain ⟨vm, vaddr, level, address, pte, backed⟩ := backing
      exact ⟨vm, vaddr, level, address, pte, { backed with
        found := (SameTables.locate_eq quiet backed.decoded vaddr).trans
          backed.found }⟩
  | translate core' vaddr type =>
      have shares : SharesTables core core' := quiet
      rcases step_translate stepped with rfl | filling
      · exact coherent
      obtain ⟨supervisor, vm, level, address, pte, fills⟩ := filling
      obtain ⟨steady, low⟩ := harmless _ _ _ _ _ fills
      rw [fills.step_eq] at stepped
      cases stepped
      have decoded : decodeVmInfo core = some vm :=
        shares.decodeVmInfo_eq.symm.trans fills.decoded
      have found : locate refusals core vm vaddr state.bytes =
          .leaf level address pte :=
        (shares.locate_eq ..).symm.trans fills.found
      intro supervisor' type' index
      dsimp only
      rw [Tlb.update]
      split
      next same =>
        obtain ⟨rfl, rfl, rfl⟩ := same
        refine .inr ⟨vm, vaddr, level, address,
          pte ||| Pte.accessedDirty type', decoded, ?_, fun other => ?_,
          pte.has_flags type', ?_, ?_⟩
        · exact (shares.locate_eq ..).symm.trans fills.found_again
        · rw [checkPte_marked]
          exact steady.checkPte_eq fills.permitted other
        · rw [Low, leafAddress_marked]
          exact low
        · rw [leafAddress_marked]
      next =>
        refine (coherent supervisor' type' index).imp_right fun backing => ?_
        obtain ⟨vm', vaddr', level', address', pte', backed⟩ := backing
        obtain rfl : vm = vm' :=
          Option.some.inj (decoded.symm.trans backed.decoded)
        exact ⟨vm, vaddr', level', address', _, backed.mark found type⟩

/-! ## The whole run -/

theorem everywhere_of_harmless {state : State} {events : List Event}
    (coherent : Coherent refusals core state)
    (quiet : Throughout refusals (Quiet refusals core) state events)
    (harmless : Throughout refusals (Harmless refusals) state events) :
    Everywhere refusals (Transparent refusals core) state events := by
  induction events generalizing state with
  | nil => exact coherent.transparent
  | cons event rest inductionHypothesis =>
      refine ⟨coherent.transparent, fun later stepped => ?_⟩
      exact inductionHypothesis
        (coherent.step quiet.1 harmless.1 stepped)
        (quiet.2 later stepped) (harmless.2 later stepped)

theorem Everywhere.start {property : State → Prop} {state : State}
    {events : List Event}
    (everywhere : Everywhere refusals property state events) :
    property state := by
  cases events with
  | nil => exact everywhere
  | cons event rest => exact everywhere.1

theorem harmless_of_everywhere {state : State} {events : List Event}
    (quiet : Throughout refusals (Quiet refusals core) state events)
    (everywhere : Everywhere refusals (Transparent refusals core) state
      events) :
    Throughout refusals (Harmless refusals) state events := by
  induction events generalizing state with
  | nil => trivial
  | cons event rest inductionHypothesis =>
      refine ⟨?_, fun later stepped => inductionHypothesis
        (quiet.2 later stepped) (everywhere.2 later stepped)⟩
      cases event with
      | write bytes => trivial
      | translate core' vaddr type =>
          intro supervisor vm level address pte fills
          have shares : SharesTables core core' := quiet.1
          apply fills.of_transparent
          intro later stepped other sharing vaddr' type'
          have seen := (everywhere.2 later stepped).start
          refine seen other ⟨?_, ?_, ?_, ?_⟩ vaddr' type'
          · exact sharing.xlen.trans shares.xlen
          · exact sharing.satpMode.trans shares.satpMode
          · exact sharing.satpPpn.trans shares.satpPpn
          · exact sharing.pageFaultOnAD.trans shares.pageFaultOnAD

/-- From a flush on, as long as neither `satp` nor the page tables change, the
buffer cannot be seen in any state exactly when every step is harmless. -/
theorem transparent_iff (refusals : Refusals) (core : Core)
    (bytes : Paging.Memory) (events : List Event)
    (quiet : Throughout refusals (Quiet refusals core) ⟨flushTlb, bytes⟩
      events) :
    Everywhere refusals (Transparent refusals core) ⟨flushTlb, bytes⟩
        events ↔
      Throughout refusals (Harmless refusals) ⟨flushTlb, bytes⟩ events := by
  constructor
  · exact harmless_of_everywhere quiet
  · exact everywhere_of_harmless (coherent_flushTlb bytes) quiet

/-! ## A user page in supervisor mode -/

/-- A core with `Sv32` tables from `0x1000` on. -/
def megapageCore (sum : Bool) : Core where
  xlen := 32
  satpMode := 1
  satpPpn := 1
  prv := supervisorMode
  mprv := false
  mpp := userMode
  sum := sum
  mxr := false
  pageFaultOnAD := false

/-- The first entry of its root table maps a user page of four megabytes. -/
def userMegapage : Paging.Memory :=
  fun address => if address = 0x1000 then 0xdf else 0

/-- A bus that answers everything. -/
def acceptsAll : Refusals := fun _ => none

/-- A load with `SUM` set is remembered when `SUM` has been cleared. -/
theorem not_transparent_afterSum :
    Throughout acceptsAll (Quiet acceptsAll (megapageCore false))
        ⟨flushTlb, userMegapage⟩
        [.translate (megapageCore true) 0x2000 .load] ∧
      ¬ Everywhere acceptsAll (Transparent acceptsAll (megapageCore false))
        ⟨flushTlb, userMegapage⟩
        [.translate (megapageCore true) 0x2000 .load] := by
  refine ⟨⟨⟨rfl, rfl, rfl, rfl⟩, fun _ _ => trivial⟩, fun everywhere => ?_⟩
  have seen := everywhere.2 _ rfl (megapageCore false) ⟨rfl, rfl, rfl, rfl⟩
    0x2000 .load
  revert seen
  decide +kernel

/-- The page is steady for a user. -/
theorem transparent_forUser :
    Everywhere acceptsAll (Transparent acceptsAll (megapageCore false))
      ⟨flushTlb, userMegapage⟩
      [.translate { megapageCore true with prv := userMode } 0x2000 .load] := by
  apply (transparent_iff acceptsAll (megapageCore false) userMegapage
    [.translate { megapageCore true with prv := userMode } 0x2000 .load]
    ⟨⟨rfl, rfl, rfl, rfl⟩, fun _ _ => trivial⟩).2
  refine ⟨fun supervisor vm level address pte fills => ?_,
    fun _ _ => trivial⟩
  have located : locate acceptsAll
      { megapageCore true with prv := userMode } ⟨2, 10, 4, 0x1000⟩ 0x2000
      userMegapage = .leaf 1 0x1000 0xdf := by
    decide +kernel
  cases fills.decoded
  cases located.symm.trans fills.found
  cases supervisor with
  | false => exact ⟨by decide +kernel, by decide +kernel⟩
  | true => exact absurd fills.mode (by decide)

end Invariant

end Mmu

end RiscvVp
