import RiscvVp.Host.Ethernet
import RiscvVp.Host.Syscall

/-!
# The memory that the guest can reach

The handler of the system calls and the device for frames work on the array that is
the memory of the guest.  The arguments of the guest are not compared with its bounds:
what is accessed stays in the array exactly if the arguments do.
-/

namespace RiscvVp

namespace HostMemory

/-- What is accessed lies in the array, and a request whose argument does not lie
there is refused and accesses nothing. -/
def Isolated (memory : Pointer → Byte) (array : MappedArray) (argumentInside : Prop)
    (accesses : List Access) (refused : Prop) : Prop :=
  (∀ access ∈ accesses, access.Inside memory array) ∧
    (¬argumentInside → refused ∧ accesses = [])

/-- The handler is initialised for the array. -/
structure SyscallHandler.Serves (sys : SyscallHandler) (array : MappedArray) : Prop where
  mem : sys.mem = array.start
  memOffset : sys.memOffset = array.offset

/-- The memory that an argument of a call names is in the array. -/
def ArgumentInside (memory : Pointer → Byte) (array : MappedArray)
    (n a0 a1 a2 : BitVec 64) : Prop :=
  match Syscall.ofNumber n with
  | some .fstat => array.Holds a1 sizeofStat
  | some .gettimeofday => array.Holds a0 sizeofTimeval
  | some .time => a0 ≠ 0 → array.Holds a0 sizeofTime
  | some .write | some .read => array.Holds a1 a2.toNat
  | some .open_ => array.HoldsString memory a0
  | _ => True

/-- The call is refused for a reason that has nothing to do with the memory. -/
def Refuses (host : Host) (n a0 a1 a2 : BitVec 64) : Prop :=
  match Syscall.ofNumber n with
  | some .fstat => host.fstat (a0.setWidth 32) = none
  | some .gettimeofday => a1 ≠ 0
  | some .time => lexicalCast host.time = none
  | some .write => host.write (a0.setWidth 32) a2 = none
  | some .read => host.read (a0.setWidth 32) a2 = none
  | some .open_ => translateRVFlagsToHost (a1.setWidth 32) = none
  | _ => False

/-- A call is answered with an error, or not at all. -/
def Served.Refused (served : Served) : Prop :=
  served.answer = none ∨ served.answer = some (-1)

/-! ## Lemmas -/

section Isolated

variable {memory : Pointer → Byte} {array : MappedArray} {argumentInside : Prop}
  {accesses : List Access} {refused : Prop}

/-- Nothing is accessed and the request is refused. -/
theorem isolated_refused (isRefused : refused) :
    Isolated memory array argumentInside [] refused :=
  ⟨fun _ member => absurd member List.not_mem_nil, fun _ => ⟨isRefused, rfl⟩⟩

/-- A request that makes accesses is isolated if its argument is in the array. -/
theorem isolated_iff_argumentInside (nonempty : accesses ≠ [])
    (inside : argumentInside → ∀ access ∈ accesses, access.Inside memory array) :
    Isolated memory array argumentInside accesses refused ↔ argumentInside := by
  constructor
  · rintro ⟨-, refuses⟩
    by_contra outside
    exact nonempty (refuses outside).2
  · intro isInside
    exact ⟨inside isInside, fun outside => absurd isInside outside⟩

end Isolated

namespace MappedArray

variable {array : MappedArray} {addr : BitVec 64}

/-- A part of a range that the array stands for. -/
theorem Holds.part {numBytes offset length : ℕ} (holds : array.Holds addr numBytes)
    (inRange : offset + length ≤ numBytes) :
    array.Holds (addr + BitVec.ofNat 64 offset) length := by
  have mapped := array.mapped
  rcases holds with none | ⟨above, fits⟩
  · exact .inl (by omega)
  · rcases Nat.eq_zero_or_pos length with none | some
    · exact .inl none
    refine .inr ?_
    rw [BitVec.toNat_add, BitVec.toNat_ofNat]
    omega

/-- The pointer to a part of a range. -/
theorem pointer_add (offset : ℕ) :
    array.pointer addr + BitVec.ofNat 64 offset =
      array.pointer (addr + BitVec.ofNat 64 offset) := by
  rw [pointer, pointer, add_assoc, sub_add_eq_add_sub]

end MappedArray

/-- Writing a part of a range that is in the array. -/
theorem inside_write_part {memory : Pointer → Byte} {array : MappedArray}
    {addr : BitVec 64} {numBytes offset : ℕ} {bytes : List Byte}
    (holds : array.Holds addr numBytes) (inRange : offset + bytes.length ≤ numBytes) :
    (Access.write (array.pointer addr + BitVec.ofNat 64 offset) bytes).Inside memory
      array := by
  rw [MappedArray.pointer_add]
  exact inside_write_iff.2 (holds.part inRange)

/-! ## The calls -/

section Calls

variable {memory : Pointer → Byte} {array : MappedArray} {sys : SyscallHandler}
  {host : Host} {fd : BitVec 32}

theorem SyscallHandler.Serves.withPointer (serves : sys.Serves array)
    (addr : BitVec 64) (use : Pointer → Served) :
    sys.withPointer addr use = use (array.pointer addr) := by
  rw [SyscallHandler.withPointer, serves.mem, serves.memOffset, if_neg array.notNull]
  rfl

/-- The fields that are set are inside the structure. -/
theorem rv32Stat_inside (x : Stat) :
    ∀ part ∈ rv32Stat x, part.1 + part.2.length ≤ sizeofStat := by
  simp [rv32Stat, sizeofStat]

theorem isolated_sysFstat (serves : sys.Serves array) (sAddr : BitVec 64) :
    Isolated memory array (array.Holds sAddr sizeofStat)
        (sys.sysFstat host fd sAddr).accesses (sys.sysFstat host fd sAddr).Refused ↔
      array.Holds sAddr sizeofStat ∨ host.fstat fd = none := by
  rw [SyscallHandler.sysFstat]
  cases host.fstat fd with
  | none => exact iff_of_true (isolated_refused (.inr rfl)) (.inr rfl)
  | some x =>
      simp only [serves.withPointer, reduceCtorEq, or_false]
      refine isolated_iff_argumentInside (List.cons_ne_nil _ _) fun holds => ?_
      intro access member
      obtain ⟨⟨offset, bytes⟩, isField, rfl⟩ := List.mem_map.1 member
      exact inside_write_part holds (rv32Stat_inside x _ isField)

theorem isolated_sysGettimeofday (serves : sys.Serves array) (tp tzp : BitVec 64) :
    Isolated memory array (array.Holds tp sizeofTimeval)
        (sys.sysGettimeofday host tp tzp).accesses
        (sys.sysGettimeofday host tp tzp).Refused ↔
      array.Holds tp sizeofTimeval ∨ tzp ≠ 0 := by
  rw [SyscallHandler.sysGettimeofday]
  by_cases isNull : tzp = 0
  · simp only [isNull, if_true, serves.withPointer, ne_eq, not_true, or_false]
    refine isolated_iff_argumentInside (List.cons_ne_nil _ _) fun holds => ?_
    have fields : sizeofTimeval = 8 := rfl
    have first := @inside_write_part memory array tp sizeofTimeval 0
      (field 4 host.gettimeofday.2.1) holds (by rw [length_field]; omega)
    have second := @inside_write_part memory array tp sizeofTimeval 4
      (field 4 host.gettimeofday.2.2) holds (by rw [length_field]; omega)
    rw [BitVec.add_zero] at first
    simpa using ⟨first, second⟩
  · rw [if_neg isNull]
    exact iff_of_true (isolated_refused (.inl rfl)) (.inr isNull)

theorem isolated_sysTime (serves : sys.Serves array) (tloc : BitVec 64) :
    Isolated memory array (tloc ≠ 0 → array.Holds tloc sizeofTime)
        (sys.sysTime host tloc).accesses (sys.sysTime host tloc).Refused ↔
      (tloc ≠ 0 → array.Holds tloc sizeofTime) ∨ lexicalCast host.time = none := by
  rw [SyscallHandler.sysTime]
  cases lexicalCast host.time with
  | none => exact iff_of_true (isolated_refused (.inl rfl)) (.inr rfl)
  | some guestAns =>
      simp only [reduceCtorEq, or_false]
      by_cases isNull : tloc = 0
      · have noArgument : tloc ≠ 0 → array.Holds tloc sizeofTime :=
          fun notNull => absurd isNull notNull
        rw [if_neg (not_not.2 isNull)]
        refine iff_of_true ⟨fun _ member => absurd member List.not_mem_nil, ?_⟩ noArgument
        exact fun outside => absurd noArgument outside
      · rw [if_pos isNull, serves.withPointer]
        refine isolated_iff_argumentInside (List.cons_ne_nil _ _) fun inside => ?_
        intro access member
        rw [List.mem_singleton.1 member, inside_write_iff, length_field]
        exact inside isNull

/-- A call that transfers at most as much as the argument says. -/
theorem isolated_transfer {addr : BitVec 64} {numBytes : ℕ} {access : Access}
    {refused : Prop}
    (inside : array.Holds addr numBytes → access.Inside memory array) :
    Isolated memory array (array.Holds addr numBytes) [access] refused ↔
      array.Holds addr numBytes :=
  isolated_iff_argumentInside (List.cons_ne_nil _ _) fun holds _ member =>
    List.mem_singleton.1 member ▸ inside holds

theorem MappedArray.Holds.le {addr : BitVec 64} {numBytes fewer : ℕ}
    (holds : array.Holds addr numBytes) (le : fewer ≤ numBytes) :
    array.Holds addr fewer := by
  rcases holds with none | ⟨above, fits⟩
  · exact .inl (by omega)
  · exact .inr ⟨above, by omega⟩

theorem isolated_sysWrite (serves : sys.Serves array) (buf count : BitVec 64) :
    Isolated memory array (array.Holds buf count.toNat)
        (sys.sysWrite host fd buf count).accesses
        (sys.sysWrite host fd buf count).Refused ↔
      array.Holds buf count.toNat ∨ host.write fd count = none := by
  rw [SyscallHandler.sysWrite, serves.withPointer]
  cases answer : host.write fd count with
  | none => exact iff_of_true (isolated_refused (.inl rfl)) (.inr rfl)
  | some ans =>
      simp only [reduceCtorEq, or_false]
      refine isolated_transfer fun holds => ?_
      exact inside_read_iff.2 (holds.le (host.write_le fd count ans answer))

theorem isolated_sysRead (serves : sys.Serves array) (buf count : BitVec 64) :
    Isolated memory array (array.Holds buf count.toNat)
        (sys.sysRead host fd buf count).accesses
        (sys.sysRead host fd buf count).Refused ↔
      array.Holds buf count.toNat ∨ host.read fd count = none := by
  rw [SyscallHandler.sysRead, serves.withPointer]
  cases answer : host.read fd count with
  | none => exact iff_of_true (isolated_refused (.inl rfl)) (.inr rfl)
  | some bytes =>
      simp only [reduceCtorEq, or_false]
      refine isolated_transfer fun holds => ?_
      exact inside_write_iff.2 (holds.le (host.read_le fd count bytes answer))

theorem isolated_sysOpen (serves : sys.Serves array) (pathname : BitVec 64)
    (flags mode : BitVec 32) :
    Isolated memory array (array.HoldsString memory pathname)
        (sys.sysOpen host pathname flags mode).accesses
        (sys.sysOpen host pathname flags mode).Refused ↔
      array.HoldsString memory pathname ∨ translateRVFlagsToHost flags = none := by
  rw [SyscallHandler.sysOpen, serves.withPointer]
  cases translateRVFlagsToHost flags with
  | none => exact iff_of_true (isolated_refused (.inl rfl)) (.inr rfl)
  | some hostFlags =>
      simp only [reduceCtorEq, or_false]
      refine isolated_iff_argumentInside (List.cons_ne_nil _ _) fun holds => ?_
      have inside := inside_readString_iff.2 holds
      simpa using inside

/-- The calls without an argument in memory access nothing. -/
theorem isolated_of_silent {accesses : List Access} {refused : Prop}
    (silent : accesses = []) : Isolated memory array True accesses refused :=
  ⟨by simp [silent], fun outside => absurd trivial outside⟩

theorem isolated_executeSyscall (serves : sys.Serves array) (n a0 a1 a2 : BitVec 64) :
    Isolated memory array (ArgumentInside memory array n a0 a1 a2)
        (sys.executeSyscall host n a0 a1 a2).accesses
        (sys.executeSyscall host n a0 a1 a2).Refused ↔
      ArgumentInside memory array n a0 a1 a2 ∨ Refuses host n a0 a1 a2 := by
  simp only [SyscallHandler.executeSyscall, ArgumentInside, Refuses]
  cases Syscall.ofNumber n with
  | none => exact iff_of_true (isolated_of_silent rfl) (.inl trivial)
  | some call =>
      cases call with
      | fstat => exact isolated_sysFstat serves a1
      | gettimeofday => exact isolated_sysGettimeofday serves a0 a1
      | time => exact isolated_sysTime serves a0
      | write => exact isolated_sysWrite serves a1 a2
      | read => exact isolated_sysRead serves a1 a2
      | open_ => exact isolated_sysOpen serves a0 _ _
      | brk =>
          refine iff_of_true (isolated_of_silent ?_) (.inl trivial)
          simp only [SyscallHandler.sysBrk]
          split <;> rfl
      | close =>
          refine iff_of_true (isolated_of_silent ?_) (.inl trivial)
          simp only [SyscallHandler.sysClose]
          split <;> rfl
      | lseek | exit | hostError | hostTestPass | hostTestFail =>
          exact iff_of_true (isolated_of_silent rfl) (.inl trivial)

end Calls

/-! ## Frames -/

/-- The device works on the array. -/
def EthernetDevice.Serves (device : EthernetDevice) (array : MappedArray) : Prop :=
  device.mem = array.start

/-- The bytes of the frame are in the array, counted from where the device takes the
memory to begin. -/
def FrameInside (array : MappedArray) (device : EthernetDevice) : Prop :=
  device.sendSize = 0 ∨
    (device.sendSrc - 0x80000000).toNat + device.sendSize.toNat ≤ array.size

/-- The headers that a frame announces end before the buffer does. -/
def HeadersFit (buf : ℕ → Byte) (size : ℕ) : Prop :=
  Frame.etherType buf = ethPIp →
    (Frame.protocol buf = ipprotoUdp →
      Frame.payload buf + (if Frame.IsDhcp buf then 9 else 8) ≤ size) ∧
    (Frame.protocol buf = ipprotoIcmp → Frame.payload buf + 1 ≤ size)

section Frames

variable {memory : Pointer → Byte} {array : MappedArray} {device : EthernetDevice}
  {buf : ℕ → Byte} {size : ℕ}

/-- The parts are inside a buffer of the given size. -/
def Within (size : ℕ) (parts : List Part) : Prop :=
  ∀ part ∈ parts, part.offset + part.numBytes ≤ size

theorem within_append {parts others : List Part} :
    Within size (parts ++ others) ↔ Within size parts ∧ Within size others :=
  List.forall_mem_append

theorem within_cons {part : Part} {parts : List Part} :
    Within size (part :: parts) ↔
      part.offset + part.numBytes ≤ size ∧ Within size parts :=
  List.forall_mem_cons

theorem within_nil : Within size [] := fun _ member => absurd member List.not_mem_nil

theorem within_dumpUdp :
    Within size (dumpUdp buf size) ↔
      Frame.payload buf + (if Frame.IsDhcp buf then 9 else 8) ≤ size := by
  rw [dumpUdp, within_append]
  have header : Within size [⟨Frame.payload buf, 2⟩, ⟨Frame.payload buf + 2, 2⟩,
      ⟨Frame.payload buf + 4, 2⟩, ⟨Frame.payload buf + 6, 2⟩] ↔
      Frame.payload buf + 8 ≤ size := by
    simp only [within_cons, within_nil, and_true]
    omega
  rw [header]
  split
  next =>
    have message : Within size
        (if buf (Frame.payload buf + 8) = 1 ∨ buf (Frame.payload buf + 8) = 2 then []
          else [⟨0, size⟩]) := by
      split
      next => exact within_nil
      next => exact within_cons.2 ⟨Nat.le_of_eq (Nat.zero_add _), within_nil⟩
    rw [within_cons]
    constructor
    · rintro ⟨-, kind, -⟩
      exact kind
    · intro fits
      exact ⟨by omega, fits, message⟩
  next => exact and_iff_left within_nil

/-- The dump of a frame leaves the buffer exactly if a header does. -/
theorem within_dumpEthernetFrame (long : 60 ≤ size) :
    Within size (dumpEthernetFrame buf size) ↔ HeadersFit buf size := by
  rw [dumpEthernetFrame, within_append, HeadersFit]
  have ethernet : Within size [⟨0, 6⟩, ⟨6, 6⟩, ⟨12, 2⟩] := by
    simp only [within_cons, within_nil, and_true]
    omega
  rw [and_iff_right ethernet]
  by_cases isIp : Frame.etherType buf = ethPIp
  · rw [if_pos isIp, dumpIp, within_append]
    -- The fields of the header are inside the shortest frame.
    refine (and_iff_right ?_).trans ?_
    · simp only [within_cons, within_nil, and_true]
      omega
    have udpNotTcp : ipprotoUdp ≠ ipprotoTcp := by decide
    have udpNotIcmp : ipprotoUdp ≠ ipprotoIcmp := by decide
    have icmpNotTcp : ipprotoIcmp ≠ ipprotoTcp := by decide
    by_cases isUdp : Frame.protocol buf = ipprotoUdp
    · simp only [isIp, isUdp, if_true, within_dumpUdp, udpNotIcmp, forall_const,
        IsEmpty.forall_iff, and_true]
    by_cases isIcmp : Frame.protocol buf = ipprotoIcmp
    · simp only [isIp, isIcmp, udpNotIcmp.symm, icmpNotTcp, if_true, if_false,
        within_cons, within_nil, and_true, forall_const, IsEmpty.forall_iff, true_and]
    · simp only [isIp, isUdp, isIcmp, if_false, ite_self, within_nil, forall_const,
        IsEmpty.forall_iff, and_true]
  · rw [if_neg isIp]
    refine iff_of_true ?_ fun isOther => absurd isOther isIp
    split
    next =>
      simp only [dumpArp, within_cons, within_nil, and_true]
      omega
    next => exact within_nil

/-- The pointer of the frame is that of an address the array may stand for. -/
theorem EthernetDevice.Serves.source (serves : device.Serves array) :
    device.source =
      array.pointer (array.offset + (device.sendSrc - 0x80000000).setWidth 64) := by
  rw [EthernetDevice.source, serves, MappedArray.pointer, add_sub_cancel_left]

/-- The frame is read inside the array exactly if its bytes are there. -/
theorem inside_source (serves : device.Serves array) :
    (Access.read device.source device.sendSize.toNat).Inside memory array ↔
      FrameInside array device := by
  rw [serves.source, inside_read_iff, MappedArray.Holds, FrameInside]
  have mapped := array.mapped
  have small := (device.sendSrc - 0x80000000).isLt
  have noBytes : device.sendSize.toNat = 0 ↔ device.sendSize = 0 := by
    rw [← BitVec.toNat_inj]
    rfl
  rw [noBytes, BitVec.toNat_add, BitVec.toNat_setWidth]
  by_cases isZero : device.sendSize = 0
  · exact iff_of_true (.inl isZero) (.inl isZero)
  · have positive : 0 < device.sendSize.toNat :=
      Nat.pos_of_ne_zero fun none => isZero (noBytes.1 none)
    rw [or_iff_right isZero, or_iff_right isZero]
    omega

theorem long_sizeofSendbuf (device : EthernetDevice) : 60 ≤ device.sizeofSendbuf := by
  rw [EthernetDevice.sizeofSendbuf]
  split <;> omega

theorem sendSize_le_sizeofSendbuf (device : EthernetDevice) :
    device.sendSize.toNat ≤ device.sizeofSendbuf := by
  rw [EthernetDevice.sizeofSendbuf]
  split <;> omega

/-- What is accessed in the buffer, apart from the dump, is inside it. -/
theorem inside_sendRawFrame (serves : device.Serves array) {stack : ℕ → Byte}
    {write : List Byte → ℤ} :
    (∀ access ∈ (device.sendRawFrame memory stack write).accesses,
        access.Inside memory array) ↔
      FrameInside array device ∧
        Within device.sizeofSendbuf
          (dumpEthernetFrame (device.sendbuf memory stack) device.sizeofSendbuf) := by
  have long := long_sizeofSendbuf device
  have short := sendSize_le_sizeofSendbuf device
  have copied : (Access.own device.sizeofSendbuf 0 device.sendSize.toNat).Inside memory
      array := (Nat.zero_add _).trans_le short
  have padded : ∀ access ∈ (if device.sendSize.toNat < 60 then
      [Access.own device.sizeofSendbuf device.sendSize.toNat
        (60 - device.sendSize.toNat)]
      else []), access.Inside memory array := by
    intro access member
    split at member
    next =>
      rw [List.mem_singleton.1 member]
      change device.sendSize.toNat + (60 - device.sendSize.toNat) ≤ device.sizeofSendbuf
      omega
    next => cases member
  have compared : (Access.own device.sizeofSendbuf 6 6).Inside memory array := by
    change 6 + 6 ≤ device.sizeofSendbuf
    omega
  have handed : (Access.own device.sizeofSendbuf 0 device.sizeofSendbuf).Inside memory
      array := Nat.le_of_eq (Nat.zero_add _)
  rw [EthernetDevice.sendRawFrame]
  split <;>
    simp only [List.forall_mem_append, List.forall_mem_cons, List.forall_mem_map,
      inside_source serves, copied, compared, handed, and_true,
      List.not_mem_nil, false_imp_iff, implies_true, iff_true_intro padded] <;>
    rfl

theorem isolated_sendRawFrame (serves : device.Serves array) {stack : ℕ → Byte}
    {write : List Byte → ℤ} :
    Isolated memory array (FrameInside array device)
        (device.sendRawFrame memory stack write).accesses
        ((device.sendRawFrame memory stack write).finished = false) ↔
      FrameInside array device ∧
        HeadersFit (device.sendbuf memory stack) device.sizeofSendbuf := by
  have nonempty : (device.sendRawFrame memory stack write).accesses ≠ [] := by
    rw [EthernetDevice.sendRawFrame]
    split <;> exact List.cons_ne_nil _ _
  rw [← within_dumpEthernetFrame (long_sizeofSendbuf device),
    ← @inside_sendRawFrame memory array device serves stack write]
  constructor
  · exact And.left
  · intro inside
    refine ⟨inside, fun outside => absurd ?_ outside⟩
    exact ((inside_sendRawFrame serves).1 inside).1

end Frames

/-! ## Both -/

/-- The memory of the host is isolated exactly if the memory that an argument names
is in the array, or the call is refused for another reason; for a frame also the
headers must end before the buffer does. -/
theorem isolation_iff {memory : Pointer → Byte} {array : MappedArray}
    {sys : SyscallHandler} {device : EthernetDevice} (serves : sys.Serves array)
    (servesFrames : device.Serves array) :
    (∀ (host : Host) (core : Core),
      let n := core.readRegister core.syscallRegisterIndex
      let served := sys.executeSyscallOf host core
      Isolated memory array
          (ArgumentInside memory array n (core.readRegister 10) (core.readRegister 11)
            (core.readRegister 12))
          served.accesses served.Refused ↔
        ArgumentInside memory array n (core.readRegister 10) (core.readRegister 11)
            (core.readRegister 12) ∨
          Refuses host n (core.readRegister 10) (core.readRegister 11)
            (core.readRegister 12)) ∧
    ∀ (stack : ℕ → Byte) (write : List Byte → ℤ),
      let sent := device.sendRawFrame memory stack write
      Isolated memory array (FrameInside array device) sent.accesses
          (sent.finished = false) ↔
        FrameInside array device ∧
          HeadersFit (device.sendbuf memory stack) device.sizeofSendbuf :=
  ⟨fun _ _ => isolated_executeSyscall serves _ _ _ _,
    fun _ _ => isolated_sendRawFrame servesFrames⟩

/-- A page of the host that stands for the addresses from `0x80000000` on. -/
def page : MappedArray where
  start := 0x7f0000000000
  size := 4096
  offset := 0x80000000
  notNull := by decide
  fits := by decide
  mapped := by decide
  bounded := by decide

/-- A device for the page. -/
def pageDevice : EthernetDevice where
  sendSrc := 0x80000000
  sendSize := 60
  mac := fun _ => 0
  mem := page.start

/-- The host at the time zero, where every call with a file fails. -/
def bareHost : Host where
  fstat _ := none
  gettimeofday := (0, 0, 0)
  time := 0
  write _ _ := none
  read _ _ := none
  lseek _ _ _ := -1
  open_ _ _ _ := -1
  close _ := -1
  write_le _ _ _ answer := by cases answer
  read_le _ _ _ answer := by cases answer

/-- A call of `time` that asks for the time at an address. -/
def timeAt (tloc : BitVec 64) : Core where
  syscallRegisterIndex := 17
  readRegister index := if index = 17 then 1062 else if index = 10 then tloc else 0

/-- The page, a call of `time` and a frame. -/
theorem isolation_page :
    (Isolated (fun _ => 0) page
        (ArgumentInside (fun _ => 0) page 1062 0x80000ffc 0 0)
        ((SyscallHandler.init page.start page.offset 0).executeSyscallOf bareHost
          (timeAt 0x80000ffc)).accesses
        ((SyscallHandler.init page.start page.offset 0).executeSyscallOf bareHost
          (timeAt 0x80000ffc)).Refused ↔
      ArgumentInside (fun _ => 0) page 1062 0x80000ffc 0 0 ∨
        Refuses bareHost 1062 0x80000ffc 0 0) ∧
      (Isolated (fun _ => 0) page (FrameInside page pageDevice)
          (pageDevice.sendRawFrame (fun _ => 0) (fun _ => 0) fun _ => 60).accesses
          ((pageDevice.sendRawFrame (fun _ => 0) (fun _ => 0) fun _ => 60).finished =
            false) ↔
        FrameInside page pageDevice ∧
          HeadersFit (pageDevice.sendbuf (fun _ => 0) fun _ => 0)
            pageDevice.sizeofSendbuf) :=
  have both := @isolation_iff (fun _ => 0) page
    (SyscallHandler.init page.start page.offset 0) pageDevice ⟨rfl, rfl⟩ rfl
  ⟨both.1 bareHost (timeAt 0x80000ffc), both.2 (fun _ => 0) fun _ => 60⟩

/-- The time is written to an address outside the memory of the guest. -/
theorem not_isolated :
    ¬∀ (memory : Pointer → Byte) (array : MappedArray) (sys : SyscallHandler),
      sys.Serves array → ∀ (host : Host) (core : Core),
        let n := core.readRegister core.syscallRegisterIndex
        let served := sys.executeSyscallOf host core
        Isolated memory array
          (ArgumentInside memory array n (core.readRegister 10) (core.readRegister 11)
            (core.readRegister 12))
          served.accesses served.Refused := by
  intro isolated
  have inside := (isolated (fun _ => 0) page
    (SyscallHandler.init page.start page.offset 0) ⟨rfl, rfl⟩ bareHost (timeAt 4)).1
    (.write (page.pointer 4) (field 4 (0 : BitVec 32))) (by decide)
  exact absurd (inside_write_iff.1 inside) (by decide)

end HostMemory

end RiscvVp
