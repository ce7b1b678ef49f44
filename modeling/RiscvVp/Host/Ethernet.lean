import RiscvVp.Host.Access

/-!
# Frames that are sent

`EthernetDevice::send_raw_frame` in `ethernet.cpp`.  The frame is copied out of the
memory of the guest into a buffer on the stack, printed, and handed to the host.
-/

namespace RiscvVp

namespace HostMemory

structure EthernetDevice where
  sendSrc : BitVec 32 := 0
  sendSize : BitVec 32 := 0
  mac : ℕ → BitVec 32
  mem : Pointer := 0

/-- A part of a buffer that is read. -/
structure Part where
  offset : ℕ
  numBytes : ℕ
  deriving DecidableEq, Repr

/-- `ntohs` of a halfword in a buffer. -/
def ntohs (buf : ℕ → Byte) (offset : ℕ) : BitVec 16 :=
  buf offset ++ buf (offset + 1)

/-- `sizeof(struct ethhdr)` -/
def sizeofEthhdr : ℕ := 14

def ethPIp : BitVec 16 := 0x0800

def ethPArp : BitVec 16 := 0x0806

/-- The protocols that `dump_ethernet_frame` tells apart. -/
def ipprotoIcmp : Byte := 1

def ipprotoTcp : Byte := 6

def ipprotoUdp : Byte := 17

namespace Frame

variable (buf : ℕ → Byte)

def etherType : BitVec 16 := ntohs buf 12

def protocol : Byte := buf (sizeofEthhdr + 9)

/-- Where the header of the next protocol is: the length is in the lower half of the
first byte. -/
def payload : ℕ := sizeofEthhdr + ((buf sizeofEthhdr).extractLsb' 0 4).toNat * 4

def udpDest : BitVec 16 := ntohs buf (payload buf + 2)

/-- The ports of DHCP. -/
def IsDhcp : Prop := udpDest buf = 67 ∨ udpDest buf = 68

instance : Decidable (IsDhcp buf) := inferInstanceAs (Decidable (_ ∨ _))

end Frame

section Dump

variable (buf : ℕ → Byte) (size : ℕ)

/-- The case of UDP: the header, and the kind of the message for DHCP. -/
def dumpUdp : List Part :=
  let header := Frame.payload buf
  [⟨header, 2⟩, ⟨header + 2, 2⟩, ⟨header + 4, 2⟩, ⟨header + 6, 2⟩] ++
    if Frame.IsDhcp buf then
      ⟨header + 8, 1⟩ ::
        if buf (header + 8) = 1 ∨ buf (header + 8) = 2 then []
        -- `goto printHex`
        else [⟨0, size⟩]
    else []

/-- The case of IP: the addresses, the fields of the header, and what follows it. -/
def dumpIp : List Part :=
  [⟨26, 4⟩, ⟨30, 4⟩, ⟨14, 1⟩, ⟨15, 1⟩, ⟨16, 2⟩, ⟨18, 2⟩, ⟨22, 1⟩, ⟨23, 1⟩,
      ⟨24, 2⟩] ++
    if Frame.protocol buf = ipprotoUdp then dumpUdp buf size
    else if Frame.protocol buf = ipprotoTcp then []
    else if Frame.protocol buf = ipprotoIcmp then [⟨Frame.payload buf, 1⟩]
    else []

/-- The case of ARP: the addresses and the operation. -/
def dumpArp : List Part := [⟨22, 6⟩, ⟨28, 4⟩, ⟨32, 6⟩, ⟨38, 4⟩, ⟨20, 2⟩]

/-- What a verbose `dump_ethernet_frame` reads. -/
def dumpEthernetFrame : List Part :=
  [⟨0, 6⟩, ⟨6, 6⟩, ⟨12, 2⟩] ++
    if Frame.etherType buf = ethPIp then dumpIp buf size
    else if Frame.etherType buf = ethPArp then dumpArp
    else []

end Dump

/-- The result of a frame: `finished` unless an assertion fails. -/
structure Sent where
  device : EthernetDevice
  accesses : List Access
  finished : Bool

namespace EthernetDevice

/-- `VIRTUAL_MAC_ADDRESS`: the bytes of the two registers. -/
def virtualMacAddress (device : EthernetDevice) (index : ℕ) : Byte :=
  (device.mac (index / 4)).extractLsb' (8 * (index % 4)) 8

/-- The frame names the device as its source. -/
def IsSource (device : EthernetDevice) (buf : ℕ → Byte) : Prop :=
  ∀ index < 6, buf (6 + index) = device.virtualMacAddress index

instance (device : EthernetDevice) (buf : ℕ → Byte) : Decidable (device.IsSource buf) :=
  Nat.decidableBallLT 6 fun index _ => buf (6 + index) = device.virtualMacAddress index

/-- `&mem[send_src - 0x80000000]`, where the difference is one of words. -/
def source (device : EthernetDevice) : Pointer :=
  device.mem + (device.sendSrc - 0x80000000).setWidth 64

/-- `sizeof(sendbuf)` -/
def sizeofSendbuf (device : EthernetDevice) : ℕ :=
  if device.sendSize.toNat < 60 then 60 else device.sendSize.toNat

/-- What is in the buffer, and on the stack behind it. -/
def sendbuf (memory : Pointer → Byte) (stack : ℕ → Byte) (device : EthernetDevice) :
    ℕ → Byte := fun index =>
  if index < device.sendSize.toNat then
    memory (device.source + BitVec.ofNat 64 index)
  else if index < 60 then 0
  else stack index

/-- `send_raw_frame`; `write` is the answer of the host. -/
def sendRawFrame (memory : Pointer → Byte) (stack : ℕ → Byte)
    (write : List Byte → ℤ) (device : EthernetDevice) : Sent :=
  let size := device.sizeofSendbuf
  let buf := device.sendbuf memory stack
  let own (part : Part) : Access := .own size part.offset part.numBytes
  let copied : List Access :=
    [.read device.source device.sendSize.toNat, own ⟨0, device.sendSize.toNat⟩]
  let padded : List Access :=
    if device.sendSize.toNat < 60 then
      [own ⟨device.sendSize.toNat, 60 - device.sendSize.toNat⟩]
    else []
  let later :=
    { device with sendSize :=
        if device.sendSize.toNat < 60 then 60 else device.sendSize }
  let shown := (dumpEthernetFrame buf size).map own
  let compared : List Access := [own ⟨6, 6⟩]
  if device.IsSource buf then
    { device := later
      accesses := copied ++ padded ++ shown ++ compared ++ [own ⟨0, size⟩]
      finished := write ((List.range size).map buf) = size }
  else
    { device := later
      accesses := copied ++ padded ++ shown ++ compared
      finished := false }

end EthernetDevice

end HostMemory

end RiscvVp
