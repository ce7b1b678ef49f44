import Mathlib.Data.Nat.ModEq
import RiscvVp.Parsing.Merging

/-!
# The serial line

`slip.cpp`.  Packets that the network interface hands over are escaped and
pushed to the guest; what the guest writes is decoded into `sndbuf`, which grows
by steps, and written to the interface packet by packet.
-/

namespace RiscvVp

namespace SerialLine

open Parsing

abbrev Byte : Type := BitVec 8

/-- `SLIP_SNDBUF_STEP` -/
def sndbufStep : ℕ := 1500

def slipEnd : Byte := 0xc0
def slipEsc : Byte := 0xdb
def slipEscEnd : Byte := 0xdc
def slipEscEsc : Byte := 0xdd

/-- The system calls, with what they return. -/
structure Host where
  write : List Byte → ℤ
  /-- `realloc` gives memory of a size. -/
  realloc : ℕ → Bool

inductive Fault : Type
  | systemError
  /-- `std::runtime_error("short write")` -/
  | shortWrite
  /-- `sndbuf` is written outside its allocation. -/
  | outOfBounds
  deriving DecidableEq, Repr

structure Slip where
  /-- the size of the allocation behind `sndbuf` -/
  allocated : ℕ
  /-- the first `sndsiz` bytes of `sndbuf` -/
  stored : List Byte
  /-- the packets that have been written to the interface -/
  sent : List (List Byte)
  deriving DecidableEq, Repr

def Slip.sndsiz (slip : Slip) : ℕ :=
  slip.stored.length

/-- After the constructor. -/
def Slip.boot : Slip :=
  ⟨sndbufStep, [], []⟩

def reallocate (host : Host) (slip : Slip) (newsiz : ℕ) : Except Fault Slip :=
  if host.realloc newsiz then
    .ok { slip with allocated := newsiz, stored := slip.stored.take newsiz }
  else .error .systemError

/-- The first step is enough again once a packet is sent. -/
def shrink (host : Host) (slip : Slip) : Except Fault Slip :=
  if slip.sndsiz > sndbufStep then reallocate host slip sndbufStep
  else .ok slip

def sendPacket (host : Host) (slip : Slip) : Except Fault Slip :=
  if host.write slip.stored = -1 then .error .systemError
  else if host.write slip.stored ≠ slip.sndsiz then .error .shortWrite
  else do
    let shrunk ← shrink host slip
    return { shrunk with stored := [], sent := slip.sent ++ [slip.stored] }

/-- `sndbuf[sndsiz - 1] = data` -/
def replaceLast (slip : Slip) (data : Byte) : Except Fault Slip :=
  if slip.sndsiz - 1 < slip.allocated then
    .ok { slip with stored := slip.stored.dropLast ++ [data] }
  else .error .outOfBounds

/-- `sndbuf[sndsiz++] = data` -/
def append (slip : Slip) (data : Byte) : Except Fault Slip :=
  if slip.sndsiz < slip.allocated then
    .ok { slip with stored := slip.stored ++ [data] }
  else .error .outOfBounds

/-- At the end of a step the next one is allocated. -/
def grow (host : Host) (slip : Slip) : Except Fault Slip :=
  if slip.sndsiz ≠ 0 ∧ slip.sndsiz % sndbufStep = 0 then
    reallocate host slip (slip.sndsiz + sndbufStep)
  else .ok slip

def writeData (host : Host) (slip : Slip) (data : Byte) : Except Fault Slip :=
  if data = slipEnd then
    if slip.sndsiz > 0 then sendPacket host slip else .ok slip
  else if slip.stored.getLast? = some slipEsc ∧ data = slipEscEnd then
    replaceLast slip slipEnd
  else if slip.stored.getLast? = some slipEsc ∧ data = slipEscEsc then
    replaceLast slip slipEsc
  else do
    let grown ← grow host slip
    append grown data

/-- The guest writes a stream of bytes. -/
def feed (host : Host) (slip : Slip) (stream : List Byte) :
    Except Fault Slip :=
  stream.foldlM (writeData host) slip

/-- The loop body of `handle_input`. -/
def escape (byte : Byte) : List Byte :=
  if byte = slipEnd then [slipEsc, slipEscEnd]
  else if byte = slipEsc then [slipEsc, slipEscEsc]
  else [byte]

/-- What `handle_input` pushes for a packet that it has read. -/
def handleInput (rcvbuf : List Byte) : List Byte :=
  rcvbuf.flatMap escape ++ [slipEnd]

/-! ## The allocation -/

/-- `sndbuf` is allocated in steps, and holds what is stored. -/
structure Fits (slip : Slip) : Prop where
  steps : sndbufStep ∣ slip.allocated
  positive : sndbufStep ≤ slip.allocated
  room : slip.sndsiz ≤ slip.allocated

theorem fits_boot : Fits .boot where
  steps := dvd_rfl
  positive := le_rfl
  room := Nat.zero_le _

/-- What a call does to the buffer: it keeps to the allocation, and is not
stopped but by the host. -/
def Keeps (holds : Slip → Prop) (result : Except Fault Slip) : Prop :=
  match result with
  | .ok after => holds after
  | .error fault => fault ≠ .outOfBounds

theorem keeps_bind {holds later : Slip → Prop} {first : Except Fault Slip}
    {next : Slip → Except Fault Slip} (keeps : Keeps holds first)
    (rest : ∀ slip, holds slip → Keeps later (next slip)) :
    Keeps later (first >>= next) := by
  cases first with
  | error fault => exact keeps
  | ok slip => exact rest slip keeps

theorem keeps_shrink (host : Host) {slip : Slip} (fits : Fits slip) :
    Keeps Fits (shrink host slip) := by
  unfold shrink reallocate
  split
  · split
    · exact ⟨dvd_rfl, le_rfl, List.length_take_le _ _⟩
    · exact nofun
  · exact fits

theorem keeps_sendPacket (host : Host) {slip : Slip} (fits : Fits slip) :
    Keeps Fits (sendPacket host slip) := by
  unfold sendPacket
  split
  · exact nofun
  · split
    · exact nofun
    · apply keeps_bind (keeps_shrink host fits)
      intro shrunk shrunkFits
      exact ⟨shrunkFits.steps, shrunkFits.positive, Nat.zero_le _⟩

/-- Within a step there is room for one more byte, at its end the next step is
allocated. -/
theorem keeps_grow (host : Host) {slip : Slip} (fits : Fits slip) :
    Keeps (fun grown => Fits grown ∧ grown.sndsiz < grown.allocated)
      (grow host slip) := by
  have size : sndbufStep = 1500 := rfl
  unfold grow reallocate
  split
  case isTrue full =>
    split
    · have taken : slip.stored.take (slip.sndsiz + sndbufStep) =
          slip.stored := List.take_of_length_le (Nat.le_add_right _ _)
      rw [taken]
      refine ⟨⟨?_, Nat.le_add_left _ _, Nat.le_add_right _ _⟩, ?_⟩
      · exact (Nat.dvd_add_right (Nat.dvd_of_mod_eq_zero full.2)).mpr dvd_rfl
      · exact Nat.lt_add_of_pos_right (by omega)
    · exact nofun
  case isFalse within =>
    refine ⟨fits, lt_of_le_of_ne fits.room ?_⟩
    intro full
    have whole : slip.sndsiz % sndbufStep = 0 := by
      rw [full]
      exact Nat.mod_eq_zero_of_dvd fits.steps
    have nonempty : slip.sndsiz ≠ 0 := by
      have positive := fits.positive
      omega
    exact within ⟨nonempty, whole⟩

theorem keeps_append {slip : Slip} (fits : Fits slip) (data : Byte)
    (free : slip.sndsiz < slip.allocated) :
    Keeps Fits (append slip data) := by
  simp only [append, free, if_true]
  refine ⟨fits.steps, fits.positive, ?_⟩
  simp only [Slip.sndsiz, List.length_append, List.length_singleton]
  exact free

theorem replaceLast_of_stored {slip : Slip} (fits : Fits slip) (data : Byte)
    (nonempty : slip.stored ≠ []) : replaceLast slip data =
      .ok { slip with stored := slip.stored.dropLast ++ [data] } := by
  have stored : 0 < slip.sndsiz := List.length_pos_iff.mpr nonempty
  have room := fits.room
  have inside : slip.sndsiz - 1 < slip.allocated := by omega
  simp only [replaceLast, inside, if_true]

theorem keeps_replaceLast {slip : Slip} (fits : Fits slip) (data : Byte)
    (nonempty : slip.stored ≠ []) : Keeps Fits (replaceLast slip data) := by
  have stored : 0 < slip.sndsiz := List.length_pos_iff.mpr nonempty
  have room := fits.room
  rw [replaceLast_of_stored fits data nonempty]
  refine ⟨fits.steps, fits.positive, ?_⟩
  simp only [Slip.sndsiz, List.length_append, List.length_dropLast,
    List.length_singleton] at stored room ⊢
  omega

theorem ne_nil_of_getLast? {slip : Slip} {last : Byte}
    (ends : slip.stored.getLast? = some last) : slip.stored ≠ [] := by
  intro empty
  rw [empty] at ends
  cases ends

theorem keeps_writeData (host : Host) {slip : Slip} (fits : Fits slip)
    (data : Byte) : Keeps Fits (writeData host slip data) := by
  unfold writeData
  split
  · split
    · exact keeps_sendPacket host fits
    · exact fits
  · split
    case isTrue escaped =>
      exact keeps_replaceLast fits _ (ne_nil_of_getLast? escaped.1)
    · split
      case isTrue escaped =>
        exact keeps_replaceLast fits _ (ne_nil_of_getLast? escaped.1)
      · apply keeps_bind (keeps_grow host fits)
        intro grown free
        exact keeps_append free.1 data free.2

/-- Whatever the guest writes, `sndbuf` is not written outside its
allocation. -/
theorem keeps_feed (host : Host) (stream : List Byte) {slip : Slip}
    (fits : Fits slip) : Keeps Fits (feed host slip stream) := by
  induction stream generalizing slip with
  | nil => exact fits
  | cons data stream inductionHypothesis =>
      exact keeps_bind (keeps_writeData host fits data) fun _ => inductionHypothesis

/-! ## Packets -/

/-- The two bytes that the last stored byte and the next one are taken for. -/
def unescape (last data : Byte) : Option Byte :=
  if last = slipEsc ∧ data = slipEscEnd then some slipEnd
  else if last = slipEsc ∧ data = slipEscEsc then some slipEsc
  else none

/-- What the guest's bytes lead to. -/
def Reaches (host : Host) (slip : Slip) (stream stored : List Byte)
    (sent : List (List Byte)) : Prop :=
  ∃ after, feed host slip stream = .ok after ∧ Fits after ∧
    after.stored = stored ∧ after.sent = sent

section Serving

variable {host : Host}

theorem reaches_nil (host : Host) {slip : Slip} (fits : Fits slip) :
    Reaches host slip [] slip.stored slip.sent :=
  ⟨slip, rfl, fits, rfl, rfl⟩

theorem Reaches.append {slip : Slip} {stream more stored later : List Byte}
    {sent packets : List (List Byte)}
    (first : Reaches host slip stream stored sent)
    (second : ∀ between, Fits between → between.stored = stored →
      between.sent = sent → Reaches host between more later packets) :
    Reaches host slip (stream ++ more) later packets := by
  obtain ⟨between, fed, fits, stands, wrote⟩ := first
  obtain ⟨after, rest, done⟩ := second between fits stands wrote
  refine ⟨after, ?_, done⟩
  unfold feed at fed rest ⊢
  rw [List.foldlM_append, fed]
  exact rest

theorem reaches_of_writeData {slip after : Slip} {data : Byte}
    (fits : Fits slip) (written : writeData host slip data = .ok after) :
    Reaches host slip [data] after.stored after.sent := by
  have keeps := keeps_writeData host fits data
  rw [written] at keeps
  refine ⟨after, ?_, keeps, rfl, rfl⟩
  simp [feed, written]

theorem getLast?_bind_unescape (stored : List Byte) (data : Byte) :
    stored.getLast?.bind (unescape · data) =
      if stored.getLast? = some slipEsc ∧ data = slipEscEnd then some slipEnd
      else if stored.getLast? = some slipEsc ∧ data = slipEscEsc then
        some slipEsc
      else none := by
  cases stored.getLast? with
  | none => simp
  | some last => simp [unescape]

theorem grow_append (granted : ∀ size, host.realloc size = true)
    {slip : Slip} (fits : Fits slip) (data : Byte) : ∃ allocated,
      (do append (← grow host slip) data) =
        .ok ⟨allocated, slip.stored ++ [data], slip.sent⟩ := by
  have grown : ∃ allocated,
      grow host slip = .ok { slip with allocated := allocated } := by
    unfold grow reallocate
    split
    · refine ⟨slip.sndsiz + sndbufStep, ?_⟩
      have taken : slip.stored.take (slip.sndsiz + sndbufStep) =
          slip.stored := List.take_of_length_le (Nat.le_add_right _ _)
      simp only [granted, taken, if_true]
    · exact ⟨slip.allocated, rfl⟩
  obtain ⟨allocated, stands⟩ := grown
  have free := keeps_grow host fits
  rw [stands] at free
  refine ⟨allocated, ?_⟩
  rw [stands]
  exact if_pos free.2

/-- A byte of a packet is pushed to the buffer. -/
theorem reaches_data (granted : ∀ size, host.realloc size = true)
    {slip : Slip} (fits : Fits slip) {data : Byte} (inside : data ≠ slipEnd) :
    Reaches host slip [data] (Merging.push unescape slip.stored data)
      slip.sent := by
  have stands : ∃ allocated, writeData host slip data =
      .ok ⟨allocated, Merging.push unescape slip.stored data, slip.sent⟩ := by
    have merges := getLast?_bind_unescape slip.stored data
    simp only [writeData, inside, if_false]
    split
    case isTrue escaped =>
      rw [if_pos escaped] at merges
      have stored := ne_nil_of_getLast? escaped.1
      refine ⟨slip.allocated, ?_⟩
      rw [replaceLast_of_stored fits _ stored]
      simp only [Merging.push, merges]
    case isFalse unescaped =>
      rw [if_neg unescaped] at merges
      split
      case isTrue escaped =>
        rw [if_pos escaped] at merges
        have stored := ne_nil_of_getLast? escaped.1
        refine ⟨slip.allocated, ?_⟩
        rw [replaceLast_of_stored fits _ stored]
        simp only [Merging.push, merges]
      case isFalse plain =>
        rw [if_neg plain] at merges
        rw [Merging.push_of_none merges]
        exact grow_append granted fits data
  obtain ⟨allocated, written⟩ := stands
  exact reaches_of_writeData fits written

/-- `END` sends what is stored. -/
theorem reaches_end (granted : ∀ size, host.realloc size = true)
    (whole : ∀ packet, host.write packet = packet.length)
    {slip : Slip} (fits : Fits slip) (nonempty : slip.stored ≠ []) :
    Reaches host slip [slipEnd] [] (slip.sent ++ [slip.stored]) := by
  have stored : slip.sndsiz > 0 := List.length_pos_iff.mpr nonempty
  have shrunk : ∃ between, shrink host slip = .ok between := by
    unfold shrink reallocate
    split
    · simp only [granted, if_true]
      exact ⟨_, rfl⟩
    · exact ⟨_, rfl⟩
  obtain ⟨between, stands⟩ := shrunk
  have written : writeData host slip slipEnd =
      .ok { between with stored := [], sent := slip.sent ++ [slip.stored] } := by
    have length : host.write slip.stored = slip.sndsiz := whole slip.stored
    have served : ¬ (slip.sndsiz : ℤ) = -1 := by omega
    simp only [writeData, if_true, stored, sendPacket, length, served,
      if_false, ne_eq, not_true, stands]
    rfl
  exact reaches_of_writeData fits written

/-- An escaped byte is pushed as the byte that it stands for. -/
theorem reaches_escape (granted : ∀ size, host.realloc size = true)
    {slip : Slip} (fits : Fits slip) (byte : Byte) :
    Reaches host slip (escape byte) (Merging.push unescape slip.stored byte)
      slip.sent := by
  have escaped : ∀ second merged, second ≠ slipEnd → byte = merged →
      unescape slipEsc second = some merged →
      (∀ last, unescape last byte = none) →
      Reaches host slip [slipEsc, second]
        (Merging.push unescape slip.stored byte) slip.sent := by
    rintro second _ inside rfl merges alone
    have fed : ∀ last, unescape last slipEsc = none := by
      intro last
      simp [unescape, slipEsc, slipEscEnd, slipEscEsc]
    have pushed : Merging.push unescape slip.stored slipEsc =
        slip.stored ++ [slipEsc] := Merging.push_of_none (by simp [fed])
    have first : Reaches host slip [slipEsc] _ _ :=
      reaches_data granted fits (by decide)
    change Reaches host slip ([slipEsc] ++ [second]) _ _
    apply first.append
    intro between fits stored sent
    have next := reaches_data granted fits inside
    rw [stored, pushed, Merging.push_of_merge merges, sent] at next
    rw [Merging.push_of_none (by simp [alone])]
    exact next
  unfold escape
  split
  case isTrue ends =>
    apply escaped slipEscEnd slipEnd (by decide) ends (by decide)
    intro last
    simp [unescape, ends, slipEnd, slipEscEnd, slipEscEsc]
  case isFalse inside =>
    split
    case isTrue escapes =>
      apply escaped slipEscEsc slipEsc (by decide) escapes (by decide)
      intro last
      simp [unescape, escapes, slipEsc, slipEscEnd, slipEscEsc]
    case isFalse plain => exact reaches_data granted fits inside

theorem reaches_flatMap_escape (granted : ∀ size, host.realloc size = true)
    (packet : List Byte) {slip : Slip} (fits : Fits slip) :
    Reaches host slip (packet.flatMap escape)
      (packet.foldl (Merging.push unescape) slip.stored) slip.sent := by
  induction packet generalizing slip with
  | nil => exact reaches_nil host fits
  | cons byte packet inductionHypothesis =>
      apply (reaches_escape granted fits byte).append
      intro between fits stored sent
      have rest := inductionHypothesis fits
      rw [stored, sent] at rest
      exact rest

/-- What the guest gets for a packet, merged anew by the decoder. -/
def decoded (packet : List Byte) : List Byte :=
  packet.foldl (Merging.push unescape) []

theorem reaches_packets (granted : ∀ size, host.realloc size = true)
    (whole : ∀ packet, host.write packet = packet.length)
    (packets : List (List Byte)) (nonempty : ∀ packet ∈ packets, packet ≠ [])
    {slip : Slip} (fits : Fits slip) (idle : slip.stored = []) :
    Reaches host slip (packets.flatMap handleInput) []
      (slip.sent ++ packets.map decoded) := by
  induction packets generalizing slip with
  | nil =>
      have stays := reaches_nil host fits
      rw [idle] at stays
      simpa using stays
  | cons packet packets inductionHypothesis =>
      have bytes := reaches_flatMap_escape granted packet fits
      rw [idle] at bytes
      have first : Reaches host slip (handleInput packet) []
          (slip.sent ++ [decoded packet]) := by
        apply bytes.append
        intro between fits stored sent
        have written := reaches_end granted whole fits (by
          rw [stored]
          exact Merging.foldl_push_ne_nil (nonempty packet (by simp)) [])
        rw [stored, sent] at written
        exact written
      apply first.append
      intro between fits stored sent
      have rest := inductionHypothesis
        (fun other member => nonempty other (List.mem_cons_of_mem _ member))
        fits stored
      rw [sent, List.append_assoc] at rest
      exact rest

end Serving

/-- No `ESC` is followed by a byte that the decoder takes for the rest of an
escape. -/
def Unambiguous (packet : List Byte) : Prop :=
  packet.IsChain fun first second =>
    ¬ (first = slipEsc ∧ (second = slipEscEnd ∨ second = slipEscEsc))

theorem decoded_eq_iff (packet : List Byte) :
    decoded packet = packet ↔ Unambiguous packet := by
  have apart : Merging.Apart unescape = fun first second =>
      ¬ (first = slipEsc ∧ (second = slipEscEnd ∨ second = slipEscEsc)) := by
    funext first second
    have other : slipEscEsc ≠ slipEscEnd := by decide
    by_cases escapes : first = slipEsc
    · by_cases ends : second = slipEscEnd <;>
        by_cases escaped : second = slipEscEsc <;>
          simp [Merging.Apart, unescape, escapes, ends, escaped, other]
    · simp [Merging.Apart, unescape, escapes]
  unfold Unambiguous
  rw [← apart]
  exact Merging.foldl_push_nil_iff packet

/-- Nothing that the guest writes is stored outside `sndbuf`, and the packets
that are encoded come back exactly if they are unambiguous. -/
theorem roundTrip_iff (host : Host) :
    (∀ stream, feed host .boot stream ≠ .error .outOfBounds) ∧
      ((∀ size, host.realloc size = true) →
        (∀ packet, host.write packet = packet.length) →
        ∀ packets : List (List Byte), (∀ packet ∈ packets, packet ≠ []) →
          ((∃ after, feed host .boot (packets.flatMap handleInput) =
              .ok after ∧ after.sent = packets) ↔
            ∀ packet ∈ packets, Unambiguous packet)) := by
  refine ⟨?_, ?_⟩
  · intro stream outside
    have keeps := keeps_feed host stream fits_boot
    rw [outside] at keeps
    exact keeps rfl
  · intro granted whole packets nonempty
    obtain ⟨after, fed, _, _, sent⟩ :=
      reaches_packets granted whole packets nonempty fits_boot rfl
    have same : packets.map decoded = packets ↔
        ∀ packet ∈ packets, decoded packet = packet := by
      simpa using List.map_inj_left (f := decoded) (g := id) (l := packets)
    have returned : (∃ after, feed host .boot (packets.flatMap handleInput) =
        .ok after ∧ after.sent = packets) ↔ packets.map decoded = packets := by
      rw [fed]
      constructor
      · rintro ⟨_, ⟨⟩, delivered⟩
        exact sent.symm.trans delivered
      · exact fun unchanged => ⟨after, rfl, sent.trans unchanged⟩
    rw [returned, same]
    simp only [decoded_eq_iff]

/-- A host that serves. -/
def reliable : Host :=
  ⟨fun packet => packet.length, fun _ => true⟩

theorem roundTrip_iff_reliable :
    (∃ after, feed reliable .boot ([[slipEnd], [slipEsc, slipEsc]].flatMap
        handleInput) = .ok after ∧
        after.sent = [[slipEnd], [slipEsc, slipEsc]]) ↔
      ∀ packet ∈ [[slipEnd], [slipEsc, slipEsc]], Unambiguous packet :=
  (roundTrip_iff reliable).2 (fun _ => rfl) (fun _ => rfl) _ (by simp)

/-- A packet of `ESC` and `ESC_END` comes back as `END`. -/
theorem not_roundTrip :
    ¬ ∀ packets, (∀ packet ∈ packets, packet ≠ []) →
      ∃ after, feed reliable .boot (packets.flatMap handleInput) = .ok after ∧
        after.sent = packets := by
  intro returns
  have fed : feed reliable .boot ([[slipEsc, slipEscEnd]].flatMap
      handleInput) = .ok ⟨sndbufStep, [], [[slipEnd]]⟩ := by
    decide +kernel
  obtain ⟨after, stands, sent⟩ := returns [[slipEsc, slipEscEnd]] (by simp)
  rw [fed] at stands
  cases stands
  exact absurd sent (by decide)

end SerialLine

end RiscvVp
