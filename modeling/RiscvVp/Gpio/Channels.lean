import Mathlib.Data.FinEnum
import RiscvVp.Device.Table
import RiscvVp.Device.Trace

/-!
# Channels for I/O functions

`gpio-server.cpp` and `gpio-client.cpp`.  A client requests a channel for a pin
and an I/O function, and the server answers with an identifier that it puts in
front of the pin's updates.  The sockets deliver what is written to them; the
server's data socket is bound to a port that the host chooses.
-/

namespace RiscvVp

namespace Gpio

open Keyed Trace

abbrev PinNumber : Type := BitVec 8

abbrev ChannelId : Type := BitVec 8

/-- `IOFunction` -/
inductive IOFunction : Type
  | spi
  | spiNoResponse
  | i2c
  | pwm
  | uart
  | bitsync
  deriving DecidableEq, Repr

/-- `IOF_Channelinfo` -/
structure ChannelInfo where
  id : ChannelId
  requestedIof : IOFunction
  deriving DecidableEq, Repr

/-- `DataChannelDescription`, with callbacks of a type `κ`. -/
structure Description (κ : Type) where
  iof : IOFunction
  pin : PinNumber
  onchange : κ
  deriving DecidableEq, Repr

/-- The tables of the server and of the client. -/
structure Channels (κ : Type) where
  /-- the server is in `handleConnection` -/
  connected : Bool
  activeIofChannels : Table PinNumber ChannelInfo
  dataChannels : Table ChannelId (Description κ)
  activeIofs : Table PinNumber ChannelId

/-! ## The server -/

/-- The loop of `findNewID` over the used identifiers in ascending order. -/
def firstGap : List ChannelId → ChannelId → ChannelId
  | [], ret => ret
  | id :: ids, ret => if id > ret then ret else firstGap ids (ret + 1)

/-- `used_ids` -/
def usedIds (table : Table PinNumber ChannelInfo) : List ChannelId :=
  ((List.range 256).map (BitVec.ofNat 8)).filter fun id =>
    id ∈ table.entries.map fun entry => entry.2.id

def findNewId (table : Table PinNumber ChannelInfo) : ChannelId :=
  if size table < 255 then BitVec.ofNat 8 (size table)
  else firstGap (usedIds table) 0

variable {κ : Type}

namespace Channels

/-- `REQ_IOF` -/
def requestIof (channels : Channels κ) (pin : PinNumber) (iof : IOFunction) :
    ChannelId × Channels κ :=
  let id := findNewId channels.activeIofChannels
  (id, { channels with
    activeIofChannels := emplace channels.activeIofChannels pin ⟨id, iof⟩ })

/-- `END_IOF`; a pin without a channel ends the connection. -/
def endIof (channels : Channels κ) (pin : PinNumber) : Channels κ :=
  if pin ∈ channels.activeIofChannels then
    { channels with
      activeIofChannels := channels.activeIofChannels.erase pin }
  else { channels with connected := false }

/-! ## The client -/

/-- `addIOFchannel`, with the port that the server offers. -/
def addIofChannel (port : ℕ) (channels : Channels κ) (desc : Description κ) :
    Channels κ :=
  if channels.connected then
    let (id, requested) := channels.requestIof desc.pin desc.iof
    if port < 1024 then requested
    else
      { requested with
        dataChannels := emplace requested.dataChannels id desc }
  else channels

/-- `closeIOFunction` -/
def closeIofunction (channels : Channels κ) (pin : PinNumber) : Channels κ :=
  match channels.activeIofs.lookup pin with
  | none => channels
  | some id =>
      let notified :=
        if channels.connected then channels.endIof pin else channels
      { notified with
        dataChannels := notified.dataChannels.erase id
        activeIofs := notified.activeIofs.erase pin }

/-! ## Updates -/

/-- The identifier under which `pushPin` or `pushSPI` sends an update: one for
a pin that is requested for a function of theirs. -/
def pushed (functions : List IOFunction) (channels : Channels κ)
    (pin : PinNumber) : Option ChannelId :=
  match channels.activeIofChannels.lookup pin with
  | none => none
  | some info => if info.requestedIof ∈ functions then some info.id else none

def pushPin : Channels κ → PinNumber → Option ChannelId :=
  pushed [.bitsync]

def pushSpi : Channels κ → PinNumber → Option ChannelId :=
  pushed [.spi, .spiNoResponse]

/-- The channel whose callback `handleDataChannel` calls on an update. -/
def handleDataChannel (channels : Channels κ) (id : ChannelId) :
    Option (Description κ) :=
  channels.dataChannels.lookup id

end Channels

/-! ## Sessions -/

/-- The channels, and for each pin the request that has not been taken back. -/
structure Session (κ : Type) where
  channels : Channels κ
  registered : PinNumber → Option (Description κ)

/-- Before the first request. -/
def Session.boot : Session κ :=
  ⟨⟨true, ∅, ∅, ∅⟩, fun _ => none⟩

inductive Event (κ : Type) : Type
  | request (desc : Description κ)
  | close (pin : PinNumber)

def Session.step (port : ℕ) (session : Session κ) : Event κ → Session κ
  | .request desc =>
      ⟨session.channels.addIofChannel port desc,
        Function.update session.registered desc.pin (some desc)⟩
  | .close pin =>
      ⟨session.channels.closeIofunction pin,
        Function.update session.registered pin none⟩

/-- The host binds the server's data socket to `port`. -/
def Steps (port : ℕ) (session : Session κ) (event : Event κ)
    (later : Session κ) : Prop :=
  later = session.step port event

/-- The two sides agree on the channels. -/
structure Agrees (session : Session κ) : Prop where
  distinct : ∀ first second info other,
    session.channels.activeIofChannels.lookup first = some info →
      session.channels.activeIofChannels.lookup second = some other →
        info.id = other.id → first = second
  stored : ∀ id desc, session.channels.dataChannels.lookup id = some desc →
    session.channels.activeIofChannels.lookup desc.pin = some ⟨id, desc.iof⟩
  delivers : ∀ pin desc, session.registered pin = some desc →
    ∃ id, session.channels.activeIofChannels.lookup pin =
        some ⟨id, desc.iof⟩ ∧
      session.channels.handleDataChannel id = some desc
  pushedPin : ∀ pin id, session.channels.pushPin pin = some id →
    ∃ desc, session.registered pin = some desc ∧
      session.channels.handleDataChannel id = some desc
  pushedSpi : ∀ pin id, session.channels.pushSpi pin = some id →
    ∃ desc, session.registered pin = some desc ∧
      session.channels.handleDataChannel id = some desc
  closed : ∀ pin, session.registered pin = none →
    session.channels.activeIofChannels.lookup pin = none ∧
      session.channels.activeIofs.lookup pin = none ∧
        ∀ id desc, session.channels.dataChannels.lookup id = some desc →
          desc.pin ≠ pin

/-- A pin is requested once, and a channel is not closed. -/
def Orderly (session : Session κ) : Event κ → Prop
  | .request desc => desc.pin ∉ session.channels.activeIofChannels
  | .close pin => pin ∉ session.channels.activeIofChannels

instance (session : Session κ) : ∀ event, Decidable (Orderly session event)
  | .request desc => inferInstanceAs
      (Decidable (¬ desc.pin ∈ session.channels.activeIofChannels.keys))
  | .close pin => inferInstanceAs
      (Decidable (¬ pin ∈ session.channels.activeIofChannels.keys))

/-! ## Fresh identifiers -/

theorem firstGap_spec {ids : List ChannelId} {ret : ChannelId}
    (ascending : ids.Pairwise (· < ·)) (above : ∀ id ∈ ids, ret ≤ id)
    (room : ret.toNat + ids.length < 256) :
    ret ≤ firstGap ids ret ∧ firstGap ids ret ∉ ids := by
  induction ids generalizing ret with
  | nil => exact ⟨BitVec.le_refl ret, List.not_mem_nil⟩
  | cons id ids inductionHypothesis =>
      obtain ⟨least, ascends⟩ := List.pairwise_cons.mp ascending
      have first : ret ≤ id := above id List.mem_cons_self
      rw [List.length_cons] at room
      unfold firstGap
      split
      case isTrue gap =>
        refine ⟨BitVec.le_refl ret, fun member => ?_⟩
        rcases List.mem_cons.mp member with same | later
        · rw [same] at gap
          exact BitVec.lt_irrefl id gap
        · exact BitVec.lt_irrefl ret (BitVec.lt_trans gap (least ret later))
      case isFalse found =>
        have next : (ret + 1).toNat = ret.toNat + 1 := by
          rw [BitVec.toNat_add]
          exact Nat.mod_eq_of_lt (by simp; omega)
        have same : id.toNat = ret.toNat := by
          rw [BitVec.le_def] at first
          rw [gt_iff_lt, BitVec.lt_def] at found
          omega
        have above : ∀ later ∈ ids, ret + 1 ≤ later := by
          intro later member
          have larger := least later member
          rw [BitVec.lt_def] at larger
          rw [BitVec.le_def]
          omega
        have rest := inductionHypothesis ascends above (by omega)
        have larger := rest.1
        rw [BitVec.le_def] at larger
        refine ⟨by rw [BitVec.le_def]; omega, fun member => ?_⟩
        rcases List.mem_cons.mp member with equal | later
        · rw [equal] at larger
          omega
        · exact rest.2 later

theorem mem_usedIds {table : Table PinNumber ChannelInfo} {id : ChannelId} :
    id ∈ usedIds table ↔ id ∈ table.entries.map fun entry => entry.2.id := by
  have everyId : id ∈ (List.range 256).map (BitVec.ofNat 8) :=
    List.mem_map.mpr ⟨id.toNat, List.mem_range.mpr id.isLt,
      BitVec.ofNat_toNat 8 id⟩
  simp [usedIds, everyId]

theorem usedIds_ascending (table : Table PinNumber ChannelInfo) :
    (usedIds table).Pairwise (· < ·) := by
  have every : ((List.range 256).map (BitVec.ofNat 8)).Pairwise (· < ·) := by
    rw [List.pairwise_map]
    refine List.pairwise_lt_range.imp_of_mem ?_
    intro first second _ member less
    have small := List.mem_range.mp member
    rw [BitVec.lt_def, BitVec.toNat_ofNat, BitVec.toNat_ofNat,
      Nat.mod_eq_of_lt small, Nat.mod_eq_of_lt (less.trans small)]
    exact less
  exact every.filter _

theorem length_usedIds_le (table : Table PinNumber ChannelInfo) :
    (usedIds table).length ≤ size table := by
  have distinct : (usedIds table).Nodup :=
    (usedIds_ascending table).imp fun less => BitVec.ne_of_lt less
  have included : usedIds table ⊆ table.entries.map fun entry => entry.2.id :=
    fun _ => mem_usedIds.mp
  have bound := (distinct.subperm included).length_le
  rwa [List.length_map] at bound

/-- The identifiers below the size of the table, of which there are fewer. -/
def Bounded (table : Table PinNumber ChannelInfo) : Prop :=
  ∀ pin info, table.lookup pin = some info → info.id.toNat < size table

theorem mem_ids_iff {table : Table PinNumber ChannelInfo} {id : ChannelId} :
    (id ∈ table.entries.map fun entry => entry.2.id) ↔
      ∃ pin info, table.lookup pin = some info ∧ info.id = id := by
  rw [List.mem_map]
  constructor
  · rintro ⟨⟨pin, info⟩, member, same⟩
    exact ⟨pin, info, AList.mem_lookup_iff.mpr member, same⟩
  · rintro ⟨pin, info, found, same⟩
    exact ⟨⟨pin, info⟩, AList.mem_lookup_iff.mp found, same⟩

/-- A pin that has no channel gets an identifier that no channel has. -/
theorem findNewId_fresh {table : Table PinNumber ChannelInfo}
    {pin : PinNumber} (absent : pin ∉ table) (bounded : Bounded table) :
    (findNewId table).toNat < size table + 1 ∧
      ∀ other info, table.lookup other = some info →
        info.id ≠ findNewId table := by
  have room : size table < 256 := by
    have bound := size_lt_card absent
    rwa [← FinEnum.card_eq_fintypeCard, FinEnum.card_bitVec] at bound
  unfold findNewId
  split
  case isTrue small =>
    have index : (BitVec.ofNat 8 (size table)).toNat = size table :=
      Nat.mod_eq_of_lt room
    refine ⟨by omega, fun other info found same => ?_⟩
    have below := bounded other info found
    rw [same] at below
    omega
  case isFalse large =>
    have spec : firstGap (usedIds table) 0 ∉ usedIds table := by
      refine (firstGap_spec (usedIds_ascending table) ?_ ?_).2
      · intro id _
        exact Nat.zero_le id.toNat
      · have length := length_usedIds_le table
        change 0 + _ < 256
        omega
    have last := (firstGap (usedIds table) 0).isLt
    refine ⟨by omega, fun other info found same => spec ?_⟩
    rw [← same, mem_usedIds, mem_ids_iff]
    exact ⟨other, info, found, rfl⟩

/-! ## Orderly sessions -/

/-- What an orderly session keeps: the server's table says which channels there
are, and the client has not noted any in the table that it closes them by. -/
structure Tables (session : Session κ) : Prop where
  connected : session.channels.connected = true
  bounded : Bounded session.channels.activeIofChannels
  distinct : ∀ first second info other,
    session.channels.activeIofChannels.lookup first = some info →
      session.channels.activeIofChannels.lookup second = some other →
        info.id = other.id → first = second
  unnoted : session.channels.activeIofs = ∅
  served : ∀ pin desc, session.registered pin = some desc →
    desc.pin = pin ∧ ∃ id,
      session.channels.activeIofChannels.lookup pin = some ⟨id, desc.iof⟩ ∧
        session.channels.dataChannels.lookup id = some desc
  stored : ∀ id desc, session.channels.dataChannels.lookup id = some desc →
    session.channels.activeIofChannels.lookup desc.pin = some ⟨id, desc.iof⟩
  open_ : ∀ pin, session.registered pin = none →
    pin ∉ session.channels.activeIofChannels

theorem tables_boot : Tables (Session.boot : Session κ) where
  connected := rfl
  bounded _ _ found := by cases found
  distinct _ _ _ _ found := by cases found
  unnoted := rfl
  served _ _ found := by cases found
  stored _ _ found := by cases found
  open_ _ _ := AList.notMem_empty _

theorem addIofChannel_of_offered {port : ℕ} (offered : 1024 ≤ port)
    {channels : Channels κ} (connected : channels.connected = true)
    (desc : Description κ) :
    channels.addIofChannel port desc = { channels with
      activeIofChannels := emplace channels.activeIofChannels desc.pin
        ⟨findNewId channels.activeIofChannels, desc.iof⟩
      dataChannels := emplace channels.dataChannels
        (findNewId channels.activeIofChannels) desc } := by
  have usual : ¬ port < 1024 := by omega
  simp only [Channels.addIofChannel, connected, if_true, usual, if_false,
    Channels.requestIof]

theorem Tables.request {port : ℕ} (offered : 1024 ≤ port)
    {session : Session κ} (tables : Tables session) (desc : Description κ)
    (absent : desc.pin ∉ session.channels.activeIofChannels) :
    Tables (session.step port (.request desc)) := by
  obtain ⟨bounded, fresh⟩ := findNewId_fresh absent tables.bounded
  have unused : findNewId session.channels.activeIofChannels ∉
      session.channels.dataChannels := by
    intro member
    obtain ⟨other, found⟩ :=
      Option.isSome_iff_exists.mp (AList.lookup_isSome.mpr member)
    exact fresh _ _ (tables.stored _ _ found) rfl
  have grown : size (emplace session.channels.activeIofChannels desc.pin
      ⟨findNewId session.channels.activeIofChannels, desc.iof⟩) =
        size session.channels.activeIofChannels + 1 :=
    size_emplace absent
  rw [Session.step, addIofChannel_of_offered offered tables.connected]
  constructor
  case connected => exact tables.connected
  case bounded =>
    intro pin info found
    rw [grown]
    rcases lookup_emplace_eq_some found with ⟨_, rfl⟩ | old
    · exact bounded
    · exact Nat.lt_succ_of_lt (tables.bounded pin info old)
  case distinct =>
    intro first second info other foundFirst foundSecond same
    rcases lookup_emplace_eq_some foundFirst with ⟨rfl, rfl⟩ | oldFirst <;>
      rcases lookup_emplace_eq_some foundSecond with ⟨rfl, rfl⟩ | oldSecond
    · rfl
    · exact absurd same.symm (fresh second other oldSecond)
    · exact absurd same (fresh first info oldFirst)
    · exact tables.distinct first second info other oldFirst oldSecond same
  case unnoted => exact tables.unnoted
  case served =>
    intro pin found registered
    by_cases here : pin = desc.pin
    · subst here
      have new : desc = found := by simpa using registered
      subst new
      exact ⟨rfl, _, lookup_emplace_self absent, lookup_emplace_self unused⟩
    · change Function.update session.registered desc.pin _ pin = _
        at registered
      rw [Function.update_of_ne here] at registered
      obtain ⟨same, id, active, stored⟩ := tables.served pin found registered
      refine ⟨same, id, (lookup_emplace_of_ne here).trans active, ?_⟩
      rw [← stored]
      apply lookup_emplace_of_ne
      rintro rfl
      exact fresh pin _ active rfl
  case stored =>
    intro id found stored
    rcases lookup_emplace_eq_some stored with ⟨rfl, rfl⟩ | old
    · exact lookup_emplace_self absent
    · have active := tables.stored id found old
      rw [← active]
      apply lookup_emplace_of_ne
      intro same
      rw [same] at active
      exact absent (AList.lookup_isSome.mp (by simp [active]))
  case open_ =>
    intro pin registered
    have elsewhere : pin ≠ desc.pin := by
      rintro rfl
      simp at registered
    change Function.update session.registered desc.pin _ pin = _ at registered
    rw [Function.update_of_ne elsewhere] at registered
    change _ ∉ emplace session.channels.activeIofChannels _ _
    rw [← AList.lookup_eq_none, lookup_emplace_of_ne elsewhere,
      AList.lookup_eq_none]
    exact tables.open_ pin registered

theorem Tables.close {port : ℕ} {session : Session κ}
    (tables : Tables session) (pin : PinNumber)
    (absent : pin ∉ session.channels.activeIofChannels) :
    Tables (session.step port (.close pin)) := by
  have unregistered : session.registered pin = none := by
    cases registered : session.registered pin with
    | none => rfl
    | some desc =>
        obtain ⟨_, id, active, _⟩ := tables.served pin desc registered
        exact absurd (AList.lookup_isSome.mp (by simp [active])) absent
  have same : session.step port (.close pin) = session := by
    have stays : session.channels.closeIofunction pin = session.channels := by
      simp [Channels.closeIofunction, tables.unnoted]
    have forgets : Function.update session.registered pin none =
        session.registered := by
      rw [← unregistered]
      exact Function.update_eq_self pin session.registered
    simp only [Session.step, stays, forgets]
  rw [same]
  exact tables

theorem Tables.pushed {session : Session κ} (tables : Tables session)
    {functions : List IOFunction} {pin : PinNumber} {id : ChannelId}
    (pushed : session.channels.pushed functions pin = some id) :
    ∃ desc, session.registered pin = some desc ∧
      session.channels.handleDataChannel id = some desc := by
  cases registered : session.registered pin with
  | none =>
      have unused := AList.lookup_eq_none.mpr (tables.open_ pin registered)
      simp [Channels.pushed, unused] at pushed
  | some desc =>
      obtain ⟨_, used, active, stored⟩ := tables.served pin desc registered
      have same : used = id := by
        simp only [Channels.pushed, active] at pushed
        split at pushed
        · exact Option.some.inj pushed
        · cases pushed
      rw [← same]
      exact ⟨desc, rfl, stored⟩

theorem Tables.agrees {session : Session κ} (tables : Tables session) :
    Agrees session where
  distinct := tables.distinct
  stored := tables.stored
  delivers pin desc registered := (tables.served pin desc registered).2
  pushedPin _ _ pushed := tables.pushed pushed
  pushedSpi _ _ pushed := tables.pushed pushed
  closed pin registered := by
    refine ⟨AList.lookup_eq_none.mpr (tables.open_ pin registered), ?_, ?_⟩
    · rw [tables.unnoted]
      exact AList.lookup_empty pin
    · rintro id desc stored rfl
      have active := tables.stored id desc stored
      exact tables.open_ desc.pin registered
        (AList.lookup_isSome.mp (by simp [active]))

/-- Client and server agree in every state of a session that requests no pin
twice and closes no channel. -/
theorem agrees_of_orderly (port : ℕ) (offered : 1024 ≤ port)
    (events : List (Event κ))
    (orderly : EveryStep (Steps port) Orderly events .boot) :
    EveryState (Steps port) Agrees events .boot := by
  refine EveryState.imp (fun _ => Tables.agrees)
    (everyState_of_everyStep ?_ tables_boot orderly)
  rintro session event _ tables orderly rfl
  cases event with
  | request desc => exact tables.request offered desc orderly
  | close pin => exact tables.close pin orderly

/-- Requests for two pins, and the closing of a third. -/
def twoChannels : List (Event Unit) :=
  [.request ⟨.spi, 2, ()⟩, .close 3, .request ⟨.bitsync, 10, ()⟩]

theorem agrees_twoChannels :
    EveryState (Steps 40000) Agrees twoChannels .boot := by
  apply agrees_of_orderly 40000 (by decide)
  rintro _ rfl
  refine ⟨by decide, ?_⟩
  rintro _ rfl
  refine ⟨by decide, ?_⟩
  rintro _ rfl
  exact ⟨by decide, trivial⟩

/-- The server keeps a channel that the client closes. -/
theorem not_agrees :
    ¬ ∀ events : List (Event Unit),
      EveryState (Steps 40000) Agrees events .boot := by
  intro agrees
  have every := agrees [.request ⟨.spi, 2, ()⟩, .close 2]
  obtain ⟨_, requested⟩ := every
  obtain ⟨_, closed⟩ := requested _ rfl
  have last := (closed _ rfl).first.closed 2 (by decide)
  exact absurd last.1 (by decide)

end Gpio

end RiscvVp
