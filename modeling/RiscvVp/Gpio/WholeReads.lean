import RiscvVp.Gpio.Connection

/-!
# Reads of whole structures

As long as every read returns its whole structure, each side processes what the
other has sent; the first read that does not ends the connection.
-/

namespace RiscvVp

namespace Gpio

open Framing Keyed Trace
open Hifive (Tristate)

/-! ## What is outstanding -/

def Request.IsSetBit : Request → Prop
  | .setBit _ _ => True
  | _ => False

/-- The request whose answer the client awaits. -/
def Awaiting.question {κ : Type} : Awaiting κ → Option Request
  | .nothing => none
  | .state => some .getBank
  | .channel desc => some (.reqIof desc.pin desc.iof)

/-- The answer is one to what the client has asked for. -/
inductive Answers {κ : Type} (port : BitVec 16) : Awaiting κ → Reply → Prop
  | state (pins : Bank) : Answers port .state (.state pins)
  | channel (desc : Description κ) (id : ChannelId) :
      Answers port (.channel desc) (.channel port id)

/-- The last request is the one whose answer the client awaits; and where it is
not outstanding, its answer is. -/
def Exchange {κ : Type} (port : BitVec 16) (awaiting : Awaiting κ)
    (requests : List Request) (replies : List Reply) : Prop :=
  (replies = [] ∧ ∃ sets, (∀ request ∈ sets, request.IsSetBit) ∧
    requests = sets ++ awaiting.question.toList) ∨
  (requests = [] ∧ ∃ reply, Answers port awaiting reply ∧ replies = [reply])

namespace Exchange

variable {κ : Type} {port : BitVec 16} {awaiting : Awaiting κ}
  {requests : List Request} {replies : List Reply}

theorem of_nothing
    (exchange : Exchange port (.nothing : Awaiting κ) requests replies) :
    replies = [] ∧ ∀ request ∈ requests, request.IsSetBit := by
  rcases exchange with ⟨none, sets, onlySets, rfl⟩ | ⟨_, reply, answers, _⟩
  · refine ⟨none, ?_⟩
    rw [Awaiting.question, Option.toList_none, List.append_nil]
    exact onlySets
  · nomatch answers

/-- A request is made while nothing is awaited. -/
theorem ask (exchange : Exchange port (.nothing : Awaiting κ) requests replies)
    {request : Request}
    (asks : awaiting.question = some request ∨
      request.IsSetBit ∧ awaiting.question = none) :
    Exchange port awaiting (requests ++ [request]) replies := by
  obtain ⟨none, onlySets⟩ := exchange.of_nothing
  rcases asks with question | ⟨set, silent⟩
  · refine .inl ⟨none, requests, onlySets, ?_⟩
    rw [question, Option.toList_some]
  · refine .inl ⟨none, requests ++ [request], ?_, ?_⟩
    · rw [List.forall_mem_append]
      refine ⟨onlySets, fun other member => ?_⟩
      rw [List.mem_singleton.mp member]
      exact set
    · rw [silent, Option.toList_none, List.append_nil]

/-- The server's next request. -/
theorem of_cons {request : Request} {rest : List Request}
    (exchange : Exchange port awaiting (request :: rest) replies) :
    replies = [] ∧
      (request.IsSetBit ∧ Exchange port awaiting rest replies ∨
        rest = [] ∧ awaiting.question = some request) := by
  rcases exchange with ⟨none, sets, onlySets, split⟩ | ⟨empty, _⟩
  · refine ⟨none, ?_⟩
    cases sets with
    | nil =>
        rw [List.nil_append] at split
        cases question : awaiting.question with
        | none => simp [question] at split
        | some asked =>
            rw [question, Option.toList_some, List.cons.injEq] at split
            exact .inr ⟨split.2, congrArg some split.1.symm⟩
    | cons first others =>
        rw [List.cons_append, List.cons.injEq] at split
        rw [List.forall_mem_cons] at onlySets
        rw [split.1]
        exact .inl ⟨onlySets.1, .inl ⟨none, others, onlySets.2, split.2⟩⟩
  · nomatch empty

/-- The client's answer. -/
theorem of_replies {reply : Reply} {rest : List Reply}
    (exchange : Exchange port awaiting requests (reply :: rest)) :
    requests = [] ∧ rest = [] ∧ Answers port awaiting reply := by
  rcases exchange with ⟨none, _⟩ | ⟨empty, only, answers, split⟩
  · nomatch none
  · cases split
    exact ⟨empty, rfl, answers⟩

theorem answered {reply : Reply} (answers : Answers port awaiting reply) :
    Exchange port awaiting [] [reply] :=
  .inr ⟨rfl, reply, answers, rfl⟩

theorem silent : Exchange port (.nothing : Awaiting κ) [] [] :=
  .inl ⟨rfl, [], nofun, rfl⟩

end Exchange

/-- The client has the channel, or will have it before it looks for it. -/
def Known {κ : Type} (port : BitVec 16)
    (dataChannels : Table ChannelId (Description κ)) (replies : List Reply)
    (id : ChannelId) : Prop :=
  id ∈ dataChannels ∨ .channel port id ∈ replies

namespace Connection

variable {κ : Type} {host : Host κ}

structure Pending : Type where
  requests : List Request
  replies : List Reply
  updates : List Update
  responses : List Byte

/-- The connection with what is outstanding on it. -/
structure Coherent (host : Host κ) (connection : Connection κ)
    (pending : Pending) : Prop where
  running : connection.ended = false
  requests : connection.requests.Carries Request.encode pending.requests
  replies : connection.replies.Carries Reply.encode pending.replies
  updates : connection.updates.Carries Update.encode pending.updates
  responses : connection.responses.Carries encodeResponse pending.responses
  exchange : Exchange host.port connection.awaiting pending.requests
    pending.replies
  unnoted : connection.activeIofs = ∅
  active : ∀ pin info,
    connection.activeIofChannels.lookup pin = some info →
      connection.serverData = true ∧
        Known host.port connection.dataChannels pending.replies info.id
  accepting : ∀ pin info, connection.accepting = some (pin, info) →
    Known host.port connection.dataChannels pending.replies info.id
  updated : ∀ update ∈ pending.updates,
    Known host.port connection.dataChannels pending.replies update.id

variable {connection : Connection κ} {pending : Pending}

theorem coherent_boot (host : Host κ) :
    Coherent host boot ⟨[], [], [], []⟩ where
  running := rfl
  requests := Link.carries_idle _
  replies := Link.carries_idle _
  updates := Link.carries_idle _
  responses := Link.carries_idle _
  exchange := Exchange.silent
  unnoted := rfl
  active _ _ found := by cases found
  accepting _ _ waiting := by cases waiting
  updated _ member := by cases member

theorem Coherent.intact (coherent : Coherent host connection pending) :
    connection.Intact where
  running := coherent.running
  requests := coherent.requests.intact
  replies := coherent.replies.intact
  updates := coherent.updates.intact
  responses := coherent.responses.intact

/-! ## Steps of the client -/

theorem Coherent.ask (coherent : Coherent host connection pending)
    (idle : connection.awaiting = .nothing) {request : Request}
    {awaiting : Awaiting κ}
    (asks : awaiting.question = some request ∨
      request.IsSetBit ∧ awaiting.question = none) :
    Coherent host (connection.ask request awaiting)
      { pending with requests := pending.requests ++ [request] } :=
  have exchange := coherent.exchange
  { coherent with
    requests := coherent.requests.send request
    exchange := Exchange.ask (idle ▸ exchange) asks }

theorem Coherent.closeIofunction (coherent : Coherent host connection pending)
    (pin : PinNumber) : connection.closeIofunction pin = connection := by
  rw [Connection.closeIofunction, coherent.unnoted, AList.lookup_empty]

/-- The state has been read. -/
theorem Coherent.readState (coherent : Coherent host connection pending)
    (awaits : connection.awaiting = .state)
    (returns : connection.replies.Returns stateSize stateSize) :
    ∃ later, connection.readReply stateSize = some later ∧
      ∃ outstanding, Coherent host later outstanding := by
  obtain ⟨reply, rest, split⟩ := coherent.replies.exists_cons returns
  have exchange := coherent.exchange
  have carries := coherent.replies
  rw [split] at exchange carries
  rw [awaits] at exchange
  obtain ⟨empty, rfl, answers⟩ := exchange.of_replies
  cases answers with
  | state pins =>
      have size : (Reply.encode (.state pins)).length = stateSize :=
        List.length_ofFn
      have bytes := carries.take size
      have known : ∀ {id}, Known host.port connection.dataChannels
          pending.replies id →
          Known host.port connection.dataChannels [] id := by
        rintro id (stored | promised)
        · exact .inl stored
        · rw [split] at promised
          simp at promised
      have read : connection.readReply stateSize =
          some { connection with
            copy := pins
            awaiting := .nothing
            replies := connection.replies.receive stateSize (.state pins) } := by
        rw [readReply, awaits]
        simp only [if_pos returns, if_true, bytes, Reply.decodeState_encode]
      exact ⟨_, read, { pending with requests := [], replies := [] },
        { coherent with
          requests := empty ▸ coherent.requests
          replies := carries.receive size
          exchange := Exchange.silent
          active := fun pin info found =>
            (coherent.active pin info found).imp_right known
          accepting := fun pin info waiting =>
            known (coherent.accepting pin info waiting)
          updated := fun update member =>
            known (coherent.updated update member) }⟩

/-- The channel has been read, and is stored. -/
theorem Coherent.readChannel (coherent : Coherent host connection pending)
    {desc : Description κ} (awaits : connection.awaiting = .channel desc)
    (returns : connection.replies.Returns responseSize responseSize) :
    ∃ later, connection.readReply responseSize = some later ∧
      ∃ outstanding, Coherent host later outstanding := by
  obtain ⟨reply, rest, split⟩ := coherent.replies.exists_cons returns
  have exchange := coherent.exchange
  have carries := coherent.replies
  rw [split] at exchange carries
  rw [awaits] at exchange
  obtain ⟨empty, rfl, answers⟩ := exchange.of_replies
  cases answers with
  | channel desc id =>
      have size : (Reply.encode (.channel host.port id)).length = responseSize :=
        rfl
      have bytes := carries.take size
      have usual : ¬ host.port.toNat < 1024 := by
        have unprivileged := host.unprivileged
        omega
      have known : ∀ {other}, Known host.port connection.dataChannels
          pending.replies other →
          Known host.port (emplace connection.dataChannels id desc) []
            other := by
        rintro other (stored | promised)
        · exact .inl (mem_emplace_iff.mpr (.inr stored))
        · rw [split, List.mem_singleton, Reply.channel.injEq] at promised
          rw [promised.2]
          exact .inl (mem_emplace_iff.mpr (.inl rfl))
      have read : connection.readReply responseSize =
          some { connection with
            awaiting := .nothing
            replies := connection.replies.receive responseSize
              (.channel host.port id)
            clientData := true
            dataChannels := emplace connection.dataChannels id desc } := by
        rw [readReply, awaits]
        simp only [if_pos returns, if_true, bytes, Reply.decodeChannel_encode,
          addIofChannel, if_neg usual]
      exact ⟨_, read, { pending with requests := [], replies := [] },
        { coherent with
          requests := empty ▸ coherent.requests
          replies := carries.receive size
          exchange := Exchange.silent
          active := fun pin info found =>
            (coherent.active pin info found).imp_right known
          accepting := fun pin info waiting =>
            known (coherent.accepting pin info waiting)
          updated := fun update member =>
            known (coherent.updated update member) }⟩

/-- Outside `addIOFchannel` no identifier is on its way. -/
theorem Coherent.stored_of_known (coherent : Coherent host connection pending)
    (free : connection.locked = false) {id : ChannelId}
    (known : Known host.port connection.dataChannels pending.replies id) :
    id ∈ connection.dataChannels := by
  rcases known with stored | promised
  · exact stored
  · have exchange := coherent.exchange
    obtain ⟨before, after, split⟩ := List.append_of_mem promised
    rcases exchange with ⟨none, _⟩ | ⟨_, only, answers, single⟩
    · rw [none] at promised
      nomatch promised
    · rw [single, List.mem_singleton] at promised
      subst promised
      rw [locked] at free
      generalize connection.awaiting = awaiting at answers free
      cases answers with
      | channel desc id => nomatch free

/-- What is done with an update does not concern the other streams. -/
theorem Coherent.handleUpdate (coherent : Coherent host connection pending)
    {update : Update} (stored : update.id ∈ connection.dataChannels) :
    ∃ outstanding,
      Coherent host (connection.handleUpdate host update) outstanding := by
  obtain ⟨desc, found⟩ :=
    Option.isSome_iff_exists.mp (AList.lookup_isSome.mpr stored)
  obtain ⟨iof, pin, onchange⟩ := desc
  rw [Connection.handleUpdate, found]
  cases iof with
  | spi =>
      exact ⟨{ pending with responses := pending.responses ++
          [host.spi onchange update.payload] },
        { coherent with
          responses := coherent.responses.send _ }⟩
  | bitsync => exact ⟨pending, { coherent with }⟩
  | spiNoResponse => exact ⟨pending, coherent⟩
  | i2c => exact ⟨pending, coherent⟩
  | pwm => exact ⟨pending, coherent⟩
  | uart => exact ⟨pending, coherent⟩

theorem Coherent.readUpdate (coherent : Coherent host connection pending)
    {later : Connection κ}
    (read : connection.readUpdate host updateSize = some later) :
    ∃ outstanding, Coherent host later outstanding := by
  rw [Connection.readUpdate, if_pos (Eq.refl updateSize),
    Option.ite_none_right_eq_some] at read
  obtain ⟨⟨_, free, returns⟩, taken⟩ := read
  obtain ⟨update, rest, split⟩ := coherent.updates.exists_cons returns
  have carries := coherent.updates
  rw [split] at carries
  have bytes := carries.take update.length_encode
  rw [bytes, Update.decode_encode] at taken
  cases taken
  have stored : update.id ∈ connection.dataChannels := by
    refine coherent.stored_of_known free (coherent.updated update ?_)
    rw [split]
    exact List.mem_cons_self
  have received : Coherent host
      { connection with
        updates := connection.updates.receive updateSize update }
      { pending with updates := rest } :=
    { coherent with
      updates := carries.receive update.length_encode
      updated := fun other member => coherent.updated other (by
        rw [split]
        exact List.mem_cons_of_mem update member) }
  exact received.handleUpdate stored

/-! ## Steps of the server -/

/-- The answer to the request that the client awaits. -/
theorem Coherent.answer (coherent : Coherent host connection pending)
    {request : Request} (split : pending.requests = [request])
    (silent : pending.replies = []) (reply : Reply)
    (answers : Answers host.port connection.awaiting reply) :
    Coherent host
      { connection with
        requests := connection.requests.receive requestSize request
        replies := connection.replies.send Reply.encode reply }
      { pending with requests := [], replies := [reply] } :=
  have known : ∀ {id}, Known host.port connection.dataChannels
      pending.replies id →
      Known host.port connection.dataChannels [reply] id := by
    rintro id (stored | promised)
    · exact .inl stored
    · rw [silent] at promised
      nomatch promised
  have received : Link.Carries Request.encode
      (connection.requests.receive requestSize request) [] :=
    Link.Carries.receive (split ▸ coherent.requests) request.length_encode
  have sent := coherent.replies.send reply
  { coherent with
    requests := received
    replies := by
      rw [silent] at sent
      exact sent
    exchange := Exchange.answered answers
    active := fun pin info found =>
      (coherent.active pin info found).imp_right known
    accepting := fun pin info waiting =>
      known (coherent.accepting pin info waiting)
    updated := fun update member => known (coherent.updated update member) }

/-- A channel that the client knows becomes active. -/
theorem Coherent.activate (coherent : Coherent host connection pending)
    (pin : PinNumber) {info : ChannelInfo}
    (known : Known host.port connection.dataChannels pending.replies info.id)
    (accepting : Option (PinNumber × ChannelInfo))
    (fewer : ∀ waiting ∈ accepting, waiting ∈ connection.accepting) :
    Coherent host
      { connection with
        accepting := accepting
        serverData := true
        activeIofChannels := emplace connection.activeIofChannels pin info }
      pending :=
  { coherent with
    active := by
      intro other found lookup
      refine ⟨rfl, ?_⟩
      rcases lookup_emplace_eq_some lookup with ⟨_, rfl⟩ | old
      · exact known
      · exact (coherent.active other found old).2
    accepting := fun other found waiting =>
      coherent.accepting other found (fewer _ waiting) }

theorem question_eq_getBank {awaiting : Awaiting κ}
    (question : awaiting.question = some .getBank) : awaiting = .state := by
  cases awaiting with
  | nothing => nomatch question
  | state => rfl
  | channel desc => nomatch question

theorem question_eq_reqIof {awaiting : Awaiting κ} {pin : PinNumber}
    {iof : IOFunction} (question : awaiting.question = some (.reqIof pin iof)) :
    ∃ desc, awaiting = .channel desc := by
  cases awaiting with
  | nothing => nomatch question
  | state => nomatch question
  | channel desc => exact ⟨desc, rfl⟩

/-- A request that is not answered. -/
theorem Coherent.handle_set (coherent : Coherent host connection pending)
    {request : Request} (set : request.IsSetBit) :
    Coherent host (Connection.handle host connection request) pending := by
  cases request with
  | setBit pin val =>
      rw [Connection.handle]
      split
      · exact coherent
      · exact { coherent with }
  | getBank => nomatch set
  | reqIof pin iof => nomatch set
  | endIof pin => nomatch set

/-- A request that is. -/
theorem Coherent.handle_question (coherent : Coherent host connection pending)
    {request : Request} (split : pending.requests = [request])
    (silent : pending.replies = [])
    (question : connection.awaiting.question = some request) :
    ∃ outstanding, Coherent host (Connection.handle host
      { connection with
        requests := connection.requests.receive requestSize request }
      request) outstanding := by
  cases request with
  | setBit pin val => cases awaits : connection.awaiting <;>
      simp [awaits, Awaiting.question] at question
  | endIof pin => cases awaits : connection.awaiting <;>
      simp [awaits, Awaiting.question] at question
  | getBank =>
      have awaits := question_eq_getBank question
      refine ⟨_, coherent.answer split silent _ ?_⟩
      rw [awaits]
      exact .state _
  | reqIof pin iof =>
      obtain ⟨desc, awaits⟩ := question_eq_reqIof question
      let info : ChannelInfo := ⟨findNewId connection.activeIofChannels, iof⟩
      have answered := coherent.answer split silent
        (.channel host.port info.id) (by
          rw [awaits]
          exact .channel desc _)
      have known : Known host.port connection.dataChannels
          [.channel host.port info.id] info.id :=
        .inr List.mem_cons_self
      by_cases connected : connection.serverData = true
      · have activated := answered.activate pin known
          connection.accepting fun _ waiting => waiting
        simp only [Connection.handle, if_pos connected]
        rw [← connected] at activated
        exact ⟨_, activated⟩
      · simp only [Connection.handle, if_neg connected]
        exact ⟨_, { answered with
          accepting := fun other found waiting => by
            cases waiting
            exact known }⟩

theorem Coherent.readRequest (coherent : Coherent host connection pending)
    {later : Connection κ}
    (read : connection.readRequest host requestSize = some later) :
    ∃ outstanding, Coherent host later outstanding := by
  rw [Connection.readRequest, if_pos (Eq.refl requestSize),
    Option.ite_none_right_eq_some] at read
  obtain ⟨⟨_, returns⟩, taken⟩ := read
  obtain ⟨request, rest, split⟩ := coherent.requests.exists_cons returns
  have exchange := coherent.exchange
  have carries := coherent.requests
  rw [split] at exchange carries
  have bytes := carries.take request.length_encode
  rw [bytes, Request.decode_encode] at taken
  cases taken
  obtain ⟨silent, ⟨set, continues⟩ | ⟨rfl, question⟩⟩ := exchange.of_cons
  · have received : Coherent host
        { connection with
          requests := connection.requests.receive requestSize request }
        { pending with requests := rest } :=
      { coherent with
        requests := carries.receive request.length_encode
        exchange := continues }
    exact ⟨_, received.handle_set set⟩
  · exact coherent.handle_question split silent question

theorem Coherent.accept (coherent : Coherent host connection pending)
    {later : Connection κ} (accepted : connection.accept = some later) :
    Coherent host later pending := by
  rw [Connection.accept] at accepted
  cases waiting : connection.accepting with
  | none =>
      rw [waiting] at accepted
      nomatch accepted
  | some entry =>
      obtain ⟨pin, info⟩ := entry
      simp only [waiting, Option.ite_none_right_eq_some, Option.some.injEq]
        at accepted
      rw [← accepted.2]
      exact coherent.activate pin (coherent.accepting pin info waiting) none
        nofun

theorem Coherent.push (coherent : Coherent host connection pending)
    (functions : List IOFunction) (pin : PinNumber) (payload : Byte) :
    ∃ outstanding,
      Coherent host (connection.push functions pin payload) outstanding := by
  rw [Connection.push]
  cases found : connection.activeIofChannels.lookup pin with
  | none => exact ⟨pending, coherent⟩
  | some info =>
      obtain ⟨connected, known⟩ := coherent.active pin info found
      by_cases requested : info.requestedIof ∈ functions
      · simp only [if_pos requested, if_pos connected]
        refine ⟨{ pending with
          updates := pending.updates ++ [⟨info.id, payload⟩] },
          { coherent with
            updates := coherent.updates.send _
            updated := ?_ }⟩
        intro update member
        rcases List.mem_append.mp member with old | new
        · exact coherent.updated update old
        · rw [List.mem_singleton.mp new]
          exact known
      · simp only [if_neg requested]
        exact ⟨pending, coherent⟩

theorem Coherent.readResponse (coherent : Coherent host connection pending)
    {count : ℕ} {later : Connection κ}
    (read : connection.readResponse count = some later) :
    ∃ outstanding, Coherent host later outstanding := by
  rw [Connection.readResponse, Option.ite_none_right_eq_some] at read
  obtain ⟨⟨_, returns⟩, taken⟩ := read
  obtain ⟨response, rest, split⟩ := coherent.responses.exists_cons returns
  have carries := coherent.responses
  rw [split] at carries
  have single : count = 1 := by
    have bounds := returns
    unfold Link.Returns at bounds
    omega
  subst single
  have size : (encodeResponse response).length = 1 := rfl
  have bytes := carries.take size
  rw [bytes] at taken
  cases taken
  exact ⟨{ pending with responses := rest },
    { coherent with responses := carries.receive size }⟩

/-! ## Runs -/

theorem Coherent.readReply (coherent : Coherent host connection pending)
    {count : ℕ} (whole : connection.Whole (.readReply count))
    {later : Connection κ} (read : connection.readReply count = some later) :
    ∃ outstanding, Coherent host later outstanding := by
  cases awaits : connection.awaiting with
  | nothing =>
      simp only [Connection.readReply, awaits] at read
      nomatch read
  | state =>
      rw [Whole, awaits] at whole
      change count = stateSize at whole
      subst whole
      have returns : connection.replies.Returns stateSize stateSize := by
        by_contra refused
        simp only [Connection.readReply, awaits, if_neg refused] at read
        nomatch read
      obtain ⟨found, reads, rest⟩ := coherent.readState awaits returns
      cases reads.symm.trans read
      exact rest
  | channel desc =>
      rw [Whole, awaits] at whole
      change count = responseSize at whole
      subst whole
      have returns : connection.replies.Returns responseSize responseSize := by
        by_contra refused
        simp only [Connection.readReply, awaits, if_neg refused] at read
        nomatch read
      obtain ⟨found, reads, rest⟩ := coherent.readChannel awaits returns
      cases reads.symm.trans read
      exact rest

theorem call_eq_some {called later : Connection κ} :
    connection.call called = some later ↔
      connection.awaiting = .nothing ∧ called = later := by
  rw [call]
  cases connection.awaiting <;> simp

/-- A step whose read returns the whole structure. -/
theorem Coherent.step (coherent : Coherent host connection pending)
    {event : Event κ} (whole : connection.Whole event) {later : Connection κ}
    (stepped : connection.Steps host event later) :
    ∃ outstanding, Coherent host later outstanding := by
  unfold Steps Connection.step at stepped
  rw [if_neg (by rw [coherent.running]; nofun)] at stepped
  cases event with
  | update =>
      obtain ⟨idle, rfl⟩ := call_eq_some.mp stepped
      exact ⟨_, coherent.ask idle (.inl rfl)⟩
  | setBit pin val =>
      obtain ⟨idle, rfl⟩ := call_eq_some.mp stepped
      exact ⟨_, coherent.ask idle (.inr ⟨trivial, rfl⟩)⟩
  | register desc =>
      obtain ⟨idle, rfl⟩ := call_eq_some.mp stepped
      exact ⟨_, coherent.ask idle (.inl rfl)⟩
  | closeIofunction pin =>
      obtain ⟨_, rfl⟩ := call_eq_some.mp stepped
      rw [coherent.closeIofunction pin]
      exact ⟨pending, coherent⟩
  | readReply count => exact coherent.readReply whole stepped
  | readUpdate count =>
      cases whole
      exact coherent.readUpdate stepped
  | readRequest count =>
      cases whole
      exact coherent.readRequest stepped
  | accept => exact ⟨pending, coherent.accept stepped⟩
  | simulate state =>
      cases stepped
      exact ⟨pending, { coherent with }⟩
  | pushPin pin state =>
      obtain ⟨_, pushed⟩ := Option.ite_none_left_eq_some.mp stepped
      cases pushed
      exact coherent.push _ _ _
  | pushSpi pin byte =>
      obtain ⟨_, pushed⟩ := Option.ite_none_left_eq_some.mp stepped
      cases pushed
      exact coherent.push _ _ _
  | readResponse count => exact coherent.readResponse stepped

theorem ended_of_readUpdate {count : ℕ} (short : count ≠ updateSize)
    {later : Connection κ}
    (read : connection.readUpdate host count = some later) :
    later.ended = true := by
  rw [Connection.readUpdate, if_neg short, Option.ite_none_right_eq_some]
    at read
  cases read.2
  rfl

theorem ended_of_readRequest {count : ℕ} (short : count ≠ requestSize)
    {later : Connection κ}
    (read : connection.readRequest host count = some later) :
    later.ended = true := by
  rw [Connection.readRequest, if_neg short, Option.ite_none_right_eq_some]
    at read
  cases read.2
  rfl

theorem ended_of_readReply {count : ℕ}
    (short : ¬ connection.Whole (.readReply count)) {later : Connection κ}
    (read : connection.readReply count = some later) :
    later.ended = true := by
  cases awaits : connection.awaiting with
  | nothing =>
      simp only [Connection.readReply, awaits] at read
      nomatch read
  | state =>
      rw [Whole, awaits] at short
      simp only [Connection.readReply, awaits, if_neg short,
        Option.ite_none_right_eq_some] at read
      cases read.2
      rfl
  | channel desc =>
      rw [Whole, awaits] at short
      simp only [Connection.readReply, awaits, if_neg short,
        Option.ite_none_right_eq_some] at read
      cases read.2
      rfl

/-- A read that returns less ends the connection. -/
theorem ended_of_short {event : Event κ} (short : ¬ connection.Whole event)
    {later : Connection κ} (stepped : connection.Steps host event later) :
    later.ended = true := by
  unfold Steps Connection.step at stepped
  obtain ⟨_, taken⟩ := Option.ite_none_left_eq_some.mp stepped
  cases event with
  | readReply count => exact ended_of_readReply short taken
  | readUpdate count => exact ended_of_readUpdate short taken
  | readRequest count => exact ended_of_readRequest short taken
  | update => exact absurd trivial short
  | setBit pin val => exact absurd trivial short
  | register desc => exact absurd trivial short
  | closeIofunction pin => exact absurd trivial short
  | accept => exact absurd trivial short
  | simulate state => exact absurd trivial short
  | pushPin pin state => exact absurd trivial short
  | pushSpi pin byte => exact absurd trivial short
  | readResponse count => exact absurd trivial short

/-- Along a run, both sides process what is sent exactly as long as every read
returns its whole structure. -/
theorem intact_iff_whole (host : Host κ) (events : List (Event κ)) :
    EveryState (Steps host) Intact events boot ↔
      EveryStep (Steps host) Whole events boot := by
  refine @everyState_iff_of_lost _ _ (Steps host)
    (fun connection => ∃ pending, Coherent host connection pending) Intact Whole
    ?_ ?_ ?_ _ _ ⟨_, coherent_boot host⟩
  · rintro connection ⟨pending, coherent⟩
    exact coherent.intact
  · rintro connection event later ⟨pending, coherent⟩ whole stepped
    exact coherent.step whole stepped
  · intro connection event later short stepped intact
    have ended := ended_of_short short stepped
    rw [intact.running] at ended
    nomatch ended

/-- A host whose callbacks answer with what they are called with. -/
def echo : Host Unit where
  port := 40000
  unprivileged := by decide
  onchange pin val pins := Function.update pins pin (tristateByte val)
  spi _ byte := byte

/-- A request of which the server reads one byte first. -/
theorem not_intact :
    ¬ ∀ events : List (Event Unit),
      EveryState (Steps echo) Intact events boot := by
  intro intact
  have every := intact [.setBit 0 .high, .readRequest 1]
  obtain ⟨_, asked⟩ := every
  obtain ⟨_, read⟩ := asked _ rfl
  have last := (read _ rfl).first.running
  nomatch last

end Connection

end Gpio

end RiscvVp
