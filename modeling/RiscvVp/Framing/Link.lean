import Mathlib.Data.Nat.Notation

/-!
# Messages on a stream

A stream carries what is written to it, in order, and a read returns a part of
what is outstanding.  A link is intact if what is outstanding is the messages
that have been sent and not received.
-/

namespace RiscvVp

namespace Framing

/-- A stream of units `β`, and the messages that its two ends have sent and
received. -/
structure Link (β μ : Type) : Type where
  sent : List μ
  wire : List β
  received : List μ

namespace Link

variable {β μ : Type}

/-- Before the first message. -/
def idle : Link β μ where
  sent := []
  wire := []
  received := []

def send (encode : μ → List β) (link : Link β μ) (message : μ) : Link β μ :=
  { link with
    sent := link.sent ++ [message]
    wire := link.wire ++ encode message }

/-- A read of `size` units may return `count` of them. -/
def Returns (link : Link β μ) (size count : ℕ) : Prop :=
  0 < count ∧ count ≤ size ∧ count ≤ link.wire.length

instance (link : Link β μ) (size count : ℕ) :
    Decidable (link.Returns size count) :=
  inferInstanceAs (Decidable (_ ∧ _ ∧ _))

/-- What has been read is taken for a message. -/
def receive (link : Link β μ) (count : ℕ) (message : μ) : Link β μ :=
  { link with
    wire := link.wire.drop count
    received := link.received ++ [message] }

/-- The messages that are on their way. -/
structure Carries (encode : μ → List β) (link : Link β μ)
    (pending : List μ) : Prop where
  sent : link.sent = link.received ++ pending
  wire : link.wire = pending.flatMap encode

/-- Every message has been received or is outstanding, in order. -/
def Intact (encode : μ → List β) (link : Link β μ) : Prop :=
  ∃ pending, Carries encode link pending

variable {encode : μ → List β} {link : Link β μ} {pending : List μ}
  {message : μ} {rest : List μ}

theorem carries_idle (encode : μ → List β) : Carries encode idle [] :=
  ⟨rfl, rfl⟩

theorem Carries.send (carries : Carries encode link pending) (message : μ) :
    Carries encode (link.send encode message) (pending ++ [message]) where
  sent := by
    rw [Link.send, carries.sent, List.append_assoc]
  wire := by
    rw [Link.send, carries.wire, List.flatMap_append, List.flatMap_singleton]

/-- Something to read comes from a message. -/
theorem Carries.exists_cons (carries : Carries encode link pending)
    {size count : ℕ} (returns : link.Returns size count) :
    ∃ message rest, pending = message :: rest := by
  cases pending with
  | nil =>
      have empty : link.wire = [] := carries.wire
      obtain ⟨positive, _, outstanding⟩ := returns
      rw [empty, List.length_nil] at outstanding
      omega
  | cons message rest => exact ⟨message, rest, rfl⟩

theorem Carries.take (carries : Carries encode link (message :: rest))
    {count : ℕ} (size : (encode message).length = count) :
    link.wire.take count = encode message := by
  rw [carries.wire, List.flatMap_cons, ← size]
  exact List.take_left

theorem Carries.receive (carries : Carries encode link (message :: rest))
    {count : ℕ} (size : (encode message).length = count) :
    Carries encode (link.receive count message) rest where
  sent := by
    rw [Link.receive, carries.sent, List.append_assoc, List.singleton_append]
  wire := by
    rw [Link.receive, carries.wire, List.flatMap_cons, ← size]
    exact List.drop_left

theorem Carries.intact (carries : Carries encode link pending) :
    link.Intact encode :=
  ⟨pending, carries⟩

end Link

end Framing

end RiscvVp
