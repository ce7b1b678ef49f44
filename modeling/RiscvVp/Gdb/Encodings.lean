import Mathlib
import RiscvVp.Gdb.Buffers

/-!
# Encoded payloads

A payload is escaped, and runs of it are abbreviated.  The decoder takes the
character `*` for the mark of a run wherever it stands, also where it is the
number of repetitions.
-/

namespace RiscvVp

namespace Gdb

/-- The characters that are not sent as they are. -/
def isSpecial (byte : Byte) : Bool :=
  byte == ascii '#' || byte == ascii '$' || byte == escapeChar ||
    byte == ascii '*'

def escaped (byte : Byte) : List Byte :=
  if isSpecial byte then [escapeChar, byte ^^^ escapeByte] else [byte]

def escape (payload : List Byte) : List Byte :=
  payload.flatMap escaped

/-! ## Encodings -/

/-- A character, or a run of it. -/
inductive Piece : Type
  | single (byte : Byte)
  | run (byte count : Byte)
  deriving DecidableEq, Repr

namespace Piece

def text : Piece → List Byte
  | .single byte => [byte]
  | .run byte count => [byte, ascii '*', count]

/-- The number of repetitions is that above `GDB_RUNLEN_OFF`. -/
def expansion : Piece → List Byte
  | .single byte => [byte]
  | .run byte count => byte :: List.replicate (count.toNat - 29) byte

/-- A count is no greater than 126 and does not end or begin a packet. -/
def Legal : Piece → Prop
  | .single _ => True
  | .run _ count =>
      29 < count.toNat ∧ count.toNat ≤ 126 ∧ count ≠ ascii '#' ∧
        count ≠ ascii '$'

/-- The run has not thirteen repetitions. -/
def AvoidsStar : Piece → Prop
  | .single _ => True
  | .run _ count => count ≠ ascii '*'

instance (piece : Piece) : Decidable piece.AvoidsStar :=
  match piece with
  | .single _ => .isTrue trivial
  | .run _ count => inferInstanceAs (Decidable (count ≠ ascii '*'))

end Piece

/-- A way to send a payload of 7-bit characters. -/
structure Encoding (payload : List Byte) : Type where
  characters : ∀ byte ∈ payload, byte ≠ 0 ∧ byte.toNat < 128
  pieces : List Piece
  legal : ∀ piece ∈ pieces, piece.Legal
  expands : pieces.flatMap Piece.expansion = escape payload

namespace Encoding

variable {payload : List Byte}

def text (encoding : Encoding payload) : List Byte :=
  encoding.pieces.flatMap Piece.text

/-- The payload comes back. -/
def Decodes (encoding : Encoding payload) : Prop :=
  Buffered.gdbDecodeRunlen encoding.text >>= Buffered.gdbUnescape =
    .ok payload

end Encoding

/-- No input makes a decoder write past its array. -/
def StaysInside : Prop :=
  ∀ data : List Byte,
    Buffered.gdbDecodeRunlen data ≠ .error .overrun ∧
      Buffered.gdbUnescape data ≠ .error .overrun

theorem staysInside : StaysInside := by
  intro data
  constructor
  · rw [Buffered.gdbDecodeRunlen_eq]
    cases gdbDecodeRunlen data with
    | ok decoded => nofun
    | error fault => nofun
  · rw [Buffered.gdbUnescape_eq]
    nofun

/-! ## Escapes -/

theorem isSpecial_iff (byte : Byte) :
    isSpecial byte = true ↔
      byte = ascii '#' ∨ byte = ascii '$' ∨ byte = escapeChar ∨
        byte = ascii '*' := by
  simp only [isSpecial, Bool.or_eq_true, beq_iff_eq, or_assoc]

/-- What an escaped character is like: ordinary, and of two escape characters
next to each other there is none. -/
theorem escaped_facts {byte : Byte} (ordinary : byte.toNat < 128) :
    (∀ sent ∈ escaped byte, sent ≠ ascii '*' ∧ sent.toNat < 128) ∧
      (∀ last ∈ (escaped byte).getLast?, last ≠ escapeChar) ∧
      ((escaped byte).IsChain fun first second =>
        first ≠ escapeChar ∨ second ≠ escapeChar) := by
  by_cases special : isSpecial byte = true
  · rcases (isSpecial_iff byte).mp special with rfl | rfl | rfl | rfl <;>
      decide
  · have plain := mt (isSpecial_iff byte).mpr special
    rw [not_or, not_or, not_or] at plain
    rw [escaped, if_neg special]
    refine ⟨?_, ?_, .singleton byte⟩
    · rintro sent member
      rw [List.mem_singleton.mp member]
      exact ⟨plain.2.2.2, ordinary⟩
    · rintro last ⟨⟩
      exact plain.2.2.1

theorem unescapeFrom_escaped (byte : Byte) (rest : List Byte) :
    unescapeFrom false (escaped byte ++ rest) =
      byte :: unescapeFrom false rest := by
  by_cases special : isSpecial byte
  · have other : byte ^^^ escapeByte ≠ escapeChar := by
      intro same
      have byteEquation : byte = escapeChar ^^^ escapeByte := by
        rw [← same, BitVec.xor_assoc, BitVec.xor_self, BitVec.xor_zero]
      rw [byteEquation] at special
      revert special
      decide
    rw [escaped, if_pos special, List.cons_append, List.cons_append,
      List.nil_append, unescapeFrom, if_pos rfl, unescapeFrom, if_neg other,
      if_pos rfl, BitVec.xor_assoc, BitVec.xor_self, BitVec.xor_zero]
  · have other : byte ≠ escapeChar := by
      rintro rfl
      exact special rfl
    rw [escaped, if_neg special, List.singleton_append, unescapeFrom,
      if_neg other]
    rfl

theorem unescapeFrom_escape (payload : List Byte) :
    unescapeFrom false (escape payload) = payload := by
  induction payload with
  | nil => rfl
  | cons byte rest inductionHypothesis =>
      rw [escape, List.flatMap_cons, unescapeFrom_escaped]
      exact congrArg (byte :: ·) inductionHypothesis

theorem isChain_escape {payload : List Byte}
    (ordinary : ∀ byte ∈ payload, byte.toNat < 128) :
    (escape payload).IsChain fun first second =>
      first ≠ escapeChar ∨ second ≠ escapeChar := by
  induction payload with
  | nil => exact .nil
  | cons byte rest inductionHypothesis =>
      rw [List.forall_mem_cons] at ordinary
      have facts := escaped_facts ordinary.1
      rw [escape, List.flatMap_cons, List.isChain_append]
      exact ⟨facts.2.2, inductionHypothesis ordinary.2,
        fun last isLast _ _ => .inl (facts.2.1 last isLast)⟩

/-- After a character that is not the escape character nothing is pending. -/
theorem unescapeFrom_append (esc : Bool) (before : List Byte) {byte : Byte}
    (plain : byte ≠ escapeChar) (after : List Byte) :
    unescapeFrom esc (before ++ byte :: after) =
      unescapeFrom esc (before ++ [byte]) ++ unescapeFrom false after := by
  induction before generalizing esc with
  | nil =>
      rw [List.nil_append, List.nil_append, unescapeFrom, if_neg plain,
        unescapeFrom, if_neg plain]
      rfl
  | cons first rest inductionHypothesis =>
      rw [List.cons_append, List.cons_append, unescapeFrom, unescapeFrom]
      by_cases escape : first = escapeChar
      · rw [if_pos escape, if_pos escape, inductionHypothesis]
      · rw [if_neg escape, if_neg escape, inductionHypothesis,
          List.cons_append]

/-! ## Rounds -/

namespace Runlen

/-- What a character that is sent as it is must be. -/
def Ordinary (byte : Byte) : Prop :=
  byte ≠ ascii '*' ∧ byte.toNat < 128

theorem toInt_of_lt {byte : Byte} (ordinary : byte.toNat < 128) :
    byte.toInt = byte.toNat :=
  BitVec.toInt_eq_toNat_of_lt (by omega)

theorem xassert_of_lt {byte : Byte} (ordinary : byte.toNat < 128) :
    xassert (0 ≤ byte.toInt) = .ok () := by
  rw [toInt_of_lt ordinary, xassert, if_pos (by simp)]

theorem next_single {previous : Option Byte} {output : List Byte} {byte : Byte}
    (ordinary : Ordinary byte) :
    next ⟨previous, none, output⟩ byte =
      .ok ⟨some byte, none, output ++ [byte]⟩ := by
  simp only [next, if_neg ordinary.1, xassert_of_lt ordinary.2]
  rfl

theorem next_star {runlen : Option Byte} {output : List Byte} {byte : Byte}
    (ordinary : byte.toNat < 128) :
    next ⟨some byte, runlen, output⟩ (ascii '*') =
      .ok ⟨some (ascii '*'), some byte, output⟩ := by
  have some : byte ≠ 0xff := by
    rintro rfl
    exact absurd ordinary (by decide)
  simp only [next, if_true, if_neg some]
  rfl

theorem next_count {previous : Option Byte} {output : List Byte}
    {byte count : Byte} (ordinary : byte.toNat < 128)
    (small : count.toNat < 128) (other : count ≠ ascii '*') :
    next ⟨previous, some byte, output⟩ count =
      if count.toNat ≤ 29 then .error .ebadmsg
      else
        .ok ⟨some count, none,
          output ++ List.replicate (count.toNat - 29) byte⟩ := by
  have value : count.toInt = count.toNat := toInt_of_lt small
  simp only [next, if_neg other, value, xassert_of_lt ordinary]
  by_cases few : count.toNat ≤ 29
  · rw [if_pos few, if_pos (by omega)]
  · have repetitions : ((count.toNat : ℤ) - 29).toNat = count.toNat - 29 := by
      omega
    rw [if_neg few, if_neg (by omega), repetitions]
    rfl

/-- What has been written stays. -/
theorem next_extends {state after : Runlen} {byte : Byte}
    (round : state.next byte = .ok after) :
    state.output <+: after.output := by
  obtain ⟨previous, runlen, output⟩ := state
  by_cases star : byte = ascii '*'
  · rw [next, if_pos star] at round
    cases previous with
    | none => cases round
    | some previous =>
        cases round
        exact List.prefix_refl _
  · rw [next, if_neg star] at round
    cases runlen with
    | none =>
        cases assertion : xassert (0 ≤ byte.toInt) with
        | error fault =>
            simp only [assertion] at round
            cases round
        | ok _ =>
            simp only [assertion] at round
            cases round
            exact List.prefix_append _ _
    | some runlen =>
        by_cases few : byte.toInt - 29 ≤ 0
        · simp only [if_pos few] at round
          cases round
        · cases assertion : xassert (0 ≤ runlen.toInt) with
          | error fault =>
              simp only [if_neg few, assertion] at round
              cases round
          | ok _ =>
              simp only [if_neg few, assertion] at round
              cases round
              exact List.prefix_append _ _

theorem foldlM_extends {state final : Runlen} {data : List Byte}
    (rounds : data.foldlM next state = .ok final) :
    state.output <+: final.output := by
  induction data generalizing state with
  | nil =>
      cases rounds
      exact List.prefix_refl _
  | cons byte rest inductionHypothesis =>
      rw [List.foldlM_cons] at rounds
      cases round : state.next byte with
      | error fault =>
          rw [round] at rounds
          nomatch rounds
      | ok after =>
          rw [round] at rounds
          exact (next_extends round).trans (inductionHypothesis rounds)

theorem foldlM_next_cons {state after : Runlen} {byte : Byte}
    (round : state.next byte = .ok after) (rest : List Byte) :
    (byte :: rest).foldlM next state = rest.foldlM next after := by
  rw [List.foldlM_cons, round]
  rfl

theorem foldlM_piece {piece : Piece} (legal : piece.Legal)
    (avoids : piece.AvoidsStar)
    (ordinary : ∀ byte ∈ piece.expansion, Ordinary byte)
    (previous : Option Byte) (output : List Byte) :
    ∃ last, piece.text.foldlM next ⟨previous, none, output⟩ =
      .ok ⟨last, none, output ++ piece.expansion⟩ := by
  cases piece with
  | single byte =>
      refine ⟨some byte, ?_⟩
      have first := ordinary byte (by simp [Piece.expansion])
      rw [Piece.text, foldlM_next_cons (next_single first)]
      rfl
  | run byte count =>
      have first := ordinary byte (by simp [Piece.expansion])
      refine ⟨some count, ?_⟩
      have small : count.toNat < 128 := Nat.lt_succ_of_le (legal.2.1.trans
        (by decide))
      have third : next ⟨some (ascii '*'), some byte, output ++ [byte]⟩ count =
          .ok ⟨some count, none, output ++ [byte] ++
            List.replicate (count.toNat - 29) byte⟩ := by
        rw [next_count first.2 small avoids, if_neg (Nat.not_le.mpr legal.1)]
      rw [List.append_assoc] at third
      rw [Piece.text, foldlM_next_cons (next_single first),
        foldlM_next_cons (next_star first.2), foldlM_next_cons third]
      rfl

theorem foldlM_pieces {pieces : List Piece}
    (legal : ∀ piece ∈ pieces, piece.Legal)
    (avoids : ∀ piece ∈ pieces, piece.AvoidsStar)
    (ordinary : ∀ byte ∈ pieces.flatMap Piece.expansion, Ordinary byte)
    (previous : Option Byte) (output : List Byte) :
    ∃ last, (pieces.flatMap Piece.text).foldlM next ⟨previous, none, output⟩ =
      .ok ⟨last, none, output ++ pieces.flatMap Piece.expansion⟩ := by
  induction pieces generalizing previous output with
  | nil => exact ⟨previous, by simp; rfl⟩
  | cons piece rest inductionHypothesis =>
      rw [List.forall_mem_cons] at legal avoids
      rw [List.flatMap_cons, List.forall_mem_append] at ordinary
      obtain ⟨middle, first⟩ :=
        foldlM_piece legal.1 avoids.1 ordinary.1 previous output
      obtain ⟨last, others⟩ := inductionHypothesis legal.2 avoids.2 ordinary.2
        middle (output ++ piece.expansion)
      refine ⟨last, ?_⟩
      rw [List.flatMap_cons, List.foldlM_append, first, List.flatMap_cons,
        ← List.append_assoc]
      exact others

/-- After `**` the next character is the number of repetitions of `*`. -/
theorem foldlM_stars {previous : Option Byte} {output rest : List Byte}
    {byte : Byte} (ordinary : Ordinary byte)
    (follows : ∀ first ∈ rest.head?, Ordinary first)
    {final : Runlen}
    (rounds : (byte :: ascii '*' :: ascii '*' :: rest).foldlM next
      ⟨previous, none, output⟩ = .ok final) :
    final.output = output ++ [byte] ∨
      ∃ more, final.output = output ++ byte :: ascii '*' :: more := by
  rw [foldlM_next_cons (next_single ordinary),
    foldlM_next_cons (next_star ordinary.2),
    foldlM_next_cons (next_star (by decide))] at rounds
  cases rest with
  | nil =>
      cases rounds
      exact .inl rfl
  | cons first rest =>
      have facts := follows first rfl
      rw [List.foldlM_cons, next_count (by decide) facts.2 facts.1] at rounds
      by_cases few : first.toNat ≤ 29
      · rw [if_pos few] at rounds
        nomatch rounds
      · rw [if_neg few] at rounds
        obtain ⟨more, kept⟩ := foldlM_extends rounds
        obtain ⟨count, equation⟩ : ∃ count, first.toNat - 29 = count + 1 :=
          ⟨first.toNat - 30, by omega⟩
        refine .inr ⟨List.replicate count (ascii '*') ++ more, ?_⟩
        rw [← kept, equation, List.replicate_succ]
        simp only [List.append_assoc, List.cons_append, List.nil_append]

end Runlen

namespace Encoding

variable {payload : List Byte}

theorem ordinary (encoding : Encoding payload) :
    ∀ byte ∈ escape payload, Runlen.Ordinary byte := by
  intro byte member
  obtain ⟨original, isCharacter, sent⟩ := List.mem_flatMap.mp member
  have small := (encoding.characters original isCharacter).2
  exact (escaped_facts small).1 byte sent

theorem takeWhile_eq {bytes : List Byte} (characters : ∀ byte ∈ bytes, byte ≠ 0)
    (rest : List Byte) :
    (bytes ++ rest).takeWhile (fun byte => byte != 0) =
      bytes ++ rest.takeWhile fun byte => byte != 0 :=
  List.takeWhile_append_of_pos fun byte member =>
    bne_iff_ne.mpr (characters byte member)

theorem gdbUnescape_escape (encoding : Encoding payload) :
    gdbUnescape (escape payload) = payload := by
  have whole := takeWhile_eq
    (fun byte member => (encoding.characters byte member).1) []
  rw [List.append_nil] at whole
  rw [gdbUnescape, unescapeFrom_escape]
  exact whole.trans (List.append_nil payload)

theorem decodes_iff_exists (encoding : Encoding payload) :
    encoding.Decodes ↔ ∃ final : Runlen,
      encoding.text.foldlM Runlen.next ⟨none, none, []⟩ = .ok final ∧
        gdbUnescape final.output = payload := by
  rw [Decodes, Buffered.gdbDecodeRunlen_eq, gdbDecodeRunlen]
  cases encoding.text.foldlM Runlen.next ⟨none, none, []⟩ with
  | error fault =>
      constructor
      · intro decodes
        cases decodes
      · rintro ⟨_, equation, _⟩
        cases equation
  | ok final =>
      have unescaped := Buffered.gdbUnescape_eq final.output
      constructor
      · intro decodes
        exact ⟨final, rfl, Except.ok.inj (unescaped.symm.trans decodes)⟩
      · rintro ⟨_, ⟨⟩, same⟩
        exact unescaped.trans (congrArg _ same)

theorem decodes_of_avoids (encoding : Encoding payload)
    (avoids : ∀ piece ∈ encoding.pieces, piece.AvoidsStar) :
    encoding.Decodes := by
  have ordinary := encoding.ordinary
  rw [← encoding.expands] at ordinary
  obtain ⟨last, rounds⟩ := Runlen.foldlM_pieces encoding.legal avoids ordinary
    none []
  refine encoding.decodes_iff_exists.mpr ⟨_, rounds, ?_⟩
  rw [List.nil_append, encoding.expands]
  exact encoding.gdbUnescape_escape

/-- The first run with thirteen repetitions. -/
theorem exists_stars (encoding : Encoding payload)
    (stars : ¬ ∀ piece ∈ encoding.pieces, piece.AvoidsStar) :
    ∃ before byte after,
      encoding.pieces = before ++ .run byte (ascii '*') :: after ∧
        ∀ piece ∈ before, piece.AvoidsStar := by
  simp only [not_forall] at stars
  obtain ⟨starred, member, fails⟩ := stars
  have found : (encoding.pieces.find? fun piece =>
      ¬ piece.AvoidsStar).isSome :=
    List.find?_isSome.mpr ⟨starred, member, decide_eq_true fails⟩
  obtain ⟨piece, isFirst⟩ := Option.isSome_iff_exists.mp found
  obtain ⟨fails, before, after, split, avoids⟩ :=
    List.find?_eq_some_iff_append.mp isFirst
  cases piece with
  | single byte => simp [Piece.AvoidsStar] at fails
  | run byte count =>
      have star : count = ascii '*' := by
        simpa [Piece.AvoidsStar] using fails
      subst star
      refine ⟨before, byte, after, split, fun piece member => ?_⟩
      simpa using avoids piece member

/-- Such a run is lost: what is written after its first character is not that
character again. -/
theorem not_decodes_of_stars (encoding : Encoding payload)
    {before after : List Piece} {byte : Byte}
    (split : encoding.pieces = before ++ .run byte (ascii '*') :: after)
    (avoids : ∀ piece ∈ before, piece.AvoidsStar) : ¬ encoding.Decodes := by
  have legal := encoding.legal
  have expands := encoding.expands
  have ordinary := encoding.ordinary
  rw [← expands, split, List.flatMap_append, List.flatMap_cons,
    List.forall_mem_append, List.forall_mem_append] at ordinary
  rw [split, List.forall_mem_append] at legal
  obtain ⟨front, frontEquation⟩ : ∃ front, before.flatMap Piece.expansion = front :=
    ⟨_, rfl⟩
  obtain ⟨more, expansion⟩ : ∃ more, escape payload =
      front ++ byte :: byte :: more := by
    refine ⟨List.replicate 12 byte ++ after.flatMap Piece.expansion, ?_⟩
    rw [← expands, split, List.flatMap_append, List.flatMap_cons, frontEquation]
    rfl
  have plain : byte ≠ escapeChar := by
    have chain := isChain_escape fun byte member =>
      (encoding.characters byte member).2
    rw [expansion, List.isChain_append] at chain
    exact (List.isChain_cons_cons.mp chain.2.1).1.elim id id
  have isOrdinary : Runlen.Ordinary byte :=
    ordinary.2.1 byte (by simp [Piece.expansion])
  obtain ⟨sent, sentEquation⟩ : ∃ sent,
      unescapeFrom false (front ++ [byte]) = sent := ⟨_, rfl⟩
  have whole : payload = sent ++ byte :: unescapeFrom false more := by
    rw [← unescapeFrom_escape payload, expansion,
      unescapeFrom_append false front plain, sentEquation, unescapeFrom,
      if_neg plain]
    rfl
  have nonzero : ∀ byte ∈ sent, byte ≠ 0 := fun byte member =>
    (encoding.characters byte (by rw [whole]; simp [member])).1
  rw [decodes_iff_exists]
  rintro ⟨final, rounds, same⟩
  obtain ⟨last, first⟩ :=
    Runlen.foldlM_pieces legal.1 avoids ordinary.1 none []
  rw [Encoding.text, split, List.flatMap_append, List.flatMap_cons,
    List.foldlM_append, first, frontEquation] at rounds
  have follows : ∀ next ∈ (after.flatMap Piece.text).head?,
      Runlen.Ordinary next := by
    cases after with
    | nil =>
        intro next isNext
        cases isNext
    | cons piece rest =>
        intro next isNext
        refine ordinary.2.2 next (List.mem_flatMap.mpr
          ⟨piece, List.mem_cons_self, ?_⟩)
        cases piece <;>
        · cases isNext
          exact List.mem_cons_self
  rw [gdbUnescape] at same
  rcases Runlen.foldlM_stars isOrdinary follows rounds with ends | ⟨rest, goes⟩
  · rw [ends, List.nil_append, sentEquation] at same
    have short := takeWhile_eq nonzero []
    rw [List.append_nil, List.takeWhile_nil, List.append_nil] at short
    rw [short, whole] at same
    simpa using congrArg List.length same
  · rw [goes, List.nil_append, unescapeFrom_append false front plain,
      sentEquation, takeWhile_eq nonzero, whole] at same
    have tails := List.append_cancel_left same
    exact isOrdinary.1 (List.cons.inj tails).1.symm

/-- Payloads come back, unless a run has thirteen repetitions. -/
theorem decodes_iff_avoids (encoding : Encoding payload) :
    (encoding.Decodes ∧ StaysInside) ↔
      ∀ piece ∈ encoding.pieces, piece.AvoidsStar := by
  constructor
  · rintro ⟨decodes, _⟩
    by_contra stars
    obtain ⟨before, byte, after, split, avoids⟩ := encoding.exists_stars stars
    exact encoding.not_decodes_of_stars split avoids decodes
  · intro avoids
    exact ⟨encoding.decodes_of_avoids avoids, staysInside⟩

/-- Fourteen times the same digit. -/
def digits : Encoding (List.replicate 14 (ascii '0')) where
  characters := by decide
  pieces := [.run (ascii '0') (ascii '*')]
  legal := by
    intro piece member
    rw [List.mem_singleton.mp member]
    exact ⟨by decide, by decide, by decide, by decide⟩
  expands := by decide

theorem not_decodes : ¬ (digits.Decodes ∧ StaysInside) := by
  rintro ⟨decodes, _⟩
  revert decodes
  unfold Encoding.Decodes
  decide +kernel

end Encoding

end Gdb

end RiscvVp
