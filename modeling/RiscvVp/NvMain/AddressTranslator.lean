import Mathlib
import RiscvVp.Positional.MixedRadix

/-!
# Address translation

`AddressTranslator.cpp` and `TranslationMethod.cpp` of NVMain: a physical address is
taken apart into a row, a column, a bank, a rank, a channel and a subarray, in an
order that is configured, and put together again.  An access through a partition
that is not found has no result.  When every order is found, `Translate` and
`ReverseTranslate` are inverse to each other between the lines of the memory and the
coordinates within its bits.
-/

namespace RiscvVp

namespace NvMain

/-- The loop of `mlog2`; an `int` is shifted out after as many rounds as it has
bits. -/
def mlog2Loop : ℕ → ℕ → ℤ → ℤ
  | 0, _, retVal => retVal
  | fuel + 1, newNum, retVal =>
      if newNum ≠ 0 then mlog2Loop fuel (newNum / 2) (retVal + 1) else retVal

def mlog2 (num : BitVec 32) : ℤ :=
  if num.toInt < 2 then 0 else mlog2Loop 32 num.toNat (-1)

/-- `MemoryPartition`, without the value for none. -/
inductive Partition : Type
  | row
  | col
  | bank
  | rank
  | channel
  | subarray
  deriving DecidableEq, Repr

/-- Bits of an address are counted. -/
structure TranslationMethod where
  bitWidths : Partition → ℕ
  order : Partition → ℤ
  narrow : ∀ part, bitWidths part < 64

namespace TranslationMethod

/-- `SetOrder`, which only complains of orders that are not unique. -/
def setOrder (orders : Partition → ℤ) (method : TranslationMethod) :
    TranslationMethod :=
  { method with order := fun part => orders part - 1 }

/-- The method of the constructor. -/
def new : TranslationMethod :=
  setOrder
    (fun
      | .row => 4
      | .col => 1
      | .bank => 3
      | .rank => 5
      | .channel => 6
      | .subarray => 2)
    { bitWidths := fun
        | .row => 10
        | .col => 8
        | .bank => 3
        | .rank => 1
        | .channel => 1
        | .subarray => 6
      order := fun _ => 0
      narrow := fun part => by cases part <;> decide }

end TranslationMethod

/-- A burst is no shorter than a transfer, since the shift by the bits that it has
more would be by a negative number. -/
structure AddressTranslator where
  method : TranslationMethod
  busWidth : BitVec 32
  burstLength : BitVec 32
  burst : mlog2 (busWidth.sdiv 8) ≤ mlog2 ((busWidth * burstLength).sdiv 8)

namespace AddressTranslator

/-- A new translator with a method. -/
def withMethod (method : TranslationMethod) : AddressTranslator where
  method := method
  busWidth := 64
  burstLength := 8
  burst := by decide

variable (translator : AddressTranslator)

def findOrder (order : ℤ) : Option Partition :=
  if translator.method.order .row = order then some .row
  else if translator.method.order .col = order then some .col
  else if translator.method.order .bank = order then some .bank
  else if translator.method.order .rank = order then some .rank
  else if translator.method.order .channel = order then some .channel
  else if translator.method.order .subarray = order then some .subarray
  else none

def divide (partSize : BitVec 64) (part : Partition) : BitVec 64 :=
  partSize >>> translator.method.bitWidths part

def modulo (partialAddr : BitVec 64) (part : Partition) : BitVec 64 :=
  partialAddr % ((1 : BitVec 64) <<< translator.method.bitWidths part)

def busOffsetBits : ℤ := mlog2 (translator.busWidth.sdiv 8)

def burstBits : ℤ :=
  mlog2 ((translator.busWidth * translator.burstLength).sdiv 8)

def lowColBits : ℤ := translator.burstBits - translator.busOffsetBits

/-- The rounds of both loops. -/
def rounds : List ℤ := [0, 1, 2, 3, 4, 5]

/-- A round of the loop of `Translate`. -/
def take (state : BitVec 64 × (Partition → BitVec 64)) (part : Partition) :
    BitVec 64 × (Partition → BitVec 64) :=
  (translator.divide state.1 part,
    Function.update state.2 part (translator.modulo state.1 part))

/-- `Translate`, into variables that hold something before. -/
def translate (address : BitVec 64) (before : Partition → BitVec 64) :
    Option (Partition → BitVec 64) := do
  let refAddress := address >>> translator.busOffsetBits.toNat >>>
    translator.lowColBits.toNat
  let (_, fields) ← rounds.foldlM
    (fun state i => do return translator.take state (← translator.findOrder i))
    (refAddress, before)
  return fields

/-- A round of the loop of `ReverseTranslate`. -/
def put (fields : Partition → BitVec 64) (state : BitVec 64 × BitVec 64)
    (part : Partition) : BitVec 64 × BitVec 64 :=
  (state.1 <<< translator.method.bitWidths part,
    state.2 + fields part * state.1)

/-- `ReverseTranslate`, which only complains of a partition that is not found. -/
def reverseTranslate (fields : Partition → BitVec 64) : BitVec 64 :=
  let unitAddr := (1 : BitVec 64) <<< translator.busOffsetBits.toNat <<<
    translator.lowColBits.toNat
  (rounds.foldl (fun state i =>
    (translator.findOrder i).elim state (translator.put fields state))
      (unitAddr, 0)).2

end AddressTranslator

/-! ## Lines and coordinates -/

open Positional

namespace Partition

def all : List Partition := [row, col, bank, rank, channel, subarray]

theorem mem_all (part : Partition) : part ∈ all := by
  cases part <;> decide

end Partition

namespace AddressTranslator

variable {translator : AddressTranslator}

/-- The order of every round is the order of a partition. -/
def Complete (translator : AddressTranslator) : Prop :=
  ∀ i ∈ rounds, (translator.findOrder i).isSome

/-- What a partition's numbers are below. -/
def radix (translator : AddressTranslator) (part : Partition) : ℕ :=
  2 ^ translator.method.bitWidths part

/-- The bits of a line, which `Translate` drops. -/
def lowBits (translator : AddressTranslator) : ℕ :=
  translator.busOffsetBits.toNat + translator.lowColBits.toNat

/-- The bits of the coordinates. -/
def totalBits (translator : AddressTranslator) : ℕ :=
  (Partition.all.map translator.method.bitWidths).sum

/-! ## The order of the partitions -/

theorem order_of_findOrder {i : ℤ} {part : Partition}
    (found : translator.findOrder i = some part) :
    translator.method.order part = i := by
  unfold findOrder at found
  repeat' split at found
  all_goals
    cases found
    try assumption

theorem mapM_findOrder (orders : List ℤ)
    (complete : ∀ i ∈ orders, (translator.findOrder i).isSome) :
    ∃ parts, orders.mapM translator.findOrder = some parts ∧
      parts.map translator.method.order = orders := by
  induction orders with
  | nil => exact ⟨[], rfl, rfl⟩
  | cons i orders inductionHypothesis =>
      obtain ⟨part, found⟩ :=
        Option.isSome_iff_exists.1 (complete i List.mem_cons_self)
      obtain ⟨parts, rest, ordered⟩ := inductionHypothesis fun i member =>
        complete i (List.mem_cons_of_mem _ member)
      refine ⟨part :: parts, ?_, ?_⟩
      · rw [List.mapM_cons, found, rest]
        rfl
      · rw [List.map_cons, order_of_findOrder found, ordered]

/-- The partitions in the order of the rounds. -/
structure Sorted (translator : AddressTranslator) (parts : List Partition) :
    Prop where
  found : rounds.mapM translator.findOrder = some parts
  perm : parts.Perm Partition.all

theorem Complete.exists_sorted (complete : translator.Complete) :
    ∃ parts, translator.Sorted parts := by
  obtain ⟨parts, found, ordered⟩ := mapM_findOrder rounds complete
  have nodup : parts.Nodup := by
    apply List.Nodup.of_map translator.method.order
    rw [ordered]
    decide
  have within : parts.Subperm Partition.all :=
    List.subperm_of_subset nodup fun part _ => part.mem_all
  have size : parts.length = 6 := by
    have lengths := congrArg List.length ordered
    rwa [List.length_map] at lengths
  exact ⟨parts, found, within.perm_of_length_le (Nat.le_of_eq size.symm)⟩

namespace Sorted

variable {parts : List Partition}

theorem nodup (sorted : translator.Sorted parts) : parts.Nodup :=
  sorted.perm.nodup_iff.2 (by decide)

theorem mem (sorted : translator.Sorted parts) (part : Partition) :
    part ∈ parts :=
  sorted.perm.mem_iff.2 part.mem_all

theorem weight_eq (sorted : translator.Sorted parts) :
    weight translator.radix parts = 2 ^ translator.totalBits := by
  have powers : ∀ parts : List Partition, weight translator.radix parts =
      2 ^ (parts.map translator.method.bitWidths).sum := by
    intro parts
    induction parts with
    | nil => rfl
    | cons part parts inductionHypothesis =>
        rw [weight_cons, inductionHypothesis, List.map_cons, List.sum_cons,
          Nat.pow_add]
        rfl
  rw [powers, totalBits, (sorted.perm.map _).sum_eq]

end Sorted

/-! ## The loops -/

theorem foldlM_findOrder {σ : Type} (round : σ → Partition → σ)
    {orders : List ℤ} {parts : List Partition}
    (found : orders.mapM translator.findOrder = some parts) (state : σ) :
    orders.foldlM (fun state i => do
      return round state (← translator.findOrder i)) state =
        some (parts.foldl round state) := by
  induction orders generalizing parts state with
  | nil =>
      cases found
      rfl
  | cons i orders inductionHypothesis =>
      rw [List.mapM_cons] at found
      obtain ⟨part, first, found⟩ := Option.bind_eq_some_iff.1 found
      obtain ⟨rest, others, same⟩ := Option.bind_eq_some_iff.1 found
      cases same
      rw [List.foldlM_cons, first]
      exact inductionHypothesis others (round state part)

theorem foldl_findOrder {σ : Type} (round : σ → Partition → σ)
    {orders : List ℤ} {parts : List Partition}
    (found : orders.mapM translator.findOrder = some parts) (state : σ) :
    orders.foldl (fun state i =>
      (translator.findOrder i).elim state (round state)) state =
        parts.foldl round state := by
  induction orders generalizing parts state with
  | nil =>
      cases found
      rfl
  | cons i orders inductionHypothesis =>
      rw [List.mapM_cons] at found
      obtain ⟨part, first, found⟩ := Option.bind_eq_some_iff.1 found
      obtain ⟨rest, others, same⟩ := Option.bind_eq_some_iff.1 found
      cases same
      rw [List.foldl_cons, first]
      exact inductionHypothesis others (round state part)

theorem toNat_divide (partSize : BitVec 64) (part : Partition) :
    (translator.divide partSize part).toNat =
      partSize.toNat / translator.radix part := by
  rw [divide, BitVec.toNat_ushiftRight, Nat.shiftRight_eq_div_pow]
  rfl

theorem toNat_modulo (partialAddr : BitVec 64) (part : Partition) :
    (translator.modulo partialAddr part).toNat =
      partialAddr.toNat % translator.radix part := by
  have narrow := translator.method.narrow part
  have power : (1 : BitVec 64) <<< translator.method.bitWidths part =
      BitVec.twoPow 64 (translator.method.bitWidths part) := rfl
  rw [modulo, power, BitVec.toNat_umod, BitVec.toNat_twoPow, radix,
    Nat.mod_eq_of_lt (Nat.pow_lt_pow_right (by decide) narrow)]

/-- The loop of `Translate` extracts digits. -/
theorem toNat_foldl_take (parts : List Partition) (refAddress : BitVec 64)
    (fields : Partition → BitVec 64) (part : Partition) :
    ((parts.foldl translator.take (refAddress, fields)).2 part).toNat =
      extract translator.radix parts refAddress.toNat
        (fun part => (fields part).toNat) part := by
  induction parts generalizing refAddress fields with
  | nil => rfl
  | cons first parts inductionHypothesis =>
      rw [List.foldl_cons, take, inductionHypothesis, toNat_divide, extract]
      congr 1
      funext other
      by_cases same : other = first
      · subst same
        rw [Function.update_self, Function.update_self, toNat_modulo]
      · rw [Function.update_of_ne same, Function.update_of_ne same]

/-- The loop of `ReverseTranslate` adds digits. -/
theorem foldl_put (parts : List Partition) (fields : Partition → BitVec 64)
    (unitAddr phyAddr : BitVec 64) :
    (parts.foldl (translator.put fields) (unitAddr, phyAddr)).2 =
      phyAddr + unitAddr * BitVec.ofNat 64
        (compose translator.radix parts fun part => (fields part).toNat) := by
  induction parts generalizing unitAddr phyAddr with
  | nil => simp [compose]
  | cons first parts inductionHypothesis =>
      rw [List.foldl_cons, put, inductionHypothesis, compose, radix]
      rw [BitVec.shiftLeft_eq_mul_twoPow, BitVec.ofNat_add, BitVec.ofNat_mul,
        BitVec.ofNat_toNat]
      have power : BitVec.ofNat 64 (2 ^ translator.method.bitWidths first) =
          BitVec.twoPow 64 (translator.method.bitWidths first) := by
        apply BitVec.eq_of_toNat_eq
        rw [BitVec.toNat_ofNat, BitVec.toNat_twoPow]
      rw [power]
      simp only [BitVec.setWidth_eq]
      ring

/-! ## The round trips -/

theorem translate_of_sorted {parts : List Partition}
    (sorted : translator.Sorted parts) (address : BitVec 64)
    (before : Partition → BitVec 64) :
    ∃ fields, translator.translate address before = some fields ∧
      ∀ part, (fields part).toNat = extract translator.radix parts
        (address.toNat / 2 ^ translator.lowBits)
          (fun part => (before part).toNat) part := by
  let refAddress := address >>> translator.busOffsetBits.toNat >>>
    translator.lowColBits.toNat
  have loops := foldlM_findOrder translator.take sorted.found
    (refAddress, before)
  refine ⟨(parts.foldl translator.take (refAddress, before)).2, ?_, fun part =>
    (toNat_foldl_take parts refAddress before part).trans ?_⟩
  · rw [translate]
    dsimp only
    rw [loops]
    rfl
  · dsimp only [refAddress]
    rw [BitVec.toNat_ushiftRight, BitVec.toNat_ushiftRight,
      ← Nat.shiftRight_add, Nat.shiftRight_eq_div_pow]
    rfl

theorem reverseTranslate_of_sorted {parts : List Partition}
    (sorted : translator.Sorted parts) (fields : Partition → BitVec 64) :
    (translator.reverseTranslate fields).toNat =
      2 ^ translator.lowBits * compose translator.radix parts
        (fun part => (fields part).toNat) % 2 ^ 64 := by
  have unit : (1 : BitVec 64) <<< translator.busOffsetBits.toNat <<<
      translator.lowColBits.toNat = BitVec.twoPow 64 translator.lowBits := by
    rw [← BitVec.shiftLeft_add]
    rfl
  rw [reverseTranslate, foldl_findOrder (translator.put fields) sorted.found, foldl_put, unit,
    zero_add, BitVec.toNat_mul, BitVec.toNat_twoPow, BitVec.toNat_ofNat,
    ← Nat.mul_mod]

/-- The first byte of the line of an address, among as many lines as there are
coordinates. -/
def lineStart (translator : AddressTranslator) (address : BitVec 64) : ℕ :=
  2 ^ translator.lowBits *
    (address.toNat / 2 ^ translator.lowBits % 2 ^ translator.totalBits)

/-- The coordinates are below the powers of their widths. -/
def Fits (translator : AddressTranslator) (fields : Partition → BitVec 64) :
    Prop :=
  ∀ part, (fields part).toNat < translator.radix part

theorem translate_of_complete (complete : translator.Complete)
    (before : Partition → BitVec 64) (address : BitVec 64) :
    ∃ fields, translator.translate address before = some fields ∧
      translator.Fits fields ∧
        (translator.reverseTranslate fields).toNat =
          translator.lineStart address := by
  obtain ⟨parts, sorted⟩ := complete.exists_sorted
  obtain ⟨fields, translated, digits⟩ :=
    translate_of_sorted sorted address before
  refine ⟨fields, translated, fun part => ?_, ?_⟩
  · rw [digits]
    exact extract_lt (fun part _ => Nat.two_pow_pos _) (sorted.mem part) _ _
  · have composed : compose translator.radix parts
        (fun part => (fields part).toNat) =
        address.toNat / 2 ^ translator.lowBits % 2 ^ translator.totalBits := by
      rw [funext digits, compose_extract sorted.nodup, sorted.weight_eq]
    rw [reverseTranslate_of_sorted sorted, composed]
    refine Nat.mod_eq_of_lt (Nat.lt_of_le_of_lt ?_ address.isLt)
    calc 2 ^ translator.lowBits *
          (address.toNat / 2 ^ translator.lowBits % 2 ^ translator.totalBits)
        ≤ 2 ^ translator.lowBits *
          (address.toNat / 2 ^ translator.lowBits) :=
          Nat.mul_le_mul_left _ (Nat.mod_le _ _)
      _ ≤ address.toNat := Nat.mul_div_le _ _

theorem translate_of_fits (complete : translator.Complete)
    (narrow : translator.lowBits + translator.totalBits ≤ 64)
    (before : Partition → BitVec 64) {fields : Partition → BitVec 64}
    (fits : translator.Fits fields) :
    translator.translate (translator.reverseTranslate fields) before =
      some fields := by
  obtain ⟨parts, sorted⟩ := complete.exists_sorted
  obtain ⟨again, translated, digits⟩ :=
    translate_of_sorted sorted (translator.reverseTranslate fields) before
  rw [translated]
  apply congrArg some
  funext part
  apply BitVec.eq_of_toNat_eq
  have below : compose translator.radix parts
      (fun part => (fields part).toNat) < 2 ^ translator.totalBits := by
    rw [← sorted.weight_eq]
    exact compose_lt fun part _ => fits part
  have small : 2 ^ translator.lowBits * compose translator.radix parts
      (fun part => (fields part).toNat) < 2 ^ 64 := by
    calc 2 ^ translator.lowBits * compose translator.radix parts
          (fun part => (fields part).toNat)
        < 2 ^ translator.lowBits * 2 ^ translator.totalBits :=
          Nat.mul_lt_mul_of_pos_left below (Nat.two_pow_pos _)
      _ = 2 ^ (translator.lowBits + translator.totalBits) :=
          (Nat.pow_add _ _ _).symm
      _ ≤ 2 ^ 64 := Nat.pow_le_pow_right (by decide) narrow
  rw [digits, reverseTranslate_of_sorted sorted, Nat.mod_eq_of_lt small,
    Nat.mul_div_cancel_left _ (Nat.two_pow_pos _)]
  exact extract_compose sorted.nodup (fun part _ => fits part) _
    (sorted.mem part)

/-- Every address has coordinates within the widths, which lead back to its line;
and all coordinates within the widths are those of the address that they lead
to. -/
theorem translate_reverseTranslate (complete : translator.Complete)
    (before : Partition → BitVec 64) :
    (∀ address, ∃ fields, translator.translate address before = some fields ∧
      translator.Fits fields ∧
        (translator.reverseTranslate fields).toNat =
          translator.lineStart address) ∧
    (translator.lowBits + translator.totalBits ≤ 64 →
      ∀ fields, translator.Fits fields →
        translator.translate (translator.reverseTranslate fields) before =
          some fields) :=
  ⟨translate_of_complete complete before,
    fun narrow _ fits => translate_of_fits complete narrow before fits⟩

theorem translate_reverseTranslate_new :
    (withMethod .new).Complete ∧ ∀ fields, (withMethod .new).Fits fields →
      (withMethod .new).translate ((withMethod .new).reverseTranslate fields)
        (fun _ => 0) = some fields := by
  have complete : (withMethod .new).Complete := by
    unfold Complete
    decide
  have narrow : (withMethod .new).lowBits + (withMethod .new).totalBits ≤ 64 := by
    decide
  exact ⟨complete,
    (translate_reverseTranslate complete fun _ => 0).2 narrow⟩

end AddressTranslator

end NvMain

end RiscvVp
