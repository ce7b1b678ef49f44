import Mathlib
import RiscvVp.Queueing.Overflow

/-!
# The branch predictor

`HiFive1BranchPredictor` of the timing model: a stack of two return addresses, a
table of branch targets and a table of branch histories.  A branch that follows
its own history is soon predicted, whatever runs in between, and a return is
predicted unless the calls below it are nested too deep.
-/

namespace RiscvVp

namespace BranchTiming

open Trace

abbrev Address : Type := BitVec 64

/-! ## Histories -/

/-- `HiFive1BHT::Entry`. -/
structure BhtEntry where
  history : ℕ
  counters : ℕ → ℤ
  inside : history < 8
  low : ∀ index, 0 ≤ counters index
  high : ∀ index, counters index ≤ 3

/-- A counter after a branch. -/
def counted (branchTaken : Bool) (counter : ℤ) : ℤ :=
  if branchTaken then min (counter + 1) 3 else max (counter - 1) 0

/-- A history after a branch. -/
def shifted (branchTaken : Bool) (history : ℕ) : ℕ :=
  history >>> 1 ||| if branchTaken then 4 else 0

theorem shifted_lt (branchTaken : Bool) {history : ℕ} (inside : history < 8) :
    shifted branchTaken history < 8 := by
  interval_cases history <;> cases branchTaken <;> decide

theorem counted_low (branchTaken : Bool) {counter : ℤ} (low : 0 ≤ counter) :
    0 ≤ counted branchTaken counter := by
  unfold counted
  split <;> omega

theorem counted_high (branchTaken : Bool) {counter : ℤ} (high : counter ≤ 3) :
    counted branchTaken counter ≤ 3 := by
  unfold counted
  split <;> omega

namespace BhtEntry

theorem init_inside : 0 < 8 := by decide

theorem init_low (_ : ℕ) : (0 : ℤ) ≤ 0 := Int.le_refl 0

theorem init_high (_ : ℕ) : (0 : ℤ) ≤ 3 := by decide

def init : BhtEntry where
  history := 0
  counters _ := 0
  inside := init_inside
  low := init_low
  high := init_high

variable (entry : BhtEntry)

def predictBranchTaken : Bool := 2 ≤ entry.counters entry.history

/-- The counters after a branch. -/
def recounted (branchTaken : Bool) : ℕ → ℤ :=
  Function.update entry.counters entry.history
    (counted branchTaken (entry.counters entry.history))

theorem recounted_low (branchTaken : Bool) (index : ℕ) :
    0 ≤ entry.recounted branchTaken index := by
  by_cases same : index = entry.history
  · subst same
    rw [recounted, Function.update_self]
    exact counted_low _ (entry.low _)
  · rw [recounted, Function.update_of_ne same]
    exact entry.low index

theorem recounted_high (branchTaken : Bool) (index : ℕ) :
    entry.recounted branchTaken index ≤ 3 := by
  by_cases same : index = entry.history
  · subst same
    rw [recounted, Function.update_self]
    exact counted_high _ (entry.high _)
  · rw [recounted, Function.update_of_ne same]
    exact entry.high index

def updateHistory (branchTaken : Bool) : BhtEntry where
  history := shifted branchTaken entry.history
  counters := entry.recounted branchTaken
  inside := shifted_lt branchTaken entry.inside
  low := entry.recounted_low branchTaken
  high := entry.recounted_high branchTaken

end BhtEntry

/-! ## The predictor -/

/-- `HiFive1RAS::SIZE`. -/
def rasSize : ℕ := 2

/-- `HiFive1BTB::_tag`. -/
def btbTag (pc : Address) : ℕ := pc.toNat % 40

/-- The index of `HiFive1BHT::get_entry`. -/
def bhtTag (pc : Address) : ℕ := pc.toNat % 128

def branchMispredictionPenalty : ℕ := 3

structure HiFive1BranchPredictor where
  ras : List Address
  btb : ℕ → Address
  bht : ℕ → BhtEntry
  fits : ras.length ≤ rasSize

namespace HiFive1BranchPredictor

def init : HiFive1BranchPredictor where
  ras := []
  btb _ := 0
  bht _ := .init
  fits := Nat.zero_le rasSize

variable (predictor : HiFive1BranchPredictor)

def find (pc : Address) : Address := predictor.btb (btbTag pc)

def update (pc target : Address) : HiFive1BranchPredictor :=
  { predictor with btb := Function.update predictor.btb (btbTag pc) target }

theorem fits_push (link : Address) :
    (Queueing.push rasSize predictor.ras link).length ≤ rasSize :=
  (Queueing.Turns.push predictor.ras link).length_le predictor.fits

theorem fits_pop : predictor.ras.dropLast.length ≤ rasSize := by
  rw [List.length_dropLast]
  exact (Nat.sub_le _ _).trans predictor.fits

def pushRas (link : Address) : HiFive1BranchPredictor :=
  { predictor with
    ras := Queueing.push rasSize predictor.ras link
    fits := predictor.fits_push link }

def popRas : HiFive1BranchPredictor :=
  { predictor with
    ras := predictor.ras.dropLast
    fits := predictor.fits_pop }

/-- The cycles that the pipeline stalls, and the predictor after it. -/
def updateBranchPrediction (lastPc pc : Address) (branchTaken : Bool) :
    ℕ × HiFive1BranchPredictor :=
  let entry := predictor.bht (bhtTag lastPc)
  let (stall, later) :=
    if entry.predictBranchTaken then
      if branchTaken then
        if predictor.find lastPc ≠ pc then
          (branchMispredictionPenalty, predictor.update lastPc pc)
        else (0, predictor)
      else (branchMispredictionPenalty, predictor)
    else if branchTaken then
      (branchMispredictionPenalty, predictor.update lastPc pc)
    else (0, predictor)
  (stall, { later with
    bht := Function.update later.bht (bhtTag lastPc)
      (entry.updateHistory branchTaken) })

def doJump (lastPc pc : Address) : ℕ × HiFive1BranchPredictor :=
  if predictor.find lastPc ≠ pc then
    (branchMispredictionPenalty, predictor.update lastPc pc)
  else (0, predictor)

def doCall (lastPc pc link : Address) : ℕ × HiFive1BranchPredictor :=
  let (stall, later) := predictor.doJump lastPc pc
  (stall, later.pushRas link)

/-- An address that does not match is popped all the same. -/
def doRet (lastPc pc : Address) : ℕ × HiFive1BranchPredictor :=
  match predictor.ras.getLast? with
  | none => predictor.doJump lastPc pc
  | some top =>
      if pc ≠ top then predictor.popRas.doJump lastPc pc
      else (0, predictor.popRas)

end HiFive1BranchPredictor

/-- The instructions of which the predictor is told. -/
inductive Flow : Type
  | branch (lastPc pc : Address) (branchTaken : Bool)
  | jump (lastPc pc : Address)
  | call (lastPc pc link : Address)
  | ret (lastPc pc : Address)

namespace Flow

def lastPc : Flow → Address
  | branch lastPc _ _ => lastPc
  | jump lastPc _ => lastPc
  | call lastPc _ _ => lastPc
  | ret lastPc _ => lastPc

def isBranch : Flow → Bool
  | branch _ _ _ => true
  | _ => false

end Flow

namespace HiFive1BranchPredictor

def step (predictor : HiFive1BranchPredictor) :
    Flow → ℕ × HiFive1BranchPredictor
  | .branch lastPc pc branchTaken =>
      predictor.updateBranchPrediction lastPc pc branchTaken
  | .jump lastPc pc => predictor.doJump lastPc pc
  | .call lastPc pc link => predictor.doCall lastPc pc link
  | .ret lastPc pc => predictor.doRet lastPc pc

def run (predictor : HiFive1BranchPredictor) (flows : List Flow) :
    HiFive1BranchPredictor :=
  flows.foldl (fun predictor flow => (predictor.step flow).2) predictor

/-- The cycles that the instruction at an address costs in a run. -/
def stalls (site : Address) : List Flow → HiFive1BranchPredictor → ℕ
  | [], _ => 0
  | flow :: flows, predictor =>
      (if flow.lastPc = site then (predictor.step flow).1 else 0) +
        stalls site flows (predictor.step flow).2

end HiFive1BranchPredictor

/-! ## A branch that follows its history -/

open HiFive1BranchPredictor

/-- The instruction at the site is a branch to the target that is taken as its
history says, and no other instruction has its entries. -/
structure Follows (site target : Address) (outcome : ℕ → Bool)
    (predictor : HiFive1BranchPredictor) (flow : Flow) : Prop where
  branches : flow.lastPc = site → ∃ pc,
    flow = .branch site pc
      (outcome (predictor.bht (bhtTag site)).history) ∧
      (outcome (predictor.bht (bhtTag site)).history = true → pc = target)
  alone : flow.lastPc ≠ site → btbTag flow.lastPc ≠ btbTag site ∧
    (flow.isBranch → bhtTag flow.lastPc ≠ bhtTag site)

def Steps (predictor : HiFive1BranchPredictor) (flow : Flow)
    (later : HiFive1BranchPredictor) : Prop :=
  later = (predictor.step flow).2

/-- How far a counter is from predicting an outcome. -/
def deficit (branchTaken : Bool) (counter : ℤ) : ℕ :=
  if branchTaken then (2 - counter).toNat else (counter - 1).toNat

/-- How often the branch can still be predicted wrong. -/
def unlearned (site target : Address) (outcome : ℕ → Bool)
    (predictor : HiFive1BranchPredictor) : ℕ :=
  (∑ index ∈ Finset.range 8,
    deficit (outcome index) ((predictor.bht (bhtTag site)).counters index)) +
      if predictor.find site = target then 0 else 1

variable {site target : Address} {outcome : ℕ → Bool}
  {predictor : HiFive1BranchPredictor} {flow : Flow} {flows : List Flow}

theorem unlearned_le (site target : Address) (outcome : ℕ → Bool)
    (predictor : HiFive1BranchPredictor) :
    unlearned site target outcome predictor ≤ 17 := by
  have few : ∀ index ∈ Finset.range 8, deficit (outcome index)
      ((predictor.bht (bhtTag site)).counters index) ≤ 2 := by
    intro index _
    have low := (predictor.bht (bhtTag site)).low index
    have high := (predictor.bht (bhtTag site)).high index
    unfold deficit
    split <;> omega
  have total := Finset.sum_le_card_nsmul _ _ _ few
  rw [Finset.card_range, smul_eq_mul] at total
  unfold unlearned
  split <;> omega

/-- Only the counter of the current history moves. -/
theorem sum_recounted (outcome : ℕ → Bool) (entry : BhtEntry)
    (branchTaken : Bool) :
    deficit (outcome entry.history) (entry.counters entry.history) +
      ∑ index ∈ Finset.range 8,
        deficit (outcome index) (entry.recounted branchTaken index) =
    deficit (outcome entry.history)
        (counted branchTaken (entry.counters entry.history)) +
      ∑ index ∈ Finset.range 8,
        deficit (outcome index) (entry.counters index) := by
  have member : entry.history ∈ Finset.range 8 := Finset.mem_range.2 entry.inside
  rw [← Finset.add_sum_erase _ _ member,
    ← Finset.add_sum_erase (Finset.range 8)
      (fun index => deficit (outcome index) (entry.counters index)) member]
  have others : ∑ index ∈ (Finset.range 8).erase entry.history,
      deficit (outcome index) (entry.recounted branchTaken index) =
      ∑ index ∈ (Finset.range 8).erase entry.history,
        deficit (outcome index) (entry.counters index) := by
    refine Finset.sum_congr rfl fun index other => ?_
    rw [BhtEntry.recounted, Function.update_of_ne (Finset.ne_of_mem_erase other)]
  have here : entry.recounted branchTaken entry.history =
      counted branchTaken (entry.counters entry.history) :=
    Function.update_self ..
  rw [others, here]
  omega

/-- The counter moves towards the outcome, if it does not predict it already. -/
theorem deficit_counted (branchTaken : Bool) {counter : ℤ} (low : 0 ≤ counter)
    (high : counter ≤ 3) :
    (if decide (2 ≤ counter) = branchTaken then 0 else 1) +
      deficit branchTaken (counted branchTaken counter) ≤
        deficit branchTaken counter := by
  cases branchTaken <;> simp only [deficit, counted] <;> split <;>
    rename_i predicted <;> simp at predicted ⊢ <;> omega

theorem find_update {pc : Address} (other : btbTag pc ≠ btbTag site)
    (predictor : HiFive1BranchPredictor) (aim : Address) :
    (predictor.update pc aim).find site = predictor.find site :=
  Function.update_of_ne (Ne.symm other) _ _

theorem find_update_self (predictor : HiFive1BranchPredictor) (pc aim : Address) :
    (predictor.update pc aim).find pc = aim :=
  Function.update_self ..

/-- What a site knows stays. -/
structure Keeps (site : Address) (predictor later : HiFive1BranchPredictor) :
    Prop where
  bht : later.bht (bhtTag site) = predictor.bht (bhtTag site)
  find : later.find site = predictor.find site

theorem keeps_doJump {lastPc : Address} (other : btbTag lastPc ≠ btbTag site)
    (predictor : HiFive1BranchPredictor) (pc : Address) :
    Keeps site predictor (predictor.doJump lastPc pc).2 := by
  unfold doJump
  split
  · exact ⟨rfl, find_update other predictor pc⟩
  · exact ⟨rfl, rfl⟩

theorem keeps_doRet {lastPc : Address} (other : btbTag lastPc ≠ btbTag site)
    (predictor : HiFive1BranchPredictor) (pc : Address) :
    Keeps site predictor (predictor.doRet lastPc pc).2 := by
  unfold doRet
  split
  · exact keeps_doJump other predictor pc
  · split
    · have jumped := keeps_doJump other predictor.popRas pc
      exact ⟨jumped.bht, jumped.find⟩
    · exact ⟨rfl, rfl⟩

theorem bht_updateBranchPrediction (predictor : HiFive1BranchPredictor)
    (lastPc pc : Address) (branchTaken : Bool) :
    (predictor.updateBranchPrediction lastPc pc branchTaken).2.bht =
      Function.update predictor.bht (bhtTag lastPc)
        ((predictor.bht (bhtTag lastPc)).updateHistory branchTaken) := by
  unfold updateBranchPrediction
  dsimp only
  split_ifs <;> rfl

theorem keeps_updateBranchPrediction {lastPc : Address}
    (targets : btbTag lastPc ≠ btbTag site)
    (histories : bhtTag lastPc ≠ bhtTag site)
    (predictor : HiFive1BranchPredictor) (pc : Address) (branchTaken : Bool) :
    Keeps site predictor
      (predictor.updateBranchPrediction lastPc pc branchTaken).2 where
  bht := by
    rw [bht_updateBranchPrediction]
    exact Function.update_of_ne (Ne.symm histories) _ _
  find := by
    unfold updateBranchPrediction
    dsimp only
    split_ifs
    all_goals first
      | rfl
      | exact find_update targets predictor pc

theorem keeps_of_alone (follows : Follows site target outcome predictor flow)
    (other : flow.lastPc ≠ site) :
    Keeps site predictor (predictor.step flow).2 := by
  obtain ⟨targets, histories⟩ := follows.alone other
  cases flow with
  | branch lastPc pc branchTaken =>
      exact keeps_updateBranchPrediction targets (histories rfl) _ _ _
  | jump lastPc pc => exact keeps_doJump targets _ _
  | call lastPc pc link =>
      have jumped := keeps_doJump targets predictor pc
      exact ⟨jumped.bht, jumped.find⟩
  | ret lastPc pc => exact keeps_doRet targets _ _

/-- A branch costs nothing if both its direction and its target are predicted. -/
theorem stall_updateBranchPrediction (predictor : HiFive1BranchPredictor)
    (lastPc pc : Address) (branchTaken : Bool) :
    (predictor.updateBranchPrediction lastPc pc branchTaken).1 =
      if (predictor.bht (bhtTag lastPc)).predictBranchTaken = branchTaken ∧
        (branchTaken = true → predictor.find lastPc = pc) then 0 else 3 := by
  unfold updateBranchPrediction
  dsimp only
  split_ifs <;> simp_all [branchMispredictionPenalty]

theorem find_updateBranchPrediction (predictor : HiFive1BranchPredictor)
    (lastPc pc : Address) (branchTaken : Bool) :
    (predictor.updateBranchPrediction lastPc pc branchTaken).2.find lastPc =
      if branchTaken then pc else predictor.find lastPc := by
  have updated := find_update_self predictor lastPc pc
  unfold updateBranchPrediction
  dsimp only
  split_ifs with predicted taken apart
  · exact updated
  · exact not_not.1 apart
  · rfl
  · exact updated
  · rfl

/-- The counters learn from a branch that they predict wrong. -/
theorem sum_recounted_le (outcome : ℕ → Bool) (entry : BhtEntry) :
    (if entry.predictBranchTaken = outcome entry.history then 0 else 1) +
      ∑ index ∈ Finset.range 8, deficit (outcome index)
        (entry.recounted (outcome entry.history) index) ≤
      ∑ index ∈ Finset.range 8,
        deficit (outcome index) (entry.counters index) := by
  have sums := sum_recounted outcome entry (outcome entry.history)
  have learned := deficit_counted (outcome entry.history)
    (entry.low entry.history) (entry.high entry.history)
  change (if entry.predictBranchTaken = outcome entry.history then 0 else 1) +
    _ ≤ _ at learned
  omega

theorem stall_add_unlearned_of_branch (predictor : HiFive1BranchPredictor)
    {pc : Address} {branchTaken : Bool}
    (foretold : branchTaken = outcome (predictor.bht (bhtTag site)).history)
    (aims : branchTaken = true → pc = target) :
    (predictor.updateBranchPrediction site pc branchTaken).1 +
      3 * unlearned site target outcome
        (predictor.updateBranchPrediction site pc branchTaken).2 ≤
        3 * unlearned site target outcome predictor := by
  have learned := sum_recounted_le outcome (predictor.bht (bhtTag site))
  rw [← foretold] at learned
  -- A wrong direction is paid by the counters, a wrong target by the table.
  have paid : (if (predictor.bht (bhtTag site)).predictBranchTaken = branchTaken ∧
        (branchTaken = true → predictor.find site = pc) then 0 else 3) +
      3 * (if (if branchTaken then pc else predictor.find site) = target
        then 0 else 1) ≤
      3 * (if (predictor.bht (bhtTag site)).predictBranchTaken = branchTaken
        then 0 else 1) +
      3 * (if predictor.find site = target then 0 else 1) := by
    cases branchTaken with
    | false => simp
    | true =>
        rw [aims rfl]
        split_ifs <;> simp_all
  rw [unlearned, unlearned, stall_updateBranchPrediction,
    find_updateBranchPrediction, bht_updateBranchPrediction, Function.update_self]
  change _ + 3 * ((∑ index ∈ Finset.range 8, deficit (outcome index)
    ((predictor.bht (bhtTag site)).recounted branchTaken index)) + _) ≤ _
  omega

theorem stall_add_unlearned_le
    (follows : Follows site target outcome predictor flow) :
    (if flow.lastPc = site then (predictor.step flow).1 else 0) +
      3 * unlearned site target outcome (predictor.step flow).2 ≤
        3 * unlearned site target outcome predictor := by
  by_cases same : flow.lastPc = site
  · obtain ⟨pc, rfl, aims⟩ := follows.branches same
    rw [if_pos same]
    exact stall_add_unlearned_of_branch predictor rfl aims
  · have kept := keeps_of_alone follows same
    rw [if_neg same, unlearned, unlearned, kept.bht, kept.find, Nat.zero_add]

/-- Whatever runs in between, a branch that is taken as its last three outcomes say
is predicted wrong at most seventeen times. -/
theorem stalls_le_of_follows
    (every : EveryEvent Steps (Follows site target outcome) flows predictor) :
    stalls site flows predictor ≤ 17 * branchMispredictionPenalty := by
  have spent : stalls site flows predictor ≤
      3 * unlearned site target outcome predictor := by
    induction flows generalizing predictor with
    | nil => exact Nat.zero_le _
    | cons flow flows inductionHypothesis =>
        obtain ⟨follows, rest⟩ := every
        have later := inductionHypothesis (rest _ rfl)
        have now := stall_add_unlearned_le follows
        rw [stalls]
        omega
  have few := unlearned_le site target outcome predictor
  rw [branchMispredictionPenalty]
  omega

/-- Three rounds of a loop. -/
def loopThrice : List Flow :=
  [.branch 0x108 0x100 true, .branch 0x108 0x100 true, .branch 0x108 0x100 true]

theorem stalls_le_of_follows_loopThrice :
    EveryEvent Steps (Follows 0x108 0x100 fun _ => true) loopThrice .init ∧
      stalls 0x108 loopThrice .init ≤ 17 * branchMispredictionPenalty := by
  have every : EveryEvent Steps (Follows 0x108 0x100 fun _ => true) loopThrice
      .init := by
    have follows : ∀ predictor, Follows 0x108 0x100 (fun _ => true) predictor
        (.branch 0x108 0x100 true) := fun predictor =>
      { branches := fun _ => Exists.intro 0x100 (And.intro rfl fun _ => rfl)
        alone := fun other => absurd rfl other }
    exact And.intro (follows _) fun _ _ => And.intro (follows _) fun _ _ =>
      And.intro (follows _) fun _ _ => trivial
  exact ⟨every, stalls_le_of_follows every⟩

/-! ## Returns -/

/-- Calls that return to the instruction after them, with branches and jumps in
between. -/
inductive Nested : Queueing.Calls Address → List Flow → Prop
  | nil : Nested .nil []
  | branch {calls : Queueing.Calls Address} {flows : List Flow}
      (lastPc pc : Address) (branchTaken : Bool) : Nested calls flows →
        Nested calls (.branch lastPc pc branchTaken :: flows)
  | jump {calls : Queueing.Calls Address} {flows : List Flow}
      (lastPc pc : Address) : Nested calls flows →
        Nested calls (.jump lastPc pc :: flows)
  | call {inside after : Queueing.Calls Address} {body rest : List Flow}
      (lastPc pc link last : Address) : Nested inside body → Nested after rest →
        Nested (.call link inside after)
          (.call lastPc pc link :: (body ++ .ret last link :: rest))

/-- One for a return whose address is not the last of the stack. -/
def misses (predictor : HiFive1BranchPredictor) : Flow → ℕ
  | .branch _ _ _ => 0
  | .jump _ _ => 0
  | .call _ _ _ => 0
  | .ret _ pc => if predictor.ras.getLast? = some pc then 0 else 1

/-- The returns in a run that the stack does not predict. -/
def unpredicted : List Flow → HiFive1BranchPredictor → ℕ
  | [], _ => 0
  | flow :: flows, predictor =>
      misses predictor flow + unpredicted flows (predictor.step flow).2

theorem run_append (first second : List Flow)
    (predictor : HiFive1BranchPredictor) :
    predictor.run (first ++ second) = (predictor.run first).run second :=
  List.foldl_append

theorem unpredicted_append (first second : List Flow)
    (predictor : HiFive1BranchPredictor) :
    unpredicted (first ++ second) predictor =
      unpredicted first predictor + unpredicted second (predictor.run first) := by
  induction first generalizing predictor with
  | nil => exact (Nat.zero_add _).symm
  | cons flow flows inductionHypothesis =>
      rw [List.cons_append, unpredicted, unpredicted, inductionHypothesis,
        Nat.add_assoc]
      rfl

theorem ras_doJump (predictor : HiFive1BranchPredictor) (lastPc pc : Address) :
    (predictor.doJump lastPc pc).2.ras = predictor.ras := by
  unfold doJump
  split <;> rfl

theorem ras_updateBranchPrediction (predictor : HiFive1BranchPredictor)
    (lastPc pc : Address) (branchTaken : Bool) :
    (predictor.updateBranchPrediction lastPc pc branchTaken).2.ras =
      predictor.ras := by
  unfold updateBranchPrediction
  dsimp only
  split_ifs <;> rfl

theorem ras_doCall (predictor : HiFive1BranchPredictor)
    (lastPc pc link : Address) : (predictor.doCall lastPc pc link).2.ras =
      Queueing.push rasSize predictor.ras link := by
  rw [← ras_doJump predictor lastPc pc]
  rfl

theorem ras_doRet (predictor : HiFive1BranchPredictor) (lastPc pc : Address) :
    (predictor.doRet lastPc pc).2.ras = predictor.ras.dropLast := by
  unfold doRet
  split
  next empty =>
    rw [ras_doJump, List.getLast?_eq_none_iff.1 empty]
    rfl
  next =>
    split
    · exact ras_doJump predictor.popRas lastPc pc
    · rfl

/-- The stack follows the calls. -/
theorem left_of_nested {calls : Queueing.Calls Address} (nested : Nested calls flows)
    (predictor : HiFive1BranchPredictor) :
    (predictor.run flows).ras = calls.left rasSize predictor.ras ∧
      unpredicted flows predictor = calls.missed rasSize predictor.ras := by
  induction nested generalizing predictor with
  | nil => exact ⟨rfl, rfl⟩
  | branch lastPc pc branchTaken _ inductionHypothesis =>
      have rest := inductionHypothesis
        (predictor.updateBranchPrediction lastPc pc branchTaken).2
      rw [ras_updateBranchPrediction] at rest
      exact ⟨rest.1, (Nat.zero_add _).trans rest.2⟩
  | jump lastPc pc _ inductionHypothesis =>
      have rest := inductionHypothesis (predictor.doJump lastPc pc).2
      rw [ras_doJump] at rest
      exact ⟨rest.1, (Nat.zero_add _).trans rest.2⟩
  | @call inside after body rest lastPc pc link last _ _ bodyHypothesis
      restHypothesis =>
      obtain ⟨called, missedInside⟩ :=
        bodyHypothesis (predictor.doCall lastPc pc link).2
      rw [ras_doCall] at called missedInside
      obtain ⟨returned, missedAfter⟩ := restHypothesis
        (((predictor.doCall lastPc pc link).2.run body).doRet last link).2
      rw [ras_doRet, called] at returned missedAfter
      constructor
      · change ((predictor.doCall lastPc pc link).2.run
          (body ++ .ret last link :: rest)).ras = _
        rw [run_append]
        exact returned
      · change 0 + unpredicted (body ++ .ret last link :: rest)
          (predictor.doCall lastPc pc link).2 = _
        rw [Nat.zero_add, unpredicted_append, missedInside]
        change _ + ((if ((predictor.doCall lastPc pc link).2.run body).ras.getLast? =
          some link then 0 else 1) + unpredicted rest
            (((predictor.doCall lastPc pc link).2.run body).doRet last link).2) = _
        rw [called, missedAfter, Queueing.Calls.missed]
        omega

/-- A return that is predicted costs nothing. -/
theorem stall_doRet (predictor : HiFive1BranchPredictor) (lastPc : Address)
    {pc : Address} (last : predictor.ras.getLast? = some pc) :
    (predictor.doRet lastPc pc).1 = 0 := by
  rw [doRet, last]
  exact congrArg Prod.fst (if_neg (not_not.2 rfl))

/-- The cycles that a return costs. -/
def returnStall (predictor : HiFive1BranchPredictor) : Flow → ℕ
  | .branch _ _ _ => 0
  | .jump _ _ => 0
  | .call _ _ _ => 0
  | .ret lastPc pc => (predictor.doRet lastPc pc).1

/-- The cycles that the returns of a run cost. -/
def returnStalls : List Flow → HiFive1BranchPredictor → ℕ
  | [], _ => 0
  | flow :: flows, predictor =>
      returnStall predictor flow + returnStalls flows (predictor.step flow).2

theorem stall_doJump_le (predictor : HiFive1BranchPredictor)
    (lastPc pc : Address) :
    (predictor.doJump lastPc pc).1 ≤ branchMispredictionPenalty := by
  unfold doJump
  split
  · exact Nat.le_refl _
  · exact Nat.zero_le _

theorem stall_doRet_le (predictor : HiFive1BranchPredictor)
    (lastPc pc : Address) :
    (predictor.doRet lastPc pc).1 ≤ branchMispredictionPenalty := by
  unfold doRet
  split
  · exact stall_doJump_le ..
  · split
    · exact stall_doJump_le ..
    · exact Nat.zero_le _

theorem returnStalls_le (flows : List Flow) (predictor : HiFive1BranchPredictor) :
    returnStalls flows predictor ≤
      branchMispredictionPenalty * unpredicted flows predictor := by
  induction flows generalizing predictor with
  | nil => exact Nat.zero_le _
  | cons flow flows inductionHypothesis =>
      have rest := inductionHypothesis (predictor.step flow).2
      rw [returnStalls, unpredicted, Nat.mul_add]
      refine Nat.add_le_add ?_ rest
      cases flow with
      | branch => exact Nat.zero_le _
      | jump => exact Nat.zero_le _
      | call => exact Nat.zero_le _
      | ret lastPc pc =>
          rw [returnStall, misses]
          split
          next predicted =>
            rw [stall_doRet predictor lastPc predicted]
            exact Nat.zero_le _
          next => exact stall_doRet_le ..

/-- In a run of calls that return, the stack predicts the returns of exactly those
calls below which fewer than two are nested, only the others can cost cycles, and
what the stack held is left as far as the calls made room. -/
theorem returns_of_nested {calls : Queueing.Calls Address}
    (nested : Nested calls flows) (predictor : HiFive1BranchPredictor) :
    unpredicted flows predictor = calls.deep rasSize ∧
      returnStalls flows predictor ≤
        branchMispredictionPenalty * calls.deep rasSize ∧
      (predictor.run flows).ras.reverse =
        predictor.ras.reverse.take (rasSize - calls.depth) := by
  obtain ⟨left, missed⟩ := left_of_nested nested predictor
  rw [Queueing.Calls.missed_eq_deep predictor.fits] at missed
  have stalled := returnStalls_le flows predictor
  rw [missed] at stalled
  refine ⟨missed, stalled, ?_⟩
  rw [left, Queueing.Calls.reverse_left predictor.fits]

/-- Three calls, each inside the one before. -/
def threeDeep : Queueing.Calls Address :=
  .call 0x104 (.call 0x204 (.call 0x304 .nil .nil) .nil) .nil

theorem returns_of_nested_threeDeep :
    ∃ flows, Nested threeDeep flows ∧ unpredicted flows .init = 1 := by
  have nested := Nested.call 0x100 0x200 0x104 0x20C
    (.call 0x200 0x300 0x204 0x308 (.call 0x300 0x400 0x304 0x400 .nil .nil) .nil)
      .nil
  exact ⟨_, nested, (returns_of_nested nested .init).1⟩

end BranchTiming

end RiscvVp
