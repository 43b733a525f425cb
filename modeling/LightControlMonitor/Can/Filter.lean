import LightControlMonitor.Can.Message
import LightControlMonitor.Lib.Flags
import Mathlib.Data.List.Permutation
import Mathlib.Logic.Function.Basic
import Mathlib.Tactic.IntervalCases

/-!
# The acceptance filters

`gd32_can_configure` and the filter command of `gd32_can_control`, down to the filter registers. All 28 banks are registers of CAN0's block: the first 14 select frames for CAN0, the others for CAN1, and resetting CAN0 turns all of them off. The parameter record is one static variable, so the scale of a bank is the one the last configuration left there.

Configuring a device installs a bank that accepts everything; the receive thread installs a bank that compares the source address. For CAN0 both are bank 0. For CAN1 they are 15 and 14, and the frame passes when either accepts it.
-/

namespace LightControlMonitor.Can

inductive FilterBits
  | bits16
  | bits32
  deriving DecidableEq

inductive FilterMode
  | mask
  | list
  deriving DecidableEq

/-- `can_filter_parameter_struct`; `filter_fifo_number` holds for `CAN_FIFO1`. -/
structure FilterPara where
  filterListHigh : BitVec 16
  filterListLow : BitVec 16
  filterMaskHigh : BitVec 16
  filterMaskLow : BitVec 16
  filterFifoNumber : Bool
  filterNumber : Nat
  filterMode : FilterMode
  filterBits : FilterBits
  filterEnable : Bool

/-- The filter registers of CAN0's block. -/
structure FilterRegs where
  fmcfg : BitVec 32
  fscfg : BitVec 32
  fafifo : BitVec 32
  fw : BitVec 32
  fdata0 : Nat → BitVec 32
  fdata1 : Nat → BitVec 32

structure FilterState where
  regs : FilterRegs
  canFilter : FilterPara

/-- `struct rt_can_filter_item`, less the callback; `mode` holds for the list mode. -/
structure FilterItem where
  id : BitVec 29
  ide : Bool
  rtr : Bool
  mode : Bool
  mask : BitVec 32
  hdrBank : Int

/-! ### The drivers -/

/-- `can_struct_para_init` for `CAN_FILTER_STRUCT`. -/
def filterStructInit : FilterPara where
  filterListHigh := 0
  filterListLow := 0
  filterMaskHigh := 0
  filterMaskLow := 0
  filterFifoNumber := false
  filterNumber := 0
  filterMode := .mask
  filterBits := .bits32
  filterEnable := false

def FilterRegs.reset : FilterRegs where
  fmcfg := 0
  fscfg := 0
  fafifo := 0
  fw := 0
  fdata0 := fun _ => 0
  fdata1 := fun _ => 0

/-- `can_deinit`: CAN1's block has no filter registers of its own. -/
def canDeinit (dev : CanDev) (regs : FilterRegs) : FilterRegs :=
  match dev with
  | .can0 => .reset
  | .can1 => regs

/-- `can_filter_init`; `high ++ low` is `FDATA_MASK_HIGH (high) | FDATA_MASK_LOW (low)`. -/
def canFilterInit (p : FilterPara) (regs : FilterRegs) : FilterRegs :=
  let number := p.filterNumber
  let words :=
    match p.filterBits with
    | .bits16 => (p.filterMaskLow ++ p.filterListLow, p.filterMaskHigh ++ p.filterListHigh)
    | .bits32 => (p.filterListHigh ++ p.filterListLow, p.filterMaskHigh ++ p.filterMaskLow)
  let off := Flags.clear regs.fw number
  { fscfg := Flags.put regs.fscfg number (p.filterBits = .bits32)
    fdata0 := Function.update regs.fdata0 number words.1
    fdata1 := Function.update regs.fdata1 number words.2
    fmcfg := Flags.put regs.fmcfg number (p.filterMode = .list)
    fafifo := Flags.put regs.fafifo number p.filterFifoNumber
    fw := if p.filterEnable then Flags.set off number else off }

def defaultBank : CanDev → Nat
  | .can0 => 0
  | .can1 => 15

/-- `gd32_can_configure`, less the bit timing. -/
def gd32CanConfigure (dev : CanDev) (s : FilterState) : FilterState :=
  let canFilter := { filterStructInit with filterNumber := defaultBank dev, filterEnable := true }
  { regs := canFilterInit canFilter (canDeinit dev s.regs), canFilter }

/-- The bank of the entry `i`; a bank of its own is narrowed to `filter_number`. -/
def itemBank (dev : CanDev) (i : Nat) (item : FilterItem) : Nat :=
  if item.hdrBank = -1 then
    match dev with
    | .can0 => i
    | .can1 => 14 + i
  else (item.hdrBank % 2 ^ 16).toNat

def setItem (dev : CanDev) (s : FilterState) (entry : FilterItem × Nat) : FilterState :=
  let item := entry.1
  let low := (BitVec.ofBool item.ide).setWidth 16 <<< 2 ||| (BitVec.ofBool item.rtr).setWidth 16 <<< 1
  let canFilter :=
    { s.canFilter with
      filterNumber := itemBank dev entry.2 item
      filterListHigh := item.id.setWidth 16 <<< 5, filterListLow := low
      filterMaskHigh := item.mask.setWidth 16 <<< 5, filterMaskLow := low
      filterMode := if item.mode then .list else .mask, filterFifoNumber := false, filterEnable := true }
  { regs := canFilterInit canFilter s.regs, canFilter }

/-- `RT_CAN_CMD_SET_FILTER` of `gd32_can_control`. -/
def gd32CanSetFilter (dev : CanDev) (arg : Option (List FilterItem)) (s : FilterState) : FilterState :=
  match arg with
  | none =>
    let canFilter := { s.canFilter with filterNumber := defaultBank dev }
    { regs := canFilterInit canFilter s.regs, canFilter }
  | some items => items.zipIdx.foldl (setItem dev) s

/-- The filter of `can_rx_thread`. -/
def rxItems : List FilterItem :=
  [{ id := 0x00, ide := false, rtr := false, mode := false, mask := 0x0ff, hdrBank := -1 }]

/-! ### The hardware -/

def bankNumbers : CanDev → List Nat
  | .can0 => List.range' 0 14
  | .can1 => List.range' 14 14

/-- A standard data frame against a word of each scale. -/
def word32 (id : BitVec 11) : BitVec 32 := id ++ 0#21

def word16 (id : BitVec 11) : BitVec 16 := id ++ 0#5

def maskMatch {n : Nat} (word list mask : BitVec n) : Bool := (word ^^^ list) &&& mask = 0

/-- A mask-mode bank with the data words `fdata0` and `fdata1` accepts the frame. -/
def wordsAccept (bits32 : Bool) (fdata0 fdata1 : BitVec 32) (id : BitVec 11) : Bool :=
  if bits32 then maskMatch (word32 id) fdata0 fdata1
  else
    maskMatch (word16 id) (fdata0.setWidth 16) ((fdata0 >>> 16).setWidth 16) ||
      maskMatch (word16 id) (fdata1.setWidth 16) ((fdata1 >>> 16).setWidth 16)

def bankAccepts (regs : FilterRegs) (bank : Nat) (id : BitVec 11) : Bool :=
  regs.fw.getLsbD bank && !regs.fmcfg.getLsbD bank &&
    wordsAccept (regs.fscfg.getLsbD bank) (regs.fdata0 bank) (regs.fdata1 bank) id

def delivers (s : FilterState) (dev : CanDev) (id : BitVec 11) : Bool :=
  (bankNumbers dev).any fun bank => bankAccepts s.regs bank id

/-! ### Setting up -/

inductive SetUp
  | configure (dev : CanDev)
  | setFilter (dev : CanDev)
  deriving DecidableEq

def SetUp.apply (s : FilterState) : SetUp → FilterState
  | .configure dev => gd32CanConfigure dev s
  | .setFilter dev => gd32CanSetFilter dev (some rxItems) s

/-- After power-on the registers have their reset values and the static record is zero. -/
def FilterState.start : FilterState where
  regs := .reset
  canFilter := { filterStructInit with filterBits := .bits16 }

def setUp (order : List SetUp) : FilterState := order.foldl SetUp.apply .start

/-- Each bus delivers the standard data frames whose source address is 0, and no other. -/
def SourceOnly (s : FilterState) : Prop :=
  ∀ dev id, delivers s dev id = true ↔ id &&& 0xff = 0

/-! ### What a bank accepts -/

def FilterPara.words (p : FilterPara) : BitVec 32 × BitVec 32 :=
  match p.filterBits with
  | .bits16 => (p.filterMaskLow ++ p.filterListLow, p.filterMaskHigh ++ p.filterListHigh)
  | .bits32 => (p.filterListHigh ++ p.filterListLow, p.filterMaskHigh ++ p.filterMaskLow)

def FilterPara.accepts (p : FilterPara) (id : BitVec 11) : Bool :=
  p.filterEnable && !decide (p.filterMode = .list) &&
    wordsAccept (decide (p.filterBits = .bits32)) p.words.1 p.words.2 id

theorem bankAccepts_canFilterInit (p : FilterPara) (regs : FilterRegs) (hnumber : p.filterNumber < 32) (bank : Nat)
    (id : BitVec 11) : bankAccepts (canFilterInit p regs) bank id =
      if bank = p.filterNumber then p.accepts id else bankAccepts regs bank id := by
  have hwords : (match p.filterBits with
    | .bits16 => (p.filterMaskLow ++ p.filterListLow, p.filterMaskHigh ++ p.filterListHigh)
    | .bits32 => (p.filterListHigh ++ p.filterListLow, p.filterMaskHigh ++ p.filterMaskLow)) = p.words := rfl
  rw [bankAccepts, canFilterInit, hwords, Flags.getLsbD_put _ hnumber, Flags.getLsbD_put _ hnumber]
  by_cases hbank : bank = p.filterNumber
  · subst hbank
    cases henable : p.filterEnable <;>
      simp [Flags.getLsbD_set _ hnumber, Flags.getLsbD_clear, FilterPara.accepts, henable]
  · cases henable : p.filterEnable <;>
      simp [hbank, Flags.getLsbD_set _ hnumber, Flags.getLsbD_clear, bankAccepts]

theorem bankAccepts_reset (bank : Nat) (id : BitVec 11) : bankAccepts .reset bank id = false := by
  simp [bankAccepts, FilterRegs.reset]

theorem maskMatch_zero {n : Nat} (word list : BitVec n) : maskMatch word list 0 = true := by simp [maskMatch]

/-- The mask of the receive threads leaves the source address. -/
theorem maskMatch_word32 (id : BitVec 11) : maskMatch (word32 id) 0 0x1fe00000 = decide (id &&& 0xff = 0) := by
  have hword : (word32 id ^^^ 0) &&& 0x1fe00000 = (id &&& 0xff) ++ 0#21 := by
    rw [show word32 id ^^^ 0 = word32 id from BitVec.xor_zero, word32,
      show (0x1fe00000 : BitVec 32) = (0xff : BitVec 11) ++ 0#21 from rfl, BitVec.and_append]
    simp
  rw [maskMatch, hword, show (0 : BitVec 32) = 0#11 ++ 0#21 from rfl]
  exact decide_eq_decide.mpr (BitVec.append_left_inj _)

/-! ### The three banks in use

What the drivers ever install is one of two filters, in one of three banks. -/

inductive Rule
  | off
  | everything
  | source
  deriving DecidableEq

def Rule.accepts : Rule → BitVec 11 → Bool
  | .off, _ => false
  | .everything, _ => true
  | .source, id => id &&& 0xff = 0

@[simp] theorem Rule.accepts_off (id : BitVec 11) : Rule.off.accepts id = false := rfl

/-- `opened` holds once a device has been configured, which makes the scale 32 bits. -/
structure Rules where
  opened : Bool
  bank0 : Rule
  bank14 : Rule
  bank15 : Rule
  deriving DecidableEq

def Rules.bank (r : Rules) (bank : Nat) : Rule :=
  if bank = 0 then r.bank0 else if bank = 14 then r.bank14 else if bank = 15 then r.bank15 else .off

/-- In the 16 bit scale the second half of the source filter is empty and accepts everything. -/
def Rules.installed (r : Rules) : Rule := if r.opened then .source else .everything

def Rules.apply (r : Rules) : SetUp → Rules
  | .configure .can0 => { opened := true, bank0 := .everything, bank14 := .off, bank15 := .off }
  | .configure .can1 => { r with opened := true, bank15 := .everything }
  | .setFilter .can0 => { r with bank0 := r.installed }
  | .setFilter .can1 => { r with bank14 := r.installed }

def Rules.start : Rules := { opened := false, bank0 := .off, bank14 := .off, bank15 := .off }

/-- The registers act as the rules say, and the static record has the scale they assume. -/
structure Shows (s : FilterState) (r : Rules) : Prop where
  bits : s.canFilter.filterBits = if r.opened then .bits32 else .bits16
  banks : ∀ bank id, bankAccepts s.regs bank id = (r.bank bank).accepts id

theorem shows_start : Shows .start .start where
  bits := rfl
  banks bank id := by
    rw [show FilterState.start.regs = .reset from rfl, bankAccepts_reset]
    simp [Rules.bank, Rules.start]

theorem configured_accepts (dev : CanDev) (id : BitVec 11) :
    { filterStructInit with filterNumber := defaultBank dev, filterEnable := true : FilterPara }.accepts id = true := by
  cases dev <;> exact maskMatch_zero _ 0

theorem Shows.configure {s : FilterState} {r : Rules} (h : Shows s r) (dev : CanDev) :
    Shows (gd32CanConfigure dev s) (r.apply (.configure dev)) where
  bits := by cases dev <;> rfl
  banks bank id := by
    have hnumber : defaultBank dev < 32 := by cases dev <;> decide
    rw [gd32CanConfigure, bankAccepts_canFilterInit _ _ hnumber, configured_accepts]
    cases dev with
    | can0 =>
      rw [canDeinit, bankAccepts_reset]
      by_cases hbank : bank = 0 <;> simp [hbank, defaultBank, Rules.apply, Rules.bank, Rule.accepts]
    | can1 =>
      rw [canDeinit, h.banks]
      by_cases hbank : bank = 15
      · simp [hbank, defaultBank, Rules.apply, Rules.bank, Rule.accepts]
      · simp [hbank, defaultBank, Rules.apply, Rules.bank]

theorem setFilter_eq (dev : CanDev) (s : FilterState) : ∃ p : FilterPara,
    gd32CanSetFilter dev (some rxItems) s = { regs := canFilterInit p s.regs, canFilter := p } ∧
      p.filterBits = s.canFilter.filterBits ∧ p.filterNumber = (match dev with | .can0 => 0 | .can1 => 14) ∧
        ∀ id, p.accepts id = if s.canFilter.filterBits = .bits32 then decide (id &&& 0xff = 0) else true := by
  refine ⟨_, rfl, rfl, by cases dev <;> rfl, fun id => ?_⟩
  rcases hbits : s.canFilter.filterBits
  · simp [FilterPara.accepts, FilterPara.words, hbits, wordsAccept, maskMatch]
  · simp only [FilterPara.accepts, FilterPara.words, hbits, wordsAccept]
    exact maskMatch_word32 id

theorem Shows.setFilter {s : FilterState} {r : Rules} (h : Shows s r) (dev : CanDev) :
    Shows (gd32CanSetFilter dev (some rxItems) s) (r.apply (.setFilter dev)) := by
  obtain ⟨p, heq, hbits, hnumber, haccepts⟩ := setFilter_eq dev s
  have hrule : ∀ id, p.accepts id = r.installed.accepts id := by
    intro id
    rw [haccepts, h.bits, Rules.installed]
    cases r.opened <;> rfl
  rw [heq]
  refine ⟨?_, fun bank id => ?_⟩
  · rw [hbits, h.bits]
    cases dev <;> rfl
  · rw [bankAccepts_canFilterInit p _ (by rw [hnumber]; cases dev <;> decide), hrule, h.banks, hnumber]
    cases dev with
    | can0 => by_cases hbank : bank = 0 <;> simp [hbank, Rules.apply, Rules.bank]
    | can1 =>
      by_cases hbank : bank = 14
      · simp [hbank, Rules.apply, Rules.bank]
      · simp [hbank, Rules.apply, Rules.bank]

theorem Shows.apply {s : FilterState} {r : Rules} (h : Shows s r) (action : SetUp) :
    Shows (action.apply s) (r.apply action) := by
  cases action with
  | configure dev => exact h.configure dev
  | setFilter dev => exact h.setFilter dev

theorem Shows.foldl {s : FilterState} {r : Rules} (h : Shows s r) (order : List SetUp) :
    Shows (order.foldl SetUp.apply s) (order.foldl Rules.apply r) := by
  induction order generalizing s r with
  | nil => exact h
  | cons action order ih => exact ih (h.apply action)

/-! ### What a bus delivers -/

def Rule.either : Rule → Rule → Rule
  | .everything, _ => .everything
  | _, .everything => .everything
  | .off, rule => rule
  | .source, _ => .source

theorem Rule.accepts_either (rule other : Rule) (id : BitVec 11) :
    (rule.either other).accepts id = (rule.accepts id || other.accepts id) := by
  cases rule <;> cases other <;> simp [either, accepts]

/-- Address 0 tells the source filter from an empty bus, address 1 from an open one. -/
theorem Rule.eq_source_iff (rule : Rule) : (∀ id, rule.accepts id = true ↔ id &&& 0xff = 0) ↔ rule = .source := by
  constructor
  · intro h
    cases rule with
    | off => exact absurd ((h 0).mpr rfl) (by decide)
    | everything => exact absurd ((h 1).mp rfl) (by decide)
    | source => rfl
  · rintro rfl id
    exact decide_eq_true_iff

def Rules.bus (r : Rules) : CanDev → Rule
  | .can0 => r.bank0
  | .can1 => r.bank14.either r.bank15

theorem Shows.delivers {s : FilterState} {r : Rules} (h : Shows s r) (dev : CanDev) (id : BitVec 11) :
    delivers s dev id = (r.bus dev).accepts id := by
  simp only [Can.delivers, h.banks]
  cases dev with
  | can0 => simp [bankNumbers, List.range', Rules.bank, Rules.bus]
  | can1 => simp [bankNumbers, List.range', Rules.bank, Rules.bus, Rule.accepts_either]

theorem Shows.onlySource {s : FilterState} {r : Rules} (h : Shows s r) :
    SourceOnly s ↔ ∀ dev, r.bus dev = .source := by
  refine forall_congr' fun dev => ?_
  simp only [h.delivers]
  exact (r.bus dev).eq_source_iff

/-- Both buses are filtered when CAN1 is opened first, then CAN0, and the filters are installed after that. In every other order CAN0's filter is lost, or CAN1's is, or the bank that accepts everything on CAN1 stays. -/
theorem sourceOnly_iff {order : List SetUp}
    (horder : order.Perm [.configure .can0, .configure .can1, .setFilter .can0, .setFilter .can1]) :
    SourceOnly (setUp order) ↔
      order = [.configure .can1, .configure .can0, .setFilter .can0, .setFilter .can1] ∨
        order = [.configure .can1, .configure .can0, .setFilter .can1, .setFilter .can0] := by
  have hrules : ∀ order ∈ List.permutations' [.configure .can0, .configure .can1, .setFilter .can0, .setFilter .can1],
      ((order.foldl Rules.apply .start).bus .can0 = .source ∧ (order.foldl Rules.apply .start).bus .can1 = .source) ↔
        order = [.configure .can1, .configure .can0, .setFilter .can0, .setFilter .can1] ∨
          order = [.configure .can1, .configure .can0, .setFilter .can1, .setFilter .can0] := by decide
  rw [← hrules order (List.mem_permutations'.mpr horder), setUp, (shows_start.foldl order).onlySource]
  exact ⟨fun h => ⟨h .can0, h .can1⟩, fun h dev => by cases dev with | can0 => exact h.1 | can1 => exact h.2⟩

theorem sourceOnly_iff_can1First :
    SourceOnly (setUp [.configure .can1, .configure .can0, .setFilter .can0, .setFilter .can1]) :=
  (sourceOnly_iff (by decide)).mpr (.inl rfl)

/-- In the order of `can_thtead_create` CAN1 delivers source address 1. -/
theorem not_sourceOnly_can0First :
    ¬ SourceOnly (setUp [.configure .can0, .setFilter .can0, .configure .can1, .setFilter .can1]) :=
  fun h => absurd ((h .can1 0x001).mp (by decide)) (by decide)

end LightControlMonitor.Can
