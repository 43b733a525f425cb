import LightControlMonitor.Can.Message
import LightControlMonitor.Lib.Flags
import LightControlMonitor.Lib.Transition
import Mathlib.Logic.Function.Basic
import Mathlib.Tactic.IntervalCases

/-!
# The transmit mailboxes

`gd32_can_sendmsg` over the registers of the three mailboxes. The hardware keeps one bit per mailbox in `CAN_TSTAT` that says whether it is empty, clears it when software sets `TEN`, and sends what the registers of the mailbox then hold.

The test of mailbox 0 refuses a frame while the mailbox is full. The tests of the other two are the opposite: they refuse a frame while the mailbox is empty, so nothing gets into it, and would load a full one over the frame that waits in it.
-/

namespace LightControlMonitor.Can

open Transition (Reaches)

/-- `CAN_TMI`, `CAN_TMP`, `CAN_TMDATA0` and `CAN_TMDATA1` of one mailbox. -/
structure TxMailbox where
  tmi : BitVec 32
  tmp : BitVec 32
  tmdata0 : BitVec 32
  tmdata1 : BitVec 32

structure TxRegs where
  tstat : BitVec 32
  boxes : Nat → TxMailbox

/-- `can_trasnmit_message_struct`. -/
structure TransmitMessage where
  txSfid : BitVec 32
  txEfid : BitVec 32
  txFf : BitVec 32
  txFt : BitVec 32
  txDlen : BitVec 32
  txData : Bytes8

/-- The place of `CAN_TSTAT_TME0`. -/
def TME0 : Nat := 26

def CAN_FF_STANDARD : BitVec 32 := 0x0
def CAN_FF_EXTENDED : BitVec 32 := 0x4
def CAN_FT_DATA : BitVec 32 := 0x0
def CAN_FT_REMOTE : BitVec 32 := 0x2
def CAN_TMI_TEN : BitVec 32 := 0x1
def CAN_TMP_DLENC : BitVec 32 := 0xf

/-- `CAN_TSTAT_TMEx == (CAN_TSTAT & CAN_TSTAT_TMEx)`. -/
def tmeSet (regs : TxRegs) (box : Nat) : Bool :=
  let tme : BitVec 32 := 1#32 <<< (TME0 + box)
  tme = regs.tstat &&& tme

/-- The message of the assertions and the assignments between the mailbox test and the registers; `none` when an assertion fails. -/
def transmitMessage (pmsg : RtCanMsg) : Option TransmitMessage :=
  let dlen := pmsg.len % 16
  let fill : TransmitMessage :=
    { txSfid := 0, txEfid := 0, txFf := CAN_FF_STANDARD
      txFt := if pmsg.rtr then CAN_FT_REMOTE else CAN_FT_DATA
      txDlen := BitVec.ofNat 32 dlen
      txData := Vector.ofFn fun i => if i.val < dlen then pmsg.data.get i else 0 }
  if pmsg.ide then
    if pmsg.id ≤ 0x1FFFFFFF then some { fill with txFf := CAN_FF_EXTENDED, txEfid := BitVec.ofNat 32 pmsg.id }
    else none
  else if pmsg.id ≤ 0x7FF then some { fill with txSfid := BitVec.ofNat 32 pmsg.id }
  else none

/-- The writes to the registers of the mailbox; `d ++ c ++ b ++ a` is the word with the bytes `a` to `d`. -/
def loadMailbox (m : TransmitMessage) (box : TxMailbox) : TxMailbox :=
  let kept := box.tmi &&& CAN_TMI_TEN
  let tmi := if m.txFf = CAN_FF_STANDARD then kept ||| (m.txSfid <<< 21 ||| m.txFt)
    else kept ||| (m.txEfid <<< 3 ||| m.txFf ||| m.txFt)
  let byte := fun i => (m.txData.toList.getD i 0).toBitVec
  { tmi := tmi ||| CAN_TMI_TEN
    tmp := (box.tmp &&& ~~~ CAN_TMP_DLENC) ||| (m.txDlen &&& CAN_TMP_DLENC)
    tmdata0 := byte 3 ++ byte 2 ++ byte 1 ++ byte 0
    tmdata1 := byte 7 ++ byte 6 ++ byte 5 ++ byte 4 }

/-- Setting `TEN` makes the hardware clear the empty bit. -/
def loadBox (m : TransmitMessage) (boxNum : Nat) (regs : TxRegs) : TxRegs where
  tstat := Flags.clear regs.tstat (TME0 + boxNum)
  boxes := Function.update regs.boxes boxNum (loadMailbox m (regs.boxes boxNum))

/-- The test of the mailbox; `none` is the assertion of the default case. -/
def boxRefuses (regs : TxRegs) (boxNum : Nat) : Option Bool :=
  if boxNum = 0 then some (!tmeSet regs 0)
  else if boxNum = 1 then some (tmeSet regs 1)
  else if boxNum = 2 then some (tmeSet regs 2)
  else none

/-- `gd32_can_sendmsg`; the result is whether it returns `RT_EOK`, and `none` is a failed assertion. -/
def gd32CanSendmsg (regs : TxRegs) (pmsg : RtCanMsg) (boxNum : Nat) : Option (TxRegs × Bool) :=
  if pmsg.len ≤ 8 then
    (boxRefuses regs boxNum).bind fun refused =>
      if refused then some (regs, false)
      else (transmitMessage pmsg).map fun m => (loadBox m boxNum regs, true)
  else none

/-! ### The wire -/

/-- A frame on the bus; a remote frame carries a length but no data. -/
structure WireFrame where
  ide : Bool
  id : Nat
  rtr : Bool
  dlc : Nat
  data : List UInt8
  deriving DecidableEq

def RtCanMsg.onWire (pmsg : RtCanMsg) : WireFrame where
  ide := pmsg.ide
  id := pmsg.id
  rtr := pmsg.rtr
  dlc := pmsg.len
  data := if pmsg.rtr then [] else pmsg.data.toList.take pmsg.len

def TxMailbox.bytes (box : TxMailbox) : List UInt8 :=
  [⟨box.tmdata0.extractLsb' 0 8⟩, ⟨box.tmdata0.extractLsb' 8 8⟩, ⟨box.tmdata0.extractLsb' 16 8⟩,
    ⟨box.tmdata0.extractLsb' 24 8⟩, ⟨box.tmdata1.extractLsb' 0 8⟩, ⟨box.tmdata1.extractLsb' 8 8⟩,
    ⟨box.tmdata1.extractLsb' 16 8⟩, ⟨box.tmdata1.extractLsb' 24 8⟩]

def TxMailbox.onWire (box : TxMailbox) : WireFrame :=
  let ide := box.tmi.getLsbD 2
  let rtr := box.tmi.getLsbD 1
  let dlc := (box.tmp &&& CAN_TMP_DLENC).toNat
  { ide, rtr, dlc
    id := if ide then (box.tmi >>> 3).toNat else (box.tmi >>> 21).toNat
    data := if rtr then [] else box.bytes.take dlc }

def completeBox (boxNum : Nat) (regs : TxRegs) : TxRegs where
  tstat := Flags.set regs.tstat (TME0 + boxNum)
  boxes := Function.update regs.boxes boxNum
    { regs.boxes boxNum with tmi := (regs.boxes boxNum).tmi &&& ~~~ CAN_TMI_TEN }

/-! ### The system -/

inductive TxAction
  | send (boxNum : Fin 3) (pmsg : RtCanMsg)
  | complete (boxNum : Fin 3)

/-- A call with the empty bit it met and its result, and a frame on the bus. -/
inductive TxEvent
  | call (boxNum : Fin 3) (empty : Bool) (ok : Bool) (pmsg : RtCanMsg)
  | transmitted (boxNum : Fin 3) (frame : WireFrame)

def TxEnabled (regs : TxRegs) : TxAction → Prop
  | .send _ _ => True
  | .complete boxNum => tmeSet regs boxNum = false

instance TxEnabled.instDecidable (regs : TxRegs) : (a : TxAction) → Decidable (TxEnabled regs a)
  | .send _ _ => inferInstanceAs (Decidable True)
  | .complete boxNum => inferInstanceAs (Decidable (tmeSet regs boxNum = false))

def txStep (regs : TxRegs) : TxAction → Option (TxRegs × List TxEvent)
  | .send boxNum pmsg =>
    (gd32CanSendmsg regs pmsg boxNum).map fun r => (r.1, [.call boxNum (tmeSet regs boxNum) r.2 pmsg])
  | .complete boxNum => some (completeBox boxNum regs, [.transmitted boxNum (regs.boxes boxNum).onWire])

/-- The mailboxes are empty; their registers hold anything. -/
def TxInitial (regs : TxRegs) : Prop := ∀ boxNum : Fin 3, tmeSet regs boxNum = true

def txSystem : Transition.System TxRegs TxAction TxEvent where
  init := TxInitial
  enabled := TxEnabled
  step := txStep

instance txSystem.instDecidable (regs : TxRegs) (a : TxAction) : Decidable (txSystem.enabled regs a) :=
  inferInstanceAs (Decidable (TxEnabled regs a))

/-- The frames of a mailbox for which `RT_EOK` was returned. -/
def acceptedBy (boxNum : Fin 3) (es : List TxEvent) : List WireFrame :=
  es.filterMap fun
    | .call box _ ok pmsg => if box = boxNum ∧ ok then some pmsg.onWire else none
    | .transmitted _ _ => none

def transmittedBy (boxNum : Fin 3) (es : List TxEvent) : List WireFrame :=
  es.filterMap fun
    | .call _ _ _ _ => none
    | .transmitted box frame => if box = boxNum then some frame else none

/-- A call returns `RT_EOK` exactly when its mailbox is empty, and at any time a mailbox has sent the frames it accepted, in order and once each, less at most the last one. -/
structure MailboxesSound (es : List TxEvent) : Prop where
  exact : ∀ boxNum empty ok pmsg, TxEvent.call boxNum empty ok pmsg ∈ es → ok = empty
  noLoss : ∀ past, past <+: es → ∀ boxNum, ∃ waiting : Option WireFrame,
    acceptedBy boxNum past = transmittedBy boxNum past ++ waiting.toList

/-! ### The round trip through the registers -/

theorem tmeSet_eq (regs : TxRegs) (boxNum : Fin 3) : tmeSet regs boxNum = regs.tstat.getLsbD (TME0 + boxNum) := by
  have hplace : TME0 + boxNum.val < 32 := by
    have := boxNum.isLt
    simp only [TME0]
    omega
  rw [tmeSet, Bool.eq_iff_iff, decide_eq_true_iff, eq_comm]
  exact Flags.and_one_shiftLeft_eq _ hplace

theorem toNat_field {low x : BitVec 32} {k : Nat} (hlow : low >>> k = 0) (hx : x.toNat < 2 ^ (32 - k)) (hk : k ≤ 32) :
    ((low ||| x <<< k) >>> k).toNat = x.toNat := by
  rw [BitVec.ushiftRight_or_distrib, hlow]
  have hpow : 2 ^ (32 - k) * 2 ^ k = 2 ^ 32 := by rw [← pow_add, Nat.sub_add_cancel hk]
  have hlt : x.toNat * 2 ^ k < 2 ^ 32 := by
    rw [← hpow]
    exact Nat.mul_lt_mul_of_pos_right hx (Nat.two_pow_pos k)
  rw [show (0 : BitVec 32) = 0#32 from rfl]
  simp only [BitVec.zero_or, BitVec.toNat_ushiftRight, BitVec.toNat_shiftLeft, Nat.shiftLeft_eq,
    Nat.shiftRight_eq_div_pow, Nat.mod_eq_of_lt hlt]
  exact Nat.mul_div_cancel _ (Nat.two_pow_pos k)

theorem extract_bytes (a b c d : BitVec 8) :
    (d ++ c ++ b ++ a).extractLsb' 0 8 = a ∧ (d ++ c ++ b ++ a).extractLsb' 8 8 = b ∧
      (d ++ c ++ b ++ a).extractLsb' 16 8 = c ∧ (d ++ c ++ b ++ a).extractLsb' 24 8 = d := by
  refine ⟨?_, ?_, ?_, ?_⟩ <;> apply BitVec.eq_of_getLsbD_eq <;> intro i hi <;>
    rw [BitVec.getLsbD_extractLsb', BitVec.getLsbD_append, BitVec.getLsbD_append, BitVec.getLsbD_append]
  · simp [hi]
  · simp [hi]
  · simp [hi, show ¬ 16 + i - 8 < 8 by omega, show 16 + i - 8 - 8 = i by omega, show ¬ 16 + i < 8 by omega]
  · simp [hi, show ¬ 24 + i - 8 < 8 by omega, show ¬ 24 + i - 8 - 8 < 8 by omega, show ¬ 24 + i < 8 by omega,
      show 24 + i - 8 - 8 - 8 = i by omega]

theorem getD_eight {l : List UInt8} (hlength : l.length = 8) :
    [l.getD 0 0, l.getD 1 0, l.getD 2 0, l.getD 3 0, l.getD 4 0, l.getD 5 0, l.getD 6 0, l.getD 7 0] = l := by
  apply List.ext_getElem (by simp [hlength])
  intro i hi hi'
  have hlt : i < 8 := hi
  interval_cases i <;> simp [hlength]

theorem loadMailbox_bytes (m : TransmitMessage) (box : TxMailbox) : (loadMailbox m box).bytes = m.txData.toList := by
  refine Eq.trans ?_ (getD_eight (by simp))
  simp only [TxMailbox.bytes, loadMailbox, extract_bytes, UInt8.ofBitVec_toBitVec]

theorem loadMailbox_dlc (m : TransmitMessage) (box : TxMailbox) :
    ((loadMailbox m box).tmp &&& CAN_TMP_DLENC) = m.txDlen &&& CAN_TMP_DLENC := by
  rw [loadMailbox, BitVec.and_or_distrib_right, BitVec.and_assoc, BitVec.and_assoc]
  simp [CAN_TMP_DLENC]

def tmiLow (tmi : BitVec 32) (ide rtr : Bool) : BitVec 32 :=
  (tmi &&& CAN_TMI_TEN) ||| (if ide then CAN_FF_EXTENDED else CAN_FF_STANDARD) |||
    (if rtr then CAN_FT_REMOTE else CAN_FT_DATA) ||| CAN_TMI_TEN

theorem tmiLow_shift (tmi : BitVec 32) (ide rtr : Bool) {k : Nat} (hk : 3 ≤ k) : tmiLow tmi ide rtr >>> k = 0 := by
  have hthree : tmiLow tmi ide rtr >>> 3 = 0 := by
    have hkept : (tmi &&& CAN_TMI_TEN) >>> 3 = 0 := by
      rw [BitVec.ushiftRight_and_distrib, show CAN_TMI_TEN >>> 3 = 0#32 from rfl, BitVec.and_zero]
      rfl
    rw [tmiLow, BitVec.ushiftRight_or_distrib, BitVec.ushiftRight_or_distrib, BitVec.ushiftRight_or_distrib, hkept]
    cases ide <;> cases rtr <;> rfl
  rw [← Nat.add_sub_of_le hk, BitVec.shiftRight_add, hthree]
  exact BitVec.zero_ushiftRight

theorem getLsbD_tmi_low (tmi x : BitVec 32) (ide rtr : Bool) {k i : Nat} (hi : i < k) (hbit : i = 1 ∨ i = 2) :
    (tmiLow tmi ide rtr ||| x <<< k).getLsbD i = if i = 1 then rtr else ide := by
  rw [BitVec.getLsbD_or, BitVec.getLsbD_shiftLeft]
  rcases hbit with rfl | rfl <;> cases ide <;> cases rtr <;>
    simp [hi, tmiLow, CAN_TMI_TEN, CAN_FF_EXTENDED, CAN_FF_STANDARD, CAN_FT_REMOTE, CAN_FT_DATA]

theorem loadMailbox_tmi {m : TransmitMessage} (box : TxMailbox) {ide rtr : Bool}
    (hff : m.txFf = if ide then CAN_FF_EXTENDED else CAN_FF_STANDARD)
    (hft : m.txFt = if rtr then CAN_FT_REMOTE else CAN_FT_DATA) :
    (loadMailbox m box).tmi = tmiLow box.tmi ide rtr ||| if ide then m.txEfid <<< 3 else m.txSfid <<< 21 := by
  have htmi : (loadMailbox m box).tmi =
      (if m.txFf = CAN_FF_STANDARD then (box.tmi &&& CAN_TMI_TEN) ||| (m.txSfid <<< 21 ||| m.txFt)
        else (box.tmi &&& CAN_TMI_TEN) ||| (m.txEfid <<< 3 ||| m.txFf ||| m.txFt)) ||| CAN_TMI_TEN := rfl
  rw [htmi, tmiLow, ← hff, ← hft]
  cases ide with
  | true =>
    have hne : m.txFf ≠ CAN_FF_STANDARD := by
      rw [hff]
      decide
    rw [if_neg hne, if_pos rfl]
    -- over opaque words, so that the atoms are not compared by evaluation
    generalize box.tmi &&& CAN_TMI_TEN = kept, m.txEfid <<< 3 = field, CAN_TMI_TEN = ten, m.txFf = ff, m.txFt = ft
    ac_rfl
  | false =>
    have hstandard : m.txFf = CAN_FF_STANDARD := hff
    have hzero : m.txFf = 0#32 := hff
    rw [if_pos hstandard, if_neg Bool.false_ne_true, hzero, BitVec.or_zero]
    generalize box.tmi &&& CAN_TMI_TEN = kept, m.txSfid <<< 21 = field, CAN_TMI_TEN = ten, m.txFt = ft
    ac_rfl

theorem transmitMessage_spec {pmsg : RtCanMsg} {m : TransmitMessage} (hmessage : transmitMessage pmsg = some m) :
    m.txDlen = BitVec.ofNat 32 (pmsg.len % 16) ∧
      (∀ i : Fin 8, m.txData.get i = if i.val < pmsg.len % 16 then pmsg.data.get i else 0) ∧
      pmsg.id < 2 ^ (32 - if pmsg.ide then 3 else 21) ∧
      ∀ box, (loadMailbox m box).tmi =
        tmiLow box.tmi pmsg.ide pmsg.rtr ||| BitVec.ofNat 32 pmsg.id <<< (if pmsg.ide then 3 else 21) := by
  unfold transmitMessage at hmessage
  cases hide : pmsg.ide with
  | true =>
    rw [hide, if_pos rfl] at hmessage
    by_cases hid : pmsg.id ≤ 0x1FFFFFFF
    · rw [if_pos hid, Option.some.injEq] at hmessage
      subst m
      exact ⟨rfl, fun i => Vector.getElem_ofFn i.isLt, Nat.lt_succ_of_le hid, fun box => loadMailbox_tmi box rfl rfl⟩
    · rw [if_neg hid] at hmessage
      contradiction
  | false =>
    rw [hide, if_neg Bool.false_ne_true] at hmessage
    by_cases hid : pmsg.id ≤ 0x7FF
    · rw [if_pos hid, Option.some.injEq] at hmessage
      subst m
      exact ⟨rfl, fun i => Vector.getElem_ofFn i.isLt, Nat.lt_succ_of_le hid, fun box => loadMailbox_tmi box rfl rfl⟩
    · rw [if_neg hid] at hmessage
      contradiction

theorem onWire_loadMailbox {pmsg : RtCanMsg} {m : TransmitMessage} (hlen : pmsg.len ≤ 8)
    (hmessage : transmitMessage pmsg = some m) (box : TxMailbox) : (loadMailbox m box).onWire = pmsg.onWire := by
  obtain ⟨hdlen, hdata, hid, htmi⟩ := transmitMessage_spec hmessage
  have hmod : pmsg.len % 16 = pmsg.len := Nat.mod_eq_of_lt (by omega)
  rw [hmod] at hdlen hdata
  have hplace : 3 ≤ if pmsg.ide then 3 else 21 := by split <;> decide
  have hide : (loadMailbox m box).tmi.getLsbD 2 = pmsg.ide := by
    rw [htmi, getLsbD_tmi_low _ _ _ _ (by omega) (.inr rfl), if_neg (by decide)]
  have hrtr : (loadMailbox m box).tmi.getLsbD 1 = pmsg.rtr := by
    rw [htmi, getLsbD_tmi_low _ _ _ _ (by omega) (.inl rfl), if_pos rfl]
  have hvalue : ((loadMailbox m box).tmi >>> (if pmsg.ide then 3 else 21)).toNat = pmsg.id := by
    have hsmall : pmsg.id < 2 ^ 32 := hid.trans_le (Nat.pow_le_pow_right (by decide) (Nat.sub_le _ _))
    have hnat : (BitVec.ofNat 32 pmsg.id).toNat = pmsg.id := Nat.mod_eq_of_lt hsmall
    rw [htmi, toNat_field (tmiLow_shift _ _ _ hplace) (by rw [hnat]; exact hid) (by split <;> decide), hnat]
  have hdlc : ((loadMailbox m box).tmp &&& CAN_TMP_DLENC).toNat = pmsg.len := by
    have hfour : ∀ len ≤ 8, (BitVec.ofNat 32 len &&& CAN_TMP_DLENC).toNat = len := by decide
    rw [loadMailbox_dlc, hdlen, hfour _ hlen]
  have hbytes : m.txData.toList.take pmsg.len = pmsg.data.toList.take pmsg.len := by
    apply List.ext_getElem (by simp)
    intro i hi hi'
    have hlt : i < pmsg.len := by
      simp at hi
      omega
    have hbyte := hdata ⟨i, by omega⟩
    rw [get_eq_getElem, get_eq_getElem, if_pos hlt] at hbyte
    simpa using hbyte
  rw [TxMailbox.onWire, RtCanMsg.onWire, hide, hrtr, hdlc, loadMailbox_bytes, hbytes, ← hvalue]
  cases pmsg.ide <;> rfl

/-! ### One step -/

theorem tmeSet_loadBox (m : TransmitMessage) (boxNum other : Fin 3) (regs : TxRegs) :
    tmeSet (loadBox m boxNum regs) other = if other = boxNum then false else tmeSet regs other := by
  rw [tmeSet_eq, tmeSet_eq, loadBox, Flags.getLsbD_clear]
  simp [Fin.ext_iff]

theorem tmeSet_completeBox (boxNum other : Fin 3) (regs : TxRegs) :
    tmeSet (completeBox boxNum regs) other = if other = boxNum then true else tmeSet regs other := by
  have hplace : TME0 + boxNum.val < 32 := by
    have := boxNum.isLt
    simp only [TME0]
    omega
  rw [tmeSet_eq, tmeSet_eq, completeBox, Flags.getLsbD_set _ hplace]
  simp [Fin.ext_iff]

/-- Mailbox 0 is tested for being empty, the others for being full. -/
theorem gd32CanSendmsg_spec {regs regs' : TxRegs} {pmsg : RtCanMsg} {boxNum : Fin 3} {ok : Bool}
    (hsend : gd32CanSendmsg regs pmsg boxNum = some (regs', ok)) :
    (ok = if boxNum = 0 then tmeSet regs boxNum else !tmeSet regs boxNum) ∧
      (ok = false → regs' = regs) ∧
      (ok = true → pmsg.len ≤ 8 ∧ ∃ m, transmitMessage pmsg = some m ∧ regs' = loadBox m boxNum regs) := by
  obtain ⟨refused, hrefuses, hvalue⟩ : ∃ refused, boxRefuses regs boxNum = some refused ∧
      refused = !(if boxNum = 0 then tmeSet regs boxNum else !tmeSet regs boxNum) := by
    match boxNum with
    | 0 => exact ⟨_, rfl, rfl⟩
    | 1 => exact ⟨_, rfl, (Bool.not_not _).symm⟩
    | 2 => exact ⟨_, rfl, (Bool.not_not _).symm⟩
  have hok : (if boxNum = 0 then tmeSet regs boxNum else !tmeSet regs boxNum) = !refused := by
    rw [hvalue, Bool.not_not]
  rw [hok]
  unfold gd32CanSendmsg at hsend
  split at hsend
  · rename_i hlen
    rw [hrefuses, Option.bind_some] at hsend
    cases refused with
    | true =>
      obtain ⟨rfl, rfl⟩ := Prod.mk.inj (Option.some.inj hsend)
      exact ⟨rfl, fun _ => rfl, fun hok => absurd hok Bool.false_ne_true⟩
    | false =>
      obtain ⟨m, hmessage, heq⟩ := Option.map_eq_some_iff.mp hsend
      obtain ⟨rfl, rfl⟩ := Prod.mk.inj heq
      exact ⟨rfl, fun hok => absurd hok.symm Bool.false_ne_true, fun _ => ⟨hlen, m, hmessage, rfl⟩⟩
  · contradiction

def waitingFrame (regs : TxRegs) (boxNum : Fin 3) : Option WireFrame :=
  if tmeSet regs boxNum then none else some (regs.boxes boxNum).onWire

theorem acceptedBy_append (boxNum : Fin 3) (es fs : List TxEvent) :
    acceptedBy boxNum (es ++ fs) = acceptedBy boxNum es ++ acceptedBy boxNum fs := List.filterMap_append

theorem transmittedBy_append (boxNum : Fin 3) (es fs : List TxEvent) :
    transmittedBy boxNum (es ++ fs) = transmittedBy boxNum es ++ transmittedBy boxNum fs := List.filterMap_append

/-- What each mailbox has accepted is what it has sent and what waits in it. -/
def Accounted (es : List TxEvent) (regs : TxRegs) : Prop :=
  ∀ boxNum, acceptedBy boxNum es = transmittedBy boxNum es ++ (waitingFrame regs boxNum).toList

theorem Accounted.load {es : List TxEvent} {regs : TxRegs} (h : Accounted es regs) {pmsg : RtCanMsg}
    {m : TransmitMessage} {boxNum : Fin 3} (hlen : pmsg.len ≤ 8) (hmessage : transmitMessage pmsg = some m)
    (hempty : tmeSet regs boxNum = true) :
    Accounted (es ++ [TxEvent.call boxNum true true pmsg]) (loadBox m boxNum regs) := by
  intro other
  rw [acceptedBy_append, transmittedBy_append, h other, waitingFrame, waitingFrame, tmeSet_loadBox]
  by_cases hother : other = boxNum
  · subst hother
    simp [hempty, acceptedBy, transmittedBy, loadBox, onWire_loadMailbox hlen hmessage]
  · have hplace : other.val ≠ boxNum.val := fun heq => hother (Fin.ext heq)
    simp [hother, Ne.symm hother, acceptedBy, transmittedBy, loadBox, hplace]

theorem Accounted.refuse {es : List TxEvent} {regs : TxRegs} (h : Accounted es regs) (pmsg : RtCanMsg)
    (boxNum : Fin 3) (empty : Bool) : Accounted (es ++ [.call boxNum empty false pmsg]) regs := by
  intro other
  rw [acceptedBy_append, transmittedBy_append, h other]
  simp [acceptedBy, transmittedBy]

theorem Accounted.complete {es : List TxEvent} {regs : TxRegs} (h : Accounted es regs) {boxNum : Fin 3}
    (hfull : tmeSet regs boxNum = false) :
    Accounted (es ++ [.transmitted boxNum (regs.boxes boxNum).onWire]) (completeBox boxNum regs) := by
  intro other
  rw [acceptedBy_append, transmittedBy_append, h other, waitingFrame, waitingFrame, tmeSet_completeBox]
  by_cases hother : other = boxNum
  · subst hother
    simp [hfull, acceptedBy, transmittedBy]
  · have hplace : other.val ≠ boxNum.val := fun heq => hother (Fin.ext heq)
    simp [hother, Ne.symm hother, acceptedBy, transmittedBy, completeBox, hplace]

/-! ### Runs -/

/-- Every call has its event, and its result is the empty bit or, for mailboxes 1 and 2, the opposite. -/
structure Recorded (as : List TxAction) (es : List TxEvent) : Prop where
  calls : ∀ boxNum pmsg, TxAction.send boxNum pmsg ∈ as → ∃ empty ok, TxEvent.call boxNum empty ok pmsg ∈ es
  sends : ∀ boxNum empty ok pmsg, TxEvent.call boxNum empty ok pmsg ∈ es →
    TxAction.send boxNum pmsg ∈ as ∧ ok = if boxNum = 0 then empty else !empty

theorem recorded {as : List TxAction} {es : List TxEvent} {regs : TxRegs} (hreach : Reaches txSystem as es regs) :
    Recorded as es := by
  refine hreach.invariant (fun as es _ => Recorded as es) (fun _ _ => ⟨by simp, by simp⟩) ?_
  intro as es regs a out regs' h henabled hstep
  cases a with
  | send boxNum pmsg =>
    obtain ⟨⟨next, ok⟩, hsend, heq⟩ := Option.map_eq_some_iff.mp hstep
    obtain ⟨rfl, rfl⟩ := Prod.mk.inj heq
    have hok := (gd32CanSendmsg_spec hsend).1
    constructor
    · intro box msg hmem
      rcases List.mem_append.mp hmem with hold | hnew
      · obtain ⟨empty, ok', hevent⟩ := h.calls box msg hold
        exact ⟨empty, ok', List.mem_append_left _ hevent⟩
      · obtain ⟨rfl, rfl⟩ := TxAction.send.inj (List.mem_singleton.mp hnew)
        exact ⟨_, _, List.mem_append_right _ List.mem_cons_self⟩
    · intro box empty ok' msg hmem
      rcases List.mem_append.mp hmem with hold | hnew
      · obtain ⟨haction, hresult⟩ := h.sends box empty ok' msg hold
        exact ⟨List.mem_append_left _ haction, hresult⟩
      · obtain ⟨rfl, rfl, rfl, rfl⟩ := TxEvent.call.inj (List.mem_singleton.mp hnew)
        exact ⟨List.mem_append_right _ List.mem_cons_self, hok⟩
  | complete boxNum =>
    obtain ⟨rfl, rfl⟩ := Prod.mk.inj (Option.some.inj hstep)
    constructor
    · intro box msg hmem
      obtain ⟨empty, ok, hevent⟩ := h.calls box msg (by simpa using hmem)
      exact ⟨empty, ok, List.mem_append_left _ hevent⟩
    · intro box empty ok msg hmem
      obtain ⟨haction, hresult⟩ := h.sends box empty ok msg (by simpa using hmem)
      exact ⟨List.mem_append_left _ haction, hresult⟩

/-- A call on mailbox 0 or a completion is one event and keeps the account. -/
theorem Accounted.step {es out : List TxEvent} {regs regs' : TxRegs} (h : Accounted es regs) {a : TxAction}
    (hfirst : ∀ boxNum pmsg, a = .send boxNum pmsg → boxNum = 0) (henabled : TxEnabled regs a)
    (hstep : txStep regs a = some (regs', out)) : ∃ e, out = [e] ∧ Accounted (es ++ [e]) regs' := by
  cases a with
  | send boxNum pmsg =>
    obtain rfl := hfirst boxNum pmsg rfl
    obtain ⟨⟨next, ok⟩, hsend, heq⟩ := Option.map_eq_some_iff.mp hstep
    obtain ⟨rfl, rfl⟩ := Prod.mk.inj heq
    obtain ⟨hok, hrefused, htaken⟩ := gd32CanSendmsg_spec hsend
    refine ⟨_, rfl, ?_⟩
    cases ok with
    | false =>
      rw [hrefused rfl]
      exact h.refuse _ _ _
    | true =>
      obtain ⟨hlen, m, hmessage, rfl⟩ := htaken rfl
      have hempty : tmeSet regs (0 : Fin 3) = true := hok.symm
      rw [hempty]
      exact h.load hlen hmessage hempty
  | complete boxNum =>
    obtain ⟨rfl, rfl⟩ := Prod.mk.inj (Option.some.inj hstep)
    exact ⟨_, rfl, h.complete henabled⟩

/-- While every call is on mailbox 0, every frame is accounted for, now and at any earlier time. -/
theorem accounted {as : List TxAction} {es : List TxEvent} {regs : TxRegs} (hreach : Reaches txSystem as es regs) :
    (∀ boxNum pmsg, TxAction.send boxNum pmsg ∈ as → boxNum = 0) →
      Accounted es regs ∧ ∀ past, past <+: es → ∃ regs₀, Accounted past regs₀ := by
  refine hreach.invariant (fun as es regs => (∀ boxNum pmsg, TxAction.send boxNum pmsg ∈ as → boxNum = 0) →
    Accounted es regs ∧ ∀ past, past <+: es → ∃ regs₀, Accounted past regs₀) ?_ ?_
  · intro regs hinit _
    have hstart : Accounted [] regs := by
      intro boxNum
      simp [acceptedBy, transmittedBy, waitingFrame, hinit boxNum]
    refine ⟨hstart, fun past hpast => ⟨regs, ?_⟩⟩
    rw [List.prefix_nil.mp hpast]
    exact hstart
  · intro as es regs a out regs' ih henabled hstep hcalls
    obtain ⟨hnow, hpast⟩ := ih fun boxNum pmsg hmem => hcalls boxNum pmsg (List.mem_append_left _ hmem)
    have hfirst : ∀ boxNum pmsg, a = .send boxNum pmsg → boxNum = 0 := fun boxNum pmsg heq =>
      hcalls boxNum pmsg (heq ▸ List.mem_append_right _ List.mem_cons_self)
    obtain ⟨e, rfl, hnext⟩ := hnow.step hfirst henabled hstep
    refine ⟨hnext, fun past hprefix => ?_⟩
    rcases List.prefix_concat_iff.mp hprefix with rfl | hearlier
    · exact ⟨_, hnext⟩
    · exact hpast past hearlier

/-- The mailboxes lose nothing exactly as long as only mailbox 0 is used. -/
theorem mailboxesSound_iff {as : List TxAction} {es : List TxEvent} {regs : TxRegs}
    (hreach : Reaches txSystem as es regs) :
    MailboxesSound es ↔ ∀ boxNum pmsg, TxAction.send boxNum pmsg ∈ as → boxNum = 0 := by
  have hrecorded := recorded hreach
  constructor
  · intro hsound boxNum pmsg hsend
    by_contra hother
    obtain ⟨empty, ok, hevent⟩ := hrecorded.calls boxNum pmsg hsend
    have hresult := (hrecorded.sends boxNum empty ok pmsg hevent).2
    rw [if_neg hother, hsound.exact boxNum empty ok pmsg hevent] at hresult
    cases empty <;> contradiction
  · intro hcalls
    refine ⟨fun boxNum empty ok pmsg hevent => ?_, fun past hprefix boxNum => ?_⟩
    · obtain ⟨haction, hresult⟩ := hrecorded.sends boxNum empty ok pmsg hevent
      rwa [if_pos (hcalls boxNum pmsg haction)] at hresult
    · obtain ⟨regs₀, haccounted⟩ := (accounted hreach hcalls).2 past hprefix
      exact ⟨waitingFrame regs₀ boxNum, haccounted boxNum⟩

def TxRegs.idle : TxRegs where
  tstat := 0x1c000000
  boxes := fun _ => { tmi := 0, tmp := 0, tmdata0 := 0, tmdata1 := 0 }

theorem TxRegs.idle_initial : TxInitial .idle := by
  unfold TxInitial
  decide

def sampleMsg : RtCanMsg where
  id := 0x123
  ide := false
  rtr := false
  len := 3
  hdrIndex := -1
  data := #v[0x11, 0x22, 0x33, 0, 0, 0, 0, 0]

theorem mailboxesSound_iff_first :
    ∃ es regs, Reaches txSystem [.send 0 sampleMsg, .send 0 sampleMsg, .complete 0, .send 0 sampleMsg] es regs ∧
      MailboxesSound es := by
  have hsome : (txSystem.exec .idle
    [.send 0 sampleMsg, .send 0 sampleMsg, .complete 0, .send 0 sampleMsg]).isSome := by decide
  have hreach := Reaches.of_exec TxRegs.idle_initial hsome
  refine ⟨_, _, hreach, (mailboxesSound_iff hreach).mpr ?_⟩
  simp

/-- The first frame for mailbox 1 is refused although the mailbox is empty. -/
theorem not_mailboxesSound_second :
    ∃ es regs, Reaches txSystem [.send 1 sampleMsg] es regs ∧ ¬ MailboxesSound es :=
  ⟨[.call 1 true false sampleMsg], .idle, ⟨.idle, TxRegs.idle_initial, .single trivial rfl⟩,
    fun hsound => absurd (hsound.exact 1 true false sampleMsg List.mem_cons_self) (by decide)⟩

end LightControlMonitor.Can
