import LightControlMonitor.Can.Message

/-!
# The change detector

`alarm_event_monitor`: two status words are compared bit by bit over the length of the table of event codes, and every change that has a code is announced on the bus in use. The mailbox calls are commented out, so an announcement is a line of the log.
-/

namespace LightControlMonitor.Io

open Can (CanDev)

/-- The bus the announcements go to: CAN0 unless it failed, then CAN1 unless it failed too. -/
def busInUse (commFail : CanDev → UInt8) : Option CanDev :=
  if commFail .can0 = 0 then some .can0 else if commFail .can1 = 0 then some .can1 else none

/-- The event code of a bit, with the top bit while the bit is set. -/
def eventCode (alarmStatus : UInt16) (i : Nat) (code : UInt16) : UInt16 :=
  if alarmStatus.toBitVec.getLsbD i then code ||| 0x8000 else code

/-- The result, `*alarm_old_status` and the announcements. -/
structure Monitored where
  changeFlag : Bool
  alarmOldStatus : UInt16
  events : List (CanDev × UInt16)

def alarmEventMonitor (commFail : CanDev → UInt8) (alarmStatus alarmOldStatus : UInt16) (eventCodeTab : List UInt16) :
    Monitored :=
  if alarmOldStatus ≠ alarmStatus then
    let xorReg := alarmOldStatus ^^^ alarmStatus
    let hits := eventCodeTab.zipIdx.filter fun entry => xorReg.toBitVec.getLsbD entry.2
    { changeFlag := !hits.isEmpty
      alarmOldStatus := alarmStatus
      events := (hits.filter fun entry => entry.1 ≠ 0).flatMap fun entry =>
        (busInUse commFail).toList.map fun dev => (dev, eventCode alarmStatus entry.2 entry.1) }
  else { changeFlag := false, alarmOldStatus, events := [] }

@[simp] theorem alarmEventMonitor_old (commFail : CanDev → UInt8) (alarmStatus alarmOldStatus : UInt16)
    (eventCodeTab : List UInt16) :
    (alarmEventMonitor commFail alarmStatus alarmOldStatus eventCodeTab).alarmOldStatus = alarmStatus := by
  unfold alarmEventMonitor
  split
  · rfl
  · rename_i hsame
    exact not_not.mp hsame

theorem changeFlag_iff (commFail : CanDev → UInt8) (alarmStatus alarmOldStatus : UInt16) (eventCodeTab : List UInt16) :
    (alarmEventMonitor commFail alarmStatus alarmOldStatus eventCodeTab).changeFlag = true ↔
      ∃ i < eventCodeTab.length, (alarmOldStatus ^^^ alarmStatus).toBitVec.getLsbD i = true := by
  unfold alarmEventMonitor
  split
  · simp only [Bool.not_eq_true', List.isEmpty_eq_false_iff_exists_mem, List.mem_filter]
    constructor
    · rintro ⟨⟨code, i⟩, hmem, hbit⟩
      exact ⟨i, (List.mem_zipIdx' hmem).1, hbit⟩
    · rintro ⟨i, hi, hbit⟩
      exact ⟨(eventCodeTab[i], i), List.mem_zipIdx_iff_getElem?.mpr (List.getElem?_eq_getElem hi), hbit⟩
  · rename_i hsame
    have hequal : alarmOldStatus = alarmStatus := not_not.mp hsame
    simp [hequal]

theorem changeFlag_byte (commFail : CanDev → UInt8) (now : UInt8) (last : UInt16) {eventCodeTab : List UInt16}
    (hlength : eventCodeTab.length = 8) :
    (alarmEventMonitor commFail now.toUInt16 last eventCodeTab).changeFlag = decide (now ≠ last.toUInt8) := by
  have hbits : ∀ i < 8, (last ^^^ now.toUInt16).toBitVec.getLsbD i =
      (last.toUInt8.toBitVec.getLsbD i ^^ now.toBitVec.getLsbD i) := by
    intro i hi
    have hwide : i < 16 := by omega
    simp [hi, hwide]
  rw [Bool.eq_iff_iff, changeFlag_iff, hlength, decide_eq_true_iff]
  constructor
  · rintro ⟨i, hi, hbit⟩ rfl
    rw [hbits i hi, Bool.xor_self] at hbit
    contradiction
  · intro hne
    by_contra hnone
    refine hne (UInt8.toBitVec_inj.mp (BitVec.eq_of_getLsbD_eq fun i hi => ?_))
    have hsame : ¬ (last ^^^ now.toUInt16).toBitVec.getLsbD i = true := fun hbit => hnone ⟨i, hi, hbit⟩
    rw [hbits i hi, Bool.not_eq_true, bne_eq_false_iff_eq] at hsame
    exact hsame.symm

end LightControlMonitor.Io
