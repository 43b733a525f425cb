import LightControlMonitor.Io.EventMonitor
import LightControlMonitor.Lib.Flags
import Mathlib.Data.List.Infix

/-!
# The UPS poll

`ups_master_poll` of `modbus_master.c`, one register at a time. The outcome of a poll is what `rs_485_receive` and the decoder make of the reply. `comm_fail_retry_cnt` lives outside the loop over the registers, and a reply does not reset it: it counts the timeouts since the failure was last reported, whether or not replies came between them.
-/

namespace LightControlMonitor.Ups

open Can (CanDev)

inductive Outcome
  | timeout
  | undecodable
  | reply (value : UInt16)
  deriving DecidableEq

/-- One poll, with the bus flags `alarm_event_monitor` finds. -/
structure UpsPoll where
  outcome : Outcome
  commFail : CanDev → UInt8

/-- The UPS fields of `sys.mycan.para`, the first seven of them in the order of the registers. -/
structure UpsPara where
  inputVoltage : UInt16
  outputVoltage : UInt16
  batteryVoltage : UInt16
  batteryCapacity : UInt16
  batteryDurationMin : UInt16
  batteryDurationS : UInt16
  readAlarmStatus : UInt16
  alarmStatus : UInt16
  runStataus : UInt16

/-- The record, the variables of `ups_master_poll` and the static variable of `update_ups_data`. Seven entries of `ups_hold_register` are used. -/
structure UpsState where
  para : UpsPara
  holdRegister : Vector UInt16 7
  register : Nat
  commFailRetryCnt : Nat
  alarmLast : UInt16

/-- The bits of `ups_alarm_status`. -/
def COMM_FAIL : Nat := 0
def POWER_DOWN : Nat := 1
def BATTERY_LOW : Nat := 2

def upsRegMap : Vector Nat 7 := #v[0x60, 0x69, 0x7c, 0x7e, 0x80, 0x81, 0x30]

def upsEventCodeTab : List UInt16 := [0x0d, 0x0e, 0x0f]

/-- The request for a register and the announced changes. -/
inductive UpsEvent
  | request (addr : Option Nat)
  | announce (dev : CanDev) (code : UInt16)
  deriving DecidableEq

def setFlag (word : UInt16) (i : Nat) (on : Bool) : UInt16 := ⟨Flags.put word.toBitVec i on⟩

/-- `ups_comm_fail`. -/
def UpsPara.commFail (para : UpsPara) : Bool := para.alarmStatus.toBitVec.getLsbD COMM_FAIL

def setCommFail (s : UpsState) (on : Bool) : UpsState :=
  { s with para.alarmStatus := setFlag s.para.alarmStatus COMM_FAIL on }

/-- The `rt_memcpy` of `update_ups_data`. -/
def copyRegisters (para : UpsPara) (buf : Vector UInt16 7) : UpsPara :=
  { para with
    inputVoltage := buf[0], outputVoltage := buf[1], batteryVoltage := buf[2], batteryCapacity := buf[3]
    batteryDurationMin := buf[4], batteryDurationS := buf[5], readAlarmStatus := buf[6] }

def updateUpsData (s : UpsState) (commFail : CanDev → UInt8) : UpsState × List UpsEvent :=
  let para := copyRegisters s.para s.holdRegister
  let powerDown := para.readAlarmStatus.toBitVec.getLsbD 7
  let batteryLow := para.readAlarmStatus.toBitVec.getLsbD 6
  let status := setFlag (setFlag para.alarmStatus POWER_DOWN powerDown) BATTERY_LOW batteryLow
  let monitored := Io.alarmEventMonitor commFail status s.alarmLast upsEventCodeTab
  ({ s with
     para := { para with alarmStatus := status, runStataus := if powerDown then 1 else 0 }
     alarmLast := monitored.alarmOldStatus },
    monitored.events.map fun e => .announce e.1 e.2)

/-- The next register of the loop, or the first one of the next round. -/
def nextRegister (s : UpsState) : UpsState := { s with register := (s.register + 1) % 7 }

/-- The body of the loop of `ups_master_poll`. -/
def upsMasterPoll (s : UpsState) (p : UpsPoll) : UpsState × List UpsEvent :=
  let updated := match p.outcome with
    | .timeout =>
      let cnt := s.commFailRetryCnt + 1
      if cnt = 3 then updateUpsData (setCommFail { s with commFailRetryCnt := 0 } true) p.commFail
      else ({ s with commFailRetryCnt := cnt }, [])
    | .undecodable => (setCommFail s false, [])
    | .reply value =>
      let answered := setCommFail s false
      updateUpsData { answered with holdRegister := answered.holdRegister.setIfInBounds s.register value } p.commFail
  (nextRegister updated.1, .request upsRegMap[s.register]? :: updated.2)

def UpsPara.zero : UpsPara where
  inputVoltage := 0
  outputVoltage := 0
  batteryVoltage := 0
  batteryCapacity := 0
  batteryDurationMin := 0
  batteryDurationS := 0
  readAlarmStatus := 0
  alarmStatus := 0
  runStataus := 0

def UpsState.start : UpsState where
  para := .zero
  holdRegister := Vector.replicate 7 0
  register := 0
  commFailRetryCnt := 0
  alarmLast := 0

def pollAll (ps : List UpsPoll) : UpsState := ps.foldl (fun s p => (upsMasterPoll s p).1) .start

def outcomes (ps : List UpsPoll) : List Outcome := ps.map UpsPoll.outcome

/-- The failure is reported only after three timeouts in a row, at the latest after three timeouts in a row, and not after a reply. -/
structure FailureReported (ps : List UpsPoll) : Prop where
  onlyAfterThree : ∀ past p, past ++ [p] <+: ps → (pollAll past).para.commFail = false →
    (pollAll (past ++ [p])).para.commFail = true → [.timeout, .timeout, .timeout] <:+ outcomes (past ++ [p])
  atThree : ∀ past, past <+: ps → [.timeout, .timeout, .timeout] <:+ outcomes past →
    (pollAll past).para.commFail = true
  afterReply : ∀ past p, past ++ [p] <+: ps → p.outcome ≠ .timeout → (pollAll (past ++ [p])).para.commFail = false

/-- Every third timeout directly follows the two before it. -/
def ThirdsInRow (os : List Outcome) : Prop :=
  ∀ past, past ++ [.timeout] <+: os → past.count .timeout % 3 = 2 → [.timeout, .timeout] <:+ past

/-! ### One poll -/

theorem commFail_setCommFail (s : UpsState) (on : Bool) : (setCommFail s on).para.commFail = on := by
  rw [UpsPara.commFail, setCommFail, setFlag, Flags.getLsbD_put _ (by decide), if_pos rfl]

theorem commFail_updateUpsData (s : UpsState) (commFail : CanDev → UInt8) :
    (updateUpsData s commFail).1.para.commFail = s.para.commFail := by
  simp only [UpsPara.commFail, updateUpsData, setFlag]
  rw [Flags.getLsbD_put _ (by decide), if_neg (by decide), Flags.getLsbD_put _ (by decide), if_neg (by decide)]
  rfl

theorem retryCnt_updateUpsData (s : UpsState) (commFail : CanDev → UInt8) :
    (updateUpsData s commFail).1.commFailRetryCnt = s.commFailRetryCnt := rfl

theorem retryCnt_setCommFail (s : UpsState) (on : Bool) : (setCommFail s on).commFailRetryCnt = s.commFailRetryCnt :=
  rfl

theorem upsMasterPoll_spec (s : UpsState) (p : UpsPoll) :
    ((upsMasterPoll s p).1.commFailRetryCnt, (upsMasterPoll s p).1.para.commFail) =
      if p.outcome = .timeout then
        if s.commFailRetryCnt + 1 = 3 then (0, true) else (s.commFailRetryCnt + 1, s.para.commFail)
      else (s.commFailRetryCnt, false) := by
  obtain ⟨outcome, commFail⟩ := p
  cases outcome with
  | timeout =>
    by_cases hthird : s.commFailRetryCnt + 1 = 3
    · simp only [upsMasterPoll, nextRegister, if_pos hthird, retryCnt_updateUpsData, retryCnt_setCommFail,
        commFail_updateUpsData, commFail_setCommFail, if_true]
    · simp only [upsMasterPoll, nextRegister, if_neg hthird, if_true]
  | undecodable =>
    simp only [upsMasterPoll, nextRegister, retryCnt_setCommFail, commFail_setCommFail]
    rfl
  | reply value =>
    simp only [upsMasterPoll, nextRegister, retryCnt_updateUpsData, retryCnt_setCommFail, commFail_updateUpsData]
    exact congrArg (Prod.mk _) (commFail_setCommFail s false)

/-! ### A run of polls -/

theorem pollAll_concat (past : List UpsPoll) (p : UpsPoll) :
    pollAll (past ++ [p]) = (upsMasterPoll (pollAll past) p).1 := by
  rw [pollAll, List.foldl_concat]
  rfl

theorem outcomes_concat (past : List UpsPoll) (p : UpsPoll) :
    outcomes (past ++ [p]) = outcomes past ++ [p.outcome] := by
  rw [outcomes, List.map_append]
  rfl

/-- What the counter and the flag say about the polls so far. While the failure stands, the counted timeouts are the last polls; while it does not, no more timeouts than the counted ones end the run. -/
structure Counted (os : List Outcome) (cnt : Nat) (failed : Bool) : Prop where
  count : cnt = os.count .timeout % 3
  standing : failed = true → List.replicate cnt .timeout <:+ os
  trailing : failed = false → ∀ k, List.replicate k .timeout <:+ os → k ≤ cnt

theorem Counted.start : Counted [] 0 false where
  count := rfl
  standing hfailed := by contradiction
  trailing _ k hsuffix := by
    have hle := hsuffix.length_le
    rwa [List.length_replicate] at hle

theorem replicate_suffix_concat {o : Outcome} {k : Nat} {os : List Outcome} :
    List.replicate (k + 1) o <:+ os ++ [o] ↔ List.replicate k o <:+ os := by
  rw [List.replicate_succ']
  exact List.suffix_append_inj_of_length_eq rfl |>.trans (by simp)

theorem Counted.cnt_lt {os : List Outcome} {cnt : Nat} {failed : Bool} (h : Counted os cnt failed) : cnt < 3 := by
  rw [h.count]
  exact Nat.mod_lt _ (by decide)

theorem Counted.thirdTimeout {os : List Outcome} {cnt : Nat} {failed : Bool} (h : Counted os cnt failed)
    (hthird : cnt + 1 = 3) : Counted (os ++ [.timeout]) 0 true where
  count := by
    have hcount := h.count
    rw [List.count_append, List.count_singleton_self]
    omega
  standing _ := List.nil_suffix
  trailing hstanding := by contradiction

theorem Counted.nextTimeout {os : List Outcome} {cnt : Nat} {failed : Bool} (h : Counted os cnt failed)
    (hnotThird : cnt + 1 ≠ 3) : Counted (os ++ [.timeout]) (cnt + 1) failed where
  count := by
    have hcount := h.count
    rw [List.count_append, List.count_singleton_self]
    omega
  standing hfailed := replicate_suffix_concat.mpr (h.standing hfailed)
  trailing hfine k hsuffix := by
    cases k with
    | zero => omega
    | succ k =>
      have hle := h.trailing hfine k (replicate_suffix_concat.mp hsuffix)
      omega

theorem Counted.answered {os : List Outcome} {cnt : Nat} {failed : Bool} (h : Counted os cnt failed) {o : Outcome}
    (hanswer : o ≠ .timeout) : Counted (os ++ [o]) cnt false where
  count := by
    rw [List.count_append, List.count_singleton, if_neg (by simpa using hanswer), Nat.add_zero]
    exact h.count
  standing hstanding := by contradiction
  trailing _ k hsuffix := by
    obtain hnil | ⟨rest, hrest, -⟩ := List.suffix_concat_iff.mp hsuffix
    · rw [(List.replicate_eq_nil_iff _).mp hnil]
      exact Nat.zero_le cnt
    · have hmem : o ∈ List.replicate k Outcome.timeout := hrest ▸ List.mem_concat_self
      exact absurd (List.eq_of_mem_replicate hmem) hanswer

theorem counted_pollAll (ps : List UpsPoll) :
    Counted (outcomes ps) (pollAll ps).commFailRetryCnt (pollAll ps).para.commFail := by
  induction ps using List.reverseRecOn with
  | nil => exact Counted.start
  | append_singleton past p ih =>
    have hspec := upsMasterPoll_spec (pollAll past) p
    rw [outcomes_concat, pollAll_concat]
    split at hspec
    · rename_i htimeout
      rw [htimeout]
      split at hspec
      · rename_i hthird
        rw [(Prod.mk.inj hspec).1, (Prod.mk.inj hspec).2]
        exact ih.thirdTimeout hthird
      · rename_i hnotThird
        rw [(Prod.mk.inj hspec).1, (Prod.mk.inj hspec).2]
        exact ih.nextTimeout hnotThird
    · rename_i hanswer
      rw [(Prod.mk.inj hspec).1, (Prod.mk.inj hspec).2]
      exact ih.answered hanswer

theorem raised_iff (past : List UpsPoll) (p : UpsPoll) (hfine : (pollAll past).para.commFail = false) :
    (pollAll (past ++ [p])).para.commFail = true ↔
      p.outcome = .timeout ∧ (outcomes past).count .timeout % 3 = 2 := by
  have hspec := congrArg Prod.snd (upsMasterPoll_spec (pollAll past) p)
  have hcount := (counted_pollAll past).count
  rw [pollAll_concat]
  dsimp only at hspec
  rw [hspec]
  by_cases htimeout : p.outcome = .timeout
  · by_cases hthird : (pollAll past).commFailRetryCnt + 1 = 3
    · simp [htimeout, hthird]
      omega
    · simp [htimeout, hthird, hfine]
      omega
  · simp [htimeout]

theorem outcomes_prefix {past ps : List UpsPoll} (h : past <+: ps) : outcomes past <+: outcomes ps := h.map _

theorem exists_polls_of_prefix {os : List Outcome} {o : Outcome} {ps : List UpsPoll} (h : os ++ [o] <+: outcomes ps) :
    ∃ past p, past ++ [p] <+: ps ∧ outcomes past = os ∧ p.outcome = o := by
  obtain ⟨rest, hrest⟩ := h
  obtain ⟨polls, others, rfl, hpolls, -⟩ := List.map_eq_append_iff.mp hrest.symm
  obtain ⟨past, single, rfl, hpast, hsingle⟩ := List.map_eq_append_iff.mp hpolls
  obtain ⟨p, rfl, houtcome⟩ := List.map_eq_singleton_iff.mp hsingle
  exact ⟨past, p, List.prefix_append _ _, hpast, houtcome⟩

/-- The third timeout in a row at the latest, and the flag after a reply, hold on every run. -/
theorem atThree_pollAll {past : List UpsPoll} (h : [.timeout, .timeout, .timeout] <:+ outcomes past) :
    (pollAll past).para.commFail = true := by
  have hcounted := counted_pollAll past
  by_contra hfine
  have hle := hcounted.trailing (Bool.eq_false_iff.mpr hfine) 3 h
  have hlt := hcounted.cnt_lt
  omega

theorem afterReply_pollAll (past : List UpsPoll) {p : UpsPoll} (h : p.outcome ≠ .timeout) :
    (pollAll (past ++ [p])).para.commFail = false := by
  rw [pollAll_concat]
  have hspec := congrArg Prod.snd (upsMasterPoll_spec (pollAll past) p)
  rwa [if_neg h] at hspec

/-- The failure is reported as three timeouts in a row exactly on the runs whose every third timeout directly follows the two before it. -/
theorem failureReported_iff (ps : List UpsPoll) : FailureReported ps ↔ ThirdsInRow (outcomes ps) := by
  constructor
  · intro hreported os hprefix hthird
    obtain ⟨past, p, hpast, rfl, htimeout⟩ := exists_polls_of_prefix hprefix
    have hcounted := counted_pollAll past
    cases hflag : (pollAll past).para.commFail with
    | true =>
      have hstanding := hcounted.standing hflag
      rwa [hcounted.count, hthird] at hstanding
    | false =>
      have hraised := (raised_iff past p hflag).mpr ⟨htimeout, hthird⟩
      have hthree := hreported.onlyAfterThree past p hpast hflag hraised
      rw [outcomes_concat, htimeout] at hthree
      exact replicate_suffix_concat (k := 2) |>.mp hthree
  · intro hthirds
    refine ⟨fun past p hpast hfine hraised => ?_, fun past _ hthree => atThree_pollAll hthree,
      fun past p _ hanswer => afterReply_pollAll past hanswer⟩
    obtain ⟨htimeout, hthird⟩ := (raised_iff past p hfine).mp hraised
    have hprefix := outcomes_prefix hpast
    rw [outcomes_concat, htimeout] at hprefix ⊢
    exact replicate_suffix_concat (k := 2) |>.mpr (hthirds _ hprefix hthird)

def quiet (outcome : Outcome) : UpsPoll := ⟨outcome, fun _ => 0⟩

/-- Two timeouts, a reply and one more timeout report the failure. -/
theorem not_failureReported_interrupted :
    ¬ FailureReported [quiet .timeout, quiet .timeout, quiet (.reply 0), quiet .timeout] := by
  intro h
  have hthree := h.onlyAfterThree [quiet .timeout, quiet .timeout, quiet (.reply 0)] (quiet .timeout)
    (List.prefix_refl _) (by decide) (by decide)
  revert hthree
  decide

end LightControlMonitor.Ups
