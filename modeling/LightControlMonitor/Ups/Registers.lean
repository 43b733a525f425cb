import LightControlMonitor.Modbus.Frames
import LightControlMonitor.Ups.Poll
import Mathlib.Tactic.IntervalCases

/-!
# The registers of the UPS

`ups_master_poll` on the bytes that `rs_485_receive` returns, whatever they are. The values of `sys.mycan.para` come from intact replies alone, each from the last one that was received for its register.
-/

namespace LightControlMonitor.Ups

open Can (CanDev)
open Modbus (ModbusCtx serializeReadRegisters deserializeReadRegisters replyFrame Decoded)

/-- The context of `ups_master_poll`; both buffers have `AGILE_MODBUS_MAX_ADU_LENGTH` bytes. -/
def upsCtx : ModbusCtx where
  slave := 1
  sendBuf := []
  sendBufsz := 64
  readBufsz := 64

/-- The bytes `rs_485_receive` leaves in `read_buf`, and the bus flags of the announcements. -/
structure Received where
  bytes : List UInt8
  commFail : CanDev → UInt8

/-- The outcome of the poll of the register at `addr`; `none` is an access outside the bytes. -/
def pollOutcome (addr : Nat) (bytes : List UInt8) : Option Outcome :=
  if bytes.length = 0 then some .timeout
  else (serializeReadRegisters upsCtx addr 1).bind fun ctx =>
    (deserializeReadRegisters ctx bytes).bind fun decoded =>
      if decoded.1 < 0 then some .undecodable else decoded.2.head?.map .reply

def pollReceived (s : UpsState) (r : Received) : Option UpsState :=
  upsRegMap[s.register]?.bind fun addr => (pollOutcome addr r.bytes).map fun outcome =>
    (upsMasterPoll s ⟨outcome, r.commFail⟩).1

/-- The first seven fields, in the order of `ups_reg_map`. -/
def UpsPara.words (para : UpsPara) : Vector UInt16 7 :=
  #v[para.inputVoltage, para.outputVoltage, para.batteryVoltage, para.batteryCapacity, para.batteryDurationMin,
    para.batteryDurationS, para.readAlarmStatus]

/-- The value in the last intact reply that was received for register `i`, 0 before the first one. -/
inductive LastReply (i : Nat) : List Received → UInt16 → Prop
  | none : LastReply i [] 0
  | kept {rs : List Received} {r : Received} {value : UInt16} (h : LastReply i rs value)
      (hno : rs.length % 7 = i → ∀ other, ¬ replyFrame 1 [other] <+: r.bytes) : LastReply i (rs ++ [r]) value
  | replied {rs : List Received} {r : Received} {value : UInt16} (hturn : rs.length % 7 = i)
      (hreply : replyFrame 1 [value] <+: r.bytes) : LastReply i (rs ++ [r]) value

/-- The state after the polls `rs`. -/
structure Holds (rs : List Received) (s : UpsState) : Prop where
  register_eq : s.register = rs.length % 7
  words_eq : s.para.words = s.holdRegister
  last : ∀ i (hi : i < 7), LastReply i rs s.holdRegister[i]

/-! ### One poll -/

theorem pollOutcome_spec (addr : Nat) {bytes : List UInt8} (hfit : bytes.length ≤ 64) :
    (∃ value, pollOutcome addr bytes = some (.reply value) ∧ replyFrame 1 [value] <+: bytes) ∨
      (pollOutcome addr bytes = some .timeout ∨ pollOutcome addr bytes = some .undecodable) ∧
        ∀ value, ¬ replyFrame 1 [value] <+: bytes := by
  unfold pollOutcome
  by_cases hempty : bytes.length = 0
  · refine .inr ⟨.inl (if_pos hempty), fun value hfront => ?_⟩
    have hle := hfront.length_le
    rw [hempty, Modbus.length_replyFrame] at hle
    omega
  · rw [if_neg hempty]
    obtain ⟨ctx, hreq⟩ : ∃ ctx, serializeReadRegisters upsCtx addr 1 = some ctx := ⟨_, rfl⟩
    obtain ⟨crc, hbuf, -, hsendBufsz, hreadBufsz, hsend⟩ := Modbus.readRequest_eq hreq
    have hfit : bytes.length ≤ ctx.readBufsz := hreadBufsz.symm ▸ hfit
    obtain ⟨rc, dest, hresult, hdecoded⟩ := Modbus.exists_decoded (hsendBufsz ▸ hsend) hfit hbuf (by decide)
    rw [hreq, Option.bind_some, hresult, Option.bind_some]
    have hunique := fun value (hfront : replyFrame 1 [value] <+: bytes) =>
      hdecoded.unique (by decide) (.reply (.inl rfl) rfl hfront)
    cases hdecoded with
    | reply hslave hlength hframe =>
      obtain ⟨value, rfl⟩ := List.length_eq_one_iff.mp hlength
      obtain rfl := hslave.resolve_right (by decide)
      exact .inl ⟨value, rfl, hframe⟩
    | exception hslave hframe =>
      refine .inr ⟨.inr (if_pos (by dsimp only; omega)), fun value hfront => ?_⟩
      have hrc := (hunique value hfront).1
      omega
    | refused hreply => exact .inr ⟨.inr rfl, fun value => hreply 1 [value] (.inl rfl) rfl⟩

theorem words_updateUpsData (s : UpsState) (commFail : CanDev → UInt8) :
    (updateUpsData s commFail).1.para.words = s.holdRegister := by
  apply Vector.ext
  intro i hi
  interval_cases i <;> rfl

/-- A poll without an intact reply keeps the registers. -/
theorem upsMasterPoll_kept {s : UpsState} (hs : s.para.words = s.holdRegister) {outcome : Outcome}
    (hno : ∀ value, outcome ≠ .reply value) (commFail : CanDev → UInt8) :
    (upsMasterPoll s ⟨outcome, commFail⟩).1.holdRegister = s.holdRegister ∧
      (upsMasterPoll s ⟨outcome, commFail⟩).1.para.words = s.holdRegister := by
  cases outcome with
  | timeout =>
    unfold upsMasterPoll
    dsimp only
    split_ifs
    · exact ⟨rfl, words_updateUpsData (setCommFail { s with commFailRetryCnt := 0 } true) commFail⟩
    · exact ⟨rfl, hs⟩
  | undecodable => exact ⟨rfl, hs⟩
  | reply value => exact absurd rfl (hno value)

/-- The state in which a reply is stored. -/
def stored (s : UpsState) (value : UInt16) : UpsState :=
  { setCommFail s false with holdRegister := s.holdRegister.setIfInBounds s.register value }

theorem upsMasterPoll_replied (s : UpsState) (value : UInt16) (commFail : CanDev → UInt8) :
    (upsMasterPoll s ⟨.reply value, commFail⟩).1.holdRegister = s.holdRegister.setIfInBounds s.register value ∧
      (upsMasterPoll s ⟨.reply value, commFail⟩).1.para.words = s.holdRegister.setIfInBounds s.register value :=
  ⟨rfl, words_updateUpsData (stored s value) commFail⟩

theorem register_upsMasterPoll (s : UpsState) (p : UpsPoll) : (upsMasterPoll s p).1.register = (s.register + 1) % 7 := by
  obtain ⟨outcome, commFail⟩ := p
  cases outcome with
  | timeout =>
    unfold upsMasterPoll
    dsimp only
    split_ifs <;> rfl
  | undecodable => rfl
  | reply value => rfl

/-! ### Runs -/

theorem Holds.start : Holds [] .start where
  register_eq := rfl
  words_eq := by decide
  last i hi := by
    have hzero : UpsState.start.holdRegister[i] = 0 := Vector.getElem_replicate hi
    rw [hzero]
    exact .none

theorem Holds.poll {rs : List Received} {s : UpsState} (h : Holds rs s) {r : Received} (hfit : r.bytes.length ≤ 64) :
    ∃ s', pollReceived s r = some s' ∧ Holds (rs ++ [r]) s' := by
  have hregister : s.register < 7 := h.register_eq ▸ Nat.mod_lt _ (by decide)
  have hnext : (s.register + 1) % 7 = (rs ++ [r]).length % 7 := by
    rw [h.register_eq, List.length_append, List.length_singleton, Nat.mod_add_mod]
  rw [pollReceived, Vector.getElem?_eq_getElem hregister, Option.bind_some]
  obtain ⟨value, houtcome, hreply⟩ | ⟨houtcome, hno⟩ := pollOutcome_spec upsRegMap[s.register] hfit
  · obtain ⟨hhold, hwords⟩ := upsMasterPoll_replied s value r.commFail
    rw [houtcome, Option.map_some]
    refine ⟨_, rfl, ?_, hwords.trans hhold.symm, fun i hi => ?_⟩
    · rw [register_upsMasterPoll, hnext]
    · simp only [hhold]
      rw [Vector.getElem_setIfInBounds]
      by_cases hturn : s.register = i
      · rw [if_pos hturn]
        exact .replied (h.register_eq ▸ hturn) hreply
      · rw [if_neg hturn]
        exact .kept (h.last i hi) fun hmod => absurd (h.register_eq.trans hmod) hturn
  · have hkept : ∃ outcome, pollOutcome upsRegMap[s.register] r.bytes = some outcome ∧ ∀ value, outcome ≠ .reply value := by
      rcases houtcome with houtcome | houtcome
      · exact ⟨_, houtcome, fun _ => Outcome.noConfusion⟩
      · exact ⟨_, houtcome, fun _ => Outcome.noConfusion⟩
    obtain ⟨outcome, houtcome, hother⟩ := hkept
    obtain ⟨hhold, hwords⟩ := upsMasterPoll_kept h.words_eq hother r.commFail
    rw [houtcome, Option.map_some]
    refine ⟨_, rfl, ?_, hwords.trans hhold.symm, fun i hi => ?_⟩
    · rw [register_upsMasterPoll, hnext]
    · simp only [hhold]
      exact .kept (h.last i hi) fun _ => hno

/-- Whatever bytes are received, no poll reads behind them, and the seven values are those of the last intact replies to the polls of their registers. -/
theorem ups_values_from_replies (rs : List Received) (hfit : ∀ r ∈ rs, r.bytes.length ≤ 64) :
    ∃ s, rs.foldlM pollReceived .start = some s ∧ s.para.words = s.holdRegister ∧
      ∀ i (hi : i < 7), LastReply i rs s.para.words[i] := by
  have hholds : ∃ s, rs.foldlM pollReceived .start = some s ∧ Holds rs s := by
    induction rs using List.reverseRecOn with
    | nil => exact ⟨_, rfl, .start⟩
    | append_singleton rs r ih =>
      obtain ⟨s, hrun, h⟩ := ih fun r' hr' => hfit r' (List.mem_append_left _ hr')
      obtain ⟨s', hpoll, h'⟩ := h.poll (hfit r (List.mem_append_right _ List.mem_cons_self))
      refine ⟨s', ?_, h'⟩
      rw [List.foldlM_append, hrun]
      simpa using hpoll
  obtain ⟨s, hrun, h⟩ := hholds
  refine ⟨s, hrun, h.words_eq, fun i hi => ?_⟩
  simp only [h.words_eq]
  exact h.last i hi

/-- The input voltage is read, and the next poll times out. -/
theorem ups_values_from_replies_voltage :
    ∃ s, [⟨replyFrame 1 [230], fun _ => 0⟩, ⟨[], fun _ => 0⟩].foldlM pollReceived .start = some s ∧
      LastReply 0 [⟨replyFrame 1 [230], fun _ => 0⟩, ⟨[], fun _ => 0⟩] s.para.inputVoltage := by
  obtain ⟨s, hrun, -, hlast⟩ :=
    ups_values_from_replies [⟨replyFrame 1 [230], fun _ => 0⟩, ⟨[], fun _ => 0⟩] (by decide)
  exact ⟨s, hrun, hlast 0 (by decide)⟩

end LightControlMonitor.Ups
