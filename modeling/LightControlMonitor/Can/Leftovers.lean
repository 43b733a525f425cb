import LightControlMonitor.Can.Message
import Mathlib.Tactic.IntervalCases

/-!
# Frames and leftovers

A frame is read through two buffers that nobody clears, and `can_msg_parse` looks at fixed places of the second one without a look at the length. This module says which frames are nevertheless understood from the bytes they carry alone: those that are too long leave the arrays, and of the shorter ones those whose handler, destination or service code is a byte of an earlier frame are not.
-/

namespace LightControlMonitor.Can

def RxFrame.id (frame : RxFrame) : Nat := if frame.ff then frame.efid else frame.sfid

/-- The way of a frame through the driver and the parser: the state it leaves, the mailboxes included, and the reply on the bus. -/
def receive (dev : CanDev) (frame : RxFrame) (s : MyCan) (left : Leftovers) :
    Option (MyCan × Option (Nat × List UInt8)) :=
  (gd32CanRecvmsg dev frame left.tmpmsg).bind fun msg =>
    (canMsgParse dev msg s left).map fun r => (r.1, r.2.map TxFrame.wire)

/-- The frame stays inside the arrays, and its effect is the same whatever the registers behind its bytes and the buffers hold. -/
def FromCarried (dev : CanDev) (frame : RxFrame) (s : MyCan) : Prop :=
  ∃ result, ∀ (data : Bytes8) (left : Leftovers), (∀ i (hi : i < 8), i < frame.dlen → data[i] = frame.data[i]) →
    receive dev { frame with data := data } s left = some result

/-- The frame is not longer than its data array, and if sending is enabled it carries what the node looks at: everything, or nothing because light commands are refused, or the destination of another node, or the destination and a service other than the clock. -/
def Complete (frame : RxFrame) (s : MyCan) : Prop :=
  frame.dlen ≤ 8 ∧
    (s.sendEnable = false ∨ frame.dlen = 8 ∨ (msgId frame.id = 2 ∧ s.para.ccrLocalRemote = false) ∨
      (1 ≤ frame.dlen ∧ addressed s (destMacId frame.data) = false) ∨
      (2 ≤ frame.dlen ∧ cmdOf frame.id (serviceCode frame.data) ≠ CMD_SYNC_TIME))

/-! ### The reply -/

theorem getElem_replyBytes {msgData data : Bytes8} {msgCmd len i : Nat} (hi : i < 8) :
    (replyBytes msgData data msgCmd len)[i] =
      if i = 0 then 0x00 else if i = 1 then UInt8.ofNat (msgCmd &&& 0xff)
      else if i < 2 + len then data[i - 2] else msgData[i] := by
  simp [replyBytes]

/-- Nothing of the stack goes out with a reply. -/
theorem sendStandardFrame_wire (s : MyCan) (msgCmd : Nat) (arg : Option CanUserData) (m₁ m₂ : Bytes8) :
    (sendStandardFrame s msgCmd arg m₁).map (fun r => (r.1, r.2.map TxFrame.wire)) =
      (sendStandardFrame s msgCmd arg m₂).map (fun r => (r.1, r.2.map TxFrame.wire)) := by
  have hbytes : ∀ (data : Bytes8) (len : Nat), len ≤ 6 →
      (replyBytes m₁ data msgCmd len).toList.take (2 + len) =
        (replyBytes m₂ data msgCmd len).toList.take (2 + len) := by
    intro data len hlen
    apply List.ext_getElem (by simp)
    intro i h₁ h₂
    have hi : i < 2 + len := (List.length_take_le ..).trans_lt' h₁
    rw [List.getElem_take, List.getElem_take, Vector.getElem_toList, Vector.getElem_toList,
      getElem_replyBytes (by omega), getElem_replyBytes (by omega), if_pos hi, if_pos hi]
  unfold sendStandardFrame
  split
  · rfl
  · dsimp only
    rw [Option.map_map, Option.map_map]
    refine congrArg (fun f => Option.map f _) (funext fun r => ?_)
    dsimp only [Function.comp_apply]
    split
    · simp only [Option.map_some, TxFrame.wire, hbytes _ _ (show r.2.2.toNat ≤ 6 by omega)]
    · rfl

/-! ### What the node looks at -/

/-- The effect of the eight bytes `can_msg_parse` works on. -/
def interpret (dev : CanDev) (id : Nat) (s : MyCan) (bytes : Bytes8) : Option (MyCan × Option (Nat × List UInt8)) :=
  if addressed s (destMacId bytes) then
    (sendStandardFrame s (cmdOf id (serviceCode bytes)) (some ⟨bytes, dev⟩) (Vector.replicate 8 0)).map
      fun r => (r.1, r.2.map TxFrame.wire)
  else some (s, none)

/-- The carried bytes, and behind them what the buffer of `can_msg_parse` held. -/
def visible (frame : RxFrame) (left : Leftovers) : Bytes8 :=
  Vector.ofFn fun i => if i.val < frame.dlen then frame.data.get i else left.userData.get i

theorem getElem_visible {frame : RxFrame} {left : Leftovers} {i : Nat} (hi : i < 8) :
    (visible frame left)[i] = if i < frame.dlen then frame.data[i] else left.userData[i] := by
  rw [visible, Vector.getElem_ofFn]
  rfl

theorem receive_eq {dev : CanDev} {frame : RxFrame} {s : MyCan} {left : Leftovers} (hlen : frame.dlen ≤ 8) :
    receive dev frame s left = interpret dev frame.id s (visible frame left) := by
  have hcopy : (Vector.ofFn fun i : Fin 8 => if i.val < frame.dlen then
      (Vector.ofFn fun i : Fin 8 => if i.val < frame.dlen then frame.data[i] else left.tmpmsg[i])[i]
      else left.userData[i]) = visible frame left := by
    apply Vector.ext
    intro i hi
    simp only [visible, Vector.getElem_ofFn, Fin.getElem_fin]
    split <;> rfl
  simp only [receive, gd32CanRecvmsg, canMsgParse, copyBytes_of_le hlen, Option.map_some, Option.bind_some, hcopy]
  unfold interpret
  split
  · exact sendStandardFrame_wire ..
  · rfl

theorem receive_eq_none {dev : CanDev} {frame : RxFrame} {s : MyCan} {left : Leftovers} (hlen : ¬ frame.dlen ≤ 8) :
    receive dev frame s left = none := by
  have hcopy : copyBytes left.tmpmsg frame.data frame.dlen = none := if_neg hlen
  simp only [receive, gd32CanRecvmsg, hcopy, Option.map_none, Option.bind_none]

/-- Three handlers have an effect on the state; the others pack a reply from it and look at nothing else. -/
theorem findCmdWithMsgCmd_cases {cmd : Nat} {handler : Handler} (hfind : findCmdWithMsgCmd cmd = some handler) :
    (cmd = CMD_SYNC ∧ handler = ccrSync) ∨ (cmd = CMD_SYNC_TIME ∧ handler = ccrSyncTime) ∨
      (cmd = CMD_CTRL_LIGHT_LVL ∧ handler = ccrCtrlLightLvl) ∨
      (cmd ≠ CMD_CTRL_LIGHT_LVL ∧
        ∃ pack : MyCan → Bytes8 → Bytes8 × Int, handler = fun _ s data => some (s, pack s data)) := by
  obtain ⟨⟨c, h⟩, hitem, rfl⟩ := Option.map_eq_some_iff.mp hfind
  have hc : c = cmd := by simpa using List.find?_some hitem
  have hmem := List.mem_of_find?_eq_some hitem
  subst hc
  simp only [canMsgHandlerMap, List.mem_cons, Prod.mk.injEq, List.not_mem_nil, or_false] at hmem
  rcases hmem with ⟨rfl, rfl⟩ | ⟨rfl, rfl⟩ | ⟨rfl, rfl⟩ | ⟨rfl, rfl⟩ | ⟨rfl, rfl⟩ | ⟨rfl, rfl⟩ | ⟨rfl, rfl⟩ |
    ⟨rfl, rfl⟩ | ⟨rfl, rfl⟩ | ⟨rfl, rfl⟩
  case inl => exact .inl ⟨rfl, rfl⟩
  case inr.inr.inl => exact .inr (.inl ⟨rfl, rfl⟩)
  case inr.inr.inr.inl => exact .inr (.inr (.inl ⟨rfl, rfl⟩))
  all_goals exact .inr (.inr (.inr ⟨by decide, _, rfl⟩))

/-- Only the clock handler reads behind the service code. -/
theorem canMsgResponseDataPack_congr {cmd : Nat} (hcmd : cmd ≠ CMD_SYNC_TIME) {u v : CanUserData}
    (hdev : u.canDev = v.canDev) (hdest : destMacId u.data = destMacId v.data)
    (hservice : serviceCode u.data = serviceCode v.data) (s : MyCan) (data : Bytes8) :
    canMsgResponseDataPack cmd (some u) s data = canMsgResponseDataPack cmd (some v) s data := by
  unfold canMsgResponseDataPack
  split
  · rename_i handler hfind
    rcases findCmdWithMsgCmd_cases hfind with ⟨-, rfl⟩ | ⟨hclock, -⟩ | ⟨-, rfl⟩ | ⟨-, pack, rfl⟩
    · simp only [ccrSync, Option.map_some, hdev]
    · exact absurd hclock hcmd
    · simp only [ccrCtrlLightLvl, Option.map_some, hdest, hservice]
    · rfl
  · rfl

theorem canMsgResponseDataPack_isSome (cmd : Nat) (u : CanUserData) (s : MyCan) (data : Bytes8) :
    (canMsgResponseDataPack cmd (some u) s data).isSome := by
  unfold canMsgResponseDataPack
  split
  · rename_i handler hfind
    rcases findCmdWithMsgCmd_cases hfind with ⟨-, rfl⟩ | ⟨-, rfl⟩ | ⟨-, rfl⟩ | ⟨-, pack, rfl⟩
    · rfl
    · rfl
    · unfold ccrCtrlLightLvl
      split <;> rfl
    · rfl
  · rfl

theorem interpret_isSome (dev : CanDev) (id : Nat) (s : MyCan) (bytes : Bytes8) :
    (interpret dev id s bytes).isSome := by
  unfold interpret sendStandardFrame
  split
  · split
    · rfl
    · simp only [Option.isSome_map]
      exact canMsgResponseDataPack_isSome ..
  · rfl

/-- A light command that finds the node in local mode does nothing. -/
theorem sendStandardFrame_local {s : MyCan} {id : Nat} (hclass : msgId id = 2) (hlocal : s.para.ccrLocalRemote = false)
    (service : UInt8) (arg : Option CanUserData) (msgData : Bytes8) :
    sendStandardFrame s (cmdOf id service) arg msgData = some (s, none) := by
  have hfind : findCmdWithMsgCmd 0x02ff = some ccrCtrlLightLvl := rfl
  unfold sendStandardFrame
  split
  · rfl
  · rw [cmdOf_class, hclass]
    simp only [if_true, canMsgResponseDataPack, hfind, ccrCtrlLightLvl, hlocal, Bool.false_eq_true, if_false]
    rfl

theorem interpret_eq_none {dev : CanDev} {id : Nat} {s : MyCan} {bytes : Bytes8}
    (hquiet : s.sendEnable = false ∨ (msgId id = 2 ∧ s.para.ccrLocalRemote = false) ∨
      addressed s (destMacId bytes) = false) :
    interpret dev id s bytes = some (s, none) := by
  unfold interpret
  split
  · rcases hquiet with hdisabled | ⟨hclass, hlocal⟩ | hother
    · rw [sendStandardFrame, if_pos hdisabled]
      rfl
    · rw [sendStandardFrame_local hclass hlocal]
      rfl
    · simp_all
  · rfl

/-- Two buffers with the same destination and the same service, which is not the clock, have the same effect. -/
theorem interpret_congr {dev : CanDev} {id : Nat} {s : MyCan} {b b' : Bytes8} (hdest : destMacId b = destMacId b')
    (hservice : serviceCode b = serviceCode b') (hcmd : cmdOf id (serviceCode b') ≠ CMD_SYNC_TIME) :
    interpret dev id s b = interpret dev id s b' := by
  have hlookup :
      (if cmdOf id (serviceCode b') >>> 8 = 0x02 then 0x02ff else cmdOf id (serviceCode b')) ≠ CMD_SYNC_TIME := by
    split
    · decide
    · exact hcmd
  have hpack := canMsgResponseDataPack_congr hlookup (u := ⟨b, dev⟩) (v := ⟨b', dev⟩) rfl hdest hservice s
    (Vector.replicate 8 0)
  simp only [interpret, hdest, hservice, sendStandardFrame, hpack]

/-! ### Frames that are understood from their own bytes -/

theorem fromCarried_of_complete {dev : CanDev} {frame : RxFrame} {s : MyCan} (hcomplete : Complete frame s) :
    FromCarried dev frame s := by
  obtain ⟨hlen, hcases⟩ := hcomplete
  obtain ⟨result, hresult⟩ := Option.isSome_iff_exists.mp (interpret_isSome dev frame.id s frame.data)
  refine ⟨result, fun data left hdata => ?_⟩
  rw [receive_eq (show RxFrame.dlen { frame with data := data } ≤ 8 from hlen), ← hresult]
  change interpret dev frame.id s (visible { frame with data := data } left) = _
  have hvisible : ∀ i (hi : i < 8), i < frame.dlen → (visible { frame with data := data } left)[i] = frame.data[i] := by
    intro i hi hlt
    rw [getElem_visible hi, if_pos (by exact hlt), hdata i hi hlt]
  rcases hcases with hdisabled | hfull | hquiet | ⟨hpos, hother⟩ | ⟨htwo, hclock⟩
  · rw [interpret_eq_none (.inl hdisabled), interpret_eq_none (.inl hdisabled)]
  · have hsame : visible { frame with data := data } left = frame.data :=
      Vector.ext fun i hi => hvisible i hi (hfull ▸ hi)
    rw [hsame]
  · rw [interpret_eq_none (.inr (.inl hquiet)), interpret_eq_none (.inr (.inl hquiet))]
  · rw [interpret_eq_none (.inr (.inr hother)),
      interpret_eq_none (.inr (.inr (by rw [destMacId, hvisible 0 (by decide) hpos]; exact hother)))]
  · exact interpret_congr (hvisible 0 (by decide) (by omega)) (hvisible 1 (by decide) htwo) hclock

/-! ### Frames that are not -/

/-- The two services of which no class has a handler. -/
theorem findCmdWithMsgCmd_none {m : Nat} {service : UInt8} (hm : m < 8) (hclass : m ≠ 2)
    (hservice : service = 0x00 ∨ service = 0xff) : findCmdWithMsgCmd (m * 256 + service.toNat) = none := by
  rw [← Option.isNone_iff_eq_none]
  rcases hservice with rfl | rfl <;> interval_cases m <;> first | decide | exact absurd rfl hclass

/-- A reply names the service it answers. -/
theorem sendStandardFrame_service {s : MyCan} {id : Nat} {service : UInt8} (henable : s.sendEnable = true)
    (hquiet : ¬ (msgId id = 2 ∧ s.para.ccrLocalRemote = false)) (hservice : service = 0x00 ∨ service = 0xff)
    (u : CanUserData) (msgData : Bytes8) :
    ∃ s' reply, sendStandardFrame s (cmdOf id service) (some u) msgData = some (s', some reply) ∧
      reply.wire.2[1]? = some service := by
  have hpack : ∃ s' data, canMsgResponseDataPack (if cmdOf id service >>> 8 = 0x02 then 0x02ff else cmdOf id service)
      (some u) s (Vector.replicate 8 0) = some (s', data, 0) := by
    rw [cmdOf_class]
    split
    · rename_i hclass
      have hremote : s.para.ccrLocalRemote = true := by simpa [hclass] using hquiet
      have hfind : findCmdWithMsgCmd 0x02ff = some ccrCtrlLightLvl := rfl
      simp only [canMsgResponseDataPack, hfind, ccrCtrlLightLvl, hremote, if_true, Option.map_some]
      exact ⟨_, _, rfl⟩
    · rename_i hclass
      have hnone := findCmdWithMsgCmd_none (m := msgId id) (Nat.mod_lt _ (by decide)) hclass hservice
      rw [← cmdOf_eq] at hnone
      exact ⟨s, Vector.replicate 8 0, by simp only [canMsgResponseDataPack, hnone]⟩
  obtain ⟨s', data, hpack⟩ := hpack
  refine ⟨s', { id := (cmdOf id service &&& 0xff00) ||| s.myCanId.toNat, len := 2
                data := replyBytes msgData data (cmdOf id service) 0 }, ?_, ?_⟩
  · unfold sendStandardFrame
    rw [henable, if_neg (by decide)]
    dsimp only
    rw [hpack]
    rfl
  · simp only [TxFrame.wire]
    rw [List.getElem?_take_of_lt (by decide), Vector.getElem?_toList, Vector.getElem?_eq_getElem (by decide),
      getElem_replyBytes (by decide), if_neg (by decide), if_pos rfl, cmdOf_service]

/-- The destination or the service is a byte of an earlier frame: the reply shows it. -/
theorem not_fromCarried_of_short {dev : CanDev} {frame : RxFrame} {s : MyCan} (hshort : frame.dlen ≤ 1)
    (henable : s.sendEnable = true) (hquiet : ¬ (msgId frame.id = 2 ∧ s.para.ccrLocalRemote = false))
    (hdest : frame.dlen = 1 → addressed s (destMacId frame.data) = true) : ¬ FromCarried dev frame s := by
  rintro ⟨result, hresult⟩
  have hreply : ∀ service : UInt8, service = 0x00 ∨ service = 0xff →
      ∃ wire, result.2 = some wire ∧ wire.2[1]? = some service := by
    intro service hservice
    let left : Leftovers := ⟨Vector.replicate 8 0, (Vector.replicate 8 0xff).set 1 service, Vector.replicate 8 0⟩
    have hsame := hresult frame.data left fun _ _ _ => rfl
    rw [receive_eq (by exact hshort.trans (by decide))] at hsame
    change interpret dev frame.id s (visible frame left) = _ at hsame
    have hservice' : serviceCode (visible frame left) = service := by
      simp [getElem_visible, left, show ¬ 1 < frame.dlen by omega]
    have hdest' : addressed s (destMacId (visible frame left)) = true := by
      by_cases hone : frame.dlen = 1
      · simpa [getElem_visible, hone] using hdest hone
      · simp [getElem_visible, left, show ¬ 0 < frame.dlen by omega, addressed]
    obtain ⟨s', reply, hsend, hwire⟩ := sendStandardFrame_service henable hquiet hservice ⟨visible frame left, dev⟩
      (Vector.replicate 8 0)
    rw [interpret, if_pos hdest', hservice', hsend] at hsame
    have heq : (s', some reply.wire) = result := Option.some.inj hsame
    exact ⟨reply.wire, by rw [← heq], hwire⟩
  obtain ⟨wire, hwire, hzero⟩ := hreply 0x00 (.inl rfl)
  obtain ⟨wire', hwire', hff⟩ := hreply 0xff (.inr rfl)
  rw [hwire] at hwire'
  rw [Option.some.inj hwire', hff] at hzero
  exact absurd hzero (by decide)

theorem u16_ne (lo : UInt8) : u16 lo 0 ≠ u16 lo 1 := by
  intro heq
  have hlt := lo.toNat_lt
  have hnat := congrArg UInt16.toNat heq
  simp only [u16, UInt16.toNat_ofNat', UInt8.toNat_zero, UInt8.toNat_one] at hnat
  omega

/-- A short clock frame sets the clock from the bytes of an earlier frame. -/
theorem not_fromCarried_of_clock {dev : CanDev} {frame : RxFrame} {s : MyCan} (htwo : 2 ≤ frame.dlen)
    (hshort : frame.dlen < 8) (henable : s.sendEnable = true) (hdest : addressed s (destMacId frame.data) = true)
    (hclock : cmdOf frame.id (serviceCode frame.data) = CMD_SYNC_TIME) : ¬ FromCarried dev frame s := by
  rintro ⟨result, hresult⟩
  have hms : ∀ hi : UInt8, ∃ lo, result.1.para.ms = u16 lo hi ∧
      lo = if 6 < frame.dlen then frame.data[6] else 0 := by
    intro hi
    let left : Leftovers := ⟨Vector.replicate 8 0, (Vector.replicate 8 0).set 7 hi, Vector.replicate 8 0⟩
    have hsame := hresult frame.data left fun _ _ _ => rfl
    rw [receive_eq (by exact hshort.le)] at hsame
    change interpret dev frame.id s (visible frame left) = _ at hsame
    have hdest' : destMacId (visible frame left) = destMacId frame.data := by
      simp [getElem_visible, show 0 < frame.dlen by omega]
    have hservice' : serviceCode (visible frame left) = serviceCode frame.data := by
      simp [getElem_visible, show 1 < frame.dlen by omega]
    have hlo : (visible frame left)[6] = if 6 < frame.dlen then frame.data[6] else 0 := by
      simp [getElem_visible, left]
    have hhi : (visible frame left)[7] = hi := by
      simp [getElem_visible, left, show ¬ 7 < frame.dlen by omega]
    have hfind : findCmdWithMsgCmd CMD_SYNC_TIME = some ccrSyncTime := rfl
    rw [interpret, hdest', if_pos hdest, hservice', hclock, sendStandardFrame, henable, if_neg (by decide),
      if_neg (by decide)] at hsame
    simp only [canMsgResponseDataPack, hfind, ccrSyncTime, Option.map_some] at hsame
    refine ⟨(visible frame left)[6], ?_, hlo⟩
    rw [← Option.some.inj hsame]
    simp only [hhi]
    rfl
  obtain ⟨lo, hzero, hlo⟩ := hms 0
  obtain ⟨lo', hone, hlo'⟩ := hms 1
  rw [hlo', ← hlo, hzero] at hone
  exact u16_ne lo hone

theorem complete_of_fromCarried {dev : CanDev} {frame : RxFrame} {s : MyCan} (hcarried : FromCarried dev frame s) :
    Complete frame s := by
  by_contra hincomplete
  obtain ⟨result, hresult⟩ := hcarried
  have hlen : frame.dlen ≤ 8 := by
    by_contra hlong
    have hsame := hresult frame.data ⟨Vector.replicate 8 0, Vector.replicate 8 0, Vector.replicate 8 0⟩ fun _ _ _ => rfl
    rw [receive_eq_none (by exact hlong)] at hsame
    contradiction
  simp only [Complete, hlen, true_and, not_or] at hincomplete
  obtain ⟨henable, hfull, hquiet, hother, hclock⟩ := hincomplete
  have henable' : s.sendEnable = true := by simpa using henable
  rcases Nat.lt_or_ge frame.dlen 2 with hshort | htwo
  · refine not_fromCarried_of_short (by omega) henable' hquiet (fun hone => ?_) ⟨result, hresult⟩
    simpa [hone] using hother
  · refine not_fromCarried_of_clock htwo (by omega) henable' ?_ ?_ ⟨result, hresult⟩
    · simpa [show 1 ≤ frame.dlen by omega] using hother
    · simpa [htwo] using hclock

/-- A frame is understood from its own bytes exactly if it is complete. -/
theorem fromCarried_iff (dev : CanDev) (frame : RxFrame) (s : MyCan) : FromCarried dev frame s ↔ Complete frame s :=
  ⟨complete_of_fromCarried, fromCarried_of_complete⟩

/-- A broadcast of the clock command with one byte of the seconds. -/
def shortClock : RxFrame where
  ff := false
  sfid := 0x101
  efid := 0
  ft := false
  dlen := 3
  fi := 0
  data := #v[0xff, 0x01, 0x05, 0, 0, 0, 0, 0]

theorem not_fromCarried_shortClock :
    ¬ ∀ dev (frame : RxFrame) s, frame.dlen ≤ 15 → FromCarried dev frame s := by
  intro h
  have hcomplete := complete_of_fromCarried (h .can0 shortClock .zero (by decide))
  revert hcomplete
  unfold Complete
  decide

end LightControlMonitor.Can
