import LightControlMonitor.Can.LightLevel

/-!
# The replies to requests

When `can_msg_parse` transmits a reply, and what the reply carries. A handler suppresses it with a negative length. A command without a handler leaves the length at the 0 that `send_standard_frame` has set, which is the length of an empty reply, so an unsupported command is answered like a light command that was carried out.
-/

namespace LightControlMonitor.Can

/-- The command of a request in the handler map, which has one entry for all light commands. -/
def lookupCmd (msgCmd : Nat) : Nat := if msgCmd >>> 8 = 0x02 then CMD_CTRL_LIGHT_LVL else msgCmd

/-- The class and the service code of a request. -/
def RtCanMsg.cmd (canMsg : RtCanMsg) : Nat := cmdOf canMsg.id (serviceCode canMsg.data)

def RtCanMsg.Supported (canMsg : RtCanMsg) : Prop := lookupCmd canMsg.cmd ∈ canMsgHandlerMap.map (·.1)

instance RtCanMsg.decidableSupported (canMsg : RtCanMsg) : Decidable canMsg.Supported :=
  inferInstanceAs (Decidable (_ ∈ _))

/-- The reply data and the length that the handler of a request reports. -/
def reported (dev : CanDev) (canMsg : RtCanMsg) (s : MyCan) (left : Leftovers) : Option (Bytes8 × Int) :=
  (copyBytes left.userData canMsg.data canMsg.len).bind fun data =>
    (findCmdWithMsgCmd (lookupCmd canMsg.cmd)).bind fun handler =>
      (handler (some ⟨data, dev⟩) s (Vector.replicate 8 0)).map (·.2)

/-- A reply to a request: the own id with the class of the request, 0x00, the service code and the bytes that the handler reports. -/
def TxFrame.Answers (frame : TxFrame) (canMsg : RtCanMsg) (s : MyCan) (report : Bytes8 × Int) : Prop :=
  frame.len = 2 + report.2.toNat ∧
    frame.wire = (msgId canMsg.id <<< 8 ||| s.myCanId.toNat,
      0x00 :: serviceCode canMsg.data :: report.1.toList.take report.2.toNat)

/-- A reply is transmitted exactly if the request is for this node, sending is enabled and a handler reports a length, and it carries what the handler reports. -/
def RepliesToSupported (dev : CanDev) (canMsg : RtCanMsg) (s : MyCan) (left : Leftovers) : Prop :=
  ∃ s' reply, canMsgParse dev canMsg s left = some (s', reply) ∧
    (reply.isSome ↔ addressed s (destMacId canMsg.data) = true ∧ s.sendEnable = true ∧ canMsg.Supported ∧
      ∃ report, reported dev canMsg s left = some report ∧ 0 ≤ report.2) ∧
    ∀ frame ∈ reply, ∃ report, reported dev canMsg s left = some report ∧ frame.Answers canMsg s report

/-! ### The handlers -/

theorem findCmdWithMsgCmd_isSome {cmd : Nat} : (findCmdWithMsgCmd cmd).isSome ↔ cmd ∈ canMsgHandlerMap.map (·.1) := by
  simp [findCmdWithMsgCmd, List.find?_isSome]

/-- A handler that gets a request returns, with at most six bytes. -/
theorem handler_report {cmd : Nat} {handler : Handler} (hfind : findCmdWithMsgCmd cmd = some handler) (u : CanUserData)
    (s : MyCan) (data : Bytes8) :
    ∃ s' data' len, handler (some u) s data = some (s', data', len) ∧ len ≤ 6 := by
  obtain ⟨⟨c, h⟩, hitem, rfl⟩ := Option.map_eq_some_iff.mp hfind
  have hmem := List.mem_of_find?_eq_some hitem
  simp only [canMsgHandlerMap, List.mem_cons, Prod.mk.injEq, List.not_mem_nil, or_false] at hmem
  rcases hmem with ⟨-, rfl⟩ | ⟨-, rfl⟩ | ⟨-, rfl⟩ | ⟨-, rfl⟩ | ⟨-, rfl⟩ | ⟨-, rfl⟩ | ⟨-, rfl⟩ | ⟨-, rfl⟩ | ⟨-, rfl⟩ |
    ⟨-, rfl⟩
  case inl =>
    obtain ⟨bytes, dev⟩ := u
    cases dev <;> exact ⟨_, _, _, rfl, by decide⟩
  case inr.inr.inr.inl =>
    dsimp only [ccrCtrlLightLvl]
    split <;> exact ⟨_, _, _, rfl, by decide⟩
  all_goals exact ⟨_, _, _, rfl, by decide⟩

/-! ### The reply -/

theorem replyId (id : Nat) (serviceCode : UInt8) : cmdOf id serviceCode &&& 0xff00 = msgId id <<< 8 := by
  have hclass : ∀ a < 8, (a <<< 8) &&& 0xff00 = a <<< 8 := by
    decide
  have hservice : ∀ b < 256, b &&& 0xff00 = 0 := by
    decide +kernel
  rw [cmdOf, Nat.and_or_distrib_right, hclass (msgId id) (Nat.mod_lt _ (by decide)), hservice _ serviceCode.toNat_lt,
    Nat.or_zero]

theorem replyBytes_take {len : Nat} (hlen : len ≤ 6) (msgData data : Bytes8) (msgCmd : Nat) :
    (replyBytes msgData data msgCmd len).toList.take (2 + len) =
      0x00 :: UInt8.ofNat (msgCmd &&& 0xff) :: data.toList.take len := by
  apply List.ext_getElem
  · simp
    omega
  · intro i hi hi'
    rw [List.length_take] at hi
    rw [List.getElem_take, Vector.getElem_toList, getElem_replyBytes (by omega)]
    rcases i with _ | _ | i
    · rfl
    · rfl
    · rw [if_neg (by omega), if_neg (by omega), if_pos (by omega)]
      simp

theorem copyBytes_request {dst src : Bytes8} {len : Nat} (htwo : 2 ≤ len) (hlen : len ≤ 8) :
    ∃ data, copyBytes dst src len = some data ∧
      destMacId data = destMacId src ∧ serviceCode data = serviceCode src := by
  refine ⟨_, copyBytes_of_le hlen, ?_, ?_⟩
  · rw [destMacId, Vector.getElem_ofFn, if_pos (show 0 < len by omega)]
    rfl
  · rw [serviceCode, Vector.getElem_ofFn, if_pos (show 1 < len by omega)]
    rfl

/-- What is transmitted for the data and the length that the packing leaves. -/
theorem sendStandardFrame_pack {s s' : MyCan} {canMsg : RtCanMsg} {arg : Option CanUserData} {data : Bytes8} {len : Int}
    (henable : s.sendEnable = true)
    (hpack : canMsgResponseDataPack (lookupCmd canMsg.cmd) arg s (Vector.replicate 8 0) = some (s', data, len))
    (hle : len ≤ 6) (msgData : Bytes8) :
    ∃ reply, sendStandardFrame s canMsg.cmd arg msgData = some (s', reply) ∧ (reply.isSome ↔ 0 ≤ len) ∧
      ∀ frame ∈ reply, frame.Answers canMsg s (data, len) := by
  have hsend : sendStandardFrame s canMsg.cmd arg msgData =
      (canMsgResponseDataPack (lookupCmd canMsg.cmd) arg s (Vector.replicate 8 0)).map fun r =>
        if 0 ≤ r.2.2 ∧ r.2.2 ≤ 6 then
          (r.1, some
            { id := (canMsg.cmd &&& 0xff00) ||| s.myCanId.toNat, len := 2 + r.2.2.toNat
              data := replyBytes msgData r.2.1 canMsg.cmd r.2.2.toNat })
        else (r.1, none) := by
    rw [sendStandardFrame, if_neg (by simp [henable])]
    rfl
  rw [hsend, hpack, Option.map_some]
  dsimp only
  by_cases hnonneg : 0 ≤ len
  · rw [if_pos ⟨hnonneg, hle⟩]
    refine ⟨_, rfl, by simpa using hnonneg, ?_⟩
    rintro frame ⟨⟩
    refine ⟨rfl, ?_⟩
    rw [TxFrame.wire, replyBytes_take (by omega), RtCanMsg.cmd, replyId, cmdOf_service]
  · rw [if_neg (fun h => hnonneg h.1)]
    exact ⟨none, rfl, by simpa using hnonneg, by simp⟩

theorem canMsgParse_request {canMsg : RtCanMsg} (htwo : 2 ≤ canMsg.len) (hlen : canMsg.len ≤ 8) (dev : CanDev)
    (s : MyCan) (left : Leftovers) :
    ∃ data, copyBytes left.userData canMsg.data canMsg.len = some data ∧
      canMsgParse dev canMsg s left =
        if addressed s (destMacId canMsg.data) then sendStandardFrame s canMsg.cmd (some ⟨data, dev⟩) left.reply
        else some (s, none) := by
  obtain ⟨data, hcopy, hdest, hservice⟩ : ∃ data, copyBytes left.userData canMsg.data canMsg.len = some data ∧
    destMacId data = destMacId canMsg.data ∧ serviceCode data = serviceCode canMsg.data := copyBytes_request htwo hlen
  exact ⟨data, hcopy, by rw [canMsgParse, hcopy, Option.bind_some, hdest, hservice, RtCanMsg.cmd]⟩

/-- A request that is not for this node, or that finds sending disabled. -/
theorem replies_of_quiet {dev : CanDev} {canMsg : RtCanMsg} {s : MyCan} {left : Leftovers}
    (hparse : canMsgParse dev canMsg s left = some (s, none))
    (hquiet : ¬ (addressed s (destMacId canMsg.data) = true ∧ s.sendEnable = true)) :
    RepliesToSupported dev canMsg s left := by
  refine ⟨s, none, hparse, ?_, by simp⟩
  constructor
  · exact fun hsome => absurd hsome (by simp)
  · exact fun h => absurd ⟨h.1, h.2.1⟩ hquiet

/-- A request that reaches its handler. -/
theorem replies_of_handler {dev : CanDev} {canMsg : RtCanMsg} {s : MyCan} {left : Leftovers} {data : Bytes8}
    {handler : Handler} (hcopy : copyBytes left.userData canMsg.data canMsg.len = some data)
    (hparse : canMsgParse dev canMsg s left = sendStandardFrame s canMsg.cmd (some ⟨data, dev⟩) left.reply)
    (haddressed : addressed s (destMacId canMsg.data) = true) (henable : s.sendEnable = true)
    (hfind : findCmdWithMsgCmd (lookupCmd canMsg.cmd) = some handler) : RepliesToSupported dev canMsg s left := by
  obtain ⟨s', data', len, hhandler, hle⟩ := handler_report hfind ⟨data, dev⟩ s (Vector.replicate 8 0)
  have hreported : reported dev canMsg s left = some (data', len) := by
    rw [reported, hcopy, Option.bind_some, hfind, Option.bind_some, hhandler]
    rfl
  have hpack : canMsgResponseDataPack (lookupCmd canMsg.cmd) (some ⟨data, dev⟩) s (Vector.replicate 8 0) =
      some (s', data', len) := by
    rw [canMsgResponseDataPack, hfind]
    exact hhandler
  have hsupported : canMsg.Supported := findCmdWithMsgCmd_isSome.mp (Option.isSome_iff_exists.mpr ⟨handler, hfind⟩)
  obtain ⟨reply, hsend, hsome, hanswers⟩ := sendStandardFrame_pack henable hpack hle left.reply
  refine ⟨s', reply, hparse.trans hsend, ?_, fun frame hframe => ⟨_, hreported, hanswers frame hframe⟩⟩
  rw [hsome, hreported]
  simp [haddressed, henable, hsupported]

/-- An addressed request without a handler gets an empty reply. -/
theorem not_replies_of_unsupported {dev : CanDev} {canMsg : RtCanMsg} {s : MyCan} {left : Leftovers} {data : Bytes8}
    (hparse : canMsgParse dev canMsg s left = sendStandardFrame s canMsg.cmd (some ⟨data, dev⟩) left.reply)
    (henable : s.sendEnable = true) (hunsupported : ¬ canMsg.Supported) : ¬ RepliesToSupported dev canMsg s left := by
  rintro ⟨s', reply, hreply, hsome, -⟩
  have hfind : findCmdWithMsgCmd (lookupCmd canMsg.cmd) = none := by
    rw [← Option.not_isSome_iff_eq_none, findCmdWithMsgCmd_isSome]
    exact hunsupported
  have hpack : canMsgResponseDataPack (lookupCmd canMsg.cmd) (some ⟨data, dev⟩) s (Vector.replicate 8 0) =
      some (s, Vector.replicate 8 0, 0) := by
    rw [canMsgResponseDataPack, hfind]
  obtain ⟨reply', hsend, hempty, -⟩ := sendStandardFrame_pack henable hpack (by decide) left.reply
  obtain ⟨-, rfl⟩ := Prod.mk.inj (Option.some.inj ((hparse.trans hsend).symm.trans hreply))
  exact hunsupported (hsome.mp (hempty.mpr (le_refl 0))).2.2.1

/-- A reply is sent for supported commands only, but for frames longer than the buffer and for commands without a handler. -/
theorem replies_to_supported {dev : CanDev} {canMsg : RtCanMsg} {s : MyCan} {left : Leftovers} (htwo : 2 ≤ canMsg.len) :
    RepliesToSupported dev canMsg s left ↔
      canMsg.len ≤ 8 ∧ (addressed s (destMacId canMsg.data) = true → s.sendEnable = true → canMsg.Supported) := by
  by_cases hlen : canMsg.len ≤ 8
  · obtain ⟨data, hcopy, hparse⟩ := canMsgParse_request htwo hlen dev s left
    rw [and_iff_right hlen]
    by_cases haddressed : addressed s (destMacId canMsg.data) = true
    · rw [if_pos haddressed] at hparse
      by_cases henable : s.sendEnable = true
      · by_cases hsupported : canMsg.Supported
        · obtain ⟨handler, hfind⟩ := Option.isSome_iff_exists.mp (findCmdWithMsgCmd_isSome.mpr hsupported)
          exact iff_of_true (replies_of_handler hcopy hparse haddressed henable hfind) fun _ _ => hsupported
        · exact iff_of_false (not_replies_of_unsupported hparse henable hsupported)
            fun h => hsupported (h haddressed henable)
      · have hsend : sendStandardFrame s canMsg.cmd (some ⟨data, dev⟩) left.reply = some (s, none) :=
          if_pos (Bool.not_eq_true _ ▸ henable)
        exact iff_of_true (replies_of_quiet (hparse.trans hsend) fun h => henable h.2) fun _ h => absurd h henable
    · rw [if_neg haddressed] at hparse
      exact iff_of_true (replies_of_quiet hparse fun h => haddressed h.1) fun h => absurd h haddressed
  · refine iff_of_false ?_ fun h => hlen h.1
    rintro ⟨s', reply, hparse, -⟩
    rw [canMsgParse, copyBytes, if_neg hlen] at hparse
    exact absurd hparse (by simp)

/-- A node that may send and whose id the image has set. -/
def nodeFive : MyCan := { MyCan.zero with myCanId := 5 }

/-- A request with two data bytes to node 5. -/
def request (id : Nat) (service : UInt8) : RtCanMsg :=
  { id := id, ide := false, rtr := false, len := 2, hdrIndex := 0, data := #v[5, service, 0, 0, 0, 0, 0, 0] }

theorem replies_to_supported_io :
    RepliesToSupported .can0 (request 0x400 0x02) nodeFive noLeftovers ↔
      (request 0x400 0x02).len ≤ 8 ∧ (addressed nodeFive (destMacId (request 0x400 0x02).data) = true →
        nodeFive.sendEnable = true → (request 0x400 0x02).Supported) :=
  replies_to_supported (by decide)

/-- Service code 0x7f of class 4 has no handler. -/
theorem not_replies_to_supported :
    ¬ ∀ (dev : CanDev) (canMsg : RtCanMsg) (s : MyCan) (left : Leftovers), 2 ≤ canMsg.len →
      RepliesToSupported dev canMsg s left := by
  intro h
  obtain ⟨data, -, hparse⟩ := canMsgParse_request (show 2 ≤ (request 0x400 0x7f).len by decide) (by decide) .can0
    nodeFive noLeftovers
  rw [if_pos (by decide)] at hparse
  exact not_replies_of_unsupported hparse rfl (by decide) (h .can0 _ _ _ (by decide))

end LightControlMonitor.Can
