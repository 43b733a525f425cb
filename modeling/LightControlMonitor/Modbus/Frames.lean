import LightControlMonitor.Modbus.Codec

/-!
# Answers on the wire

The frames a slave sends for a read of holding registers, and what `agile_modbus_deserialize_read_registers` makes of received bytes. A frame is its bytes with their CRC behind them. The decoder finds the end of the frame in the frame, so the bytes behind it do not matter.
-/

namespace LightControlMonitor.Modbus

def wordBytes (word : UInt16) : List UInt8 := [(word >>> 8).toUInt8, word.toUInt8]

def replyFrame (slave : UInt8) (words : List UInt16) : List UInt8 :=
  rtuSendMsgPre ([slave, 0x03, UInt8.ofNat (2 * words.length)] ++ words.flatMap wordBytes)

def exceptionFrame (slave code : UInt8) : List UInt8 := rtuSendMsgPre [slave, 0x83, code]

def Intact (frame : List UInt8) : Prop := ∃ payload, frame = rtuSendMsgPre payload

/-- The slaves whose answer is one to a request to `asked`. -/
def Answers (asked slave : UInt8) : Prop := slave = asked ∨ asked = BROADCAST_ADDRESS

/-- What the bytes `msg` say to a master that has asked for `nb` registers. -/
inductive Decoded (asked : UInt8) (nb : Nat) (msg : List UInt8) : Int → List UInt16 → Prop
  | reply {slave : UInt8} {words : List UInt16} (hslave : Answers asked slave) (hlength : words.length = nb)
      (hframe : replyFrame slave words <+: msg) : Decoded asked nb msg nb words
  | exception {slave code : UInt8} (hslave : Answers asked slave) (hframe : exceptionFrame slave code <+: msg) :
      Decoded asked nb msg (-128 - code.toNat) []
  | refused (hreply : ∀ slave words, Answers asked slave → words.length = nb → ¬ replyFrame slave words <+: msg)
      (hexception : ∀ slave code, Answers asked slave → ¬ exceptionFrame slave code <+: msg) :
      Decoded asked nb msg (-1) []

/-! ### The check -/

theorem length_rtuSendMsgPre (payload : List UInt8) : (rtuSendMsgPre payload).length = payload.length + 2 := by
  rw [rtuSendMsgPre, List.length_append]
  rfl

theorem wordBytes_eq_iff {word : UInt16} {hi lo : UInt8} :
    wordBytes word = [hi, lo] ↔ word = hi.toUInt16 <<< 8 ||| lo.toUInt16 := by
  rw [← UInt16.toBitVec_inj, Crc.toBitVec_bytes, Crc.toBitVec_split, Crc.append_inj]
  simp [wordBytes]

theorem intact_append_pair {payload : List UInt8} {hi lo : UInt8} :
    Intact (payload ++ [hi, lo]) ↔ rtuCrc16 payload = hi.toUInt16 <<< 8 ||| lo.toUInt16 := by
  rw [← wordBytes_eq_iff]
  constructor
  · rintro ⟨other, heq⟩
    obtain ⟨rfl, htail⟩ := List.append_inj' heq rfl
    exact htail.symm
  · intro htail
    exact ⟨payload, congrArg (payload ++ ·) htail.symm⟩

theorem take_eq_append_pair {msg : List UInt8} {n : Nat} (hn : n + 2 ≤ msg.length) :
    ∃ hi lo, msg[n]? = some hi ∧ msg[n + 1]? = some lo ∧ msg.take (n + 2) = msg.take n ++ [hi, lo] := by
  have hhi : n < msg.length := by omega
  have hlo : n + 1 < msg.length := by omega
  refine ⟨msg[n], msg[n + 1], List.getElem?_eq_getElem hhi, List.getElem?_eq_getElem hlo, ?_⟩
  rw [List.take_add_one, List.take_add_one, List.getElem?_eq_getElem hhi, List.getElem?_eq_getElem hlo,
    List.append_assoc]
  rfl

theorem rtuCheckIntegrity_spec {msg : List UInt8} {n : Nat} (htwo : 2 ≤ n) (hn : n ≤ msg.length) :
    (Intact (msg.take n) → rtuCheckIntegrity msg n = some (n : Int)) ∧
      (¬ Intact (msg.take n) → rtuCheckIntegrity msg n = some (-1)) := by
  obtain ⟨m, rfl⟩ := Nat.exists_eq_add_of_le' htwo
  obtain ⟨hi, lo, hhi, hlo, htake⟩ := take_eq_append_pair hn
  have hcheck : rtuCheckIntegrity msg (m + 2) = some
      (if rtuCrc16 (msg.take m) = hi.toUInt16 <<< 8 ||| lo.toUInt16 then ((m + 2 : Nat) : Int) else -1) := by
    rw [rtuCheckIntegrity, show m + 2 - 2 = m by omega, show m + 2 - 1 = m + 1 by omega, hhi, hlo]
    rfl
  rw [htake, intact_append_pair, hcheck]
  exact ⟨fun hcrc => by rw [if_pos hcrc], fun hcrc => by rw [if_neg hcrc]⟩

/-! ### The end of a frame -/

/-- The bytes behind the ones that follow the function, with the check. -/
def dataLength (function count : UInt8) : Nat :=
  (if function.toNat ≤ FC_READ_INPUT_REGISTERS ∨ function.toNat = FC_REPORT_SLAVE_ID ∨
      function.toNat = FC_WRITE_AND_READ_REGISTERS then count.toNat else 0) + 2

def frameLength (function count : UInt8) : Nat :=
  2 + computeMetaLengthAfterFunction function.toNat .confirmation + dataLength function count

theorem one_le_metaLength (function : Nat) : 1 ≤ computeMetaLengthAfterFunction function .confirmation := by
  unfold computeMetaLengthAfterFunction
  dsimp only
  split_ifs <;> decide

theorem five_le_frameLength (function count : UInt8) : 5 ≤ frameLength function count := by
  have hmeta := one_le_metaLength function.toNat
  unfold frameLength dataLength
  omega

theorem computeDataLengthAfterMeta_eq (slave function count : UInt8) (rest : List UInt8) :
    computeDataLengthAfterMeta (slave :: function :: count :: rest) function.toNat .confirmation =
      some (dataLength function count) := by
  unfold computeDataLengthAfterMeta dataLength
  dsimp only
  split_ifs <;> rfl

theorem receiveMsgJudge_eq (slave function count : UInt8) (rest : List UInt8) :
    receiveMsgJudge (slave :: function :: count :: rest) .confirmation =
      if (slave :: function :: count :: rest).length < frameLength function count then some (-1)
      else rtuCheckIntegrity (slave :: function :: count :: rest) (frameLength function count) := by
  have hdata := computeDataLengthAfterMeta_eq slave function count rest
  generalize hmsg : slave :: function :: count :: rest = msg at hdata ⊢
  have hlength : msg.length = rest.length + 3 := hmsg ▸ rfl
  have hfunction : msg[RTU_HEADER_LENGTH]? = some function := hmsg ▸ rfl
  have hframe : frameLength function count =
    2 + computeMetaLengthAfterFunction function.toNat .confirmation + dataLength function count := rfl
  have hheader : ((RTU_HEADER_LENGTH + 1 : Nat) : Int) = 2 := rfl
  rw [receiveMsgJudge, hheader, if_neg (by omega), hfunction, Option.bind_some]
  dsimp only
  by_cases hmeta : (msg.length : Int) - 2 - (computeMetaLengthAfterFunction function.toNat .confirmation : Nat) < 0
  · rw [if_pos hmeta, if_pos (by omega)]
  · rw [if_neg hmeta, hdata, Option.bind_some]
    by_cases hrest : msg.length < frameLength function count
    · rw [if_pos (by omega), if_pos hrest]
    · rw [if_neg (by omega), if_neg hrest]
      congr 1
      omega

theorem receiveMsgJudge_short {msg : List UInt8} (hshort : msg.length < 3) :
    receiveMsgJudge msg .confirmation = some (-1) := by
  have hheader : ((RTU_HEADER_LENGTH + 1 : Nat) : Int) = 2 := rfl
  rw [receiveMsgJudge, hheader]
  by_cases htwo : (msg.length : Int) - 2 < 0
  · rw [if_pos htwo]
  · obtain ⟨function, hfunction⟩ : ∃ function, msg[RTU_HEADER_LENGTH]? = some function :=
      ⟨_, List.getElem?_eq_getElem (show 1 < msg.length by omega)⟩
    have hmeta := one_le_metaLength function.toNat
    rw [if_neg htwo, hfunction, Option.bind_some]
    exact if_pos (by omega)

/-! ### The answer to a read -/

/-- The bytes of the request for `nb` registers. -/
theorem readRequest_eq {ctx ctx' : ModbusCtx} {addr nb : Nat} (hreq : serializeReadRegisters ctx addr nb = some ctx') :
    ∃ crc, ctx'.sendBuf = [ctx.slave, 0x03, UInt8.ofNat (addr >>> 8), UInt8.ofNat addr, 0, UInt8.ofNat nb] ++ crc ∧
      nb ≤ 125 ∧ ctx'.sendBufsz = ctx.sendBufsz ∧ ctx'.readBufsz = ctx.readBufsz ∧ 8 ≤ ctx.sendBufsz := by
  unfold serializeReadRegisters at hreq
  split_ifs at hreq with hsend hnb
  obtain rfl := Option.some.inj hreq
  have hle : nb ≤ 125 := Nat.not_lt.mp hnb
  have hhigh : nb >>> 8 = 0 := by
    rw [Nat.shiftRight_eq_div_pow]
    omega
  have hbasis : rtuBuildRequestBasis ctx FC_READ_HOLDING_REGISTERS addr nb =
      [ctx.slave, 0x03, UInt8.ofNat (addr >>> 8), UInt8.ofNat addr, 0, UInt8.ofNat nb] := by
    rw [rtuBuildRequestBasis, hhigh]
    rfl
  rw [hbasis]
  exact ⟨_, rfl, hle, rfl, rfl, Nat.not_lt.mp hsend⟩

section Confirmation

variable {asked addrHi addrLo : UInt8} {nb : Nat} {crc : List UInt8}

theorem wordAt_readRequest (hnb : nb ≤ 125) :
    wordAt ([asked, 0x03, addrHi, addrLo, 0, UInt8.ofNat nb] ++ crc) (RTU_HEADER_LENGTH + 3) = some nb := by
  have hword : wordAt ([asked, 0x03, addrHi, addrLo, 0, UInt8.ofNat nb] ++ crc) (RTU_HEADER_LENGTH + 3) =
      some ((0 : UInt8).toNat <<< 8 ||| (UInt8.ofNat nb).toNat) := rfl
  rw [hword, UInt8.toNat_ofNat_of_lt' (show nb < 256 by omega)]
  exact congrArg some (Nat.zero_or nb)

theorem responseLength_readRequest (hnb : nb ≤ 125) :
    computeResponseLengthFromRequest ([asked, 0x03, addrHi, addrLo, 0, UInt8.ofNat nb] ++ crc) =
      some ((5 + 2 * nb : Nat) : Int) := by
  have hfunction : ([asked, 0x03, addrHi, addrLo, 0, UInt8.ofNat nb] ++ crc)[RTU_HEADER_LENGTH]? = some 0x03 := rfl
  rw [computeResponseLengthFromRequest, hfunction, Option.bind_some]
  dsimp only
  rw [if_neg (by decide), if_pos (by decide), wordAt_readRequest hnb, Option.map_some, Option.map_some]
  dsimp only
  congr 2
  simp only [RTU_HEADER_LENGTH, RTU_CHECKSUM_LENGTH]
  omega

theorem nbValues_readRequest (hnb : nb ≤ 125) (slave count : UInt8) (rest : List UInt8) :
    nbValues ([asked, 0x03, addrHi, addrLo, 0, UInt8.ofNat nb] ++ crc) (slave :: 0x03 :: count :: rest) 0x03 =
      some (nb, count.toNat / 2) := by
  rw [nbValues, if_neg (by decide), if_pos (by decide), wordAt_readRequest hnb]
  rfl

theorem checkConfirmation_eq (hnb : nb ≤ 125) (slave function count : UInt8) (rest : List UInt8) (n : Nat) :
    checkConfirmation ([asked, 0x03, addrHi, addrLo, 0, UInt8.ofNat nb] ++ crc) (slave :: function :: count :: rest) n =
      some (if asked ≠ slave ∧ asked ≠ BROADCAST_ADDRESS then -1
        else if 0x80 ≤ function.toNat then
          if n = 5 ∧ function = 0x83 then -128 - (count.toNat : Int) else -1
        else if n = 5 + 2 * nb ∧ function = 0x03 ∧ nb = count.toNat / 2 then (nb : Int) else -1) := by
  have hpre : rtuPreCheckConfirmation ([asked, 0x03, addrHi, addrLo, 0, UInt8.ofNat nb] ++ crc)
      (slave :: function :: count :: rest) =
        some (if asked ≠ slave ∧ asked ≠ BROADCAST_ADDRESS then -1 else 0) := rfl
  have hasked : ([asked, 0x03, addrHi, addrLo, 0, UInt8.ofNat nb] ++ crc)[RTU_HEADER_LENGTH]? = some 0x03 := rfl
  have hfunction : (slave :: function :: count :: rest)[RTU_HEADER_LENGTH]? = some function := rfl
  rw [checkConfirmation, hfunction, Option.bind_some, hpre, Option.bind_some]
  by_cases hslave : asked ≠ slave ∧ asked ≠ BROADCAST_ADDRESS
  · rw [if_pos hslave, if_pos hslave]
    rfl
  rw [if_neg hslave, if_neg hslave, if_neg (by decide), responseLength_readRequest hnb, Option.bind_some, hasked,
    Option.bind_some]
  by_cases hhigh : 0x80 ≤ function.toNat
  · rw [if_pos hhigh, if_pos hhigh]
    have hcode : (n : Int) = (RTU_HEADER_LENGTH + 2 + RTU_CHECKSUM_LENGTH : Nat) ∧
        (0x03 : UInt8).toNat = function.toNat - 0x80 ↔ n = 5 ∧ function = 0x83 := by
      rw [← UInt8.toNat_inj]
      change (n : Int) = (5 : Nat) ∧ 3 = function.toNat - 0x80 ↔ n = 5 ∧ function.toNat = 0x83
      omega
    by_cases hexception : n = 5 ∧ function = 0x83
    · rw [if_pos (hcode.mpr hexception), if_pos hexception]
      rfl
    · rw [if_neg (hcode.not.mpr hexception), if_neg hexception]
  · rw [if_neg hhigh, if_neg hhigh]
    have hdefined : ((5 + 2 * nb : Nat) : Int) ≠ MSG_LENGTH_UNDEFINED := by
      unfold MSG_LENGTH_UNDEFINED
      omega
    by_cases hlength : n = 5 + 2 * nb
    · subst hlength
      rw [if_pos (.inl rfl)]
      by_cases hread : function = 0x03
      · subst hread
        have hvalues : nbValues ([asked, 0x03, addrHi, addrLo, 0, UInt8.ofNat nb] ++ crc)
            (slave :: 0x03 :: count :: rest) 0x03 = some (nb, count.toNat / 2) := nbValues_readRequest hnb slave count rest
        rw [if_neg (by simp)]
        change (nbValues _ _ 0x03).map _ = _
        rw [hvalues, Option.map_some]
        by_cases hcount : nb = count.toNat / 2
        · simp [← hcount]
        · simp [hcount]
      · rw [if_pos hread, if_neg (by tauto)]
    · rw [if_neg (by omega), if_neg (by tauto)]

end Confirmation

/-! ### The values -/

theorem toNat_word (hi lo : UInt8) :
    (hi.toUInt16 <<< 8 ||| lo.toUInt16).toNat = hi.toNat <<< 8 ||| lo.toNat := by
  have hlt : hi.toNat <<< 8 < 2 ^ 16 := by
    have := hi.toNat_lt
    rw [Nat.shiftLeft_eq]
    omega
  rw [UInt16.toNat_or, UInt16.toNat_shiftLeft, UInt8.toNat_toUInt16, UInt8.toNat_toUInt16]
  exact congrArg (· ||| lo.toNat) (Nat.mod_eq_of_lt hlt)

theorem wordAt_append (before : List UInt8) (word : UInt16) (after : List UInt8) :
    wordAt (before ++ (wordBytes word ++ after)) before.length = some word.toNat := by
  have hword := wordBytes_eq_iff.mp (show wordBytes word = [(word >>> 8).toUInt8, word.toUInt8] from rfl)
  have hhi : (before ++ (wordBytes word ++ after))[before.length]? = some (word >>> 8).toUInt8 := by
    rw [List.getElem?_append_right (Nat.le_refl _), Nat.sub_self]
    rfl
  have hlo : (before ++ (wordBytes word ++ after))[before.length + 1]? = some word.toUInt8 := by
    rw [List.getElem?_append_right (Nat.le_add_right _ _), Nat.add_sub_cancel_left]
    rfl
  rw [wordAt, hhi, hlo, Option.bind_some, Option.map_some, ← toNat_word, ← hword]

theorem readWords_flatMap (before : List UInt8) (words : List UInt16) (after : List UInt8) :
    readWords (before ++ (words.flatMap wordBytes ++ after)) before.length words.length = some words := by
  induction words generalizing before with
  | nil => rfl
  | cons word words ih =>
    have hrest := ih (before ++ wordBytes word)
    rw [List.length_append, List.append_assoc] at hrest
    rw [List.flatMap_cons, List.append_assoc, List.length_cons, readWords, wordAt_append, Option.bind_some]
    change (readWords _ (before.length + (wordBytes word).length) _).map _ = _
    rw [hrest, Option.map_some, UInt16.ofNat_toNat]

theorem exists_words {n : Nat} {bytes : List UInt8} (hlength : bytes.length = 2 * n) :
    ∃ words : List UInt16, words.length = n ∧ bytes = words.flatMap wordBytes := by
  induction n generalizing bytes with
  | zero => exact ⟨[], rfl, List.length_eq_zero_iff.mp hlength⟩
  | succ n ih =>
    match bytes, hlength with
    | hi :: lo :: bytes, hlength =>
      obtain ⟨words, hwords, rfl⟩ := ih (show bytes.length = 2 * n by simp only [List.length_cons] at hlength; omega)
      refine ⟨(hi.toUInt16 <<< 8 ||| lo.toUInt16) :: words, by rw [List.length_cons, hwords], ?_⟩
      rw [List.flatMap_cons, wordBytes_eq_iff.mpr rfl]
      rfl

theorem length_flatMap_wordBytes (words : List UInt16) : (words.flatMap wordBytes).length = 2 * words.length := by
  induction words with
  | nil => rfl
  | cons word words ih =>
    rw [List.flatMap_cons, List.length_append, ih, List.length_cons]
    change 2 + 2 * words.length = _
    omega

/-! ### The frames at the front of a message -/

section Front

variable {slave code a function count : UInt8} {words : List UInt16} {nb : Nat} {rest msg : List UInt8}

theorem frameLength_reply (count : UInt8) : frameLength 0x03 count = 5 + count.toNat := by
  change 2 + 1 + (count.toNat + 2) = _
  omega

theorem frameLength_exception (count : UInt8) : frameLength 0x83 count = 5 := rfl

theorem replyFrame_eq (slave : UInt8) (words : List UInt16) :
    replyFrame slave words = [slave, 0x03, UInt8.ofNat (2 * words.length)] ++ (words.flatMap wordBytes ++
      wordBytes (rtuCrc16 ([slave, 0x03, UInt8.ofNat (2 * words.length)] ++ words.flatMap wordBytes))) := by
  rw [← List.append_assoc]
  rfl

theorem length_replyFrame (slave : UInt8) (words : List UInt16) : (replyFrame slave words).length = 5 + 2 * words.length := by
  rw [replyFrame, length_rtuSendMsgPre, List.length_append, length_flatMap_wordBytes]
  change 3 + 2 * words.length + 2 = _
  omega

theorem intact_of_prefix {frame : List UInt8} (hframe : Intact frame) (hfront : frame <+: msg) {n : Nat}
    (hn : n = frame.length) : n ≤ msg.length ∧ Intact (msg.take n) := by
  subst hn
  refine ⟨hfront.length_le, ?_⟩
  rwa [← List.prefix_iff_eq_take.mp hfront]

/-- What the decoder reads of a reply at the front of a message. -/
theorem reply_front (hnb : words.length ≤ 125) (hfront : replyFrame slave words <+: a :: function :: count :: rest) :
    slave = a ∧ function = 0x03 ∧ count.toNat = 2 * words.length ∧
      frameLength function count ≤ (a :: function :: count :: rest).length ∧
      Intact ((a :: function :: count :: rest).take (frameLength function count)) := by
  have hfront := hfront
  rw [replyFrame_eq] at hfront
  simp only [List.cons_append, List.cons_prefix_cons] at hfront
  obtain ⟨rfl, rfl, rfl, -⟩ := hfront
  have hcount : (UInt8.ofNat (2 * words.length)).toNat = 2 * words.length :=
    UInt8.toNat_ofNat_of_lt' (show 2 * words.length < 256 by omega)
  refine ⟨rfl, rfl, hcount, intact_of_prefix ⟨_, rfl⟩ hfront ?_⟩
  rw [frameLength_reply, hcount]
  exact (length_replyFrame slave words).symm

theorem exception_front (hfront : exceptionFrame slave code <+: a :: function :: count :: rest) :
    slave = a ∧ function = 0x83 ∧ count = code ∧ frameLength function count ≤ (a :: function :: count :: rest).length ∧
      Intact ((a :: function :: count :: rest).take (frameLength function count)) := by
  have hfront := hfront
  rw [exceptionFrame, rtuSendMsgPre] at hfront
  simp only [List.cons_append, List.cons_prefix_cons] at hfront
  obtain ⟨rfl, rfl, rfl, -⟩ := hfront
  exact ⟨rfl, rfl, rfl, intact_of_prefix ⟨_, rfl⟩ hfront rfl⟩

/-- An intact frame at the front is the CRC behind the bytes of the message. -/
theorem payload_of_intact {n : Nat} (hle : n + 5 ≤ (a :: function :: count :: rest).length)
    (hintact : Intact ((a :: function :: count :: rest).take (n + 5))) :
    ∃ body : List UInt8, body.length = n ∧
      rtuSendMsgPre ([a, function, count] ++ body) <+: a :: function :: count :: rest := by
  obtain ⟨payload, hpayload⟩ := hintact
  have hfront : rtuSendMsgPre payload <+: a :: function :: count :: rest := hpayload ▸ List.take_prefix _ _
  have hlength := congrArg List.length hpayload
  rw [List.length_take_of_le hle, length_rtuSendMsgPre] at hlength
  match payload, hfront, hlength with
  | x :: y :: z :: body, hfront, hlength =>
    have hfront : x :: y :: z :: body <+: a :: function :: count :: rest :=
      (List.prefix_append _ _).trans hfront
    simp only [List.cons_prefix_cons] at hfront
    obtain ⟨rfl, rfl, rfl, -⟩ := hfront
    refine ⟨body, ?_, hfront⟩
    simp only [List.length_cons] at hlength
    omega

theorem exists_reply (hcount : count.toNat = 2 * nb) (hle : 5 + 2 * nb ≤ (a :: 0x03 :: count :: rest).length)
    (hintact : Intact ((a :: 0x03 :: count :: rest).take (5 + 2 * nb))) :
    ∃ words, words.length = nb ∧ replyFrame a words <+: a :: 0x03 :: count :: rest := by
  rw [Nat.add_comm] at hle hintact
  obtain ⟨body, hbody, hfront⟩ := payload_of_intact hle hintact
  obtain ⟨words, hwords, rfl⟩ := exists_words hbody
  refine ⟨words, hwords, ?_⟩
  rwa [replyFrame, hwords, ← hcount, UInt8.ofNat_toNat]

theorem exists_exception (hle : 5 ≤ (a :: 0x83 :: count :: rest).length)
    (hintact : Intact ((a :: 0x83 :: count :: rest).take 5)) : exceptionFrame a count <+: a :: 0x83 :: count :: rest := by
  obtain ⟨body, hbody, hfront⟩ := @payload_of_intact _ _ _ _ 0 hle hintact
  obtain rfl := List.length_eq_zero_iff.mp hbody
  exact hfront

theorem readWords_of_reply (hfront : replyFrame slave words <+: msg) :
    readWords msg (RTU_HEADER_LENGTH + 2) words.length = some words := by
  obtain ⟨after, rfl⟩ := hfront
  rw [replyFrame_eq, List.append_assoc, List.append_assoc]
  exact readWords_flatMap [slave, 0x03, UInt8.ofNat (2 * words.length)] words _

end Front

/-! ### The decoder -/

section Decoder

variable {asked : UInt8} {nb : Nat} {msg : List UInt8}

theorem exists_three (hlong : ¬ msg.length < 3) : ∃ slave function count rest, msg = slave :: function :: count :: rest := by
  match msg with
  | [] | [_] | [_, _] => simp at hlong
  | slave :: function :: count :: rest => exact ⟨slave, function, count, rest, rfl⟩

theorem Decoded.refused_short (hshort : msg.length < 3) : Decoded asked nb msg (-1) [] := by
  refine .refused (fun slave words _ _ hfront => ?_) fun slave code _ hfront => ?_
  · have hle := hfront.length_le
    rw [length_replyFrame] at hle
    omega
  · have hle := hfront.length_le
    change 5 ≤ msg.length at hle
    omega

theorem Decoded.refused_of_short {rc : Int} {dest : List UInt16} (hshort : msg.length < 3)
    (h : Decoded asked nb msg rc dest) : rc = -1 ∧ dest = [] := by
  cases h with
  | reply _ _ hframe =>
    have hle := hframe.length_le
    rw [length_replyFrame] at hle
    omega
  | exception _ hframe =>
    have hle := hframe.length_le
    change 5 ≤ msg.length at hle
    omega
  | refused => exact ⟨rfl, rfl⟩

/-- A message says one thing only. -/
theorem Decoded.unique (hnb : nb ≤ 125) {rc rc' : Int} {dest dest' : List UInt16} (h : Decoded asked nb msg rc dest)
    (h' : Decoded asked nb msg rc' dest') : rc = rc' ∧ dest = dest' := by
  by_cases hshort : msg.length < 3
  · obtain ⟨rfl, rfl⟩ := h.refused_of_short hshort
    obtain ⟨rfl, rfl⟩ := h'.refused_of_short hshort
    exact ⟨rfl, rfl⟩
  obtain ⟨slave, function, count, rest, rfl⟩ := exists_three hshort
  -- the first three bytes tell the two frames apart
  cases h with
  | reply hslave hlength hframe =>
    have hfront := reply_front (hlength ▸ hnb) hframe
    cases h' with
    | reply hslave' hlength' hframe' =>
      have hwords := readWords_of_reply hframe
      have hwords' := readWords_of_reply hframe'
      rw [hlength] at hwords
      rw [hlength', hwords] at hwords'
      exact ⟨rfl, Option.some.inj hwords'⟩
    | exception hslave' hframe' => exact absurd (hfront.2.1.symm.trans (exception_front hframe').2.1) (by decide)
    | refused hreply => exact absurd hframe (hreply _ _ hslave hlength)
  | exception hslave hframe =>
    have hfront := exception_front hframe
    cases h' with
    | reply hslave' hlength' hframe' =>
      exact absurd (hfront.2.1.symm.trans (reply_front (hlength' ▸ hnb) hframe').2.1) (by decide)
    | exception hslave' hframe' =>
      obtain rfl := hfront.2.2.1.symm.trans (exception_front hframe').2.2.1
      exact ⟨rfl, rfl⟩
    | refused _ hexception => exact absurd hframe (hexception _ _ hslave)
  | refused hreply hexception =>
    cases h' with
    | reply hslave' hlength' hframe' => exact absurd hframe' (hreply _ _ hslave' hlength')
    | exception hslave' hframe' => exact absurd hframe' (hexception _ _ hslave')
    | refused => exact ⟨rfl, rfl⟩

variable {addrHi addrLo slave function count : UInt8} {crc rest : List UInt8}

/-- The answers a master that has asked for `nb` registers takes. -/
def Expected (asked : UInt8) (nb : Nat) (slave function count : UInt8) : Prop :=
  Answers asked slave ∧ (function = 0x03 ∧ count.toNat = 2 * nb ∨ function = 0x83)

theorem Decoded.refused_front (hnb : nb ≤ 125)
    (hno : ¬ (Expected asked nb slave function count ∧
      frameLength function count ≤ (slave :: function :: count :: rest).length ∧
        Intact ((slave :: function :: count :: rest).take (frameLength function count)))) :
    Decoded asked nb (slave :: function :: count :: rest) (-1) [] := by
  refine .refused (fun other words hslave hlength hfront => hno ?_) fun other code hslave hfront => hno ?_
  · subst hlength
    obtain ⟨rfl, rfl, hcount, hintact⟩ := reply_front hnb hfront
    exact ⟨⟨hslave, .inl ⟨rfl, hcount⟩⟩, hintact⟩
  · obtain ⟨rfl, rfl, -, hintact⟩ := exception_front hfront
    exact ⟨⟨hslave, .inr rfl⟩, hintact⟩

theorem checkConfirmation_unexpected (hnb : nb ≤ 125) (hno : ¬ Expected asked nb slave function count) :
    checkConfirmation ([asked, 0x03, addrHi, addrLo, 0, UInt8.ofNat nb] ++ crc) (slave :: function :: count :: rest)
      (frameLength function count) = some (-1) := by
  rw [checkConfirmation_eq hnb]
  congr 1
  split_ifs with hslave hhigh hexception hread
  · rfl
  · exact absurd ⟨by unfold Answers; tauto, .inr hexception.2⟩ hno
  · rfl
  · obtain ⟨hlength, rfl, -⟩ := hread
    rw [frameLength_reply] at hlength
    exact absurd ⟨by unfold Answers; tauto, .inl ⟨rfl, by omega⟩⟩ hno
  · rfl

theorem not_elsewhere (hslave : Answers asked slave) : ¬ (asked ≠ slave ∧ asked ≠ BROADCAST_ADDRESS) := by
  rintro ⟨hne, hbroadcast⟩
  exact hslave.elim (fun heq => hne heq.symm) hbroadcast

theorem checkConfirmation_reply (hnb : nb ≤ 125) (hslave : Answers asked slave) (hcount : count.toNat = 2 * nb) :
    checkConfirmation ([asked, 0x03, addrHi, addrLo, 0, UInt8.ofNat nb] ++ crc) (slave :: 0x03 :: count :: rest)
      (frameLength 0x03 count) = some (nb : Int) := by
  rw [checkConfirmation_eq hnb, if_neg (not_elsewhere hslave), if_neg (by decide), if_pos]
  exact ⟨by rw [frameLength_reply, hcount], rfl, by omega⟩

theorem checkConfirmation_exception (hnb : nb ≤ 125) (hslave : Answers asked slave) :
    checkConfirmation ([asked, 0x03, addrHi, addrLo, 0, UInt8.ofNat nb] ++ crc) (slave :: 0x83 :: count :: rest)
      (frameLength 0x83 count) = some (-128 - (count.toNat : Int)) := by
  rw [checkConfirmation_eq hnb, if_neg (not_elsewhere hslave), if_pos (by decide), if_pos ⟨frameLength_exception count, rfl⟩]

/-- The decoder behind the tests of the buffer sizes. -/
theorem exists_decoded {ctx : ModbusCtx} (hsend : 8 ≤ ctx.sendBufsz) (hfit : msg.length ≤ ctx.readBufsz)
    (hreq : ctx.sendBuf = [asked, 0x03, addrHi, addrLo, 0, UInt8.ofNat nb] ++ crc) (hnb : nb ≤ 125) :
    ∃ rc dest, deserializeReadRegisters ctx msg = some (rc, dest) ∧ Decoded asked nb msg rc dest := by
  have hroom : ¬ ctx.sendBufsz < RTU_HEADER_LENGTH + 5 + RTU_CHECKSUM_LENGTH := Nat.not_lt.mpr hsend
  rw [deserializeReadRegisters, if_neg hroom]
  by_cases hshort : msg.length < 3
  · refine ⟨-1, [], ?_, .refused_short hshort⟩
    by_cases hempty : msg.length = 0 ∨ ctx.readBufsz < msg.length
    · rw [if_pos hempty]
    · rw [if_neg hempty, receiveMsgJudge_short hshort]
      rfl
  obtain ⟨slave, function, count, rest, rfl⟩ := exists_three hshort
  have hfive := five_le_frameLength function count
  rw [if_neg (by rintro (hempty | hlong) <;> omega), receiveMsgJudge_eq, hreq]
  by_cases hok : frameLength function count ≤ (slave :: function :: count :: rest).length ∧
      Intact ((slave :: function :: count :: rest).take (frameLength function count))
  · rw [if_neg (Nat.not_lt.mpr hok.1), (rtuCheckIntegrity_spec (by omega) hok.1).1 hok.2, Option.bind_some,
      if_neg (by omega)]
    by_cases hexpected : Expected asked nb slave function count
    · obtain ⟨hslave, ⟨rfl, hcount⟩ | rfl⟩ := hexpected
      · rw [frameLength_reply, hcount] at hok
        obtain ⟨words, hlength, hfront⟩ := exists_reply hcount hok.1 hok.2
        have hwords := readWords_of_reply hfront
        refine ⟨nb, words, ?_, .reply hslave hlength hfront⟩
        rw [checkConfirmation_reply hnb hslave hcount, Option.bind_some, if_neg (by omega), Int.toNat_natCast, ← hlength,
          hwords, Option.map_some]
      · refine ⟨-128 - (count.toNat : Int), [], ?_, .exception hslave (exists_exception hok.1 hok.2)⟩
        rw [checkConfirmation_exception hnb hslave, Option.bind_some, if_pos (by omega)]
    · refine ⟨-1, [], ?_, .refused_front hnb fun hfront => hexpected hfront.1⟩
      rw [checkConfirmation_unexpected hnb hexpected]
      rfl
  · refine ⟨-1, [], ?_, .refused_front hnb fun hfront => hok hfront.2⟩
    by_cases hcut : (slave :: function :: count :: rest).length < frameLength function count
    · rw [if_pos hcut]
      rfl
    · rw [if_neg hcut, (rtuCheckIntegrity_spec (by omega) (Nat.not_lt.mp hcut)).2 fun hintact =>
        hok ⟨Nat.not_lt.mp hcut, hintact⟩]
      rfl

end Decoder

/-- For every content of the read buffer the decoder stays inside the received bytes, returns the registers exactly of an intact reply to the request at the front of the message, the code exactly of an intact exception, and -1 otherwise. -/
theorem read_registers_decoded {ctx ctx' : ModbusCtx} {addr nb : Nat}
    (hreq : serializeReadRegisters ctx addr nb = some ctx') {msg : List UInt8} (hfit : msg.length ≤ ctx.readBufsz) :
    ∃ result, deserializeReadRegisters ctx' msg = some result ∧
      ∀ rc dest, result = (rc, dest) ↔ Decoded ctx.slave nb msg rc dest := by
  obtain ⟨crc, hbuf, hnb, hsendBufsz, hreadBufsz, hsend⟩ := readRequest_eq hreq
  obtain ⟨rc, dest, hresult, hdecoded⟩ := exists_decoded (hsendBufsz ▸ hsend) (hreadBufsz ▸ hfit) hbuf hnb
  refine ⟨_, hresult, fun rc' dest' => ⟨?_, fun h' => ?_⟩⟩
  · rintro heq
    obtain ⟨rfl, rfl⟩ := Prod.mk.inj heq
    exact hdecoded
  · obtain ⟨rfl, rfl⟩ := hdecoded.unique hnb h'
    rfl

/-- A reply with a byte of noise behind it. -/
theorem read_registers_decoded_reply :
    ∃ ctx', serializeReadRegisters ⟨1, [], 64, 64⟩ 0x30 1 = some ctx' ∧
      deserializeReadRegisters ctx' (replyFrame 1 [0x1234] ++ [0xff]) = some (1, [0x1234]) := by
  obtain ⟨ctx', hreq⟩ : ∃ ctx', serializeReadRegisters ⟨1, [], 64, 64⟩ 0x30 1 = some ctx' := ⟨_, rfl⟩
  obtain ⟨result, hresult, hdecoded⟩ :=
    read_registers_decoded hreq (show (replyFrame 1 [0x1234] ++ [0xff]).length ≤ 64 by decide)
  have hreply : Decoded 1 1 (replyFrame 1 [0x1234] ++ [0xff]) (1 : Nat) [0x1234] :=
    .reply (.inl rfl) rfl (List.prefix_append _ _)
  exact ⟨ctx', hreq, hresult.trans (congrArg some ((hdecoded _ _).mpr hreply))⟩

/-! ### Damage -/

/-- The CRC behind a payload brings the bit-serial check to zero. -/
theorem Intact.serial_eq_zero {frame : List UInt8} (hframe : Intact frame) :
    Crc.serial (0xA001 : BitVec 16) 0xFFFF (Crc.bits frame) = 0 := by
  obtain ⟨payload, rfl⟩ := hframe
  have hbytes : wordBytes (rtuCrc16 payload) =
      [(payload.foldl Eeprom.crc16Byte ⟨0xFF, 0xFF⟩).hi, (payload.foldl Eeprom.crc16Byte ⟨0xFF, 0xFF⟩).lo] :=
    wordBytes_eq_iff.mpr rfl
  change Crc.serial (0xA001 : BitVec 16) 0xFFFF (Crc.bits (payload ++ wordBytes (rtuCrc16 payload))) = 0
  rw [hbytes, Crc.bits_append, Crc.serial_append, ← Eeprom.foldl_crc16Byte_register]
  exact (Crc.serial_eq_zero_iff (by decide) (Nat.le_refl 16) _).mpr (Crc.word_bits_pair _ _).symm

theorem not_intact_of_differ {frame msg : List UInt8} (hframe : Intact frame)
    (hdiffer : Crc.Differ 16 (Crc.bits frame) (Crc.bits msg)) : ¬ Intact msg := by
  intro hmsg
  apply Crc.serial_ne (show (0xA001 : BitVec 16).getLsbD (16 - 1) = true by decide) hdiffer 0xFFFF
  rw [hframe.serial_eq_zero, hmsg.serial_eq_zero]

theorem length_eq_of_differ {frame msg : List UInt8} {len : Nat}
    (hdiffer : Crc.Differ len (Crc.bits frame) (Crc.bits msg)) : frame.length = msg.length := by
  obtain ⟨before, u, v, after, hframe, hmsg, hlength, -⟩ := hdiffer
  have hframeLength := congrArg List.length hframe
  have hmsgLength := congrArg List.length hmsg
  simp only [Crc.length_bits, List.length_append] at hframeLength hmsgLength
  omega

theorem Decoded.negative_of_damaged {asked slave : UInt8} {words : List UInt16} {msg : List UInt8}
    (hdiffer : Crc.Differ 16 (Crc.bits (replyFrame slave words)) (Crc.bits msg)) {rc : Int} {dest : List UInt16}
    (h : Decoded asked words.length msg rc dest) : rc < 0 := by
  cases h with
  | reply _ hlength hframe =>
    -- the decoder takes the whole of the damaged frame
    have hwhole := hframe.eq_of_length (by
      rw [← length_eq_of_differ hdiffer, length_replyFrame, length_replyFrame, hlength])
    exact absurd (hwhole ▸ ⟨_, rfl⟩) (not_intact_of_differ ⟨_, rfl⟩ hdiffer)
  | exception => omega
  | refused => decide

/-- A reply in which bits of one place of at most sixteen bits have changed is never taken for register values. -/
theorem damaged_reply_refused {ctx ctx' : ModbusCtx} {addr : Nat} {words : List UInt16} {slave : UInt8}
    (hreq : serializeReadRegisters ctx addr words.length = some ctx') {msg : List UInt8}
    (hfit : msg.length ≤ ctx.readBufsz)
    (hdiffer : Crc.Differ 16 (Crc.bits (replyFrame slave words)) (Crc.bits msg)) :
    ∃ rc, deserializeReadRegisters ctx' msg = some (rc, []) ∧ rc < 0 := by
  obtain ⟨crc, hbuf, hnb, hsendBufsz, hreadBufsz, hsend⟩ := readRequest_eq hreq
  obtain ⟨rc, dest, hresult, hdecoded⟩ := exists_decoded (hsendBufsz ▸ hsend) (hreadBufsz ▸ hfit) hbuf hnb
  have hnegative := hdecoded.negative_of_damaged hdiffer
  cases hdecoded with
  | reply => omega
  | exception => exact ⟨_, hresult, hnegative⟩
  | refused => exact ⟨_, hresult, hnegative⟩

theorem damaged_reply_refused_bit :
    ∃ ctx' rc, serializeReadRegisters ⟨1, [], 64, 64⟩ 0x30 1 = some ctx' ∧
      deserializeReadRegisters ctx' ([1, 3, 2, 0x13, 0x34] ++ wordBytes (rtuCrc16 [1, 3, 2, 0x12, 0x34])) =
        some (rc, []) ∧ rc < 0 := by
  have hdiffer : Crc.Differ 2 (replyFrame 1 [0x1234])
      ([1, 3, 2, 0x13, 0x34] ++ wordBytes (rtuCrc16 [1, 3, 2, 0x12, 0x34])) :=
    ⟨[1, 3, 2], [0x12], [0x13], 0x34 :: wordBytes (rtuCrc16 [1, 3, 2, 0x12, 0x34]), rfl, rfl, rfl, by decide, by decide⟩
  obtain ⟨ctx', hreq⟩ : ∃ ctx', serializeReadRegisters ⟨1, [], 64, 64⟩ 0x30 1 = some ctx' := ⟨_, rfl⟩
  have hfit : ([1, 3, 2, 0x13, 0x34] ++ wordBytes (rtuCrc16 [1, 3, 2, 0x12, 0x34])).length ≤ 64 :=
    show 7 ≤ 64 by decide
  obtain ⟨rc, hresult⟩ := @damaged_reply_refused _ _ _ [0x1234] 1 hreq _ hfit hdiffer.bits
  exact ⟨ctx', rc, hreq, hresult⟩

end LightControlMonitor.Modbus
