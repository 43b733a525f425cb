import LightControlMonitor.Lib.Transition
import LightControlMonitor.Can.Message

/-!
# The reports of a sync command

`CMD_SYNC` makes the receive thread of a bus post four report commands to a mailbox, which the upload thread of the bus takes one by one and answers with a frame. A post does not wait: on a full mailbox the command is lost. The mailbox holds ten commands, so a group of four can be cut short, and what the mailbox then holds is no longer made of whole groups. The groups stay whole if the upload thread keeps up with the handler: with `w` commands waiting when a sync command is handled, it has taken `w + i - 10` of them by the time of the `i`-th post, as it has without taking any for `w` up to six; or the mailbox is full and it takes none between the first post and the last.
-/

namespace LightControlMonitor.Can

open Transition (Reaches)

/-- `cmd_list` of `ccr_sync`. -/
def syncCmdList : List Nat :=
  CMD_PACK_CCR_IO :: [CMD_PACK_CCR_LOOP_V_I_INFO, CMD_PACK_UPS_ANALOG, CMD_PACK_UPS_IO]

/-! ### The mailbox of a bus -/

/-- `can_sync_mb0` or `can_sync_mb1`. -/
def MyCan.syncMb (s : MyCan) : CanDev → List Nat
  | .can0 => s.canSyncMb0
  | .can1 => s.canSyncMb1

def MyCan.setSyncMb (s : MyCan) (mb : List Nat) : CanDev → MyCan
  | .can0 => { s with canSyncMb0 := mb }
  | .can1 => { s with canSyncMb1 := mb }

theorem syncMb_congr {s s' : MyCan} (hmb0 : s'.canSyncMb0 = s.canSyncMb0) (hmb1 : s'.canSyncMb1 = s.canSyncMb1)
    (dev : CanDev) : s'.syncMb dev = s.syncMb dev := by
  cases dev with
  | can0 => exact hmb0
  | can1 => exact hmb1

@[simp] theorem syncMb_setSyncMb (s : MyCan) (mb : List Nat) (dev : CanDev) : (s.setSyncMb mb dev).syncMb dev = mb := by
  cases dev <;> rfl

@[simp] theorem setSyncMb_setSyncMb (s : MyCan) (mb mb' : List Nat) (dev : CanDev) :
    (s.setSyncMb mb dev).setSyncMb mb' dev = s.setSyncMb mb' dev := by
  cases dev <;> rfl

@[simp] theorem setSyncMb_myCanId (s : MyCan) (mb : List Nat) (dev : CanDev) : (s.setSyncMb mb dev).myCanId = s.myCanId := by
  cases dev <;> rfl

@[simp] theorem setSyncMb_sendEnable (s : MyCan) (mb : List Nat) (dev : CanDev) :
    (s.setSyncMb mb dev).sendEnable = s.sendEnable := by
  cases dev <;> rfl

theorem ccrSync_eq (u : CanUserData) (s : MyCan) (data : Bytes8) :
    ccrSync (some u) s data =
      some (s.setSyncMb (syncCmdList.foldl rtMbSend (s.syncMb u.canDev)) u.canDev, data, -1) := by
  obtain ⟨_, dev⟩ := u
  cases dev <;> rfl

/-! ### The report on the bus -/

/-- The command of a frame, by the message class of its id and its service code. -/
def TxFrame.cmd (frame : TxFrame) : Nat := cmdOf frame.id (serviceCode frame.data)

theorem serviceCode_replyBytes (msgData data : Bytes8) (msgCmd len : Nat) :
    serviceCode (replyBytes msgData data msgCmd len) = UInt8.ofNat (msgCmd &&& 0xff) := by
  simp [serviceCode, replyBytes]

theorem msgId_reply (msgCmd : Nat) (myCanId : UInt8) :
    msgId ((msgCmd &&& 0xff00) ||| myCanId.toNat) = msgId msgCmd := by
  have hid : myCanId.toNat >>> 8 = 0 := by
    rw [Nat.shiftRight_eq_div_pow]
    exact Nat.div_eq_of_lt myCanId.toNat_lt
  rw [msgId, Nat.shiftRight_or_distrib, hid, Nat.or_zero, Nat.shiftRight_and_distrib]
  have hmask : (0xff00 : Nat) >>> 8 = 2 ^ 8 - 1 := rfl
  rw [hmask, Nat.and_two_pow_sub_one_eq_mod, msgId]
  omega

/-- A report command transmits one report of that command and changes nothing. -/
theorem sendStandardFrame_report {s : MyCan} {cmd : Nat} (hcmd : cmd ∈ syncCmdList) (henable : s.sendEnable = true)
    (msgData : Bytes8) :
    ∃ frame, sendStandardFrame s cmd none msgData = some (s, some frame) ∧ frame.cmd = cmd := by
  have hpack : ∃ data len, canMsgResponseDataPack cmd none s (Vector.replicate 8 0) = some (s, data, len) ∧
      0 ≤ len ∧ len ≤ 6 := by
    simp only [syncCmdList, List.mem_cons, List.not_mem_nil, or_false] at hcmd
    rcases hcmd with rfl | rfl | rfl | rfl <;> exact ⟨_, _, rfl, by decide, by decide⟩
  have hall : ∀ cmd ∈ syncCmdList, cmd >>> 8 ≠ 0x02 ∧
      msgId cmd <<< 8 ||| (UInt8.ofNat (cmd &&& 0xff)).toNat = cmd := by
    decide
  obtain ⟨hclass, hself⟩ := hall cmd hcmd
  obtain ⟨data, len, hpack, hlen⟩ := hpack
  refine ⟨{ id := (cmd &&& 0xff00) ||| s.myCanId.toNat, len := 2 + len.toNat
            data := replyBytes msgData data cmd len.toNat }, ?_, ?_⟩
  · simp only [sendStandardFrame, henable, Bool.true_eq_false, if_false, hclass, hpack, Option.map_some, if_pos hlen]
  · rw [TxFrame.cmd, cmdOf, msgId_reply, serviceCode_replyBytes]
    exact hself

/-! ### The system -/

/-- One bus: the shared state, what `ccr_sync` has yet to post and what the upload thread has taken from the mailbox. Only the condition on runs looks at the last two: how many commands waited when the last sync command came, and how many have been taken since. -/
structure SyncBus where
  s : MyCan
  posts : List Nat
  cmd : Option Nat
  waiting : Nat
  taken : Nat

inductive SyncAction
  | sync
  | post
  | recv
  | send (msgData : Bytes8)
  | para (para : MyPara)

def SyncBus.mb (b : SyncBus) (dev : CanDev) : List Nat := b.s.syncMb dev

def SyncBus.Initial (dev : CanDev) (b : SyncBus) : Prop :=
  b.mb dev = [] ∧ b.posts = [] ∧ b.cmd = none

/-- A command reaches `ccr_sync` only while sending is enabled. -/
def SyncBus.Enabled (dev : CanDev) (b : SyncBus) : SyncAction → Prop
  | .sync => b.posts = [] ∧ b.s.sendEnable = true
  | .post => b.posts ≠ []
  | .recv => b.cmd = none ∧ b.mb dev ≠ []
  | .send _ => b.cmd.isSome
  | .para _ => True

/-- The start of the loop of `ccr_sync`. -/
def SyncBus.sync (dev : CanDev) (b : SyncBus) : SyncBus :=
  { b with posts := syncCmdList, waiting := (b.mb dev).length, taken := 0 }

/-- One turn of the loop of `ccr_sync`. -/
def SyncBus.post (dev : CanDev) (b : SyncBus) : SyncBus :=
  match b.posts with
  | [] => b
  | cmd :: rest => { b with s := b.s.setSyncMb (rtMbSend (b.mb dev) cmd) dev, posts := rest }

/-- `rt_mb_recv` of `can_sync_upload_thread`. -/
def SyncBus.recv (dev : CanDev) (b : SyncBus) : SyncBus :=
  match b.mb dev with
  | [] => b
  | cmd :: rest => { b with s := b.s.setSyncMb rest dev, cmd := some cmd, taken := b.taken + 1 }

def SyncBus.step (dev : CanDev) (b : SyncBus) : SyncAction → Option (SyncBus × List TxFrame)
  | .sync => some (b.sync dev, [])
  | .post => some (b.post dev, [])
  | .recv => some (b.recv dev, [])
  | .send msgData =>
    b.cmd.bind fun cmd => (sendStandardFrame b.s cmd none msgData).map fun r =>
      ({ b with s := r.1, cmd := none }, r.2.toList)
  | .para para => some ({ b with s.para := para }, [])

def syncSystem (dev : CanDev) : Transition.System SyncBus SyncAction TxFrame where
  init := SyncBus.Initial dev
  enabled := SyncBus.Enabled dev
  step := SyncBus.step dev

/-- Four turns of the loop make up `ccr_sync`. -/
theorem ccrSync_eq_post {b : SyncBus} (u : CanUserData) (data : Bytes8) :
    ccrSync (some u) b.s data =
      some (((SyncBus.post u.canDev)^[4] (b.sync u.canDev)).s, data, -1) := by
  rw [ccrSync_eq]
  simp [syncCmdList, SyncBus.sync, SyncBus.post, SyncBus.mb, Function.iterate_succ]

/-- The groups of reports: what is sent is a beginning of whole groups, and between two sync commands what is sent and still waiting is whole groups. -/
structure WholeGroups (dev : CanDev) (es : List TxFrame) (b : SyncBus) : Prop where
  sent : ∃ n, es.map TxFrame.cmd <+: (List.replicate n syncCmdList).flatten
  waiting : b.posts = [] →
    ∃ n, es.map TxFrame.cmd ++ b.cmd.toList ++ b.mb dev = (List.replicate n syncCmdList).flatten

/-- The posts the handler has made. -/
def SyncBus.posted (b : SyncBus) : Nat := syncCmdList.length - b.posts.length

/-- The sync command has come to a full mailbox, and none has been taken since. -/
def SyncBus.Untouched (b : SyncBus) : Prop := b.waiting = CAN_MB_NUM ∧ b.taken = 0

instance SyncBus.decidableUntouched (b : SyncBus) : Decidable b.Untouched :=
  inferInstanceAs (Decidable (b.waiting = CAN_MB_NUM ∧ b.taken = 0))

/-- Before each post enough commands have been taken for all posts so far, or the mailbox was full and stays so from the first post to the last. -/
def InTime (b : SyncBus) : SyncAction → Prop
  | .post => b.waiting + b.posted < CAN_MB_NUM + b.taken ∨ b.Untouched
  | .recv => 0 < b.posted → b.posts ≠ [] → ¬ b.Untouched
  | _ => True

/-! ### The groups stay whole -/

/-- What the mailbox holds of the group that is being posted. -/
def SyncBus.part (b : SyncBus) : List Nat := if b.posts = [] ∨ b.Untouched then [] else syncCmdList.take b.posted

/-- `n` whole groups and the part of the current one, and how many commands wait while it is posted. -/
structure Grouped (dev : CanDev) (es : List TxFrame) (b : SyncBus) (n : Nat) : Prop where
  posts : b.posts = syncCmdList.drop b.posted
  history : es.map TxFrame.cmd ++ b.cmd.toList ++ b.mb dev = (List.replicate n syncCmdList).flatten ++ b.part
  length : b.posts ≠ [] → (b.mb dev).length + b.taken = b.waiting + b.part.length
  enabled : b.s.sendEnable = true ∨ (b.posts = [] ∧ b.cmd = none ∧ b.mb dev = [])

theorem flatten_replicate_succ (n : Nat) (group : List Nat) :
    (List.replicate (n + 1) group).flatten = (List.replicate n group).flatten ++ group := by
  rw [List.replicate_succ', List.flatten_append, List.flatten_singleton]

theorem part_isPrefix (b : SyncBus) : b.part <+: syncCmdList := by
  rw [SyncBus.part]
  split
  · exact List.nil_prefix
  · exact List.take_prefix ..

theorem part_of_posts_nil {b : SyncBus} (hposts : b.posts = []) : b.part = [] := if_pos (.inl hposts)

theorem part_of_posted_zero {b : SyncBus} (hposted : b.posted = 0) : b.part = [] := by
  rw [SyncBus.part, hposted, List.take_zero, ite_self]

theorem posted_lt {b : SyncBus} (hposts : b.posts ≠ []) : b.posted < syncCmdList.length := by
  have hpos := List.length_pos_iff.mpr hposts
  have hgroup : syncCmdList.length = 4 := rfl
  rw [SyncBus.posted]
  omega

theorem Grouped.initial {dev : CanDev} {b : SyncBus} (hinit : b.Initial dev) : Grouped dev [] b 0 := by
  obtain ⟨hmb, hposts, hcmd⟩ := hinit
  refine ⟨?_, ?_, fun hne => absurd hposts hne, .inr ⟨hposts, hcmd, hmb⟩⟩
  · rw [SyncBus.posted, hposts]
    rfl
  · simp [hmb, hcmd, part_of_posts_nil hposts]

theorem Grouped.whole {dev : CanDev} {es : List TxFrame} {b : SyncBus} {n : Nat} (h : Grouped dev es b n)
    (hposts : b.posts = []) :
    es.map TxFrame.cmd ++ b.cmd.toList ++ b.mb dev = (List.replicate n syncCmdList).flatten := by
  rw [h.history, part_of_posts_nil hposts, List.append_nil]

theorem Grouped.sent {dev : CanDev} {es : List TxFrame} {b : SyncBus} {n : Nat} (h : Grouped dev es b n) :
    es.map TxFrame.cmd <+: (List.replicate (n + 1) syncCmdList).flatten := by
  have hsent : es.map TxFrame.cmd <+: es.map TxFrame.cmd ++ b.cmd.toList ++ b.mb dev := by
    rw [List.append_assoc]
    exact List.prefix_append ..
  apply hsent.trans
  rw [h.history, flatten_replicate_succ]
  exact (List.prefix_append_right_inj _).mpr (part_isPrefix b)

theorem posted_sync (dev : CanDev) (b : SyncBus) : (b.sync dev).posted = 0 := rfl

theorem Grouped.sync {dev : CanDev} {es : List TxFrame} {b : SyncBus} {n : Nat} (h : Grouped dev es b n)
    (hposts : b.posts = []) (henable : b.s.sendEnable = true) : Grouped dev es (b.sync dev) n := by
  have hpart := part_of_posted_zero (posted_sync dev b)
  refine ⟨rfl, ?_, fun _ => ?_, .inl henable⟩
  · rw [hpart, List.append_nil]
    exact h.whole hposts
  · rw [hpart]
    rfl

theorem post_eq {b : SyncBus} (dev : CanDev) {cmd : Nat} {rest : List Nat} (hposts : b.posts = cmd :: rest) :
    b.post dev = { b with s := b.s.setSyncMb (rtMbSend (b.mb dev) cmd) dev, posts := rest } := by
  simp only [SyncBus.post, hposts]

/-- The mailbox keeps a post unless it was full when the sync command came and has been left alone since. -/
theorem Grouped.rtMbSend_eq {dev : CanDev} {es : List TxFrame} {b : SyncBus} {n : Nat} (h : Grouped dev es b n)
    (hposts : b.posts ≠ []) (htime : InTime b .post) (cmd : Nat) :
    rtMbSend (b.mb dev) cmd = b.mb dev ++ if b.Untouched then [] else [cmd] := by
  have hlength := h.length hposts
  by_cases huntouched : b.Untouched
  · rw [SyncBus.part, if_pos (.inr huntouched)] at hlength
    have hfull : ¬ (b.mb dev).length < CAN_MB_NUM := by
      obtain ⟨hwaiting, htaken⟩ := huntouched
      rw [hwaiting, htaken] at hlength
      simpa using hlength.ge
    rw [rtMbSend, Fifo.offer, if_neg hfull, if_pos huntouched, List.append_nil]
  · rw [SyncBus.part, if_neg (not_or.mpr ⟨hposts, huntouched⟩), List.length_take_of_le (posted_lt hposts).le] at hlength
    have hroom : (b.mb dev).length < CAN_MB_NUM := by
      have henough := htime.resolve_right huntouched
      omega
    rw [rtMbSend, Fifo.offer, if_pos hroom, if_neg huntouched]

/-- The part before a post and the post itself, also where it is the last one and completes the group. -/
theorem part_append {b : SyncBus} (hposts : b.posts ≠ []) (hlt : b.posted < syncCmdList.length) :
    (b.part ++ if b.Untouched then [] else [syncCmdList[b.posted]]) =
      if b.Untouched then [] else syncCmdList.take (b.posted + 1) := by
  by_cases huntouched : b.Untouched
  · rw [SyncBus.part, if_pos (.inr huntouched), if_pos huntouched, if_pos huntouched, List.append_nil]
  · rw [SyncBus.part, if_neg (not_or.mpr ⟨hposts, huntouched⟩), if_neg huntouched, if_neg huntouched,
      List.take_append_getElem]

theorem Grouped.post {dev : CanDev} {es : List TxFrame} {b : SyncBus} {n : Nat} (h : Grouped dev es b n)
    (hposts : b.posts ≠ []) (htime : InTime b .post) : ∃ n', Grouped dev es (b.post dev) n' := by
  have hlt := posted_lt hposts
  have hsplit : b.posts = syncCmdList[b.posted] :: syncCmdList.drop (b.posted + 1) :=
    h.posts.trans (List.drop_eq_getElem_cons hlt)
  have henable : b.s.sendEnable = true := h.enabled.resolve_right fun hnone => hposts hnone.1
  have hpost := post_eq dev hsplit
  have hrest : (b.post dev).posts = syncCmdList.drop (b.posted + 1) := by
    rw [hpost]
  have hposted : (b.post dev).posted = b.posted + 1 := by
    rw [SyncBus.posted, hrest, List.length_drop]
    omega
  have hmb : (b.post dev).mb dev = b.mb dev ++ if b.Untouched then [] else [syncCmdList[b.posted]] := by
    rw [hpost, ← h.rtMbSend_eq hposts htime]
    exact syncMb_setSyncMb ..
  have henable' : (b.post dev).s.sendEnable = true := by
    rw [hpost]
    exact (setSyncMb_sendEnable ..).trans henable
  have hgroup := part_append hposts hlt
  have hhistory : es.map TxFrame.cmd ++ (b.post dev).cmd.toList ++ (b.post dev).mb dev =
      (List.replicate n syncCmdList).flatten ++ if b.Untouched then [] else syncCmdList.take (b.posted + 1) := by
    rw [← hgroup, hmb, ← List.append_assoc, ← List.append_assoc, ← h.history, hpost]
  have hposts' : (b.post dev).posts = syncCmdList.drop (b.post dev).posted := by
    rw [hposted]
    exact hrest
  by_cases hlast : (b.post dev).posts = []
  · have hfour : syncCmdList.take (b.posted + 1) = syncCmdList :=
      List.take_of_length_le (List.drop_eq_nil_iff.mp (hrest.symm.trans hlast))
    have hpart := part_of_posts_nil hlast
    rw [hfour] at hhistory
    split at hhistory
    · refine ⟨n, hposts', ?_, fun hne => absurd hlast hne, .inl henable'⟩
      rw [hpart, hhistory]
    · refine ⟨n + 1, hposts', ?_, fun hne => absurd hlast hne, .inl henable'⟩
      rw [hpart, hhistory, flatten_replicate_succ, List.append_nil]
  · have hsame : (b.post dev).Untouched ↔ b.Untouched := by
      rw [hpost]
      rfl
    have hpart : (b.post dev).part = if b.Untouched then [] else syncCmdList.take (b.posted + 1) := by
      simp only [SyncBus.part, hlast, false_or, hsame, hposted]
    refine ⟨n, hposts', ?_, fun _ => ?_, .inl henable'⟩
    · rw [hpart, hhistory]
    · have hlength := h.length hposts
      have hcounts : (b.post dev).taken = b.taken ∧ (b.post dev).waiting = b.waiting := by
        rw [hpost]
        exact ⟨rfl, rfl⟩
      rw [hpart, ← hgroup, hmb, hcounts.1, hcounts.2, List.length_append, List.length_append]
      omega

theorem Grouped.recv {dev : CanDev} {es : List TxFrame} {b : SyncBus} {n : Nat} (h : Grouped dev es b n)
    (hcmd : b.cmd = none) (hmb : b.mb dev ≠ []) (htime : InTime b .recv) : Grouped dev es (b.recv dev) n := by
  obtain ⟨cmd, rest, hsplit⟩ := List.exists_cons_of_ne_nil hmb
  have henable : b.s.sendEnable = true := h.enabled.resolve_right fun hnone => hmb hnone.2.2
  have hrecv : b.recv dev = { b with s := b.s.setSyncMb rest dev, cmd := some cmd, taken := b.taken + 1 } := by
    simp only [SyncBus.recv, hsplit]
  have hposted : (b.recv dev).posted = b.posted := by rw [hrecv]; rfl
  have hposts : (b.recv dev).posts = b.posts := by rw [hrecv]
  have hpart : (b.recv dev).part = b.part := by
    by_cases hnone : b.posts = []
    · rw [part_of_posts_nil hnone, part_of_posts_nil (hposts.trans hnone)]
    rcases Nat.eq_zero_or_pos b.posted with hzero | hpos
    · rw [part_of_posted_zero hzero, part_of_posted_zero (hposted.trans hzero)]
    · have hbefore := htime hpos hnone
      have hafter : ¬ (b.recv dev).Untouched := by
        rw [hrecv]
        exact fun huntouched => Nat.succ_ne_zero _ huntouched.2
      simp only [SyncBus.part, hposts, hposted, hbefore, hafter]
  have hhistory := h.history
  rw [hcmd, hsplit] at hhistory
  have hmb' : (b.recv dev).mb dev = rest := by
    rw [hrecv]
    exact syncMb_setSyncMb ..
  refine ⟨hposts.trans (hposted ▸ h.posts), ?_, fun hne => ?_, .inl ?_⟩
  · rw [hmb', hpart, ← hhistory, hrecv]
    simp
  · have hlength := h.length (hposts ▸ hne)
    rw [hsplit, List.length_cons] at hlength
    rw [hmb', hpart, hrecv]
    dsimp only
    omega
  · rw [hrecv]
    exact (setSyncMb_sendEnable ..).trans henable

theorem Grouped.mem {dev : CanDev} {es : List TxFrame} {b : SyncBus} {n cmd : Nat} (h : Grouped dev es b n)
    (hcmd : b.cmd = some cmd) : cmd ∈ syncCmdList := by
  have hmem : cmd ∈ es.map TxFrame.cmd ++ b.cmd.toList ++ b.mb dev := by
    simp [hcmd]
  rw [h.history] at hmem
  rcases List.mem_append.mp hmem with hwhole | hcurrent
  · obtain ⟨group, hgroup, hin⟩ := List.mem_flatten.mp hwhole
    rwa [List.eq_of_mem_replicate hgroup] at hin
  · exact (part_isPrefix b).subset hcurrent

theorem Grouped.send {dev : CanDev} {es out : List TxFrame} {b b' : SyncBus} {n : Nat} {msgData : Bytes8}
    (h : Grouped dev es b n) (hcmd : b.cmd.isSome) (hstep : b.step dev (.send msgData) = some (b', out)) :
    Grouped dev (es ++ out) b' n := by
  obtain ⟨cmd, hcmd⟩ := Option.isSome_iff_exists.mp hcmd
  have henable : b.s.sendEnable = true := h.enabled.resolve_right fun hnone =>
    Option.some_ne_none cmd (hcmd.symm.trans hnone.2.1)
  obtain ⟨frame, hsend, hframe⟩ := sendStandardFrame_report (h.mem hcmd) henable msgData
  have hhistory := h.history
  rw [hcmd] at hhistory
  simp only [SyncBus.step, hcmd, Option.bind_some, hsend, Option.map_some, Option.some.injEq, Prod.mk.injEq] at hstep
  obtain ⟨rfl, rfl⟩ := hstep
  refine ⟨h.posts, ?_, h.length, .inl henable⟩
  rw [show SyncBus.part { b with s := b.s, cmd := none } = b.part from rfl, ← hhistory]
  simp [hframe, SyncBus.mb]

theorem grouped_of_reaches {dev : CanDev} {as : List SyncAction} {es : List TxFrame} {b : SyncBus}
    (hreach : Reaches ((syncSystem dev).restrict InTime) as es b) : ∃ n, Grouped dev es b n := by
  apply hreach.invariant (fun _ es b => ∃ n, Grouped dev es b n) (fun _ hinit => ⟨0, .initial hinit⟩)
  rintro _ es b a out b' ⟨n, h⟩ ⟨henabled, htime⟩ hstep
  cases a with
  | sync =>
    obtain ⟨rfl, rfl⟩ := Prod.mk.inj (Option.some.inj hstep)
    rw [List.append_nil]
    exact ⟨n, h.sync henabled.1 henabled.2⟩
  | post =>
    obtain ⟨rfl, rfl⟩ := Prod.mk.inj (Option.some.inj hstep)
    rw [List.append_nil]
    exact h.post henabled htime
  | recv =>
    obtain ⟨rfl, rfl⟩ := Prod.mk.inj (Option.some.inj hstep)
    rw [List.append_nil]
    exact ⟨n, h.recv henabled.1 henabled.2 htime⟩
  | send msgData => exact ⟨n, h.send henabled hstep⟩
  | para para =>
    obtain ⟨rfl, rfl⟩ := Prod.mk.inj (Option.some.inj hstep)
    rw [List.append_nil]
    cases dev <;> exact ⟨n, h.posts, h.history, h.length, h.enabled⟩

/-- While the upload thread keeps up with the handlers, or leaves a full mailbox alone, no group is cut short. -/
theorem groups_whole {dev : CanDev} {as : List SyncAction} {es : List TxFrame} {b : SyncBus}
    (hreach : Reaches ((syncSystem dev).restrict InTime) as es b) : WholeGroups dev es b := by
  obtain ⟨n, h⟩ := grouped_of_reaches hreach
  exact ⟨⟨n + 1, h.sent⟩, fun hposts => ⟨n, h.whole hposts⟩⟩

/-! ### Bursts of sync commands -/

instance SyncBus.decidableEnabled (dev : CanDev) (b : SyncBus) : (a : SyncAction) → Decidable (b.Enabled dev a)
  | .sync => inferInstanceAs (Decidable (b.posts = [] ∧ b.s.sendEnable = true))
  | .post => inferInstanceAs (Decidable (b.posts ≠ []))
  | .recv => inferInstanceAs (Decidable (b.cmd = none ∧ b.mb dev ≠ []))
  | .send _ => inferInstanceAs (Decidable (b.cmd.isSome = true))
  | .para _ => inferInstanceAs (Decidable True)

instance SyncBus.decidableInTime (b : SyncBus) : (a : SyncAction) → Decidable (InTime b a)
  | .post => inferInstanceAs (Decidable (b.waiting + b.posted < CAN_MB_NUM + b.taken ∨ b.Untouched))
  | .sync => inferInstanceAs (Decidable True)
  | .recv => inferInstanceAs (Decidable (0 < b.posted → b.posts ≠ [] → ¬ b.Untouched))
  | .send _ => inferInstanceAs (Decidable True)
  | .para _ => inferInstanceAs (Decidable True)

instance syncSystem.decidableEnabled (dev : CanDev) (b : SyncBus) (a : SyncAction) :
    Decidable ((syncSystem dev).enabled b a) :=
  inferInstanceAs (Decidable (b.Enabled dev a))

instance syncSystem.decidableRestrict (dev : CanDev) (b : SyncBus) (a : SyncAction) :
    Decidable (((syncSystem dev).restrict InTime).enabled b a) :=
  inferInstanceAs (Decidable (b.Enabled dev a ∧ InTime b a))

def SyncBus.start : SyncBus := { s := .zero, posts := [], cmd := none, waiting := 0, taken := 0 }

theorem SyncBus.start_initial : SyncBus.start.Initial .can0 := ⟨rfl, rfl, rfl⟩

def oneSync : List SyncAction := .sync :: List.replicate 4 .post

def oneUpload : List SyncAction := [.recv, .send (Vector.replicate 8 0)]

/-- Two sync commands in a row fit the mailbox. Of the third, two posts fit before the upload thread takes two; the fourth comes to a full mailbox. -/
def twoSyncs : List SyncAction :=
  oneSync ++ oneSync ++ [.sync, .post, .post] ++ oneUpload ++ oneUpload ++ [.post, .post] ++ oneSync ++ oneUpload

theorem twoSyncs_isSome : (((syncSystem .can0).restrict InTime).exec .start twoSyncs).isSome := by
  decide +kernel

theorem groups_whole_two :
    WholeGroups .can0 ((((syncSystem .can0).restrict InTime).exec .start twoSyncs).get twoSyncs_isSome).2
      ((((syncSystem .can0).restrict InTime).exec .start twoSyncs).get twoSyncs_isSome).1 :=
  groups_whole (Reaches.of_exec SyncBus.start_initial twoSyncs_isSome)

/-- Three sync commands in a row fill the mailbox with two groups and a half, and the next group follows the half. -/
def threeSyncs : List SyncAction :=
  oneSync ++ oneSync ++ oneSync ++ (List.replicate 10 oneUpload).flatten ++ oneSync ++ oneUpload

theorem threeSyncs_isSome : ((syncSystem .can0).exec .start threeSyncs).isSome := by
  decide +kernel

theorem not_groups_whole :
    ¬ ∀ as es (b : SyncBus), Reaches (syncSystem .can0) as es b → WholeGroups .can0 es b := by
  intro h
  obtain ⟨n, hpre⟩ := (h _ _ _ (Reaches.of_exec SyncBus.start_initial threeSyncs_isSome)).sent
  have hsent : (((syncSystem .can0).exec .start threeSyncs).get threeSyncs_isSome).2.map TxFrame.cmd =
      syncCmdList ++ syncCmdList ++ CMD_PACK_CCR_IO :: [CMD_PACK_CCR_LOOP_V_I_INFO, CMD_PACK_CCR_IO] := by
    decide +kernel
  rw [hsent] at hpre
  have hthree : 3 ≤ n := by
    have hlength := hpre.length_le
    rw [List.length_flatten, List.map_replicate, List.sum_replicate_nat] at hlength
    simp [syncCmdList] at hlength
    omega
  obtain ⟨m, rfl⟩ := Nat.exists_eq_add_of_le hthree
  rw [List.replicate_add, List.flatten_append] at hpre
  have hgroups := List.prefix_of_prefix_length_le hpre (List.prefix_append ..) (by decide)
  revert hgroups
  decide

end LightControlMonitor.Can
