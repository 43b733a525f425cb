import LightControlMonitor.Can.Leftovers
import LightControlMonitor.Can.SyncReports
import Mathlib.Algebra.BigOperators.Group.Finset.Piecewise
import Mathlib.Data.Fintype.Basic

/-!
# A network of nodes

Any number of nodes on one bus. A reply has the class and the service code of its command, so it is itself a command that a peer understands; what keeps the nodes from answering each other is that a reply goes to node 0 and no node has that id. The reports of a sync command are sent later and one by one, so what has been transmitted and what is still to be transmitted are counted together: one execution of `can_msg_parse` adds at most four.
-/

namespace LightControlMonitor.Can

open Transition (Reaches)

/-- `can_msg_parse` of a node. A sync command is left at the start of the loop of `ccr_sync`, whose posts are steps of their own. -/
def SyncBus.parse (dev : CanDev) (canMsg : RtCanMsg) (left : Leftovers) (b : SyncBus) :
    Option (SyncBus × List TxFrame) :=
  (copyBytes left.userData canMsg.data canMsg.len).bind fun data =>
    if addressed b.s (destMacId data) = true ∧ b.s.sendEnable = true ∧
        cmdOf canMsg.id (serviceCode data) = CMD_SYNC then
      some (b.sync dev, [])
    else (canMsgParse dev canMsg b.s left).map fun r => ({ b with s := r.1 }, r.2.toList)

/-- What `can_msg_parse` does with a sync command once its posts are done. -/
theorem canMsgParse_sync {dev : CanDev} {canMsg : RtCanMsg} {left : Leftovers} {b : SyncBus} {data : Bytes8}
    (hcopy : copyBytes left.userData canMsg.data canMsg.len = some data)
    (haddressed : addressed b.s (destMacId data) = true) (henable : b.s.sendEnable = true)
    (hsync : cmdOf canMsg.id (serviceCode data) = CMD_SYNC) :
    canMsgParse dev canMsg b.s left =
      some (((SyncBus.post dev)^[4] (b.sync dev)).s, none) := by
  have hpack : canMsgResponseDataPack CMD_SYNC (some ⟨data, dev⟩) b.s (Vector.replicate 8 0) =
      some (((SyncBus.post dev)^[4] (b.sync dev)).s, Vector.replicate 8 0, -1) :=
    ccrSync_eq_post ⟨data, dev⟩ _
  rw [canMsgParse, hcopy, Option.bind_some, if_pos haddressed, hsync, sendStandardFrame,
    if_neg (by simp [henable])]
  change Option.map _ (canMsgResponseDataPack CMD_SYNC _ _ _) = _
  rw [hpack]
  rfl

/-! ### The system -/

section System

variable {ι : Type}

/-- The nodes, and every frame that was transmitted with its sender. -/
structure Net (ι : Type) where
  nodes : ι → SyncBus
  wire : List (ι × TxFrame)

inductive NetAction (ι : Type)
  | server (node : ι) (canMsg : RtCanMsg) (left : Leftovers)
  | deliver (node : ι) (canMsg : RtCanMsg) (left : Leftovers)
  | post (node : ι)
  | recv (node : ι)
  | send (node : ι) (msgData : Bytes8)
  | para (node : ι) (para : MyPara)

/-- The message a frame becomes in the receive buffer of another node. -/
def TxFrame.Carried (frame : TxFrame) (canMsg : RtCanMsg) : Prop :=
  canMsg.id = frame.id ∧ canMsg.len = frame.len ∧
    canMsg.data.toList.take frame.len = frame.data.toList.take frame.len

instance TxFrame.decidableCarried (frame : TxFrame) (canMsg : RtCanMsg) : Decidable (frame.Carried canMsg) :=
  inferInstanceAs (Decidable (_ ∧ _ ∧ _))

variable (dev : ι → CanDev)

def Net.Initial (w : Net ι) : Prop :=
  (∀ i, (w.nodes i).Initial (dev i) ∧ (w.nodes i).s.myCanId ≠ 0) ∧ w.wire = []

/-- A frame of the server may reach a node at any time, a frame of a node any other node any number of times. -/
def Net.Enabled (w : Net ι) : NetAction ι → Prop
  | .server j canMsg _ => (w.nodes j).posts = [] ∧ canMsg.len ≤ 8
  | .deliver j canMsg _ => (w.nodes j).posts = [] ∧ ∃ sent ∈ w.wire, sent.1 ≠ j ∧ sent.2.Carried canMsg
  | .post j => (w.nodes j).Enabled (dev j) .post
  | .recv j => (w.nodes j).Enabled (dev j) .recv
  | .send j msgData => (w.nodes j).Enabled (dev j) (.send msgData)
  | .para j para => (w.nodes j).Enabled (dev j) (.para para)

variable [DecidableEq ι]

def Net.act (w : Net ι) (j : ι) (r : Option (SyncBus × List TxFrame)) : Option (Net ι × List (ι × TxFrame)) :=
  r.map fun r =>
    let out := r.2.map fun frame => (j, frame)
    (⟨Function.update w.nodes j r.1, w.wire ++ out⟩, out)

def Net.step (w : Net ι) : NetAction ι → Option (Net ι × List (ι × TxFrame))
  | .server j canMsg left => w.act j ((w.nodes j).parse (dev j) canMsg left)
  | .deliver j canMsg left => w.act j ((w.nodes j).parse (dev j) canMsg left)
  | .post j => w.act j ((w.nodes j).step (dev j) .post)
  | .recv j => w.act j ((w.nodes j).step (dev j) .recv)
  | .send j msgData => w.act j ((w.nodes j).step (dev j) (.send msgData))
  | .para j para => w.act j ((w.nodes j).step (dev j) (.para para))

def netSystem : Transition.System (Net ι) (NetAction ι) (ι × TxFrame) where
  init := Net.Initial dev
  enabled := Net.Enabled dev
  step := Net.step dev

/-- The executions of `can_msg_parse` on frames of the server. -/
def serverParses (as : List (NetAction ι)) : Nat :=
  as.countP fun
    | .server _ _ _ => true
    | _ => false

/-- The transmitted frames are at most four times the parsed frames of the server, and a frame of a node is ignored by every other node. -/
structure NoStorm (as : List (NetAction ι)) (w : Net ι) : Prop where
  bound : w.wire.length ≤ 4 * serverParses as
  quiet : ∀ j canMsg left, w.Enabled dev (.deliver j canMsg left) → w.step dev (.deliver j canMsg left) = some (w, [])

end System

/-! ### What the handlers leave alone -/

theorem canMsgResponseDataPack_kept {cmd : Nat} {arg : Option CanUserData} {s s' : MyCan} {data data' : Bytes8}
    {len : Int} (hpack : canMsgResponseDataPack cmd arg s data = some (s', data', len)) :
    s'.myCanId = s.myCanId ∧ (cmd ≠ CMD_SYNC ∨ arg = none → ∀ dev, s'.syncMb dev = s.syncMb dev) := by
  unfold canMsgResponseDataPack at hpack
  split at hpack
  · rename_i handler hfind
    rcases findCmdWithMsgCmd_cases hfind with ⟨rfl, rfl⟩ | ⟨rfl, rfl⟩ | ⟨rfl, rfl⟩ | ⟨-, pack, rfl⟩
    · rcases arg with _ | u
      · exact absurd hpack (Option.some_ne_none _).symm
      · rw [ccrSync_eq] at hpack
        obtain ⟨rfl, -⟩ := Prod.mk.inj (Option.some.inj hpack)
        exact ⟨setSyncMb_myCanId .., by simp⟩
    · rcases arg with _ | u
      · exact absurd hpack (Option.some_ne_none _).symm
      · simp only [ccrSyncTime, Option.map_some, Option.some.injEq, Prod.mk.injEq] at hpack
        obtain ⟨rfl, -⟩ := hpack
        exact ⟨rfl, fun _ => syncMb_congr rfl rfl⟩
    · unfold ccrCtrlLightLvl at hpack
      split at hpack
      · rcases arg with _ | u
        · exact absurd hpack (Option.some_ne_none _).symm
        · simp only [Option.map_some, Option.some.injEq, Prod.mk.injEq] at hpack
          obtain ⟨rfl, -⟩ := hpack
          exact ⟨rfl, fun _ => syncMb_congr rfl rfl⟩
      · obtain ⟨rfl, -⟩ := Prod.mk.inj (Option.some.inj hpack)
        exact ⟨rfl, fun _ _ => rfl⟩
    · obtain ⟨rfl, -⟩ := Prod.mk.inj (Option.some.inj hpack)
      exact ⟨rfl, fun _ _ => rfl⟩
  · obtain ⟨rfl, -⟩ := Prod.mk.inj (Option.some.inj hpack)
    exact ⟨rfl, fun _ _ => rfl⟩

/-- A frame as the nodes transmit it: with its destination and service code, and for node 0. -/
def TxFrame.ForServer (frame : TxFrame) : Prop := 2 ≤ frame.len ∧ frame.len ≤ 8 ∧ destMacId frame.data = 0

theorem sendStandardFrame_kept {msgCmd : Nat} {arg : Option CanUserData} {s s' : MyCan} {msgData : Bytes8}
    {reply : Option TxFrame} (hsend : sendStandardFrame s msgCmd arg msgData = some (s', reply)) :
    s'.myCanId = s.myCanId ∧
      (s.sendEnable = false ∨ msgCmd ≠ CMD_SYNC ∨ arg = none → ∀ dev, s'.syncMb dev = s.syncMb dev) ∧
      ∀ frame ∈ reply, frame.ForServer := by
  rcases sendStandardFrame_cases hsend with ⟨-, rfl, rfl⟩ | ⟨henable, data, len, hpack, hreply⟩
  · exact ⟨rfl, fun _ _ => rfl, by simp⟩
  · obtain ⟨hid, hmb⟩ := canMsgResponseDataPack_kept hpack
    have hlookup : msgCmd ≠ CMD_SYNC → (if msgCmd >>> 8 = 0x02 then 0x02ff else msgCmd) ≠ CMD_SYNC := by
      intro hne
      split
      · decide
      · exact hne
    refine ⟨hid, ?_, ?_⟩
    · rintro (hdisabled | hcmd | harg)
      · exact absurd (henable.symm.trans hdisabled) (by decide)
      · exact hmb (.inl (hlookup hcmd))
      · exact hmb (.inr harg)
    · rcases hreply with rfl | ⟨-, hlen, rfl⟩
      · simp
      · intro frame hframe
        obtain rfl := Option.some.inj hframe
        refine ⟨Nat.le_add_right .., ?_, ?_⟩
        · change 2 + len.toNat ≤ 8
          omega
        · simp [replyBytes]

/-! ### One node -/

/-- The frames a node may still transmit: the posts it has to make, its mailbox and what its upload thread has taken. -/
def SyncBus.pending (dev : CanDev) (b : SyncBus) : Nat := (b.mb dev).length + b.cmd.toList.length + b.posts.length

/-- What a node transmits is for the server, and it comes out of what was pending, but for `credit` frames. -/
structure Spends (dev : CanDev) (b b' : SyncBus) (out : List TxFrame) (credit : Nat) : Prop where
  id : b'.s.myCanId = b.s.myCanId
  forServer : ∀ frame ∈ out, frame.ForServer
  count : out.length + b'.pending dev ≤ b.pending dev + credit

theorem parse_spends {dev : CanDev} {canMsg : RtCanMsg} {left : Leftovers} {b b' : SyncBus} {out : List TxFrame}
    (hposts : b.posts = []) (hparse : b.parse dev canMsg left = some (b', out)) : Spends dev b b' out 4 := by
  obtain ⟨data, hcopy, hrest⟩ := Option.bind_eq_some_iff.mp hparse
  split at hrest
  · obtain ⟨rfl, rfl⟩ := Prod.mk.inj (Option.some.inj hrest)
    refine ⟨rfl, by simp, ?_⟩
    simp [SyncBus.pending, SyncBus.sync, SyncBus.mb, syncCmdList, hposts]
  · rename_i hother
    obtain ⟨⟨s', reply⟩, hmsg, heq⟩ := Option.map_eq_some_iff.mp hrest
    obtain ⟨rfl, rfl⟩ := Prod.mk.inj heq
    rw [canMsgParse, hcopy, Option.bind_some] at hmsg
    have hcount : ∀ reply : Option TxFrame, reply.toList.length ≤ 1 := by
      rintro (_ | _) <;> simp
    split at hmsg
    · rename_i haddressed
      obtain ⟨hid, hmb, hreply⟩ := sendStandardFrame_kept hmsg
      have hsync : b.s.sendEnable = false ∨ cmdOf canMsg.id (serviceCode data) ≠ CMD_SYNC := by
        by_contra hboth
        rw [not_or, Bool.not_eq_false, not_not] at hboth
        exact hother ⟨haddressed, hboth.1, hboth.2⟩
      have hsame := hmb (hsync.imp id .inl) dev
      refine ⟨hid, fun frame hframe => hreply frame (Option.mem_toList.mp hframe), ?_⟩
      have := hcount reply
      simp only [SyncBus.pending, SyncBus.mb, hsame]
      omega
    · obtain ⟨rfl, rfl⟩ := Prod.mk.inj (Option.some.inj hmsg)
      exact ⟨rfl, by simp, by simp [SyncBus.pending, SyncBus.mb]⟩

theorem post_spends {dev : CanDev} {b : SyncBus} (hposts : b.posts ≠ []) : Spends dev b (b.post dev) [] 0 := by
  obtain ⟨cmd, rest, hsplit⟩ := List.exists_cons_of_ne_nil hposts
  rw [post_eq dev hsplit]
  refine ⟨setSyncMb_myCanId .., by simp, ?_⟩
  have hmb : (rtMbSend (b.s.syncMb dev) cmd).length ≤ (b.s.syncMb dev).length + 1 := Fifo.length_offer_le ..
  simp only [SyncBus.pending, SyncBus.mb, syncMb_setSyncMb, hsplit, List.length_cons, List.length_nil]
  omega

theorem recv_spends {dev : CanDev} {b : SyncBus} (hcmd : b.cmd = none) (hmb : b.mb dev ≠ []) :
    Spends dev b (b.recv dev) [] 0 := by
  obtain ⟨cmd, rest, hsplit⟩ := List.exists_cons_of_ne_nil hmb
  simp only [SyncBus.recv, hsplit]
  refine ⟨setSyncMb_myCanId .., by simp, ?_⟩
  simp only [SyncBus.pending, hsplit, hcmd]
  simp [SyncBus.mb]

theorem send_spends {dev : CanDev} {b b' : SyncBus} {msgData : Bytes8} {out : List TxFrame}
    (hstep : b.step dev (.send msgData) = some (b', out)) : Spends dev b b' out 0 := by
  obtain ⟨cmd, hcmd, hrest⟩ := Option.bind_eq_some_iff.mp hstep
  obtain ⟨⟨s', reply⟩, hsend, heq⟩ := Option.map_eq_some_iff.mp hrest
  obtain ⟨rfl, rfl⟩ := Prod.mk.inj heq
  obtain ⟨hid, hmb, hreply⟩ := sendStandardFrame_kept hsend
  refine ⟨hid, fun frame hframe => hreply frame (Option.mem_toList.mp hframe), ?_⟩
  have hsame := hmb (.inr (.inr rfl)) dev
  simp only [SyncBus.pending, SyncBus.mb, hsame, hcmd]
  cases reply with
  | none => simp
  | some frame =>
    simp only [Option.toList_some, List.length_singleton, Option.toList_none, List.length_nil]
    omega

theorem para_spends {dev : CanDev} (b : SyncBus) (para : MyPara) : Spends dev b { b with s.para := para } [] 0 := by
  have hmb : SyncBus.mb { b with s.para := para } dev = b.mb dev := syncMb_congr rfl rfl dev
  exact ⟨rfl, by simp, by simp [SyncBus.pending, hmb]⟩

theorem parse_peer {dev : CanDev} {frame : TxFrame} {canMsg : RtCanMsg} {left : Leftovers} {b : SyncBus}
    (hframe : frame.ForServer) (hcarried : frame.Carried canMsg) (hid : b.s.myCanId ≠ 0) :
    b.parse dev canMsg left = some (b, []) := by
  obtain ⟨htwo, hle, hdest⟩ := hframe
  obtain ⟨-, hlen, hbytes⟩ := hcarried
  have hzero : destMacId canMsg.data = 0 := by
    have hhead := congrArg (fun bytes => bytes[0]?) hbytes
    rw [← hdest]
    simpa [List.getElem?_take, show 0 < frame.len by omega] using hhead
  have hcopied : ∀ data, copyBytes left.userData canMsg.data canMsg.len = some data → destMacId data = 0 := by
    intro data hcopy
    rw [copyBytes_of_le (hlen ▸ hle), Option.some.injEq] at hcopy
    rw [← hzero, ← hcopy]
    simp [show 0 < canMsg.len by omega]
  have hother : addressed b.s 0 = false := by
    simp [addressed, hid.symm]
  obtain ⟨data, hcopy⟩ := Option.isSome_iff_exists.mp (copyBytes_isSome.mpr (hlen ▸ hle) :
    (copyBytes left.userData canMsg.data canMsg.len).isSome)
  simp only [SyncBus.parse, canMsgParse, hcopy, Option.bind_some, hcopied data hcopy, hother, Bool.false_eq_true,
    false_and, if_false, Option.map_some, Option.toList_none]

/-! ### The network -/

section Network

variable {ι : Type} [Fintype ι] [DecidableEq ι] {dev : ι → CanDev}

/-- A transmission that is possible is paid for by a frame of the server. -/
structure NetInv (dev : ι → CanDev) (as : List (NetAction ι)) (w : Net ι) : Prop where
  id : ∀ i, (w.nodes i).s.myCanId ≠ 0
  forServer : ∀ sent ∈ w.wire, sent.2.ForServer
  count : w.wire.length + ∑ i, (w.nodes i).pending (dev i) ≤ 4 * serverParses as

omit [DecidableEq ι] in
theorem NetInv.initial {w : Net ι} (hinit : w.Initial dev) : NetInv dev [] w := by
  obtain ⟨hnodes, hwire⟩ := hinit
  refine ⟨fun i => (hnodes i).2, by simp [hwire], ?_⟩
  have hpending : ∀ i, (w.nodes i).pending (dev i) = 0 := by
    intro i
    obtain ⟨hmb, hposts, hcmd⟩ := (hnodes i).1
    simp [SyncBus.pending, hmb, hposts, hcmd]
  simp [hwire, hpending]

theorem sum_pending_update (dev : ι → CanDev) (nodes : ι → SyncBus) (j : ι) (b : SyncBus) :
    ∑ i, (Function.update nodes j b i).pending (dev i) + (nodes j).pending (dev j) =
      ∑ i, (nodes i).pending (dev i) + b.pending (dev j) := by
  have hupdate : (fun i => (Function.update nodes j b i).pending (dev i)) =
      Function.update (fun i => (nodes i).pending (dev i)) j (b.pending (dev j)) := by
    funext i
    by_cases heq : i = j
    · subst i
      simp
    · simp [Function.update_of_ne heq]
  rw [hupdate, Finset.sum_update_of_mem (Finset.mem_univ j),
    Finset.sum_eq_add_sum_sdiff_singleton_of_mem (Finset.mem_univ j) fun i => (nodes i).pending (dev i)]
  omega

theorem NetInv.act {as : List (NetAction ι)} {w w' : Net ι} {out : List (ι × TxFrame)} {j : ι}
    {r : Option (SyncBus × List TxFrame)} (h : NetInv dev as w) (credit : Nat) (a : NetAction ι)
    (hspends : ∀ b' frames, r = some (b', frames) → Spends (dev j) (w.nodes j) b' frames credit)
    (hcredit : 4 * serverParses as + credit ≤ 4 * serverParses (as ++ [a])) (hstep : w.act j r = some (w', out)) :
    NetInv dev (as ++ [a]) w' := by
  obtain ⟨⟨b', frames⟩, hr, heq⟩ := Option.map_eq_some_iff.mp hstep
  obtain ⟨rfl, rfl⟩ := Prod.mk.inj heq
  obtain ⟨hid, hfor, hcount⟩ := hspends b' frames hr
  refine ⟨fun i => ?_, fun sent hsent => ?_, ?_⟩
  · by_cases heq : i = j
    · subst i
      simpa [hid] using h.id j
    · simpa [Function.update_of_ne heq] using h.id i
  · rcases List.mem_append.mp hsent with hold | hnew
    · exact h.forServer sent hold
    · obtain ⟨frame, hframe, rfl⟩ := List.mem_map.mp hnew
      exact hfor frame hframe
  · have hsum := sum_pending_update dev w.nodes j b'
    have hinv := h.count
    simp only [List.length_append, List.length_map]
    omega

theorem NetInv.step {as : List (NetAction ι)} {w w' : Net ι} {out : List (ι × TxFrame)} {a : NetAction ι}
    (h : NetInv dev as w) (henabled : w.Enabled dev a) (hstep : w.step dev a = some (w', out)) :
    NetInv dev (as ++ [a]) w' := by
  have hmono : serverParses as ≤ serverParses (as ++ [a]) := by
    rw [serverParses, serverParses, List.countP_append]
    exact Nat.le_add_right ..
  cases a with
  | server j canMsg left =>
    apply h.act 4 _ (fun b' frames hr => parse_spends henabled.1 hr) _ hstep
    rw [serverParses, serverParses, List.countP_append]
    exact Nat.le_refl _
  | deliver j canMsg left =>
    obtain ⟨-, sent, hsent, -, hcarried⟩ := henabled
    apply h.act 0 _ _ (Nat.mul_le_mul_left 4 hmono) hstep
    intro b' frames hr
    obtain ⟨rfl, rfl⟩ := Prod.mk.inj (Option.some.inj
      ((parse_peer (h.forServer sent hsent) hcarried (h.id j)).symm.trans hr))
    exact ⟨rfl, by simp, by simp⟩
  | post j =>
    apply h.act 0 _ _ (Nat.mul_le_mul_left 4 hmono) hstep
    intro b' frames hr
    obtain ⟨rfl, rfl⟩ := Prod.mk.inj (Option.some.inj hr)
    exact post_spends henabled
  | recv j =>
    apply h.act 0 _ _ (Nat.mul_le_mul_left 4 hmono) hstep
    intro b' frames hr
    obtain ⟨rfl, rfl⟩ := Prod.mk.inj (Option.some.inj hr)
    exact recv_spends henabled.1 henabled.2
  | send j msgData =>
    exact h.act 0 _ (fun b' frames hr => send_spends hr) (Nat.mul_le_mul_left 4 hmono) hstep
  | para j para =>
    apply h.act 0 _ _ (Nat.mul_le_mul_left 4 hmono) hstep
    intro b' frames hr
    obtain ⟨rfl, rfl⟩ := Prod.mk.inj (Option.some.inj hr)
    exact para_spends (w.nodes j) para

theorem netInv_of_reaches {as : List (NetAction ι)} {es : List (ι × TxFrame)} {w : Net ι}
    (hreach : Reaches (netSystem dev) as es w) : NetInv dev as w :=
  hreach.invariant (fun as _ w => NetInv dev as w) (fun _ hinit => .initial hinit)
    (fun h henabled hstep => h.step henabled hstep)

/-- No frame of a node is answered, and a frame of the server is worth four transmissions at most. -/
theorem no_reply_storm {as : List (NetAction ι)} {es : List (ι × TxFrame)} {w : Net ι}
    (hreach : Reaches (netSystem dev) as es w) : NoStorm dev as w := by
  have h := netInv_of_reaches hreach
  refine ⟨(Nat.le_add_right ..).trans h.count, fun j canMsg left henabled => ?_⟩
  obtain ⟨-, sent, hsent, -, hcarried⟩ := henabled
  have hparse : (w.nodes j).parse (dev j) canMsg left = some (w.nodes j, []) :=
    parse_peer (h.forServer sent hsent) hcarried (h.id j)
  simp [Net.step, Net.act, hparse]

end Network

/-! ### Two nodes -/

instance netSystem.decidableEnabled {ι : Type} [DecidableEq ι] (dev : ι → CanDev) (w : Net ι) :
    (a : NetAction ι) → Decidable ((netSystem dev).enabled w a)
  | .server j canMsg _ => inferInstanceAs (Decidable ((w.nodes j).posts = [] ∧ canMsg.len ≤ 8))
  | .deliver j canMsg _ => inferInstanceAs (Decidable ((w.nodes j).posts = [] ∧
      ∃ sent ∈ w.wire, sent.1 ≠ j ∧ sent.2.Carried canMsg))
  | .post j => inferInstanceAs (Decidable ((w.nodes j).Enabled (dev j) .post))
  | .recv j => inferInstanceAs (Decidable ((w.nodes j).Enabled (dev j) .recv))
  | .send j msgData => inferInstanceAs (Decidable ((w.nodes j).Enabled (dev j) (.send msgData)))
  | .para j para => inferInstanceAs (Decidable ((w.nodes j).Enabled (dev j) (.para para)))

def twoNodes : Net Bool where
  nodes i := { SyncBus.start with s.myCanId := if i then 9 else 10 }
  wire := []

def syncRequest : RtCanMsg :=
  { id := 0x401, ide := false, rtr := false, len := 2, hdrIndex := 0, data := #v[0xff, 0x01, 0, 0, 0, 0, 0, 0] }

/-- The first report of node 9: the IO word, from the zeroed record. -/
def ioReport : RtCanMsg :=
  { id := 0x409, ide := false, rtr := false, len := 6, hdrIndex := 0, data := #v[0x00, 0x02, 0, 0, 0, 0x80, 0, 0] }

/-- A sync command to both nodes, the first report of one of them and its way to the other. -/
def syncBoth : List (NetAction Bool) :=
  let left : Leftovers := ⟨Vector.replicate 8 0, Vector.replicate 8 0, Vector.replicate 8 0⟩
  [.server true syncRequest left, .server false syncRequest left] ++ List.replicate 4 (.post true) ++
    List.replicate 4 (.post false) ++ [.recv true, .send true (Vector.replicate 8 0), .deliver false ioReport left]

theorem twoNodes_initial : twoNodes.Initial fun _ => .can0 :=
  ⟨fun i => ⟨⟨rfl, rfl, rfl⟩, by cases i <;> decide⟩, rfl⟩

theorem syncBoth_isSome : ((netSystem fun _ : Bool => .can0).exec twoNodes syncBoth).isSome := by
  decide +kernel

theorem no_reply_storm_two :
    NoStorm (fun _ => .can0) syncBoth
      (((netSystem fun _ : Bool => .can0).exec twoNodes syncBoth).get syncBoth_isSome).1 :=
  no_reply_storm (Reaches.of_exec twoNodes_initial syncBoth_isSome)

end LightControlMonitor.Can
