import DtsNet.Dhcp.Codec
import DtsNet.Dhcp.Foreign

/-!
# Rejected — what a message that is no ACK leaves behind

In REQUESTING, RENEWING and REBINDING a message is unpacked into `only.msg` before it is looked at,
and stays there when it is rejected.  The next REQUEST is made from it: it takes the server
identifier from its options and keeps its transaction number and its addresses.
-/

namespace DtsNet
namespace Dhcp

open Dblk Machine
open Tcp (TimerLib)

/-! ## What a REQUEST takes over -/

/-- What a REQUEST keeps of the message that it is made from, besides the server identifier; the
hardware address in front of `chaddr` is set, and so are the fields that are zero here. -/
def carriedOver (msg : DhcpMessage) : DhcpMessage :=
  { msg with
    op := 0
    secs := 0
    flags := 0
    chaddr := memRead (msg.chaddr.drop 6) 10
    sname := memRead msg.sname 64
    file := memRead msg.file 128
    option := []
    optionSize := 0 }

/-- The messages have the same server identifier or both have none, and if there is one, a REQUEST
keeps the same of both. -/
def SameRequest (msg msg' : DhcpMessage) : Prop :=
  dhcpOptionServerIdentifier msg = dhcpOptionServerIdentifier msg' ∧
    (dhcpOptionServerIdentifier msg' = none ∨ carriedOver msg = carriedOver msg')

instance (msg msg' : DhcpMessage) : Decidable (SameRequest msg msg') :=
  inferInstanceAs (Decidable (_ ∧ _))

/-- A datagram without its `secs`. -/
def withoutSecs (data : List Byte) : List Byte :=
  data.take 8 ++ data.drop 10

theorem bytes_of_withoutSecs (msg : DhcpMessage) :
    dhcpMessageBytes { msg with secs := 0 } =
      (withoutSecs (dhcpMessageBytes msg)).take 8 ++ bw16 0 ++
        (withoutSecs (dhcpMessageBytes msg)).drop 8 := by
  simp only [dhcpMessageBytes, List.append_assoc]
  rfl

theorem withoutSecs_of_bytes (msg : DhcpMessage) :
    withoutSecs (dhcpMessageBytes msg) = withoutSecs (dhcpMessageBytes { msg with secs := 0 }) := by
  simp only [dhcpMessageBytes, List.append_assoc]
  rfl

/-- What a message says in its bytes. -/
def DhcpMessage.onWire (msg : DhcpMessage) : DhcpMessage :=
  { msg with
    chaddr := memRead msg.chaddr 16
    sname := memRead msg.sname 64
    file := memRead msg.file 128
    option := memRead msg.option msg.optionSize }

/-- A big-endian host reads all of it back. -/
theorem onWire_of_bytes {msg msg' : DhcpMessage} (hsize : msg.optionSize = msg'.optionSize)
    (hoption : 5 ≤ msg.optionSize) (h : dhcpMessageBytes msg = dhcpMessageBytes msg') :
    msg.onWire = msg'.onWire := by
  have hunpack := @dhcpMessageUnpack_bytes .bigEndian msg hoption []
  have hunpack' := @dhcpMessageUnpack_bytes .bigEndian msg' (hsize ▸ hoption) []
  rw [h, hsize, hunpack'] at hunpack
  simpa [DhcpMessage.onWire, Host.short, hsize] using (Option.some.inj hunpack).symm

theorem bytes_of_onWire (msg : DhcpMessage) :
    dhcpMessageBytes msg.onWire = dhcpMessageBytes msg := by
  have hread : ∀ (mem : List Byte) (n : ℕ), memRead (memRead mem n) n = memRead mem n :=
    fun mem n => memRead_of_length (length_memRead mem n)
  simp only [dhcpMessageBytes, DhcpMessage.onWire, hread]

/-- The REQUEST with this server identifier. -/
def requestFor (ethaddr : Ether.Mac) (secs : UInt16) (msg : DhcpMessage) (sid : UInt32) :
    DhcpMessage :=
  { msg with
    op := bootRequest
    secs := secs
    flags := dhcpMessageFlagBroadcast
    chaddr := ethaddr.bytes ++ msg.chaddr.drop 6
    option := requestOptions sid msg.yiaddr
    optionSize := 20 }

theorem requestMessage_eq (ethaddr : Ether.Mac) (secs : UInt16) (msg : DhcpMessage) :
    requestMessage ethaddr secs msg =
      (dhcpOptionServerIdentifier msg).map (requestFor ethaddr secs msg) :=
  rfl

/-- A REQUEST on the wire, put together from what it takes over. -/
theorem onWire_requestFor (ethaddr : Ether.Mac) (msg : DhcpMessage) (sid : UInt32) :
    (requestFor ethaddr 0 msg sid).onWire =
      { carriedOver msg with
        op := bootRequest
        flags := dhcpMessageFlagBroadcast
        chaddr := ethaddr.bytes ++ (carriedOver msg).chaddr
        option := requestOptions sid (carriedOver msg).yiaddr
        optionSize := 20 } := by
  have hlen : ethaddr.bytes.length ≤ 16 := by simp [Ether.Mac.bytes]
  have hoptions : memRead (requestOptions sid msg.yiaddr) 20 = requestOptions sid msg.yiaddr := rfl
  have hchaddr : memRead (ethaddr.bytes ++ msg.chaddr.drop 6) 16 =
      ethaddr.bytes ++ memRead (msg.chaddr.drop 6) 10 :=
    memRead_append_right hlen _
  simp only [DhcpMessage.onWire, requestFor, carriedOver, hoptions, hchaddr]

/-- The server identifier is where a REQUEST has it. -/
theorem br32_requestOptions (sid yip : UInt32) : br32 ((requestOptions sid yip).drop 9) = sid :=
  br32_bw32_append sid _

/-- Up to `secs`, two REQUESTs are the same datagram just when they have the same server identifier
and take over the same. -/
theorem withoutSecs_requestFor_iff (ethaddr : Ether.Mac) (secs secs' : UInt16)
    (msg msg' : DhcpMessage) (sid sid' : UInt32) :
    withoutSecs (dhcpMessageBytes (requestFor ethaddr secs msg sid)) =
        withoutSecs (dhcpMessageBytes (requestFor ethaddr secs' msg' sid')) ↔
      sid = sid' ∧ carriedOver msg = carriedOver msg' := by
  have hzero : ∀ (secs : UInt16) (msg : DhcpMessage) (sid : UInt32),
      withoutSecs (dhcpMessageBytes (requestFor ethaddr secs msg sid)) =
        withoutSecs (dhcpMessageBytes (requestFor ethaddr 0 msg sid).onWire) := by
    intro secs msg sid
    rw [bytes_of_onWire]
    exact withoutSecs_of_bytes (requestFor ethaddr secs msg sid)
  constructor
  · intro h
    -- with the same `secs` the datagrams are equal, so that the same is read back from them
    have hbytes : dhcpMessageBytes (requestFor ethaddr 0 msg sid) =
        dhcpMessageBytes (requestFor ethaddr 0 msg' sid') := by
      have hmsg := bytes_of_withoutSecs (requestFor ethaddr secs msg sid)
      have hmsg' := bytes_of_withoutSecs (requestFor ethaddr secs' msg' sid')
      rw [h] at hmsg
      exact hmsg.trans hmsg'.symm
    have hsize : (requestFor ethaddr 0 msg sid).optionSize =
        (requestFor ethaddr 0 msg' sid').optionSize := rfl
    have hwire := onWire_of_bytes hsize (by simp [requestFor]) hbytes
    rw [onWire_requestFor, onWire_requestFor] at hwire
    have hsid : sid = sid' := by
      have hoption := congrArg (fun msg : DhcpMessage => br32 (msg.option.drop 9)) hwire
      simpa only [br32_requestOptions] using hoption
    refine ⟨hsid, ?_⟩
    -- behind the client's own address, `chaddr` is what was taken over
    simp only [carriedOver, DhcpMessage.mk.injEq, List.append_cancel_left_eq] at hwire ⊢
    grind
  · rintro ⟨rfl, hcarried⟩
    rw [hzero, hzero secs', onWire_requestFor, onWire_requestFor, hcarried]

/-! ## The next REQUEST -/

theorem length_dhcpMessageBytes (msg : DhcpMessage) :
    (dhcpMessageBytes msg).length = 236 + msg.optionSize := by
  simp only [dhcpMessageBytes, List.length_append, List.length_cons, List.length_nil, bw32,
    length_bw16, length_memRead]

theorem packed_requestFor (ethaddr : Ether.Mac) (secs : UInt16) (msg : DhcpMessage)
    (sid : UInt32) :
    let raw := dhcpMessagePack (requestFor ethaddr secs msg sid) (List.replicate 1024 0) 1024
    memRead raw.1 raw.2.1 = dhcpMessageBytes (requestFor ethaddr secs msg sid) := by
  intro raw
  have hlen : (dhcpMessageBytes (requestFor ethaddr secs msg sid)).length = 256 :=
    length_dhcpMessageBytes _
  change memRead (memWrite _ (dhcpMessageBytes (requestFor ethaddr secs msg sid))) 256 = _
  rw [← hlen, memRead_memWrite]

/-- The datagrams of a record. -/
def sentData (log : List Action) : List (List Byte) :=
  log.filterMap fun
    | .sendto data => some data
    | _ => none

section Rejected

variable {τ : Type} [TimerLib τ]

/-- What a timeout sends. -/
def timeoutSends (env : Env) (c : Client τ) : List (List Byte) :=
  sentData ((dhcpClientTimeout env c).log.drop c.log.length)

/-- A timeout in this environment calls `dhcp_client_send_request`, for which there is memory. -/
def RequestDue (env : Env) (c : Client τ) : Prop :=
  (c.only.state = .requesting ∨ TimerLib.expired c.only.t2 env.now = false) ∧
    env.malloc c.log = true

instance (env : Env) (c : Client τ) : Decidable (RequestDue env c) :=
  inferInstanceAs (Decidable (_ ∧ _))

omit [TimerLib τ] in
theorem sendRequest_sends {env : Env} {c : Client τ} (hmalloc : env.malloc c.log = true) :
    sentData ((dhcpClientSendRequest env c).1.log.drop c.log.length) =
      ((requestMessage c.only.ethaddr (secs env c) c.only.msg).map dhcpMessageBytes).toList := by
  unfold dhcpClientSendRequest
  rw [requestMessage_eq]
  cases dhcpOptionServerIdentifier c.only.msg with
  | none =>
      simp [sentData]
  | some sid =>
      have hlog : (sendMessage env 1024
          { c with only.msg := requestFor c.only.ethaddr (secs env c) c.only.msg sid }).1.log =
            c.log ++
              [.sendto (dhcpMessageBytes
                (requestFor c.only.ethaddr (secs env c) c.only.msg sid))] := by
        rw [← packed_requestFor, sendMessage, if_pos hmalloc]
      simp only [Option.map_some, hlog, List.drop_left]
      rfl

/-- In the three states, a REQUEST is made from the message that is there. -/
theorem timeoutSends_of_due {env : Env} {c : Client τ} (hsetup : c.only.udpSetup = true)
    (hstate : AcceptsAck c.only.state) (hdue : RequestDue env c) :
    timeoutSends env c =
      ((requestMessage c.only.ethaddr (secs env c) c.only.msg).map dhcpMessageBytes).toList := by
  rw [← sendRequest_sends hdue.2, timeoutSends]
  have hlog : (dhcpClientTimeout env c).log = (dhcpClientSendRequest env c).1.log := by
    unfold dhcpClientTimeout
    rw [if_pos hsetup]
    rcases hstate with hs | hs | hs
    · simp only [hs]
    -- while T2 runs, the other two states send one as well
    · have hrunning := hdue.1.resolve_left (by rw [hs]; decide)
      simp only [hs, hrunning, if_true]
    · have hrunning := hdue.1.resolve_left (by rw [hs]; decide)
      simp only [hs, hrunning, if_true]
  rw [hlog]

/-! ## Any number of rejected messages -/

/-- Calls of `dhcp_loop` in which no timer expires. -/
def receives (c : Client τ) (envs : List Env) : Client τ :=
  run (fun c env => loopReceive env c) c envs

/-- No message that is received is an accepted ACK. -/
def AllRejected (envs : List Env) : Prop :=
  ∀ env ∈ envs, ∀ msg, receivedMessage env = some msg → ¬ IsAck msg

instance (envs : List Env) : Decidable (AllRejected envs) :=
  inferInstanceAs (Decidable (∀ env ∈ envs, ∀ msg ∈ receivedMessage env, ¬ IsAck msg))

/-- The message that was received last, or the one that was there before. -/
def lastMessage (msg : DhcpMessage) (envs : List Env) : DhcpMessage :=
  (envs.filterMap receivedMessage).getLast?.getD msg

/-- A call that receives nothing, or something that is rejected. -/
theorem loopReceive_rejects {env : Env} {c : Client τ} (hsetup : c.only.udpSetup = true)
    (hstate : AcceptsAck c.only.state)
    (hrejected : ∀ msg, receivedMessage env = some msg → ¬ IsAck msg) :
    ∃ t1, loopReceive env c = c.setScratch ((receivedMessage env).getD c.only.msg) t1 := by
  cases hmsg : receivedMessage env with
  | none =>
      exact ⟨c.only.t1, loopReceive_of_none hsetup (Or.inr hmsg)⟩
  | some msg =>
      -- the message is there already when it is found not to be an ACK
      rw [loopReceive_acceptsAck hsetup hstate hmsg,
        receivedWhenRequesting_of_not_ack (hrejected msg hmsg)]
      exact ⟨_, rfl⟩

theorem lastMessage_cons (msg : DhcpMessage) (env : Env) (envs : List Env) :
    lastMessage msg (env :: envs) = lastMessage ((receivedMessage env).getD msg) envs := by
  unfold lastMessage
  cases hmsg : receivedMessage env with
  | none =>
      simp [hmsg]
  | some received =>
      simp [hmsg, List.getLast?_cons]

/-- Rejected messages change nothing but T1 and the message that is there. -/
theorem receives_eq {c : Client τ} {envs : List Env} (hsetup : c.only.udpSetup = true)
    (hstate : AcceptsAck c.only.state) (hrejected : AllRejected envs) :
    ∃ t1, receives c envs = c.setScratch (lastMessage c.only.msg envs) t1 := by
  induction envs generalizing c with
  | nil =>
      exact ⟨c.only.t1, rfl⟩
  | cons env envs ih =>
      rcases loopReceive_rejects hsetup hstate (hrejected env (by simp)) with ⟨t1, hstep⟩
      rcases @ih (loopReceive env c) (by rw [hstep]; exact hsetup) (by rw [hstep]; exact hstate)
        (fun env' henv' => hrejected env' (by simp [henv'])) with ⟨t1', hrest⟩
      -- the first call leaves the message from which the rest starts
      refine ⟨t1', ?_⟩
      rw [lastMessage_cons]
      calc
        receives c (env :: envs) = receives (loopReceive env c) envs := rfl
        _ = (loopReceive env c).setScratch
              (lastMessage (loopReceive env c).only.msg envs) t1' := hrest
        _ = c.setScratch (lastMessage ((receivedMessage env).getD c.only.msg) envs) t1' := by
            rw [hstep]
            rfl

/-- After any number of rejected messages, the next REQUEST is the same as without them, up to
`secs`, just when the last of these messages agrees with the message that was there in everything
that a REQUEST takes over. -/
theorem nextRequest_same_iff {c : Client τ} {envs : List Env} {env env' : Env}
    (hsetup : c.only.udpSetup = true) (hstate : AcceptsAck c.only.state)
    (hrejected : AllRejected envs) (hdue : RequestDue env c)
    (hdue' : RequestDue env' (receives c envs)) :
    (timeoutSends env' (receives c envs)).map withoutSecs =
        (timeoutSends env c).map withoutSecs ↔
      SameRequest (lastMessage c.only.msg envs) c.only.msg := by
  rcases receives_eq hsetup hstate hrejected with ⟨t1, heq⟩
  rw [heq] at hdue' ⊢
  have hsends := @timeoutSends_of_due τ _ env' (c.setScratch (lastMessage c.only.msg envs) t1)
    hsetup hstate hdue'
  rw [hsends, timeoutSends_of_due hsetup hstate hdue, requestMessage_eq, requestMessage_eq]
  generalize lastMessage c.only.msg envs = msg
  change List.map withoutSecs (Option.map dhcpMessageBytes (Option.map
    (requestFor c.only.ethaddr (secs env' c) msg) (dhcpOptionServerIdentifier msg))).toList = _ ↔ _
  rw [SameRequest]
  -- without a server identifier nothing is sent
  cases dhcpOptionServerIdentifier msg with
  | none =>
      cases dhcpOptionServerIdentifier c.only.msg <;> simp
  | some sid =>
      cases dhcpOptionServerIdentifier c.only.msg with
      | none =>
          simp
      | some sid' =>
          simp [withoutSecs_requestFor_iff]

end Rejected

/-- After the OFFER, the server repeats it, and then nothing comes. -/
theorem nextRequest_same_sample :
    (timeoutSends (sampleEnv [])
        (receives sampleRequesting [sampleMessage dhcpMsgTypeOffer 7 5, sampleEnv []])).map
          withoutSecs =
      (timeoutSends (sampleEnv []) sampleRequesting).map withoutSecs :=
  (nextRequest_same_iff (by decide +kernel) (by decide +kernel) (by decide +kernel)
    (by decide +kernel) (by decide +kernel)).2 (by decide +kernel)

/-- After an OFFER for another client, the REQUEST has its transaction number and its address. -/
theorem nextRequest_changes_sample :
    AcceptsAck sampleRequesting.only.state ∧ sampleRequesting.only.udpSetup = true ∧
      AllRejected [sampleMessage dhcpMsgTypeOffer 9 6] ∧
      RequestDue (sampleEnv []) sampleRequesting ∧
      RequestDue (sampleEnv [])
        (receives sampleRequesting [sampleMessage dhcpMsgTypeOffer 9 6]) ∧
      (timeoutSends (sampleEnv [])
          (receives sampleRequesting [sampleMessage dhcpMsgTypeOffer 9 6])).map withoutSecs ≠
        (timeoutSends (sampleEnv []) sampleRequesting).map withoutSecs := by
  decide +kernel

end Dhcp
end DtsNet
