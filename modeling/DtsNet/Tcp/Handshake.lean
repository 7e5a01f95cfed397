import DtsNet.Tcp.Handlers

/-!
# Handshake — the three segments that open a connection

An active opener and a listener, both running this stack, exchange SYN, SYN,ACK and ACK.  The
comparisons of sequence numbers in `received_when_syn_sent`, `process_received_seq` and
`received_when_syn_received` are right as long as nothing wraps around; the theorem says for which
initial sequence numbers that is.
-/

namespace DtsNet
namespace Tcp

open Ip Dblk

variable {τ : Type} [TimerLib τ]

/-! ## The exchange -/

structure Delivery where
  env : Env
  beyond : List Byte

def Delivery.Works (d : Delivery) : Prop :=
  d.env.AllocOk ∧ d.env.SendOk

/-- `dst` receives the last segment that `src` sent. -/
def deliverLast (d : Delivery) (src dst : Conn τ) : Conn τ :=
  match (outputs src.log).getLast? with
  | some dg => tcpReceived d.env dst (dg.received d.beyond)
  | none => dst

/-- The SYN of `a` reaches `b`, the answer `a`, and the answer to that `b`. -/
def handshake (d₁ d₂ d₃ : Delivery) (a b : Conn τ) : Conn τ × Conn τ :=
  let b := deliverLast d₁ a b
  let a := deliverLast d₂ b a
  let b := deliverLast d₃ a b
  (a, b)

/-- Both ends of an opened connection. -/
structure Completed (issA issB : UInt32) (a b : Conn τ) : Prop where
  state_a : a.tcp.state = .established
  state_b : b.tcp.state = .established
  una_a : a.tcp.snd.una = issA + 1
  nxt_a : a.tcp.snd.nxt = issA + 1
  rcv_b : b.tcp.rcv.nxt = issA + 1
  una_b : b.tcp.snd.una = issB + 1
  nxt_b : b.tcp.snd.nxt = issB + 1
  rcv_a : a.tcp.rcv.nxt = issB + 1
  no_rst : ∀ dg ∈ outputs a.log ++ outputs b.log, segCtrlR dg.seg = false

/-- What `tcp_open` makes of an active opener when everything works. -/
def OpenedActive (a : Conn τ) : Prop :=
  ∃ env ip port dest destPort, env.AllocOk ∧ env.SendOk ∧
    tcpOpenConn env ip port (some dest) destPort = some a

/-- What `tcp_open` makes of a listener. -/
def OpenedPassive (b : Conn τ) : Prop :=
  ∃ env ip port destPort, tcpOpenConn env ip port none destPort = some b

/-! ## One end at a time -/

/-- The last segment sent, none before it being a RST. -/
structure LastSent (c : Conn τ) (flags : UInt16) (seq ack : UInt32) : Prop where
  last : ∃ pre dg, outputs c.log = pre ++ [dg] ∧ dg.seg.flags = flags ∧ dg.seg.seq = seq ∧
    dg.seg.ack = ack ∧ dg.seg.payload = []
  no_rst : ∀ dg ∈ outputs c.log, segCtrlR dg.seg = false

theorem deliverLast_of_lastSent {c : Conn τ} {flags : UInt16} {seq ack : UInt32}
    (h : LastSent c flags seq ack) (d : Delivery) (dst : Conn τ) :
    ∃ seg : Received, deliverLast d c dst = tcpReceived d.env dst seg ∧
      seg.flags = flags ∧ seg.seq = seq ∧ seg.ack = ack ∧ seg.payload = [] := by
  rcases h.last with ⟨pre, dg, hout, hflags, hseq, hack, hpayload⟩
  refine ⟨dg.received d.beyond, ?_, hflags, hseq, hack, hpayload⟩
  simp [deliverLast, hout]

omit [TimerLib τ] in
/-- A segment that reaches the IP layer is the last one sent. -/
theorem lastSent_of_output {c : Conn τ} {log : List Action} {dg : Datagram} {flags : UInt16}
    {seq ack : UInt32} (hlog : outputs c.log = outputs log ++ [dg])
    (hno : ∀ dg ∈ outputs log, segCtrlR dg.seg = false) (hflags : dg.seg.flags = flags)
    (hseq : dg.seg.seq = seq) (hack : dg.seg.ack = ack) (hpayload : dg.seg.payload = [])
    (hR : segCtrlR dg.seg = false) : LastSent c flags seq ack := by
  refine ⟨⟨_, dg, hlog, hflags, hseq, hack, hpayload⟩, ?_⟩
  intro dg' hdg'
  rw [hlog] at hdg'
  rcases List.mem_append.1 hdg' with hdg' | hdg'
  · exact hno dg' hdg'
  · rw [List.mem_singleton.1 hdg']
    exact hR

/-- An active opener has sent its SYN. -/
theorem OpenedActive.lastSent {a : Conn τ} (ha : OpenedActive a) :
    a.tcp.state = .synSent ∧ a.tcp.snd = ⟨a.tcp.snd.iss, a.tcp.snd.iss + 1, a.tcp.snd.iss⟩ ∧
      a.tcp.txSeg ≠ none ∧ LastSent a segFlagSyn a.tcp.snd.iss 0 := by
  rcases ha with ⟨env, ip, port, dest, destPort, hmem, hsend, hopen⟩
  rcases tcpOpenConn_active (τ := τ) env hmem ip port dest destPort with ⟨sent, hsent, h⟩
  rw [hopen] at h
  cases h
  let t := synSentTcb (τ := τ) env ip port dest destPort
  have hlog : outputs [.built (synSegment t), .output (some (connDatagram t (synSegment t))) sent] =
      outputs [] ++ [connDatagram t (synSegment t)] := by
    simp [outputs, hsent hsend]
  exact ⟨rfl, rfl, by simp [synSentTcb], lastSent_of_output hlog (by simp [outputs]) rfl rfl rfl rfl
    (ctrl_of_flags_syn rfl).2.2.1⟩

theorem OpenedPassive.listen {b : Conn τ} (hb : OpenedPassive b) :
    b.tcp.state = .listen ∧ b.tcp.snd = ⟨b.tcp.snd.iss, b.tcp.snd.iss, b.tcp.snd.iss⟩ ∧
      b.tcp.rcv.wnd = 1500 ∧ outputs b.log = [] := by
  rcases hb with ⟨env, ip, port, destPort, hopen⟩
  rw [tcpOpenConn_passive] at hopen
  cases hopen
  exact ⟨rfl, rfl, rfl, rfl⟩

/-- What is left of a listener that answered a SYN with sequence number `issA`. -/
structure SynAnswered (issA : UInt32) (b : Conn τ) : Prop where
  state : b.tcp.state = .synReceived
  snd : b.tcp.snd = ⟨b.tcp.snd.iss, b.tcp.snd.iss + 1, b.tcp.snd.iss⟩
  rcv : b.tcp.rcv.nxt = issA + 1
  wnd : b.tcp.rcv.wnd = 1500
  sent : LastSent b (segFlagSyn ||| segFlagAck) b.tcp.snd.iss (issA + 1)

theorem synAnswered_of_syn {b : Conn τ} (hb : OpenedPassive b) {d : Delivery} (hd : d.Works)
    {seg : Received} (hflags : seg.flags = segFlagSyn) :
    SynAnswered seg.seq (tcpReceived d.env b seg) ∧
      (tcpReceived d.env b seg).tcp.snd.iss = b.tcp.snd.iss := by
  rcases hb.listen with ⟨hst, hsnd, hwnd, hout⟩
  rcases ctrl_of_flags_syn hflags with ⟨hA, hS, hR, _⟩
  have hreply : tcpReceived d.env b seg = synReply d.env b seg := by
    simp [tcpReceived, hst, receivedEventProcess, receivedWhenListen, hA, hS, hR, synReply, takeSyn]
  have htcp := synReply_tcp d.env b seg
  have hlog := synReply_log d.env b seg
  simp only [hd.1 _ _, hd.2 _, if_true, Bool.and_self] at htcp hlog
  have hiss : (synReply d.env b seg).tcp.snd.iss = b.tcp.snd.iss := by
    rw [htcp, takeSyn]
  have hlog' : outputs (synReply d.env b seg).log = outputs b.log ++
      [connDatagram (takeSyn b.tcp seg) (newSegment (takeSyn b.tcp seg) b.tcp.snd.iss (seg.seq + 1)
        (segFlagSyn ||| segFlagAck) [])] := by
    simp [hlog, outputs]
  rw [hreply]
  refine ⟨⟨?_, ?_, ?_, ?_, ?_⟩, hiss⟩
  · rw [htcp]
  · rw [hiss, htcp, takeSyn, hsnd]
  · rw [htcp, takeSyn]
  · rw [htcp, takeSyn, hwnd]
  · rw [hiss]
    exact lastSent_of_output hlog' (by simp [hout]) rfl rfl rfl rfl (ctrl_of_flags_synAck rfl).2.2.1

/-- What is left of an active opener that took a SYN,ACK with sequence number `issB`. -/
structure SynAckAnswered (issB : UInt32) (a : Conn τ) : Prop where
  state : a.tcp.state = .established
  snd : a.tcp.snd = ⟨a.tcp.snd.iss + 1, a.tcp.snd.iss + 1, a.tcp.snd.iss⟩
  rcv : a.tcp.rcv.nxt = issB + 1
  sent : LastSent a segFlagAck (a.tcp.snd.iss + 1) (issB + 1)

theorem synAckAnswered_of_synAck {a : Conn τ} (ha : OpenedActive a) {d : Delivery} (hd : d.Works)
    {seg : Received} (hflags : seg.flags = segFlagSyn ||| segFlagAck)
    (hack : seg.ack = a.tcp.snd.iss + 1) (hiss : a.tcp.snd.iss < a.tcp.snd.iss + 1) :
    SynAckAnswered seg.seq (tcpReceived d.env a seg) ∧
      (tcpReceived d.env a seg).tcp.snd.iss = a.tcp.snd.iss := by
  rcases ha.lastSent with ⟨hst, hsnd, htx, hlast⟩
  rcases ctrl_of_flags_synAck hflags with ⟨hA, hS, hR, _⟩
  have hle : a.tcp.snd.iss ≤ a.tcp.snd.iss + 1 := UInt32.le_of_lt hiss
  have hnxt : a.tcp.snd.nxt = a.tcp.snd.iss + 1 := by rw [hsnd]
  have huna : a.tcp.snd.una = a.tcp.snd.iss := by rw [hsnd]
  have hls : sncmp a.tcp.snd.iss .ls seg.ack .le a.tcp.snd.nxt = true := by
    rw [hack, hnxt, sncmp_ls_le_iff hle]
    exact ⟨hiss, UInt32.le_refl _⟩
  have hle' : sncmp a.tcp.snd.una .le seg.ack .le a.tcp.snd.nxt = true := by
    rw [hack, hnxt, huna, sncmp_le_le_iff hle]
    exact ⟨hle, UInt32.le_refl _⟩
  have hreply : tcpReceived d.env a seg = synAckReply d.env a seg := by
    simp [tcpReceived, hst, receivedEventProcess, receivedWhenSynSent, synSentAcceptable, hA, hS,
      hR, hls, hle', synAckReply, takeSynAck]
  rcases synAckReply_cases d.env a seg with ⟨hno, _⟩ | ⟨_, _, h⟩
  · rw [hack, hd.2 _] at hno
    simp [hiss] at hno
  · rcases Option.ne_none_iff_exists'.1 htx with ⟨s, hs⟩
    have hs' : (takeSynAck a.tcp seg).txSeg = some s := hs
    simp only [tcpTxSegComplete, hs', tcpSendCtrlSeg_log] at h
    have hiss' : (synAckReply d.env a seg).tcp.snd.iss = a.tcp.snd.iss := by
      rw [h, takeSynAck]
    have hlog : outputs (synAckReply d.env a seg).log = outputs a.log ++
        [connDatagram (takeSynAck a.tcp seg) (newSegment (takeSynAck a.tcp seg) seg.ack
          (seg.seq + 1) segFlagAck [])] := by
      simp [h, outputs, hd.1 _ _, hd.2 _]
    rw [hreply]
    refine ⟨⟨?_, ?_, ?_, ?_⟩, hiss'⟩
    · rw [h]
    · rw [hiss', h, takeSynAck, hsnd, hack]
    · rw [h, takeSynAck]
    · rw [hiss', ← hack]
      exact lastSent_of_output hlog hlast.no_rst rfl rfl rfl rfl (ctrl_of_flags_ack rfl).2.2.1

/-- With `iss` the last number there is, the SYN,ACK is refused. -/
theorem synSent_of_synAck {a : Conn τ} (ha : OpenedActive a) (env : Env) {seg : Received}
    (hflags : seg.flags = segFlagSyn ||| segFlagAck) (hack : seg.ack = a.tcp.snd.iss + 1)
    (hiss : ¬ a.tcp.snd.iss < a.tcp.snd.iss + 1) :
    (tcpReceived env a seg).tcp.state = .synSent := by
  rcases ha.lastSent with ⟨hst, hsnd, _, _⟩
  rcases ctrl_of_flags_synAck hflags with ⟨hA, _, hR, _⟩
  have hmax : a.tcp.snd.iss = 4294967295 := not_not.1 (mt Circular.lt_succ_iff.2 hiss)
  have hnxt : a.tcp.snd.nxt = 0 := by
    rw [hsnd, hmax]
    rfl
  have hls : sncmp a.tcp.snd.iss .ls seg.ack .le a.tcp.snd.nxt = false := by
    rw [hack, hnxt, hmax]
    decide
  simp [tcpReceived, hst, receivedEventProcess, receivedWhenSynSent, hA, hR, hls]

/-! ## The last segment -/

section Last

variable {issA : UInt32} {b : Conn τ} (hb : SynAnswered issA b) (env : Env) {seg : Received}
  (hflags : seg.flags = segFlagAck) (hseq : seg.seq = issA + 1)
  (hack : seg.ack = b.tcp.snd.iss + 1) (hpayload : seg.payload = [])

include hb hflags hseq hpayload in
omit [TimerLib τ] in
/-- The receive window of the listener starts at the number of the segment, so only a window that
wraps around keeps it out. -/
theorem seqAccepted_last (hissA : issA < issA + 1) :
    seqAccepted b.tcp seg.toSegment = decide (issA.toNat + 1501 < 2 ^ 32) := by
  have hlen : tcpSegmentLength seg.toSegment = 0 := by
    simp [tcpSegmentLength_of_flags_ack hflags, hpayload]
  have hsucc : (issA + 1).toNat = issA.toNat + 1 := Circular.toNat_succ_of_lt hissA
  have hself : Circular.InRun (issA + 1) 1500 (issA + 1) := Circular.inRun_self (by decide)
  have hcmp : seqAccepted b.tcp seg.toSegment =
      sncmp (issA + 1) .le (issA + 1) .ls (issA + 1 + UInt32.ofNat 1500) := by
    simp [seqAccepted, hlen, hb.wnd, hb.rcv, hseq]
  rw [hcmp]
  by_cases hlt : issA.toNat + 1501 < 2 ^ 32
  · rw [decide_eq_true hlt, sncmp_window_of_lt (by decide) (by omega)]
    exact hself
  · rw [decide_eq_false hlt, Bool.eq_false_iff, Ne,
      sncmp_window_of_le (by decide) (by decide) (by omega)]
    exact not_not_intro hself

include hb hflags hseq hack hpayload

theorem established_of_last (hissA : issA.toNat + 1501 < 2 ^ 32)
    (hissB : b.tcp.snd.iss < b.tcp.snd.iss + 1) :
    tcpReceived env b seg =
      { b with tcp.snd.una := b.tcp.snd.iss + 1, tcp.state := .established } := by
  rcases ctrl_of_flags_ack hflags with ⟨hA, _, hR, hF⟩
  have hlt : issA < issA + 1 := Circular.lt_succ_of_toNat_lt (by omega)
  have hacc : seqAccepted b.tcp seg.toSegment = true := by
    rw [seqAccepted_last hb hflags hseq hpayload hlt, decide_eq_true hissA]
  have hle : b.tcp.snd.iss ≤ b.tcp.snd.iss + 1 := UInt32.le_of_lt hissB
  have hnxt : b.tcp.snd.nxt = b.tcp.snd.iss + 1 := by rw [hb.snd]
  have huna : b.tcp.snd.una = b.tcp.snd.iss := by rw [hb.snd]
  have hcmp : sncmp b.tcp.snd.una .le seg.ack .le b.tcp.snd.nxt = true := by
    rw [hack, hnxt, huna, sncmp_le_le_iff hle]
    exact ⟨hle, UInt32.le_refl _⟩
  have hhandler : tcpReceived env b seg = receivedWhenSynReceived env b seg := by
    simp [tcpReceived, hb.state, receivedEventProcess]
  rw [hhandler, receivedWhenSynReceived_of_ack env b hacc hR hA, hF, ackSynReceived_of env b hcmp,
    hack]
  rfl

theorem synReceived_of_last (hissA : issA < issA + 1)
    (h : 2 ^ 32 ≤ issA.toNat + 1501 ∨ ¬ b.tcp.snd.iss < b.tcp.snd.iss + 1) :
    (tcpReceived env b seg).tcp.state = .synReceived := by
  rcases ctrl_of_flags_ack hflags with ⟨hA, _, hR, hF⟩
  have hhandler : tcpReceived env b seg = receivedWhenSynReceived env b seg := by
    simp [tcpReceived, hb.state, receivedEventProcess]
  rw [hhandler]
  cases hacc : seqAccepted b.tcp seg.toSegment with
  | false =>
      rw [receivedWhenSynReceived_of_rejected env b hacc, processReceivedSeq_tcp, hb.state]
  | true =>
      have hissB : ¬ b.tcp.snd.iss < b.tcp.snd.iss + 1 := by
        rw [seqAccepted_last hb hflags hseq hpayload hissA, decide_eq_true_iff] at hacc
        exact h.resolve_left (by omega)
      have hmax : b.tcp.snd.iss = 4294967295 := not_not.1 (mt Circular.lt_succ_iff.2 hissB)
      have hcmp : sncmp b.tcp.snd.una .le seg.ack .le b.tcp.snd.nxt = false := by
        rw [hack, hb.snd, hmax]
        decide
      rw [receivedWhenSynReceived_of_ack env b hacc hR hA, hF, ackSynReceived_of_not env b hcmp]
      simpa using hb.state

end Last

/-! ## All three -/

/-- The handshake completes exactly if no comparison meets a number that wrapped around. -/
theorem handshake_completes_iff {a b : Conn τ} (ha : OpenedActive a) (hb : OpenedPassive b)
    {d₁ d₂ d₃ : Delivery} (h₁ : d₁.Works) (h₂ : d₂.Works) :
    Completed a.tcp.snd.iss b.tcp.snd.iss (handshake d₁ d₂ d₃ a b).1 (handshake d₁ d₂ d₃ a b).2 ↔
      a.tcp.snd.iss.toNat + 1501 < 2 ^ 32 ∧ b.tcp.snd.iss ≠ 4294967295 := by
  rcases ha.lastSent with ⟨hst, _, _, hsyn⟩
  -- the SYN
  rcases deliverLast_of_lastSent hsyn d₁ b with ⟨syn, hd₁, hflags₁, hseq₁, _, _⟩
  rcases synAnswered_of_syn hb h₁ hflags₁ with ⟨hb₁, hissB⟩
  rw [← hd₁] at hb₁ hissB
  rw [hseq₁] at hb₁
  -- the SYN,ACK
  rcases deliverLast_of_lastSent hb₁.sent d₂ a with ⟨synAck, hd₂, hflags₂, hseq₂, hack₂, _⟩
  by_cases hissA : a.tcp.snd.iss < a.tcp.snd.iss + 1
  · rcases synAckAnswered_of_synAck ha h₂ hflags₂ hack₂ hissA with ⟨ha₂, hissA₂⟩
    rw [← hd₂] at ha₂ hissA₂
    rw [hseq₂, hissB] at ha₂
    -- the ACK
    rcases deliverLast_of_lastSent ha₂.sent d₃ (deliverLast d₁ a b) with
      ⟨ack, hd₃, hflags₃, hseq₃, hack₃, hpayload₃⟩
    rw [hissA₂] at hseq₃
    rw [← hissB] at hack₃
    constructor
    · intro h
      have hstate : (tcpReceived d₃.env (deliverLast d₁ a b) ack).tcp.state = .established := by
        rw [← hd₃]
        exact h.state_b
      by_contra hno
      have hbad : 2 ^ 32 ≤ a.tcp.snd.iss.toNat + 1501 ∨
          ¬ (deliverLast d₁ a b).tcp.snd.iss < (deliverLast d₁ a b).tcp.snd.iss + 1 := by
        rw [Circular.lt_succ_iff, hissB]
        by_contra hgood
        exact hno ⟨by omega, by tauto⟩
      have := synReceived_of_last hb₁ d₃.env hflags₃ hseq₃ hack₃ hpayload₃ hissA hbad
      rw [hstate] at this
      cases this
    · rintro ⟨hlt, hmax⟩
      have hissB' : (deliverLast d₁ a b).tcp.snd.iss < (deliverLast d₁ a b).tcp.snd.iss + 1 := by
        rw [Circular.lt_succ_iff, hissB]
        exact hmax
      have hb₃ := established_of_last hb₁ d₃.env hflags₃ hseq₃ hack₃ hpayload₃ hlt hissB'
      have hfst : (handshake d₁ d₂ d₃ a b).1 = deliverLast d₂ (deliverLast d₁ a b) a := rfl
      have hsnd : (handshake d₁ d₂ d₃ a b).2 =
          { deliverLast d₁ a b with
            tcp.snd.una := (deliverLast d₁ a b).tcp.snd.iss + 1, tcp.state := .established } := by
        rw [← hb₃, ← hd₃]
        rfl
      have hnxt : (deliverLast d₁ a b).tcp.snd.nxt = b.tcp.snd.iss + 1 := by
        rw [hb₁.snd, hissB]
      rw [hfst, hsnd]
      refine ⟨ha₂.state, rfl, ?_, ?_, hb₁.rcv, ?_, hnxt, ha₂.rcv, ?_⟩
      · rw [ha₂.snd, hissA₂]
      · rw [ha₂.snd, hissA₂]
      · rw [← hissB]
      · intro dg hdg
        rcases List.mem_append.1 hdg with hdg | hdg
        · exact ha₂.sent.no_rst dg hdg
        · exact hb₁.sent.no_rst dg hdg
  · constructor
    · intro h
      have hstate : (tcpReceived d₂.env a synAck).tcp.state = .established := by
        rw [← hd₂]
        exact h.state_a
      rw [synSent_of_synAck ha d₂.env hflags₂ hack₂ hissA] at hstate
      cases hstate
    · rintro ⟨hlt, _⟩
      exact absurd (Circular.lt_succ_of_toNat_lt (by omega)) hissA

theorem openedActive_sampleConn (now : ℕ) : OpenedActive (sampleConn now (some samplePeer)) :=
  ⟨.working now, sampleIp, 5000, samplePeer, 80, Env.allocOk_working now, fun _ => rfl,
    (Option.some_get _).symm⟩

theorem openedPassive_sampleConn (now : ℕ) : OpenedPassive (sampleConn now none) :=
  ⟨.working now, sampleIp, 5000, 80, (Option.some_get _).symm⟩

theorem handshake_completes_sample :
    Completed 100 200
        (handshake ⟨.working 201, []⟩ ⟨.working 202, []⟩ ⟨.working 203, []⟩
          (sampleConn 100 (some samplePeer)) (sampleConn 200 none)).1
        (handshake ⟨.working 201, []⟩ ⟨.working 202, []⟩ ⟨.working 203, []⟩
          (sampleConn 100 (some samplePeer)) (sampleConn 200 none)).2 := by
  have hworks : ∀ now, Delivery.Works ⟨.working now, []⟩ :=
    fun now => ⟨Env.allocOk_working now, fun _ => rfl⟩
  exact (handshake_completes_iff (openedActive_sampleConn 100) (openedPassive_sampleConn 200)
    (hworks 201) (hworks 202)).2 ⟨by decide, by decide⟩

/-- An opener that starts from the last sequence number answers the SYN,ACK with a RST. -/
theorem handshake_not_completed :
    ∃ a b : Conn Deadline, OpenedActive a ∧ OpenedPassive b ∧
      ∃ d₁ d₂ d₃ : Delivery, d₁.Works ∧ d₂.Works ∧ d₃.Works ∧
        ¬ Completed a.tcp.snd.iss b.tcp.snd.iss (handshake d₁ d₂ d₃ a b).1
          (handshake d₁ d₂ d₃ a b).2 := by
  have hworks : ∀ now, Delivery.Works ⟨.working now, []⟩ :=
    fun now => ⟨Env.allocOk_working now, fun _ => rfl⟩
  refine ⟨sampleConn 4294967295 (some samplePeer), sampleConn 200 none,
    openedActive_sampleConn _, openedPassive_sampleConn _, _, _, _, hworks 201, hworks 202,
    hworks 203, ?_⟩
  intro h
  exact absurd h.state_a (by decide)

end Tcp
end DtsNet
