import DtsNet.Tcp.Blocks
import DtsNet.Tcp.Pair

/-!
# Tandem — each direction of a connection is a stop-and-wait protocol

Two ends of this stack, with a network between them that loses, repeats and reorders, do nothing
that the stop-and-wait protocol of `Library.StopAndWait` would not do, in each direction.  The
messages of the protocol are the buffers given to `tcp_send`: they arrive whole, in order and each
once, and the sender learns of every arrival before it sends the next one.
-/

namespace DtsNet
namespace Tcp

open Ip Dblk History Slices

variable {τ : Type}

/-! ## One end -/

/-- What an end keeps, beside `EndInv`, before `tcp_close`. -/
structure Paced (s : Endpoint) (c : Conn τ) : Prop where
  send : SendInv True c
  lined : Lined c
  numbered : Emits (Numbered s) c
  sized : ∀ bs ∈ acceptedBlocks c.log, bs.length ≤ 1379
  wnd : c.tcp.rcv.wnd = 1500

variable {s : Endpoint} {c d : Conn τ}

/-- The states before `tcp_close`. -/
theorem EndInv.state (hc : EndInv s c) : c.tcp.state = .listen ∨ c.tcp.state = .synSent ∨
    c.tcp.state = .synReceived ∨ c.tcp.state = .established := by
  have hshape := hc.shape
  cases hst : c.tcp.state with
  | listen => simp
  | synSent => simp
  | synReceived => simp
  | established => simp
  | _ =>
      rw [hst] at hshape
      exact hshape.elim

theorem Paced.openHistory (h : Paced s c) (hc : EndInv s c) : OpenHistory True c := by
  have hshape := h.send.shape
  rcases hc.state with hst | hst | hst | hst <;> rw [hst] at hshape
  · exact hshape.1.toOpenHistory
  · exact hshape.toOpenHistory
  · exact hshape.1.toOpenHistory
  · exact hshape.toOpenHistory

/-- The blocks that are in flight or acknowledged are those that were built. -/
theorem Paced.built (h : Paced s c) (hc : EndInv s c) : texts (builtSegments c.log) =
    (exchange c d).acked ++ (exchange c d).inFlight.toList :=
  (h.openHistory hc).texts_eq

theorem Paced.sent (h : Paced s c) (hc : EndInv s c) : (exchange c d).sent = acceptedBlocks c.log :=
  exchange_sent (h.openHistory hc) h.lined

variable [TimerLib τ]

/-- SYN_SENT gives up the SYN once it is acknowledged. -/
theorem receivedWhenSynSent_sending (hopening : Opening True c) (env : Env) (seg : Received) :
    SendFrame c (receivedWhenSynSent env c seg) ∨
    ∃ c₁ syn ack, SendFrame c c₁ ∧ c₁.tcp.txSeg = some syn ∧ syn.payload = [] ∧
      receivedWhenSynSent env c seg = tcpTxSegComplete c₁ ack := by
  rcases receivedWhenSynSent_cases env c seg with
      h | ⟨_, _, _, h⟩ | ⟨_, _, ⟨_, h⟩ | ⟨_, _, _, h⟩⟩
  · left
    rw [h]
    exact .refl c
  · left
    rw [h]
    exact sendFrame_tcpSendCtrlSeg_rst env c _ _
  · left
    rw [h]
    exact sendFrame_setState c _
  · rw [h]
    rcases synAckReply_cases env c seg with ⟨_, htcp, hlog | ⟨dg, _, hlog⟩⟩ | ⟨_, _, h⟩
    · left
      exact .of_log (by rw [htcp, takeSynAck]) (by rw [htcp, takeSynAck]) (by rw [htcp, takeSynAck])
        hlog
    · left
      exact .of_concat (by rw [htcp, takeSynAck]) (by rw [htcp, takeSynAck])
        (by rw [htcp, takeSynAck]) hlog trivial
    · right
      rcases hopening.txSeg with ⟨syn, hs, _, hpayload⟩
      let ce : Conn τ :=
        { tcp := { takeSynAck c.tcp seg with state := .established }
          log := (tcpSendCtrlSeg env { c with tcp := takeSynAck c.tcp seg } seg.ack
            (seg.seq + 1) segFlagAck).1.log }
      have hframe : SendFrame c ce := .of_concat rfl rfl rfl (tcpSendCtrlSeg_log env _ _ _ _) trivial
      exact ⟨ce, syn, seg.ack, hframe, hs, hpayload, h⟩

/-- ESTABLISHED gives up the text in `tx_seg` once it is acknowledged. -/
theorem receivedWhenEstablished_sending (env : Env) {seg : Received}
    (hfin : segCtrlF seg.toSegment = false) :
    SendFrame c (receivedWhenEstablished env c seg) ∨
    ∃ pending, segCtrlA seg.toSegment = true ∧ c.tcp.txSeg = some pending ∧
      ackCompletes c.tcp seg.ack = true ∧
      SendFrame (tcpConstructData env (ackedConn c pending)) (receivedWhenEstablished env c seg) := by
  cases hacc : seqAccepted c.tcp seg.toSegment with
  | false =>
      left
      rw [receivedWhenEstablished_of_rejected env c hacc]
      exact sendFrame_processReceivedSeq env c seg
  | true =>
      by_cases hRA : segCtrlR seg.toSegment = true ∨ segCtrlA seg.toSegment = false
      · left
        rw [receivedWhenEstablished_of_ignored env c hacc hRA]
        exact .refl c
      · rw [not_or, Bool.not_eq_true, Bool.not_eq_false] at hRA
        rw [receivedWhenEstablished_of_ack env c hacc hRA.1 hRA.2, hfin, if_neg Bool.false_ne_true,
          textEstablished]
        have hframe := sendFrame_tcpHandleData env (ackEstablished env c seg) seg
        rcases ackEstablished_cases env c seg with ⟨hsame, _⟩ | ⟨pending, hs, _, hack, hacked⟩
        · left
          rw [hsame] at hframe ⊢
          exact hframe
        · right
          refine ⟨pending, hRA.2, hs, hack, ?_⟩
          rw [hacked] at hframe ⊢
          exact hframe

/-- What one event does to the sending side: nothing; a buffer is accepted; the text in `tx_seg` is
acknowledged; or the SYN is. -/
theorem step_sending (hc : EndInv s c) (hsend : SendInv True c) {text : List Byte} {e : Event}
    (hok : EndOk s text c e) :
    SendFrame c (step c e) ∨
    (∃ env data, e = .send env data ∧ c.tcp.state = .established ∧ env.AllocOk ∧
      data.length ≤ 1379 ∧ step c e = tcpConstructData env (acceptData c data)) ∨
    (∃ env seg pending, e = .received env seg ∧ c.tcp.state = .established ∧ env.AllocOk ∧
      segCtrlA seg.toSegment = true ∧ c.tcp.txSeg = some pending ∧
      ackCompletes c.tcp seg.ack = true ∧
      SendFrame (tcpConstructData env (ackedConn c pending)) (step c e)) ∨
    ∃ c₁ syn ack, SendFrame c c₁ ∧ c₁.tcp.txSeg = some syn ∧ syn.payload = [] ∧
      step c e = tcpTxSegComplete c₁ ack := by
  cases e with
  | send env data =>
      by_cases hst : c.tcp.state = .established
      · right; left
        refine ⟨env, data, rfl, hst, hok.1, hok.2, ?_⟩
        rw [step, tcpSend_of_established env c hst, if_pos (hok.1 _ _)]
      · left
        rw [step, tcpSend_of_not env c hst]
        exact .refl c
  | recv data size =>
      exact Or.inl (sendFrame_recvEvent c data size)
  | close env =>
      exact hok.elim
  | loop env =>
      left
      have hstop := sendFrame_stopTimer c
      have hvisit := tcpLoopVisit_cases env c
      simp only [step]
      rcases hvisit with h | ⟨_, h⟩ | ⟨_, h⟩ | ⟨_, _, h⟩
      · rw [h]
        exact .refl c
      · rw [h]
        exact hstop.trans (sendFrame_tcpRetransmit env _)
      · rw [h]
        exact hstop.trans (sendFrame_setState _ .closed)
      · rw [h]
        exact hstop
  | received env seg =>
      simp only [step]
      rcases hc.state with hst | hst | hst | hst
      · left
        simpa [tcpReceived, hst, receivedEventProcess] using sendFrame_receivedWhenListen env c seg
      · have hreceived : tcpReceived env c seg = receivedWhenSynSent env c seg := by
          simp [tcpReceived, hst, receivedEventProcess]
        have hopening : Opening True c := by
          have hshape := hsend.shape
          rwa [hst] at hshape
        rw [hreceived]
        rcases receivedWhenSynSent_sending hopening env seg with h | h
        · exact Or.inl h
        · exact Or.inr (Or.inr (Or.inr h))
      · left
        simpa [tcpReceived, hst, receivedEventProcess] using
          sendFrame_receivedWhenSynReceived env c seg
      · have hreceived : tcpReceived env c seg = receivedWhenEstablished env c seg := by
          simp [tcpReceived, hst, receivedEventProcess]
        rw [hreceived]
        rcases receivedWhenEstablished_sending (c := c) env hok.2.fin with h | ⟨pending, hA, hs, hack, h⟩
        · exact Or.inl h
        · right; right; left
          exact ⟨env, seg, pending, rfl, hst, hok.1, hA, hs, hack, h⟩

/-! ## What one event keeps -/

omit [TimerLib τ] in
/-- Only a non-empty text can be acknowledged. -/
theorem payload_ne_nil_of_ackCompletes (h : Streaming s c) {pending : TxSegment}
    (hs : c.tcp.txSeg = some pending) {ack : UInt32} (hack : ackCompletes c.tcp ack = true) :
    pending.payload ≠ [] := by
  intro hnil
  have hnxt : c.tcp.snd.nxt = c.tcp.snd.una := by
    rw [h.nxt]
    simp [pendingBytes, hs, hnil]
  rw [ackCompletes, hnxt, sncmp_self_ls, Bool.false_and] at hack
  cases hack

theorem acceptedBlocks_tcpConstructData {env : Env} (hmem : env.AllocOk) (c : Conn τ) :
    acceptedBlocks (tcpConstructData env c).log = acceptedBlocks c.log := by
  rcases tcpConstructData_cases env c with heq | ⟨tx, rest, hs, hd⟩
  · rw [heq]
  · rcases tcpConstructData_cons env c hmem hs hd with ⟨_, sent, hlog⟩
    simp [hlog, acceptedBlocks]

theorem lined_sized_step (hc : EndInv s c) (h : Paced s c) {text : List Byte} {e : Event}
    (hok : EndOk s text c e) :
    Lined (step c e) ∧ ∀ bs ∈ acceptedBlocks (step c e).log, bs.length ≤ 1379 := by
  have hframe : ∀ {c₁ c₂ : Conn τ}, SendFrame c₁ c₂ → Lined c₁ →
      acceptedBlocks c₂.log = acceptedBlocks c₁.log ∧ Lined c₂ := by
    intro c₁ c₂ hf hl
    rcases hf.log with ⟨l, hlog, hneutral⟩
    exact ⟨by simp [hlog, acceptedBlocks_of_neutral hneutral], hf.lined hl⟩
  rcases step_sending hc h.send hok with
      hf | ⟨env, data, _, _, hmem, hlen, hstep⟩ | ⟨env, seg, pending, _, _, hmem, _, _, _, hf⟩ |
      ⟨c₁, syn, ack, hf, hs, _, hstep⟩
  · rcases hframe hf h.lined with ⟨haccepted, hl⟩
    rw [haccepted]
    exact ⟨hl, h.sized⟩
  · rw [hstep]
    refine ⟨lined_tcpConstructData hmem (lined_acceptData h.lined (by omega)), ?_⟩
    have haccepted : acceptedBlocks (acceptData c data).log =
        acceptedBlocks c.log ++ nonEmpty [data] := by
      simp [acceptData, acceptedBlocks]
    rw [acceptedBlocks_tcpConstructData hmem, haccepted]
    intro bs hbs
    rcases List.mem_append.1 hbs with hbs | hbs
    · exact h.sized bs hbs
    · have hdata : bs = data := List.mem_singleton.1 (List.mem_filter.1 hbs).1
      rw [hdata]
      exact hlen
  · have hacked : acceptedBlocks (ackedConn c pending).log = acceptedBlocks c.log := by
      simp [ackedConn, acceptedBlocks]
    rcases hframe hf (lined_tcpConstructData hmem (lined_ackedConn h.lined pending)) with
        ⟨haccepted, hl⟩
    rw [haccepted, acceptedBlocks_tcpConstructData hmem, hacked]
    exact ⟨hl, h.sized⟩
  · rcases hframe hf h.lined with ⟨haccepted, hl⟩
    have hdone : acceptedBlocks (tcpTxSegComplete c₁ ack).log = acceptedBlocks c₁.log := by
      simp [tcpTxSegComplete, hs, acceptedBlocks]
    rw [hstep, hdone, haccepted]
    exact ⟨lined_tcpTxSegComplete hl ack, h.sized⟩

/-- The history behind an acknowledged text. -/
theorem openHistory_ackedConn (h : OpenHistory True c) {pending : TxSegment}
    (hs : c.tcp.txSeg = some pending) : OpenHistory True (ackedConn c pending) := by
  have hframe : SendFrame c { c with tcp.snd.una := c.tcp.snd.nxt } := .of_log rfl rfl rfl rfl
  rw [ackedConn_eq hs]
  exact (hframe.openHistory h).complete hs fun _ => rfl

omit [TimerLib τ] in
/-- An accepted buffer waits behind the others. -/
theorem streaming_acceptData (h : Streaming s c) {data : List Byte} (hlen : data.length < 65536) :
    Streaming s (acceptData c data) := by
  rcases h.accepted with ⟨done, haccepted, huna⟩
  have hqueued : queuedBytes (acceptData c data).log = queuedBytes c.log := by
    simp [acceptData, queuedBytes]
  refine ⟨⟨done, ?_, huna⟩, h.nxt, by rw [hqueued]; exact h.rcv⟩
  have hbytes : acceptedBytes (acceptData c data).log = acceptedBytes c.log ++ data := by
    simp [acceptData, acceptedBytes]
  have hwaiting : waitingBytes (acceptData c data).tcp = waitingBytes c.tcp ++ data := by
    simp [waitingBytes, acceptData, bytes_acceptData hlen]
  have hpending : pendingBytes (acceptData c data).tcp = pendingBytes c.tcp := rfl
  rw [hbytes, haccepted, hwaiting, hpending, List.append_assoc]

theorem numbered_step (hc : EndInv s c) (h : Paced s c) {text : List Byte} {e : Event}
    (hok : EndOk s text c e) : Emits (Numbered s) (step c e) := by
  have hE := lasting_numbered s
  have hopen := h.openHistory hc
  have hstreaming : c.tcp.state = .established → Streaming s c := fun hst => by
    have hshape := hc.shape
    rwa [hst] at hshape
  cases e with
  | received env seg =>
      refine emits_tcpReceived_of_bare hE (fun log _ => numbered_of_bare s log) hok.1 h.numbered
        hc.state seg fun pending tx rest hst hs _ => ?_
      exact numbered_dataSegment (streaming_ackedConn (hstreaming hst) hs).1
        (openHistory_ackedConn hopen hs) (lined_ackedConn h.lined pending) rfl tx
  | send env data =>
      by_cases hst : c.tcp.state = .established
      · have hlen : data.length < 65536 := Nat.lt_of_le_of_lt hok.2 (by decide)
        have hload : Loading True c := by
          have hshape := h.send.shape
          rw [hst] at hshape
          exact hshape.toLoading
        have haccepted : Emits (Numbered s) (acceptData c data) := by
          refine h.numbered.of_keep hE rfl (l := [.accepted data]) rfl ?_
          intro a ha
          rw [List.mem_singleton.1 ha]
          trivial
        rw [step, tcpSend_of_established env c hst, if_pos (hok.1 _ _)]
        refine emits_tcpConstructData_built hE hok.1 haccepted fun tx rest hs _ => ?_
        exact numbered_dataSegment (streaming_acceptData (hstreaming hst) hlen)
          (loading_acceptData hload fun _ => hlen).toOpenHistory (lined_acceptData h.lined hlen) hs tx
      · rw [step, tcpSend_of_not env c hst]
        exact h.numbered
  | recv data size =>
      exact emits_recvEvent hE h.numbered data size
  | close env =>
      exact hok.elim
  | loop env =>
      exact emits_tcpLoopVisit env hE h.numbered

theorem paced_step (hc : EndInv s c) (h : Paced s c) {text : List Byte} {e : Event}
    (hok : EndOk s text c e) (hsize : e.SendSize 1379) : Paced s (step c e) := by
  have hmem : e.AllocOk := by
    cases e with
    | received env seg => exact hok.1
    | send env data => exact hok.1
    | recv data size => trivial
    | close env => exact hok.elim
    | loop env => exact hok
  rcases lined_sized_step hc h hok with ⟨hlined, hsized⟩
  exact ⟨sendInv_step h.send hmem fun _ => hsize, hlined, numbered_step hc h hok, hsized,
    (wnd_step c e).trans h.wnd⟩

/-! ## The steps of the protocol -/

omit [TimerLib τ] in
theorem Paced.acked_length_le (h : Paced s c) (hc : EndInv s c) :
    ((exchange c d).acked ++ (exchange c d).inFlight.toList).flatten.length ≤
      (acceptedBytes c.log).length := by
  have hsent := h.sent (d := d) hc
  rw [← flatten_acceptedBlocks, ← hsent]
  exact (List.prefix_append _ (exchange c d).waiting).flatten.length_le

/-- An event at the sender.  What its peer acknowledges has been queued there. -/
theorem exchange_step_src (hc : EndInv s c) (h : Paced s c) {text : List Byte} {e : Event}
    (hok : EndOk s text c e) (hinv : (exchange c d).Inv)
    (hlen : (acceptedBytes c.log).length < 2 ^ 32)
    (hacks : ∀ env seg, e = .received env seg → segCtrlA seg.toSegment = true →
      ∃ k ≤ (queuedBytes d.log).length, seg.ack = s.sndSeq k) :
    StopAndWait.Steps (exchange c d) (exchange (step c e) d) := by
  rcases step_sending hc h.send hok with
      hf | ⟨env, data, _, _, hmem, hdata, hstep⟩ | ⟨env, seg, pending, he, hst, hmem, hA, hs, hack, hf⟩ |
      ⟨c₁, syn, ack, hf, hs, hsyn, hstep⟩
  · rw [hf.exchange_eq]
  · rw [hstep]
    exact (exchange_acceptData c d (by omega)).trans (exchange_tcpConstructData hmem _ d)
  · have hstreaming : Streaming s c := by
      have hshape := hc.shape
      rwa [hst] at hshape
    have hp := payload_ne_nil_of_ackCompletes hstreaming hs hack
    have hflight : (exchange c d).inFlight = some pending.payload := pendingText_some hs hp
    have hbound := h.acked_length_le (d := d) hc
    rw [hflight, Option.toList_some, List.flatten_append, List.length_append,
      List.flatten_singleton] at hbound
    rcases hacks env seg he hA with ⟨k, hk, hseq⟩
    rw [← flatten_queuedBlocks] at hk
    -- the number acknowledged is that behind the text in flight
    have hnxt : seg.ack = s.sndSeq ((exchange c d).acked.flatten.length + pending.payload.length) := by
      simp only [ackCompletes, Bool.and_eq_true, beq_iff_eq] at hack
      have huna := hstreaming.una_eq (d := d) (h.openHistory hc) h.lined
      rw [hack.2, hstreaming.nxt, huna]
      simp only [pendingBytes, hs]
      exact Circular.add_ofNat_add _ _ _
    have hpos := List.length_pos_of_ne_nil hp
    have hrcvd : (exchange c d).rcvd = (exchange c d).acked ++ [pending.payload] := by
      have hkacked : (exchange c d).rcvd.flatten.length < 2 ^ 32 := by
        have hle := hinv.rcvd_prefix.flatten.length_le
        rw [hflight, Option.toList_some, List.flatten_append, List.length_append,
          List.flatten_singleton] at hle
        omega
      have hkeq : k = (exchange c d).acked.flatten.length + pending.payload.length := by
        have hkle : k ≤ (exchange c d).rcvd.flatten.length := hk
        exact Circular.ofNat_add_inj (by omega) (by omega) (hseq.symm.trans hnxt)
      rcases hinv with hsame | ⟨a, ha, hahead⟩
      · exfalso
        have hkle : k ≤ (exchange c d).rcvd.flatten.length := hk
        rw [hsame] at hkle
        omega
      · rw [hahead]
        rw [hflight] at ha
        cases ha
        rfl
    rw [hf.exchange_eq]
    exact .head (exchange_ackedConn hs hp hrcvd) (exchange_tcpConstructData hmem _ d)
  · rw [hstep, exchange_tcpTxSegComplete hs hsyn, hf.exchange_eq]

/-- What one event queues: nothing, or the text of a segment at `rcv.nxt`. -/
theorem step_receiving (hc : EndInv s c) {text : List Byte} {e : Event} (hok : EndOk s text c e) :
    queuedBytes (step c e).log = queuedBytes c.log ∨
    ∃ env seg, e = .received env seg ∧ c.tcp.state = .established ∧ seg.seq = c.tcp.rcv.nxt ∧
      0 < tcpSegmentLength seg.toSegment ∧ queuedBlocks (step c e).log =
        queuedBlocks c.log ++ nonEmpty [textBytes c.tcp seg] := by
  cases e with
  | send env data =>
      left
      by_cases hst : c.tcp.state = .established
      · have haccept : QueueMove [] c (acceptData c data) := .of_concat rfl rfl rfl trivial
        rw [step, tcpSend_of_established env c hst, if_pos (hok.1 _ _)]
        exact (haccept.trans (queueMove_tcpConstructData env _)).bytes_eq
      · rw [step, tcpSend_of_not env c hst]
  | recv data size =>
      left
      rcases recvEvent_log c data size with ⟨bs, hlog⟩
      simp [step, hlog, queuedBytes]
  | close env =>
      exact hok.elim
  | loop env =>
      left
      have hstop : QueueMove [] c (stopTimer c) := .of_log rfl rfl rfl
      have hvisit := tcpLoopVisit_cases env c
      simp only [step]
      rcases hvisit with h | ⟨_, h⟩ | ⟨_, h⟩ | ⟨_, _, h⟩
      · rw [h]
      · rw [h]
        exact (hstop.trans (queueMove_tcpRetransmit env _)).bytes_eq
      · rw [h]
        rfl
      · rw [h]
        rfl
  | received env seg =>
      simp only [step]
      rcases hc.state with hst | hst | hst | hst
      · left
        simpa [tcpReceived, hst, receivedEventProcess] using
          (queueMove_receivedWhenListen env c seg).bytes_eq
      · left
        simpa [tcpReceived, hst, receivedEventProcess] using
          (queueMove_receivedWhenSynSent env c seg).bytes_eq
      · left
        simpa [tcpReceived, hst, receivedEventProcess] using
          (queueMove_receivedWhenSynReceived env c seg).bytes_eq
      · have hreceived : tcpReceived env c seg = receivedWhenEstablished env c seg := by
          simp [tcpReceived, hst, receivedEventProcess]
        rw [hreceived]
        cases hacc : seqAccepted c.tcp seg.toSegment with
        | false =>
            left
            rw [receivedWhenEstablished_of_rejected env c hacc]
            exact (queueMove_processReceivedSeq env c seg).bytes_eq
        | true =>
            by_cases hRA : segCtrlR seg.toSegment = true ∨ segCtrlA seg.toSegment = false
            · left
              rw [receivedWhenEstablished_of_ignored env c hacc hRA]
            · rw [not_or, Bool.not_eq_true, Bool.not_eq_false] at hRA
              rw [receivedWhenEstablished_of_ack env c hacc hRA.1 hRA.2, hok.2.fin,
                if_neg Bool.false_ne_true, textEstablished]
              have hacked := queueMove_ackEstablished env c seg
              have hrcv := ackEstablished_rcv env c seg
              rcases tcpHandleData_cases env (ackEstablished env c seg) seg with
                  ⟨hsame, _⟩ | ⟨hseq, hlen, _, l, hlog, hl⟩
              · left
                rw [hsame]
                exact hacked.bytes_eq
              · right
                refine ⟨env, seg, rfl, hst, by rw [hseq, hrcv], hlen, ?_⟩
                have hnone : queuedBlocks l = [] := by
                  rcases hl with rfl | ⟨_, rfl⟩ <;> rfl
                have hsame : queuedBlocks (ackEstablished env c seg).log = queuedBlocks c.log := by
                  rcases hacked.log with ⟨l', hlog', hq, _⟩
                  rw [hlog', queuedBlocks_append, queuedBlocks_eq_nil hq, List.append_nil]
                have htext : textBytes (ackEstablished env c seg).tcp seg = textBytes c.tcp seg := by
                  rw [textBytes, textBytes, textLength, textLength, hrcv]
                rw [hlog, queuedBlocks_append, queuedBlocks_append, hnone, hsame, htext,
                  List.append_nil]
                rfl

/-- An event at the receiver.  What arrives is what its peer sent. -/
theorem exchange_step_dst (hc : EndInv s c) (hd : EndInv s.peer d) (h : Paced s c)
    (h' : Paced s.peer d) {e : Event} (hok : EndOk s (acceptedBytes d.log) c e)
    (hinv : (exchange d c).Inv) (hlen : (acceptedBytes d.log).length + 1 < 2 ^ 32)
    (hnumbered : ∀ env seg, e = .received env seg → Numbered s.peer d.log seg.toSegment) :
    StopAndWait.Steps (exchange d c) (exchange d (step c e)) := by
  rcases step_receiving hc hok with hqueued | ⟨env, seg, rfl, hst, hseq, htext, hqueued⟩
  · rw [exchange_congr hqueued (log_prefix_step c e)]
  · have hstreaming : Streaming s c := by
      have hshape := hc.shape
      rwa [hst] at hshape
    have hbuilt := h'.built (d := c) hd
    have hrcvd : (exchange d c).rcvd = queuedBlocks c.log := rfl
    have hbound := h'.acked_length_le (d := c) hd
    have hq : queuedBytes c.log = (exchange d c).rcvd.flatten := (flatten_queuedBlocks c.log).symm
    have hqlen := hinv.rcvd_prefix.flatten.length_le
    have hprefix : queuedBytes c.log <+: acceptedBytes d.log := by
      rw [hq, ← flatten_acceptedBlocks, ← h'.sent (d := c) hd]
      exact hinv.rcvd_prefix_sent.flatten
    rcases s.slice_of_seq hok.2 hprefix.length_le hlen (hseq.trans hstreaming.rcv) htext with
        ⟨hS, _⟩
    have hplain := tcpSegmentLength_of_plain hS hok.2.fin
    have hp : seg.payload ≠ [] := by
      intro hnil
      rw [hplain, hnil] at htext
      exact Nat.lt_irrefl _ htext
    rcases hnumbered env seg rfl hp with ⟨pre, hpre, hnumber⟩
    -- the text starts where the queue ends, so it is the block behind those queued
    have hlenpre : pre.flatten.length = (exchange d c).rcvd.flatten.length := by
      have hple := ((List.prefix_append pre [seg.payload]).trans hpre).flatten.length_le
      rw [hbuilt] at hple
      have heq : s.rcvSeq pre.flatten.length = s.rcvSeq (exchange d c).rcvd.flatten.length := by
        rw [← hq]
        exact hnumber.symm.trans (hseq.trans hstreaming.rcv)
      exact Circular.ofNat_add_inj (by omega) (by omega) heq
    have hne : ∀ bs ∈ texts (builtSegments d.log), bs ≠ [] := fun bs => ne_nil_of_mem_nonEmpty
    have hqpre : (exchange d c).rcvd <+: texts (builtSegments d.log) := by
      rw [hbuilt]
      exact hinv.rcvd_prefix
    have hpre' := (List.prefix_append pre [seg.payload]).trans hpre
    have heq : pre = (exchange d c).rcvd := by
      rcases List.prefix_or_prefix_of_prefix hpre' hqpre with h | h
      · exact eq_of_prefix_of_length_flatten h (fun bs hbs => hne bs (hqpre.subset hbs)) hlenpre
      · exact (eq_of_prefix_of_length_flatten h (fun bs hbs => hne bs (hpre'.subset hbs))
          hlenpre.symm).symm
    rw [heq, hbuilt] at hpre
    rcases hinv.eq_of_next hpre with ⟨hflight, hacked⟩
    -- the window has room for all of it
    have hsize : seg.payload.length ≤ 1379 := by
      refine h'.sized _ ?_
      rw [h'.lined, hbuilt]
      exact List.mem_append_left _ (hpre.subset (List.mem_append_right _ (List.mem_singleton_self _)))
    have hlength : textLength c.tcp seg = seg.payload.length := by
      have hwnd : c.tcp.rcv.wnd.toNat = 1500 := by
        rw [h.wnd]
        rfl
      rw [textLength, hplain, hwnd]
      omega
    have hbytes : textBytes c.tcp seg = seg.payload := by
      rw [textBytes, hlength, memRead_append_left (Nat.le_refl _), List.take_length]
    have hexchange : exchange d (step c (.received env seg)) =
        { exchange d c with rcvd := (exchange d c).acked ++ [seg.payload] } := by
      rw [← hacked]
      simp only [exchange, hqueued, hbytes, nonEmpty_singleton hp]
    rw [hexchange]
    exact .single (StopAndWait.Step.deliver _ _ hflight hacked)

/-! ## Both ends -/

/-- Both ends before `tcp_close`, seen from `s`, and the protocols between them. -/
structure Tandem (s : Endpoint) (x y : Conn τ) : Prop extends Joint s x y where
  paced : Paced s x
  pacedPeer : Paced s.peer y
  ahead : StopAndWait.Steps .idle (exchange x y)
  behind : StopAndWait.Steps .idle (exchange y x)

omit [TimerLib τ] in
theorem Tandem.flip {x y : Conn τ} (h : Tandem s x y) : Tandem s.peer y x := by
  have hpeer : s.peer.peer = s := by simp [Endpoint.peer]
  exact ⟨h.toJoint.flip, h.pacedPeer, by rw [hpeer]; exact h.paced, h.behind, h.ahead⟩

omit [TimerLib τ] in
theorem Tandem.inv {x y : Conn τ} (h : Tandem s x y) : (exchange x y).Inv :=
  h.ahead.inv StopAndWait.inv_idle

/-- One event at this end. -/
theorem tandem_step {x y : Conn τ} (h : Tandem s x y)
    (hiss : s.passive = false → s.iss < s.iss + 1) (hx : (acceptedBytes x.log).length + 1 < 2 ^ 32)
    (hy : (acceptedBytes y.log).length + 1 < 2 ^ 32) {e : Event} (hok : NetOk y e) :
    Tandem s (step x e) y := by
  have hend := h.endOk hok
  have hsize : e.SendSize 1379 := by
    cases e with
    | send env data => exact hok.2
    | _ => trivial
  have hsent : ∀ env seg, e = .received env seg →
      (segCtrlA seg.toSegment = true → ∃ k ≤ (queuedBytes y.log).length, seg.ack = s.sndSeq k) ∧
        Numbered s.peer y.log seg.toSegment := by
    rintro env seg rfl
    rcases hok with ⟨_, dg, hdg, beyond, rfl⟩
    have hsaid : s.peer.Says y.log dg.seg :=
      meets_of_mem_outputs s.peer.lasting_says h.that.emits.log hdg
    exact ⟨hsaid.ack, meets_of_mem_outputs (lasting_numbered _) h.pacedPeer.numbered.log hdg⟩
  refine ⟨joint_step h.toJoint hiss hy hok, paced_step h.this h.paced hend hsize, h.pacedPeer, ?_, ?_⟩
  · exact h.ahead.trans (exchange_step_src h.this h.paced hend h.inv (by omega)
      fun env seg he => (hsent env seg he).1)
  · exact h.behind.trans (exchange_step_dst h.this h.that h.paced h.pacedPeer hend h.flip.inv hy
      fun env seg he => (hsent env seg he).2)

theorem tandem_pairStep {p : Pair τ} (h : Tandem s p.a p.b) (hactive : s.passive = false)
    (hiss : s.iss < s.iss + 1) {e : PairEvent} (hok : PairOk p e)
    (hlen : longest (pairStep p e) + 1 < 2 ^ 32) : Tandem s (pairStep p e).a (pairStep p e).b := by
  have hle := longest_step p e
  have ha : (acceptedBytes p.a.log).length ≤ longest p := Nat.le_max_left _ _
  have hb : (acceptedBytes p.b.log).length ≤ longest p := Nat.le_max_right _ _
  cases e with
  | atA e =>
      exact tandem_step h (fun _ => hiss) (by omega) (by omega) hok
  | atB e =>
      have hpassive : s.peer.passive = false → s.peer.iss < s.peer.iss + 1 := fun hno => by
        simp [Endpoint.peer, hactive] at hno
      have hflip := tandem_step h.flip hpassive (by omega) (by omega) hok
      have hpeer : s.peer.peer = s := by simp [Endpoint.peer]
      rw [← hpeer]
      exact hflip.flip

/-- What `tcp_open` leaves holds nothing yet. -/
theorem paced_opened (s : Endpoint) {env : Env} {ip : Netif} {port : UInt32} {dest : Option IpAddr}
    {destPort : UInt16} (hmem : env.AllocOk) (hopen : tcpOpenConn env ip port dest destPort = some c) :
    Paced s c := by
  have hsend : SendInv True c := sendInv_opened ⟨env, ip, port, dest, destPort, hmem, hopen⟩
  have hnumbered : Emits (Numbered s) c :=
    emits_tcpOpenConn env (lasting_numbered s) hopen fun _ => numbered_of_bare s _ rfl
  cases dest with
  | none =>
      rw [tcpOpenConn_passive] at hopen
      cases hopen
      exact ⟨hsend, rfl, hnumbered, fun bs hbs => absurd hbs List.not_mem_nil, rfl⟩
  | some dest =>
      rcases tcpOpenConn_active (τ := τ) env hmem ip port dest destPort with ⟨sent, _, h⟩
      rw [hopen] at h
      cases h
      exact ⟨hsend, rfl, hnumbered, fun bs hbs => absurd hbs List.not_mem_nil, rfl⟩

/-- A passive open asks for no memory. -/
theorem OpenedPassive.allocOk {b : Conn τ} (hb : OpenedPassive b) : ∃ env ip port destPort,
    env.AllocOk ∧ tcpOpenConn env ip port none destPort = some b := by
  rcases hb with ⟨env, ip, port, destPort, hopen⟩
  refine ⟨.working env.now, ip, port, destPort, Env.allocOk_working _, ?_⟩
  rw [← hopen, tcpOpenConn_passive, tcpOpenConn_passive]
  rfl

theorem tandem_opened {a b : Conn τ} (ha : OpenedLossy a) (hb : OpenedPassive b) :
    Tandem ⟨false, a.tcp.snd.iss, b.tcp.snd.iss⟩ a b := by
  have hjoint := joint_opened ha hb
  rcases ha with ⟨env, ip, port, dest, destPort, hmem, hopen⟩
  rcases hb.allocOk with ⟨env', ip', port', destPort', hmem', hopen'⟩
  have hidle : exchange a b = .idle ∧ exchange b a = .idle := by
    rcases tcpOpenConn_active (τ := τ) env hmem ip port dest destPort with ⟨sent, _, h⟩
    have h' := hopen'.symm.trans (tcpOpenConn_passive env' ip' port' destPort')
    rw [hopen] at h
    cases h
    cases h'
    exact ⟨rfl, rfl⟩
  refine ⟨hjoint, paced_opened _ hmem hopen, paced_opened _ hmem' hopen', ?_, ?_⟩
  · rw [hidle.1]
  · rw [hidle.2]

/-! ## Runs -/

theorem tandem_run {a₀ b₀ : Conn τ} (ha : OpenedLossy a₀) (hb : OpenedPassive b₀)
    (hiss : a₀.tcp.snd.iss < a₀.tcp.snd.iss + 1) {es : List PairEvent}
    (hok : Machine.Along pairStep PairOk ⟨a₀, b₀⟩ es)
    (hlen : longest (runPair ⟨a₀, b₀⟩ es) + 1 < 2 ^ 32) :
    Tandem ⟨false, a₀.tcp.snd.iss, b₀.tcp.snd.iss⟩ (runPair ⟨a₀, b₀⟩ es).a
      (runPair ⟨a₀, b₀⟩ es).b := by
  have hN : longest (Machine.run pairStep ⟨a₀, b₀⟩ es) + 1 < 2 ^ 32 := hlen
  refine Machine.run_invariant_of_le pairStep
    (I := fun p => Tandem ⟨false, a₀.tcp.snd.iss, b₀.tcp.snd.iss⟩ p.a p.b) (m := longest)
    (N := 2 ^ 32 - 2) (fun p e _ => longest_step p e) ?_ (tandem_opened ha hb) hok (by omega)
  intro p e h hok hle
  exact tandem_pairStep h rfl hiss hok (by omega)

/-- Every run of the pair is, in each direction, a run of the stop-and-wait protocol; its messages are
the buffers that `tcp_send` accepted, in this order. -/
theorem stopAndWait_run {a₀ b₀ : Conn τ} (ha : OpenedLossy a₀) (hb : OpenedPassive b₀)
    (hiss : a₀.tcp.snd.iss < a₀.tcp.snd.iss + 1) {es : List PairEvent}
    (hok : Machine.Along pairStep PairOk ⟨a₀, b₀⟩ es)
    (hlen : longest (runPair ⟨a₀, b₀⟩ es) + 1 < 2 ^ 32) :
    let p := runPair ⟨a₀, b₀⟩ es
    (StopAndWait.Steps .idle (exchange p.a p.b) ∧
        (exchange p.a p.b).sent = acceptedBlocks p.a.log) ∧
      StopAndWait.Steps .idle (exchange p.b p.a) ∧
        (exchange p.b p.a).sent = acceptedBlocks p.b.log := by
  have h := tandem_run ha hb hiss hok hlen
  exact ⟨⟨h.ahead, h.paced.sent h.this⟩, h.behind, h.pacedPeer.sent h.that⟩

/-- What one end was told of the other's queue. -/
structure WholeBlocks (src dst : Conn τ) : Prop where
  /-- Each buffer arrives as one block, in order and once. -/
  queued : queuedBlocks dst.log <+: acceptedBlocks src.log
  /-- What left `tx_seg` has arrived. -/
  acked : texts (completedSegments src.log) <+: queuedBlocks dst.log
  /-- At most one block has arrived that is still in `tx_seg`. -/
  ahead : (queuedBlocks dst.log).length ≤ (texts (completedSegments src.log)).length + 1

omit [TimerLib τ] in
theorem wholeBlocks_of_inv (hc : EndInv s c) (h : Paced s c) (hinv : (exchange c d).Inv) :
    WholeBlocks c d := by
  refine ⟨?_, hinv.acked_prefix, hinv.length_rcvd_le⟩
  rw [← h.sent (d := d) hc]
  exact hinv.rcvd_prefix_sent

/-- The buffers given to `tcp_send` at one end are the blocks queued at the other, and no buffer is
sent before the one before it has arrived and the sender knows it. -/
theorem wholeBlocks_run {a₀ b₀ : Conn τ} (ha : OpenedLossy a₀) (hb : OpenedPassive b₀)
    (hiss : a₀.tcp.snd.iss < a₀.tcp.snd.iss + 1) {es : List PairEvent}
    (hok : Machine.Along pairStep PairOk ⟨a₀, b₀⟩ es)
    (hlen : longest (runPair ⟨a₀, b₀⟩ es) + 1 < 2 ^ 32) :
    WholeBlocks (runPair ⟨a₀, b₀⟩ es).a (runPair ⟨a₀, b₀⟩ es).b ∧
      WholeBlocks (runPair ⟨a₀, b₀⟩ es).b (runPair ⟨a₀, b₀⟩ es).a := by
  have h := tandem_run ha hb hiss hok hlen
  exact ⟨wholeBlocks_of_inv h.this h.paced h.inv, wholeBlocks_of_inv h.that h.pacedPeer h.flip.inv⟩

/-! ## A run with a duplicated segment -/

theorem openedLossy_sampleConn (now : ℕ) : OpenedLossy (sampleConn now (some samplePeer)) :=
  ⟨.working now, sampleIp, 5000, samplePeer, 80, Env.allocOk_working now, rfl⟩

theorem openedPassive_sampleServer : OpenedPassive sampleServer :=
  ⟨.working 200, { sampleIp with addr := samplePeer }, 80, 0, rfl⟩

theorem sampleExchange_ok :
    Machine.Along pairStep PairOk ⟨sampleConn 100 (some samplePeer), sampleServer⟩ sampleExchange := by
  refine ⟨⟨Env.allocOk_working _, _, ?_, [], rfl⟩, ⟨Env.allocOk_working _, _, ?_, [], rfl⟩,
    ⟨Env.allocOk_working _, _, ?_, [], rfl⟩, ⟨Env.allocOk_working _, by decide, by decide⟩,
    ⟨Env.allocOk_working _, _, ?_, [], rfl⟩, ⟨Env.allocOk_working _, _, ?_, [], rfl⟩,
    ⟨Env.allocOk_working _, by decide, by decide⟩, ⟨Env.allocOk_working _, _, ?_, [], rfl⟩, trivial⟩
  all_goals decide

theorem sampleExchange_take_ok (n : ℕ) :
    Machine.Along pairStep PairOk ⟨sampleConn 100 (some samplePeer), sampleServer⟩
      (sampleExchange.take n) := by
  have h := sampleExchange_ok
  rw [← List.take_append_drop n sampleExchange, Machine.along_append] at h
  exact h.1

theorem stopAndWait_run_sample :
    let p := runPair ⟨sampleConn 100 (some samplePeer), sampleServer⟩ sampleExchange
    acceptedBlocks p.a.log = [[1, 2]] ∧ StopAndWait.Steps .idle (exchange p.a p.b) :=
  ⟨by decide, (stopAndWait_run (openedLossy_sampleConn 100) openedPassive_sampleServer (by decide)
    sampleExchange_ok (by decide)).1.1⟩

theorem wholeBlocks_run_sample :
    let p := runPair ⟨sampleConn 100 (some samplePeer), sampleServer⟩ sampleExchange
    queuedBlocks p.b.log = [[1, 2]] ∧ WholeBlocks p.a p.b :=
  ⟨by decide, (wholeBlocks_run (openedLossy_sampleConn 100) openedPassive_sampleServer (by decide)
    sampleExchange_ok (by decide)).1⟩

end Tcp
end DtsNet
