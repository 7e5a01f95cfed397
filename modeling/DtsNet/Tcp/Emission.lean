import DtsNet.Tcp.Handlers
import DtsNet.Library.History

/-!
# Emission — what holds of every segment sent

`Emits E c` says that every segment `c` sent met `E` with the record of that moment, and that the
segment in the header buffer of `tx_seg`, which may be sent again at any time, meets it now.  For
an `E` that is not lost when the record grows, each routine keeps this if the segments it makes
meet `E`.
-/

namespace DtsNet
namespace Tcp

open Ip Dblk History

variable {τ : Type}

/-! ## The property -/

/-- A segment that goes out meets `E`. -/
def SendRule (E : List Action → Segment → Prop) (pre : List Action) : Action → Prop
  | .output (some dg) _ => E pre dg.seg
  | _ => True

structure Emits (E : List Action → Segment → Prop) (c : Conn τ) : Prop where
  log : Each (SendRule E) c.log
  raw : ∀ s r, c.tcp.txSeg = some s → s.rawData = some r → E c.log r

/-- What was allowed stays allowed. -/
def Lasting (E : List Action → Segment → Prop) : Prop :=
  ∀ log l seg, E log seg → E (log ++ l) seg

variable {E : List Action → Segment → Prop} {c c' : Conn τ}

theorem sendRule_of_lasting (hE : Lasting E) {log pre : List Action} (hpre : log <+: pre)
    {a : Action} (h : SendRule E log a) : SendRule E pre a := by
  rcases hpre with ⟨l, rfl⟩
  cases a with
  | output dg sent =>
      cases dg with
      | none =>
          trivial
      | some dg =>
          exact hE log l dg.seg h
  | _ =>
      trivial

/-- Whatever went out meets `E` with the record as it is now. -/
theorem meets_of_mem_outputs (hE : Lasting E) {log : List Action} (h : Each (SendRule E) log)
    {dg : Datagram} (hdg : dg ∈ outputs log) : E log dg.seg := by
  rcases List.mem_filterMap.1 hdg with ⟨a, ha, hout⟩
  rcases List.append_of_mem ha with ⟨pre, post, hlog⟩
  have hpre : pre <+: log := ⟨a :: post, hlog.symm⟩
  have hrule : SendRule E log a := sendRule_of_lasting hE hpre (h pre a post hlog)
  cases a with
  | output dg' sent =>
      cases dg' with
      | none =>
          simp at hout
      | some dg' =>
          cases sent <;> simp at hout
          rw [← hout]
          exact hrule
  | _ =>
      simp at hout

namespace Emits

/-- The new header buffer, if there is one, is the old one or holds a segment that meets `E`. -/
theorem of_log (hE : Lasting E) (hc : Emits E c) {l : List Action} (hlog : c'.log = c.log ++ l)
    (hl : ∀ a ∈ l, SendRule E c.log a)
    (hraw : ∀ s r, c'.tcp.txSeg = some s → s.rawData = some r →
      (∃ s', c.tcp.txSeg = some s' ∧ s'.rawData = some r) ∨ E c.log r) : Emits E c' := by
  refine ⟨?_, ?_⟩
  · rw [hlog]
    exact hc.log.append fun a ha pre hpre => sendRule_of_lasting hE hpre (hl a ha)
  · intro s r hs hr
    rw [hlog]
    rcases hraw s r hs hr with ⟨s', hs', hr'⟩ | h
    · exact hE _ _ _ (hc.raw s' r hs' hr')
    · exact hE _ _ _ h

/-- A step that does not touch `tx_seg`. -/
theorem of_keep (hE : Lasting E) (hc : Emits E c) (hseg : c'.tcp.txSeg = c.tcp.txSeg)
    {l : List Action} (hlog : c'.log = c.log ++ l) (hl : ∀ a ∈ l, SendRule E c.log a) :
    Emits E c' := by
  refine hc.of_log hE hlog hl ?_
  intro s r hs hr
  rw [hseg] at hs
  exact Or.inl ⟨s, hs, hr⟩

theorem congr (hc : Emits E c) (hseg : c'.tcp.txSeg = c.tcp.txSeg) (hlog : c'.log = c.log) :
    Emits E c' := by
  refine ⟨?_, ?_⟩
  · rw [hlog]
    exact hc.log
  · rw [hlog, hseg]
    exact hc.raw

end Emits

/-! ## The routines -/

variable (env : Env)

theorem tcpSendCtrlSeg_txSeg (c : Conn τ) (seq ack : UInt32) (flags : UInt16) :
    (tcpSendCtrlSeg env c seq ack flags).1.tcp.txSeg = c.tcp.txSeg := by
  cases h : env.ipHlSend c.log <;>
    simp [tcpSendCtrlSeg, tcpIpSend, h]

theorem emits_tcpSendCtrlSeg (hE : Lasting E) (hc : Emits E c) {seq ack : UInt32} {flags : UInt16}
    (h : E c.log (newSegment c.tcp seq ack flags [])) :
    Emits E (tcpSendCtrlSeg env c seq ack flags).1 := by
  refine hc.of_keep hE (tcpSendCtrlSeg_txSeg env c seq ack flags)
    (tcpSendCtrlSeg_log env c seq ack flags) ?_
  intro a ha
  rw [List.mem_singleton.1 ha]
  exact h

/-- The answer to a segment that is not acceptable. -/
theorem emits_processReceivedSeq (hE : Lasting E) (hc : Emits E c) (seg : Received)
    (h : E c.log (newSegment c.tcp c.tcp.snd.nxt c.tcp.rcv.nxt segFlagAck [])) :
    Emits E (processReceivedSeq env c seg).1 := by
  cases hacc : seqAccepted c.tcp seg.toSegment with
  | true =>
      rw [processReceivedSeq_of_accepted env c hacc]
      exact hc
  | false =>
      rcases (processReceivedSeq_of_rejected env c hacc).2 with hsame | ⟨_, hsent⟩
      · rw [hsame]
        exact hc
      · rw [hsent]
        exact emits_tcpSendCtrlSeg env hE hc h

theorem emits_tcpHandleFinAck (hE : Lasting E) (hc : Emits E c) (seg : Received)
    (h : sncmp c.tcp.snd.una .ls seg.ack .le c.tcp.snd.nxt = true →
      E c.log (newSegment c.tcp seg.ack (seg.seq + 1) segFlagAck [])) :
    Emits E (tcpHandleFinAck env c seg).1 := by
  cases hack : sncmp c.tcp.snd.una .ls seg.ack .le c.tcp.snd.nxt with
  | false =>
      rw [tcpHandleFinAck_of_not env c hack]
      exact hc
  | true =>
      rcases tcpHandleFinAck_of env c hack with ⟨htcp, sent, hlog⟩
      refine hc.of_keep hE (by rw [htcp, takeFin]) hlog ?_
      intro a ha
      rw [List.mem_singleton.1 ha]
      exact h hack

/-- The text is queued before it is acknowledged. -/
theorem emits_tcpHandleData (hE : Lasting E) (hc : Emits E c) (dat : Received)
    (h : dat.seq = c.tcp.rcv.nxt → 0 < tcpSegmentLength dat.toSegment →
      E (c.log ++ [.queued (textBytes c.tcp dat)])
        (newSegment c.tcp c.tcp.snd.una (takeText c.tcp dat).rcv.nxt segFlagAck [])) :
    Emits E (tcpHandleData env c dat).1 := by
  rcases tcpHandleData_cases env c dat with ⟨hsame, _⟩ | ⟨hseq, hlen, htcp, l, hlog, hl⟩
  · rw [hsame]
    exact hc
  · have hqueued : Emits E
        ({ tcp := takeText c.tcp dat, log := c.log ++ [.queued (textBytes c.tcp dat)] } : Conn τ) := by
      refine hc.of_log hE rfl ?_ ?_
      · intro a ha
        rw [List.mem_singleton.1 ha]
        trivial
      · -- only the fields of `tx_seg` are written, not its header buffer
        intro s r hs hr
        rcases Option.map_eq_some_iff.1 hs with ⟨s', hs', rfl⟩
        exact Or.inl ⟨s', hs', hr⟩
    refine hqueued.of_keep hE (by rw [htcp]) hlog ?_
    intro a ha
    rcases hl with rfl | ⟨sent, rfl⟩
    · cases ha
    · rw [List.mem_singleton.1 ha]
      exact h hseq hlen

/-- LISTEN answers with a RST, a SYN,ACK, or both. -/
theorem emits_receivedWhenListen (hE : Lasting E) (hc : Emits E c) (seg : Received)
    (hrst : E c.log (newSegment c.tcp seg.ack 0 segFlagRst []))
    (hsyn : segCtrlS seg.toSegment = true → E c.log (newSegment (takeSyn c.tcp seg) c.tcp.snd.iss
      (seg.seq + 1) (segFlagSyn ||| segFlagAck) [])) :
    Emits E (receivedWhenListen env c seg) := by
  rcases receivedWhenListen_cases env c seg with ⟨c', hc', h⟩
  have hsame : Emits E c' ∧ c'.tcp = c.tcp ∧ ∃ l, c'.log = c.log ++ l := by
    rcases hc' with rfl | ⟨_, rfl⟩
    · exact ⟨hc, rfl, [], by simp⟩
    · exact ⟨emits_tcpSendCtrlSeg env hE hc hrst, tcpSendCtrlSeg_rst_tcp env c seg.ack 0, _,
        tcpSendCtrlSeg_log env c seg.ack 0 segFlagRst⟩
  rcases hsame with ⟨hemits, htcp, l, hlog⟩
  rcases h with h | ⟨hS, _, h⟩
  · rw [h]
    exact hemits
  · rw [h]
    have hseg : (synReply env c' seg).tcp.txSeg = c'.tcp.txSeg := by
      rw [synReply_tcp]
      split <;> rfl
    refine hemits.of_keep hE hseg (synReply_log env c' seg) ?_
    intro a ha
    rw [List.mem_singleton.1 ha, htcp, hlog]
    exact hE _ _ _ (hsyn hS)

theorem emits_ackSynReceived (hE : Lasting E) (hc : Emits E c) (seg : Received)
    (hrst : E c.log (newSegment c.tcp seg.ack 0 segFlagRst [])) :
    Emits E (ackSynReceived env c seg) := by
  cases h : sncmp c.tcp.snd.una .le seg.ack .le c.tcp.snd.nxt with
  | true =>
      rw [ackSynReceived_of env c h]
      exact hc.congr rfl rfl
  | false =>
      rw [ackSynReceived_of_not env c h]
      exact emits_tcpSendCtrlSeg env hE hc hrst

theorem emits_recvEvent (hE : Lasting E) (hc : Emits E c) (data : List Byte) (size : ℕ) :
    Emits E (recvEvent c data size) := by
  rcases recvEvent_log c data size with ⟨bs, hlog⟩
  refine hc.of_keep hE (recvEvent_txSeg c data size) hlog ?_
  intro a ha
  rw [List.mem_singleton.1 ha]
  trivial

variable [TimerLib τ]

theorem emits_tcpRetransmit (hE : Lasting E) (hc : Emits E c) : Emits E (tcpRetransmit env c) := by
  have hseg : (tcpRetransmit env c).tcp.txSeg = c.tcp.txSeg := by rw [tcpRetransmit_tcp]
  rcases tcpRetransmit_log env c with hlog | ⟨s, sent, hs, hlog⟩
  · exact hc.congr hseg hlog
  · refine hc.of_keep hE hseg hlog ?_
    intro a ha
    rw [List.mem_singleton.1 ha]
    cases hr : s.rawData with
    | none =>
        trivial
    | some r =>
        exact hc.raw s r hs hr

theorem emits_tcpTxSegComplete (hE : Lasting E) (hc : Emits E c) (ack : UInt32) :
    Emits E (tcpTxSegComplete c ack) := by
  cases hs : c.tcp.txSeg with
  | none =>
      simpa [tcpTxSegComplete, hs] using hc
  | some s =>
      rw [tcpTxSegComplete_some c hs]
      refine hc.of_log hE rfl ?_ ?_
      · intro a ha
        rw [List.mem_singleton.1 ha]
        trivial
      · intro s r hs
        cases hs

theorem emits_ackedConn (hE : Lasting E) (hc : Emits E c) (s : TxSegment) :
    Emits E (ackedConn c s) := by
  refine hc.of_log hE rfl ?_ ?_
  · intro a ha
    rw [List.mem_singleton.1 ha]
    trivial
  · intro s r hs
    cases hs

/-- The acknowledgment of a SYN,ACK. -/
theorem emits_synAckReply (hE : Lasting E) (hc : Emits E c) (seg : Received)
    (h : ∀ log, E log (newSegment (takeSynAck c.tcp seg) seg.ack (seg.seq + 1) segFlagAck [])) :
    Emits E (synAckReply env c seg) := by
  rcases synAckReply_cases env c seg with ⟨_, htcp, hlog⟩ | ⟨_, _, hest⟩
  · have hseg : (synAckReply env c seg).tcp.txSeg = c.tcp.txSeg := by rw [htcp, takeSynAck]
    rcases hlog with hlog | ⟨dg, hdg, hlog⟩
    · exact hc.congr hseg hlog
    · refine hc.of_keep hE hseg hlog ?_
      intro a ha
      rw [List.mem_singleton.1 ha, SendRule, hdg]
      exact h _
  · rw [hest]
    have htaken : Emits E { c with tcp := takeSynAck c.tcp seg } := hc.congr rfl rfl
    have hsent := emits_tcpSendCtrlSeg env hE htaken (h _)
    refine emits_tcpTxSegComplete hE ?_ seg.ack
    exact hsent.congr (by simp) rfl

/-- A segment for `tx_seg` is packed as it is or not at all. -/
theorem packTxSegment_rawData_eq {header : Bool} {seg r : Segment}
    (h : (packTxSegment header seg).rawData = some r) : r = seg := by
  cases header with
  | false =>
      cases h
  | true =>
      exact (Option.some.inj h).symm

theorem emits_tcpConstructData (hE : Lasting E) (hc : Emits E c)
    (h : ∀ tx rest, c.tcp.txSeg = none → c.tcp.txData = tx :: rest →
      E c.log (dataSegment c.tcp tx)) : Emits E (tcpConstructData env c) := by
  rcases tcpConstructData_cases env c with heq | ⟨tx, rest, hs, hd⟩
  · rw [heq]
    exact hc
  · have hdata := h tx rest hs hd
    cases hmem : env.malloc .dataSegment c.log with
    | false =>
        -- the block is lost
        refine hc.congr ?_ ?_ <;> simp [tcpConstructData, hs, hd, hmem]
    | true =>
        let s := packTxSegment (env.malloc .dataHeader c.log) (dataSegment c.tcp tx)
        have hseg : (tcpConstructData env c).tcp.txSeg = some s := by
          simp [tcpConstructData, hs, hd, hmem, s, dataSegment, newSegment]
        have hlog : ∃ sent, (tcpConstructData env c).log =
            c.log ++ [.built (dataSegment c.tcp tx),
              .output (s.rawData.map (connDatagram c.tcp)) sent] := by
          simp only [tcpConstructData, hs, hd, hmem, if_true, tcpIpSend_log,
            List.append_assoc]
          exact ⟨_, rfl⟩
        rcases hlog with ⟨sent, hlog⟩
        refine hc.of_log hE hlog ?_ ?_
        · intro a ha
          rcases List.mem_cons.1 ha with rfl | ha
          · trivial
          · rw [List.mem_singleton.1 ha]
            cases hr : s.rawData with
            | none =>
                trivial
            | some r =>
                rw [packTxSegment_rawData_eq hr]
                exact hdata
        · intro s' r hs' hr
          right
          rw [hseg] at hs'
          cases hs'
          rw [packTxSegment_rawData_eq hr]
          exact hdata

/-- The next data segment may go out on an acknowledgment. -/
theorem emits_ackEstablished (hE : Lasting E) (hc : Emits E c) (seg : Received)
    (h : ∀ s tx rest, c.tcp.txSeg = some s → c.tcp.txData = tx :: rest →
      E (ackedConn c s).log (dataSegment (ackedConn c s).tcp tx)) :
    Emits E (ackEstablished env c seg) := by
  rcases ackEstablished_cases env c seg with ⟨hsame, _⟩ | ⟨s, hs, _, _, hacked⟩
  · rw [hsame]
    exact hc
  · rw [hacked]
    exact emits_tcpConstructData env hE (emits_ackedConn hE hc s) fun tx rest _ hd =>
      h s tx rest hs hd

theorem emits_tcpLoopVisit (hE : Lasting E) (hc : Emits E c) : Emits E (tcpLoopVisit env c) := by
  have hstop : Emits E (stopTimer c) := hc.congr rfl rfl
  rcases tcpLoopVisit_cases env c with h | ⟨_, h⟩ | ⟨_, h⟩ | ⟨_, _, h⟩
  · rw [h]
    exact hc
  · rw [h]
    exact emits_tcpRetransmit env hE hstop
  · rw [h]
    exact hstop.congr rfl rfl
  · rw [h]
    exact hstop

theorem emits_tcpContructFinAck (hE : Lasting E) (hc : Emits E c)
    (h : c.tcp.txSeg = none → c.tcp.txData = [] → E c.log (finSegment c.tcp)) :
    Emits E (tcpContructFinAck env c) := by
  rcases tcpContructFinAck_cases env c with heq | ⟨hs, hd, hmem⟩
  · rw [heq]
    exact hc
  · have hfin := h hs hd
    let s := packTxSegment (env.malloc .finHeader c.log) (finSegment c.tcp)
    have hseg : (tcpContructFinAck env c).tcp.txSeg = some s := by
      simp [tcpContructFinAck, hs, hd, hmem, s, finSegment]
    have hlog : (tcpContructFinAck env c).log = c.log ++ [.built (finSegment c.tcp)] := by
      simp [tcpContructFinAck, hs, hd, hmem, finSegment]
    refine hc.of_log hE hlog ?_ ?_
    · intro a ha
      rw [List.mem_singleton.1 ha]
      trivial
    · intro s' r hs' hr
      right
      rw [hseg] at hs'
      cases hs'
      rw [packTxSegment_rawData_eq hr]
      exact hfin

/-- `tcp_open` sends a SYN at most. -/
theorem emits_tcpOpenConn (hE : Lasting E) {ip : Netif} {port : UInt32} {dest : Option IpAddr}
    {destPort : UInt16} (h : tcpOpenConn env ip port dest destPort = some c)
    (hsyn : ∀ t : Tcb τ, E [] (newSegment t (tcpGenerateIsn env) 0 segFlagSyn [])) : Emits E c := by
  cases dest with
  | none =>
      rw [tcpOpenConn_passive] at h
      cases h
      refine ⟨each_nil, ?_⟩
      intro s r hs
      cases hs
  | some dest =>
      have hc := tcpOpenConn_some env h
      subst hc
      -- the SYN is put into `tx_seg`, and sent by `tcp_retransmit`
      have hsent : ∀ cb : Conn τ, Emits E cb →
          Emits E { tcpRetransmit env cb with tcp.state := .synSent } :=
        fun cb hcb => (emits_tcpRetransmit env hE hcb).congr rfl rfl
      refine hsent _ ⟨?_, ?_⟩
      · exact each_concat.2 ⟨each_nil, trivial⟩
      · intro s r hs hr
        cases hs
        rw [packTxSegment_rawData_eq hr]
        exact hE [] _ _ (hsyn _)

end Tcp
end DtsNet
