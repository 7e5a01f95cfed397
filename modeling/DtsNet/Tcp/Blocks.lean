import DtsNet.Library.StopAndWait
import DtsNet.Tcp.Endpoint
import DtsNet.Tcp.Sending

/-!
# Blocks — the sending side, buffer by buffer

Each buffer that `tcp_send` accepts becomes one block of `tx_data`, and each block becomes the text of
one segment.  The sending side of an end, with the blocks that its peer has queued, is read as the
state of a stop-and-wait protocol: what the routines do to it are the protocol's steps.  Blocks
without a byte are not counted, and neither are segments without text, which the SYN is.
-/

namespace DtsNet
namespace Tcp

open Ip Dblk History Slices

variable {τ : Type}

/-! ## Reading the record block by block -/

def nonEmpty (bss : List (List Byte)) : List (List Byte) :=
  bss.filter fun bs => !bs.isEmpty

@[simp] theorem nonEmpty_append (l m : List (List Byte)) :
    nonEmpty (l ++ m) = nonEmpty l ++ nonEmpty m :=
  List.filter_append l m

@[simp] theorem nonEmpty_nil : nonEmpty [] = [] := rfl

theorem nonEmpty_singleton {bs : List Byte} (h : bs ≠ []) : nonEmpty [bs] = [bs] := by
  simp [nonEmpty, h]

theorem nonEmpty_singleton_nil : nonEmpty [[]] = [] := rfl

@[simp] theorem flatten_nonEmpty (bss : List (List Byte)) : (nonEmpty bss).flatten = bss.flatten :=
  List.flatten_filter_not_isEmpty

/-- The buffers that `tcp_send` accepted. -/
def acceptedBlocks (log : List Action) : List (List Byte) :=
  nonEmpty (log.filterMap fun
    | .accepted bs => some bs
    | _ => none)

/-- The blocks queued to `rx_data`. -/
def queuedBlocks (log : List Action) : List (List Byte) :=
  nonEmpty (log.filterMap fun
    | .queued bs => some bs
    | _ => none)

/-- The texts of segments. -/
def texts (segs : List Segment) : List (List Byte) :=
  nonEmpty (segs.map Segment.payload)

@[simp] theorem acceptedBlocks_append (l m : List Action) :
    acceptedBlocks (l ++ m) = acceptedBlocks l ++ acceptedBlocks m := by
  simp [acceptedBlocks]

@[simp] theorem queuedBlocks_append (l m : List Action) :
    queuedBlocks (l ++ m) = queuedBlocks l ++ queuedBlocks m := by
  simp [queuedBlocks]

@[simp] theorem texts_append (l m : List Segment) : texts (l ++ m) = texts l ++ texts m := by
  simp [texts]

theorem flatten_acceptedBlocks (log : List Action) :
    (acceptedBlocks log).flatten = acceptedBytes log := by
  rw [acceptedBlocks, flatten_nonEmpty, acceptedBytes]
  induction log with
  | nil =>
      rfl
  | cons a log ih =>
      cases a <;> simp [ih]

theorem flatten_queuedBlocks (log : List Action) : (queuedBlocks log).flatten = queuedBytes log := by
  rw [queuedBlocks, flatten_nonEmpty, queuedBytes]
  induction log with
  | nil =>
      rfl
  | cons a log ih =>
      cases a <;> simp [ih]

theorem ne_nil_of_mem_nonEmpty {bss : List (List Byte)} {bs : List Byte} (h : bs ∈ nonEmpty bss) :
    bs ≠ [] := by
  simpa [nonEmpty] using (List.mem_filter.1 h).2

/-- Where no bytes are queued, no blocks are. -/
theorem queuedBlocks_eq_nil {l : List Action} (h : queuedBytes l = []) : queuedBlocks l = [] := by
  rw [← flatten_queuedBlocks, List.flatten_eq_nil_iff] at h
  refine List.eq_nil_iff_forall_not_mem.2 fun bs hbs => ?_
  exact ne_nil_of_mem_nonEmpty hbs (h bs hbs)

theorem acceptedBlocks_of_neutral {l : List Action} (h : ∀ a ∈ l, a.Neutral) :
    acceptedBlocks l = [] := by
  have hbytes := acceptedBytes_of_neutral h
  rw [← flatten_acceptedBlocks, List.flatten_eq_nil_iff] at hbytes
  refine List.eq_nil_iff_forall_not_mem.2 fun bs hbs => ?_
  exact ne_nil_of_mem_nonEmpty hbs (hbytes bs hbs)

/-- Two lists of blocks with a byte each, one a prefix of the other, differ in their bytes. -/
theorem eq_of_prefix_of_length_flatten {l m : List (List Byte)} (hlm : l <+: m)
    (hm : ∀ bs ∈ m, bs ≠ []) (hlen : l.flatten.length = m.flatten.length) : l = m := by
  rcases hlm with ⟨k, rfl⟩
  have hk : k.flatten = [] := by
    rw [List.flatten_append, List.length_append] at hlen
    exact List.eq_nil_of_length_eq_zero (by omega)
  have hnil : k = [] := by
    refine List.eq_nil_iff_forall_not_mem.2 fun bs hbs => ?_
    exact hm bs (List.mem_append_right l hbs) (List.flatten_eq_nil_iff.1 hk bs hbs)
  rw [hnil, List.append_nil]

/-! ## The exchange -/

/-- The text in `tx_seg`. -/
def pendingText (t : Tcb τ) : Option (List Byte) :=
  (t.txSeg.map fun seg => seg.payload).filter fun bs => !bs.isEmpty

/-- The blocks on their way from one end to the other. -/
def exchange (src dst : Conn τ) : StopAndWait (List Byte) :=
  { acked := texts (completedSegments src.log)
    inFlight := pendingText src.tcp
    waiting := nonEmpty (src.tcp.txData.map Block.bytes)
    rcvd := queuedBlocks dst.log }

theorem toList_pendingText (t : Tcb τ) :
    (pendingText t).toList = nonEmpty ((t.txSeg.map fun seg => seg.payload).toList) := by
  cases hs : t.txSeg with
  | none =>
      simp [pendingText, hs]
  | some seg =>
      by_cases hp : seg.payload = [] <;> simp [pendingText, hs, nonEmpty, Option.filter, hp]

theorem pendingText_none {t : Tcb τ} (hs : t.txSeg = none) : pendingText t = none := by
  simp [pendingText, hs]

theorem pendingText_some {t : Tcb τ} {seg : TxSegment} (hs : t.txSeg = some seg)
    (hp : seg.payload ≠ []) : pendingText t = some seg.payload := by
  simp [pendingText, hs, Option.filter, hp]

theorem flatten_pendingText (t : Tcb τ) : (pendingText t).toList.flatten = pendingBytes t := by
  rw [toList_pendingText, flatten_nonEmpty, pendingBytes]
  cases t.txSeg <;> simp

/-- Every accepted block is in a segment or in `tx_data`. -/
def Lined (c : Conn τ) : Prop :=
  acceptedBlocks c.log = texts (builtSegments c.log) ++ nonEmpty (c.tcp.txData.map Block.bytes)

variable {fits : Prop} {c c' d : Conn τ}

/-- Every text built is completed but the one in `tx_seg`. -/
theorem OpenHistory.texts_eq (h : OpenHistory fits c) :
    texts (builtSegments c.log) =
      texts (completedSegments c.log) ++ (pendingText c.tcp).toList := by
  have hpayload : ∀ segs : List Segment,
      segs.map Segment.payload = (segs.map Segment.identity).map Segment.payload := by
    intro segs
    rw [List.map_map]
    rfl
  rw [toList_pendingText, texts, hpayload, h.completed, List.map_append, ← hpayload, nonEmpty_append]
  cases c.tcp.txSeg <;> rfl

theorem exchange_sent (hopen : OpenHistory fits c) (hlined : Lined c) :
    (exchange c d).sent = acceptedBlocks c.log := by
  rw [hlined, hopen.texts_eq]
  rfl

/-- The number of the first byte that is not acknowledged. -/
theorem Streaming.una_eq {s : Endpoint} (h : Streaming s c) (hopen : OpenHistory fits c)
    (hlined : Lined c) : c.tcp.snd.una = s.sndSeq (exchange c d).acked.flatten.length := by
  rcases h.accepted with ⟨done, haccepted, huna⟩
  have hbytes : acceptedBytes c.log = (exchange c d).acked.flatten ++ pendingBytes c.tcp ++
      waitingBytes c.tcp := by
    rw [← flatten_acceptedBlocks, ← exchange_sent (d := d) hopen hlined, StopAndWait.sent,
      List.flatten_append, List.flatten_append, ← flatten_pendingText]
    simp [exchange, waitingBytes, List.flatMap_def]
  have hlen := congrArg List.length (haccepted.symm.trans hbytes)
  have hdone : done.length = (exchange c d).acked.flatten.length := by
    simp only [List.length_append] at hlen
    omega
  rw [huna, hdone]

/-! ## What a frame does -/

theorem SendFrame.completedSegments_eq (h : SendFrame c c') :
    completedSegments c'.log = completedSegments c.log := by
  rcases h.log with ⟨l, hlog, hl⟩
  simp [hlog, completedSegments_of_neutral hl]

theorem SendFrame.exchange_eq (h : SendFrame c c') : exchange c' d = exchange c d := by
  have hpending : pendingText c'.tcp = pendingText c.tcp := by
    cases hs : c.tcp.txSeg with
    | none =>
        rw [pendingText_none (h.txSeg_eq_none.2 hs), pendingText_none hs]
    | some seg =>
        rcases h.exists_some hs with ⟨seg', hs', hid⟩
        rw [pendingText, pendingText, hs, hs', Option.map_some, Option.map_some,
          Segment.payload_of_identity hid]
  simp only [exchange, h.completedSegments_eq, hpending, h.txData]

theorem SendFrame.lined (h : SendFrame c c') (hc : Lined c) : Lined c' := by
  rcases h.log with ⟨l, hlog, hl⟩
  have haccepted : acceptedBlocks c'.log = acceptedBlocks c.log := by
    simp [hlog, acceptedBlocks_of_neutral hl]
  rw [Lined, haccepted, h.builtSegments, h.txData]
  exact hc

theorem exchange_congr (h : queuedBytes c'.log = queuedBytes c.log) (hlog : c.log <+: c'.log) :
    exchange d c' = exchange d c := by
  rcases hlog with ⟨l, hlog⟩
  have hl : queuedBytes l = [] := by
    rw [← hlog, queuedBytes_append] at h
    simpa using h
  simp [exchange, ← hlog, queuedBlocks_eq_nil hl]

/-! ## What the routines of the sending side do -/

theorem bytes_acceptData {data : List Byte} (hlen : data.length < 65536) :
    (dblkCopyFrom [dblkNodeNewWithBuff data.length] data data.length).bytes = data := by
  simp [dblkCopyFrom_new, Block.bytes, Nat.mod_eq_of_lt hlen, memRead_eq_take]

theorem lined_acceptData (h : Lined c) {data : List Byte} (hlen : data.length < 65536) :
    Lined (acceptData c data) := by
  have hbuilt : builtSegments (acceptData c data).log = builtSegments c.log := by
    simp [acceptData, builtSegments]
  have haccepted : acceptedBlocks (acceptData c data).log =
      acceptedBlocks c.log ++ nonEmpty [data] := by
    simp [acceptData, acceptedBlocks]
  have hwaiting : (acceptData c data).tcp.txData.map Block.bytes =
      c.tcp.txData.map Block.bytes ++ [data] := by
    simp [acceptData, bytes_acceptData hlen]
  rw [Lined, haccepted, hbuilt, hwaiting, nonEmpty_append, ← List.append_assoc, ← h]

theorem exchange_acceptData (c d : Conn τ) {data : List Byte} (hlen : data.length < 65536) :
    StopAndWait.Steps (exchange c d) (exchange (acceptData c data) d) := by
  have hwaiting : (acceptData c data).tcp.txData.map Block.bytes =
      c.tcp.txData.map Block.bytes ++ [data] := by
    simp [acceptData, bytes_acceptData hlen]
  have hexchange : exchange (acceptData c data) d =
      { exchange c d with waiting := (exchange c d).waiting ++ nonEmpty [data] } := by
    simp only [exchange, hwaiting, nonEmpty_append]
    simp [acceptData, completedSegments, pendingText]
  rw [hexchange]
  by_cases hdata : data = []
  · rw [hdata, nonEmpty_singleton_nil, List.append_nil]
  · rw [nonEmpty_singleton hdata]
    exact .single (StopAndWait.Step.accept _ data)

section Construct

variable [TimerLib τ] {env : Env}

theorem lined_ackedConn (h : Lined c) (seg : TxSegment) : Lined (ackedConn c seg) := by
  have hbuilt : builtSegments (ackedConn c seg).log = builtSegments c.log := by
    simp [ackedConn, builtSegments]
  have haccepted : acceptedBlocks (ackedConn c seg).log = acceptedBlocks c.log := by
    simp [ackedConn, acceptedBlocks]
  rw [Lined, haccepted, hbuilt]
  exact h

theorem exchange_ackedConn {seg : TxSegment} (hs : c.tcp.txSeg = some seg) (hp : seg.payload ≠ [])
    (hrcvd : (exchange c d).rcvd = (exchange c d).acked ++ [seg.payload]) :
    StopAndWait.Step (exchange c d) (exchange (ackedConn c seg) d) := by
  have hflight : (exchange c d).inFlight = some seg.payload := pendingText_some hs hp
  have hexchange : exchange (ackedConn c seg) d =
      { exchange c d with acked := (exchange c d).acked ++ [seg.payload], inFlight := none } := by
    simp [exchange, ackedConn, completedSegments, pendingText, texts, nonEmpty_singleton hp]
  rw [hexchange]
  exact StopAndWait.Step.acknowledge _ _ hflight hrcvd

theorem lined_tcpConstructData (hmem : env.AllocOk) (h : Lined c) :
    Lined (tcpConstructData env c) := by
  rcases tcpConstructData_cases env c with heq | ⟨tx, rest, hs, hd⟩
  · rw [heq]
    exact h
  · rcases tcpConstructData_cons env c hmem hs hd with ⟨htcp, sent, hlog⟩
    have hbuilt : builtSegments (tcpConstructData env c).log =
        builtSegments c.log ++ [dataSegment c.tcp tx] := by
      simp [hlog, builtSegments]
    have haccepted : acceptedBlocks (tcpConstructData env c).log = acceptedBlocks c.log := by
      simp [hlog, acceptedBlocks]
    have htexts : texts [dataSegment c.tcp tx] = nonEmpty [tx.bytes] := rfl
    have hsplit : nonEmpty (c.tcp.txData.map Block.bytes) =
        nonEmpty [tx.bytes] ++ nonEmpty (rest.map Block.bytes) := by
      rw [hd, ← nonEmpty_append]
      rfl
    rw [Lined, haccepted, hbuilt, texts_append, htexts, htcp, List.append_assoc, ← hsplit]
    exact h

theorem exchange_tcpConstructData (hmem : env.AllocOk) (c d : Conn τ) :
    StopAndWait.Steps (exchange c d) (exchange (tcpConstructData env c) d) := by
  rcases tcpConstructData_cases env c with heq | ⟨tx, rest, hs, hd⟩
  · rw [heq]
  · rcases tcpConstructData_cons env c hmem hs hd with ⟨htcp, sent, hlog⟩
    have hcompleted : completedSegments (tcpConstructData env c).log = completedSegments c.log := by
      simp [hlog, completedSegments]
    have hnone : (exchange c d).inFlight = none := pendingText_none hs
    by_cases hp : tx.bytes = []
    · -- such a block has left `tx_data` without being counted
      have hexchange : exchange (tcpConstructData env c) d = exchange c d := by
        simp [exchange, hcompleted, htcp, pendingText, hs, hd, hp, dataSegment, nonEmpty]
      rw [hexchange]
    · have hwaiting : (exchange c d).waiting = tx.bytes :: nonEmpty (rest.map Block.bytes) := by
        simp [exchange, hd, nonEmpty, hp]
      have hexchange : exchange (tcpConstructData env c) d =
          { exchange c d with
            inFlight := some tx.bytes
            waiting := nonEmpty (rest.map Block.bytes) } := by
        simp [exchange, hcompleted, htcp, pendingText, dataSegment, Option.filter, hp]
      rw [hexchange]
      exact .single (StopAndWait.Step.transmit _ _ _ hnone hwaiting)

theorem lined_tcpTxSegComplete (h : Lined c) (ack : UInt32) : Lined (tcpTxSegComplete c ack) := by
  cases hs : c.tcp.txSeg with
  | none =>
      simpa [tcpTxSegComplete, hs] using h
  | some seg =>
      have hbuilt : builtSegments (tcpTxSegComplete c ack).log = builtSegments c.log := by
        simp [tcpTxSegComplete, hs, builtSegments]
      have haccepted : acceptedBlocks (tcpTxSegComplete c ack).log = acceptedBlocks c.log := by
        simp [tcpTxSegComplete, hs, acceptedBlocks]
      rw [Lined, haccepted, hbuilt, tcpTxSegComplete_txData]
      exact h

/-- The SYN has no text. -/
theorem exchange_tcpTxSegComplete {seg : TxSegment} (hs : c.tcp.txSeg = some seg)
    (hp : seg.payload = []) (ack : UInt32) : exchange (tcpTxSegComplete c ack) d = exchange c d := by
  rw [tcpTxSegComplete_some c hs]
  simp [exchange, completedSegments, texts, pendingText, hs, hp, nonEmpty, Option.filter]

end Construct

/-! ## The numbers of the texts -/

/-- Text that is sent is a block built before, at the number behind the blocks before it. -/
def Numbered (s : Endpoint) (log : List Action) (seg : Segment) : Prop :=
  seg.payload ≠ [] → ∃ pre, pre ++ [seg.payload] <+: texts (builtSegments log) ∧
    seg.seq = s.sndSeq pre.flatten.length

variable {s : Endpoint}

theorem lasting_numbered (s : Endpoint) : Lasting (Numbered s) := by
  intro log l seg h hp
  rcases h hp with ⟨pre, hpre, hseq⟩
  rw [builtSegments_append, texts_append]
  exact ⟨pre, hpre.trans (List.prefix_append _ _), hseq⟩

theorem numbered_of_bare (s : Endpoint) (log : List Action) {seg : Segment} (h : seg.payload = []) :
    Numbered s log seg :=
  fun hp => absurd h hp

theorem numbered_dataSegment (h : Streaming s c) (hopen : OpenHistory fits c) (hlined : Lined c)
    (hs : c.tcp.txSeg = none) (tx : Block) :
    Numbered s (c.log ++ [.built (dataSegment c.tcp tx)]) (dataSegment c.tcp tx) := by
  intro hp
  have hbuilt : texts (builtSegments c.log) = texts (completedSegments c.log) := by
    rw [hopen.texts_eq, pendingText_none hs]
    exact List.append_nil _
  refine ⟨texts (builtSegments c.log), ?_, ?_⟩
  · have htexts : texts (builtSegments (c.log ++ [.built (dataSegment c.tcp tx)])) =
        texts (builtSegments c.log) ++ nonEmpty [(dataSegment c.tcp tx).payload] := by
      simp [builtSegments, texts]
    rw [htexts, nonEmpty_singleton hp]
  · have huna := h.una_eq (d := c) hopen hlined
    rw [hbuilt]
    exact huna

section Emits

variable [TimerLib τ] {env : Env} {E : List Action → Segment → Prop}

/-- The segment is recorded as built before it goes out. -/
theorem emits_tcpConstructData_built (hE : Lasting E) (hmem : env.AllocOk) (hc : Emits E c)
    (h : ∀ tx rest, c.tcp.txSeg = none → c.tcp.txData = tx :: rest →
      E (c.log ++ [.built (dataSegment c.tcp tx)]) (dataSegment c.tcp tx)) :
    Emits E (tcpConstructData env c) := by
  rcases tcpConstructData_cases env c with heq | ⟨tx, rest, hs, hd⟩
  · rw [heq]
    exact hc
  · have hdata := h tx rest hs hd
    rcases tcpConstructData_cons env c hmem hs hd with ⟨htcp, sent, hlog⟩
    have hbuilt : Emits E ({ tcp := (tcpConstructData env c).tcp
                             log := c.log ++ [.built (dataSegment c.tcp tx)] } : Conn τ) := by
      refine ⟨each_concat.2 ⟨hc.log, trivial⟩, ?_⟩
      intro seg raw hseg hraw
      have heq : seg = packTxSegment true (dataSegment c.tcp tx) := by
        simpa [htcp] using hseg.symm
      rw [heq, packTxSegment_rawData] at hraw
      cases hraw
      exact hdata
    refine hbuilt.of_keep hE rfl (l := [.output (some (connDatagram c.tcp (dataSegment c.tcp tx))) sent])
      (by simp [hlog]) ?_
    intro a ha
    rw [List.mem_singleton.1 ha]
    exact hdata

/-- In a state before `tcp_close`, for an `E` that every segment without text meets. -/
theorem emits_tcpReceived_of_bare (hE : Lasting E) (hbare : ∀ log seg, seg.payload = [] → E log seg)
    (hmem : env.AllocOk) (hc : Emits E c)
    (hst : c.tcp.state = .listen ∨ c.tcp.state = .synSent ∨ c.tcp.state = .synReceived ∨
      c.tcp.state = .established) (seg : Received)
    (hdata : ∀ pending tx rest, c.tcp.state = .established → c.tcp.txSeg = some pending →
      c.tcp.txData = tx :: rest →
        E ((ackedConn c pending).log ++ [.built (dataSegment (ackedConn c pending).tcp tx)])
          (dataSegment (ackedConn c pending).tcp tx)) :
    Emits E (tcpReceived env c seg) := by
  rcases hst with hst | hst | hst | hst
  · have hreceived : tcpReceived env c seg = receivedWhenListen env c seg := by
      simp [tcpReceived, hst, receivedEventProcess]
    rw [hreceived]
    exact emits_receivedWhenListen env hE hc seg (hbare _ _ rfl) fun _ => hbare _ _ rfl
  · have hreceived : tcpReceived env c seg = receivedWhenSynSent env c seg := by
      simp [tcpReceived, hst, receivedEventProcess]
    rw [hreceived]
    rcases receivedWhenSynSent_cases env c seg with
        h | ⟨_, _, _, h⟩ | ⟨_, _, ⟨_, h⟩ | ⟨_, _, _, h⟩⟩
    · rw [h]
      exact hc
    · rw [h]
      exact emits_tcpSendCtrlSeg env hE hc (hbare _ _ rfl)
    · rw [h]
      exact hc.congr rfl rfl
    · rw [h]
      exact emits_synAckReply env hE hc seg fun _ => hbare _ _ rfl
  · have hreceived : tcpReceived env c seg = receivedWhenSynReceived env c seg := by
      simp [tcpReceived, hst, receivedEventProcess]
    rw [hreceived]
    cases hacc : seqAccepted c.tcp seg.toSegment with
    | false =>
        rw [receivedWhenSynReceived_of_rejected env c hacc]
        exact emits_processReceivedSeq env hE hc seg (hbare _ _ rfl)
    | true =>
        cases hR : segCtrlR seg.toSegment with
        | true =>
            rw [receivedWhenSynReceived_of_rst env c hacc hR]
            exact hc.congr rfl rfl
        | false =>
            cases hA : segCtrlA seg.toSegment with
            | false =>
                rw [receivedWhenSynReceived_of_no_ack env c hacc hR hA]
                exact hc
            | true =>
                have hack := emits_ackSynReceived env hE hc seg (hbare _ _ rfl)
                rw [receivedWhenSynReceived_of_ack env c hacc hR hA]
                split
                · exact hack.congr rfl rfl
                · exact hack
  · have hreceived : tcpReceived env c seg = receivedWhenEstablished env c seg := by
      simp [tcpReceived, hst, receivedEventProcess]
    rw [hreceived]
    cases hacc : seqAccepted c.tcp seg.toSegment with
    | false =>
        rw [receivedWhenEstablished_of_rejected env c hacc]
        exact emits_processReceivedSeq env hE hc seg (hbare _ _ rfl)
    | true =>
        by_cases hRA : segCtrlR seg.toSegment = true ∨ segCtrlA seg.toSegment = false
        · rw [receivedWhenEstablished_of_ignored env c hacc hRA]
          exact hc
        · rw [not_or, Bool.not_eq_true, Bool.not_eq_false] at hRA
          have hack : Emits E (ackEstablished env c seg) := by
            rcases ackEstablished_cases env c seg with ⟨hsame, _⟩ | ⟨pending, hs, _, _, hacked⟩
            · rw [hsame]
              exact hc
            · rw [hacked]
              exact emits_tcpConstructData_built hE hmem (emits_ackedConn hE hc pending)
                fun tx rest _ hd => hdata pending tx rest hst hs hd
          have htext : Emits E (textEstablished env c seg) :=
            emits_tcpHandleData env hE hack seg fun _ _ => hbare _ _ rfl
          rw [receivedWhenEstablished_of_ack env c hacc hRA.1 hRA.2]
          split
          · exact (emits_tcpHandleFinAck env hE htext seg fun _ => hbare _ _ rfl).congr rfl rfl
          · exact htext

end Emits

end Tcp
end DtsNet
