import DtsNet.Tcp.Spec

/-!
# Frame — routines that leave the sending side alone

Most of what a handler does concerns the receiving side or only emits a segment.  `SendFrame c c'`
collects what such a routine leaves as it was: the queue of unsent blocks, and `tx_seg` up to its
acknowledgment number, which `tcp_handle_data` keeps current.  The state may change.
-/

namespace DtsNet
namespace Tcp

open Ip Dblk

/-! ## Records of the sending side -/

/-- A segment without its acknowledgment number. -/
def Segment.identity (seg : Segment) : Segment :=
  { seg with ack := 0 }

theorem Segment.flags_of_identity {seg seg' : Segment} (h : seg'.identity = seg.identity) :
    seg'.flags = seg.flags := by
  simpa [identity] using congrArg Segment.flags h

theorem Segment.payload_of_identity {seg seg' : Segment} (h : seg'.identity = seg.identity) :
    seg'.payload = seg.payload := by
  simpa [identity] using congrArg Segment.payload h

theorem Segment.dataOffset_of_identity {seg seg' : Segment} (h : seg'.identity = seg.identity) :
    seg'.dataOffset = seg.dataOffset := by
  simpa [identity] using congrArg Segment.dataOffset h

theorem Segment.seq_of_identity {seg seg' : Segment} (h : seg'.identity = seg.identity) :
    seg'.seq = seg.seq := by
  simpa [identity] using congrArg Segment.seq h

/-- Actions that say nothing about `tx_seg` or `tx_data`. -/
def Action.Neutral : Action → Prop
  | .output _ _ => True
  | .queued _ => True
  | .returned _ => True
  | .built _ => False
  | .completed _ _ _ => False
  | .accepted _ => False

def builtSegments (log : List Action) : List Segment :=
  log.filterMap fun
    | .built seg => some seg
    | _ => none

def completedSegments (log : List Action) : List Segment :=
  log.filterMap fun
    | .completed seg _ _ => some seg
    | _ => none

@[simp] theorem builtSegments_append (l m : List Action) :
    builtSegments (l ++ m) = builtSegments l ++ builtSegments m := by
  simp [builtSegments]

@[simp] theorem completedSegments_append (l m : List Action) :
    completedSegments (l ++ m) = completedSegments l ++ completedSegments m := by
  simp [completedSegments]

theorem mem_builtSegments {log : List Action} {seg : Segment} :
    seg ∈ builtSegments log ↔ .built seg ∈ log := by
  simp only [builtSegments, List.mem_filterMap]
  constructor
  · rintro ⟨a, ha, h⟩
    cases a <;> simp_all
  · intro h
    exact ⟨_, h, rfl⟩

section Neutral

variable {l : List Action} (h : ∀ a ∈ l, a.Neutral)

include h

theorem builtSegments_of_neutral : builtSegments l = [] := by
  rw [builtSegments, List.filterMap_eq_nil_iff]
  intro a ha
  have := h a ha
  cases a <;> simp_all [Action.Neutral]

theorem completedSegments_of_neutral : completedSegments l = [] := by
  rw [completedSegments, List.filterMap_eq_nil_iff]
  intro a ha
  have := h a ha
  cases a <;> simp_all [Action.Neutral]

theorem acceptedBytes_of_neutral : acceptedBytes l = [] := by
  rw [acceptedBytes, List.flatMap_eq_nil_iff]
  intro a ha
  have := h a ha
  cases a <;> simp_all [Action.Neutral]

end Neutral

/-! ## The frame -/

variable {τ : Type}

structure SendFrame (c c' : Conn τ) : Prop where
  passive : c'.tcp.passive = c.tcp.passive
  txData : c'.tcp.txData = c.tcp.txData
  txSeg : c'.tcp.txSeg.map (fun seg => seg.toSegment.identity) =
    c.tcp.txSeg.map fun seg => seg.toSegment.identity
  rawData : c'.tcp.txSeg.map TxSegment.rawData = c.tcp.txSeg.map TxSegment.rawData
  log : ∃ l, c'.log = c.log ++ l ∧ ∀ a ∈ l, a.Neutral

namespace SendFrame

theorem refl (c : Conn τ) : SendFrame c c :=
  ⟨rfl, rfl, rfl, rfl, [], by simp, by simp⟩

theorem trans {c₁ c₂ c₃ : Conn τ} (h₁ : SendFrame c₁ c₂) (h₂ : SendFrame c₂ c₃) :
    SendFrame c₁ c₃ := by
  rcases h₁.log with ⟨l₁, hlog₁, hl₁⟩
  rcases h₂.log with ⟨l₂, hlog₂, hl₂⟩
  refine ⟨h₂.passive.trans h₁.passive, h₂.txData.trans h₁.txData, h₂.txSeg.trans h₁.txSeg,
    h₂.rawData.trans h₁.rawData, l₁ ++ l₂, by simp [hlog₂, hlog₁], ?_⟩
  intro a ha
  rcases List.mem_append.1 ha with ha | ha
  · exact hl₁ a ha
  · exact hl₂ a ha

/-- A change of the control block outside the sending side, with one more neutral action. -/
theorem of_concat {c c' : Conn τ} (hpassive : c'.tcp.passive = c.tcp.passive)
    (htxData : c'.tcp.txData = c.tcp.txData) (htxSeg : c'.tcp.txSeg = c.tcp.txSeg) {a : Action}
    (hlog : c'.log = c.log ++ [a]) (ha : a.Neutral) : SendFrame c c' :=
  ⟨hpassive, htxData, by rw [htxSeg], by rw [htxSeg], [a], hlog, by simpa using ha⟩

/-- A change of the control block outside the sending side. -/
theorem of_log {c c' : Conn τ} (hpassive : c'.tcp.passive = c.tcp.passive)
    (htxData : c'.tcp.txData = c.tcp.txData) (htxSeg : c'.tcp.txSeg = c.tcp.txSeg)
    (hlog : c'.log = c.log) : SendFrame c c' :=
  ⟨hpassive, htxData, by rw [htxSeg], by rw [htxSeg], [], by simp [hlog], by simp⟩

theorem txSeg_eq_none {c c' : Conn τ} (h : SendFrame c c') :
    c'.tcp.txSeg = none ↔ c.tcp.txSeg = none := by
  have := h.txSeg
  cases h₁ : c.tcp.txSeg <;> cases h₂ : c'.tcp.txSeg <;> simp_all

theorem exists_of_some {c c' : Conn τ} (h : SendFrame c c') {seg' : TxSegment}
    (hs : c'.tcp.txSeg = some seg') :
    ∃ seg, c.tcp.txSeg = some seg ∧ seg'.toSegment.identity = seg.toSegment.identity := by
  have := h.txSeg
  cases h₁ : c.tcp.txSeg with
  | none =>
      simp [hs, h₁] at this
  | some seg =>
      exact ⟨seg, rfl, by simpa [hs, h₁] using this⟩

theorem exists_some {c c' : Conn τ} (h : SendFrame c c') {seg : TxSegment}
    (hs : c.tcp.txSeg = some seg) :
    ∃ seg', c'.tcp.txSeg = some seg' ∧ seg'.toSegment.identity = seg.toSegment.identity := by
  have := h.txSeg
  cases h₁ : c'.tcp.txSeg with
  | none =>
      simp [hs, h₁] at this
  | some seg' =>
      exact ⟨seg', rfl, by simpa [hs, h₁] using this⟩

theorem acceptedBytes_eq {c c' : Conn τ} (h : SendFrame c c') :
    acceptedBytes c'.log = acceptedBytes c.log := by
  rcases h.log with ⟨l, hlog, hl⟩
  simp [hlog, acceptedBytes_of_neutral hl]

/-- The header buffer is not written again. -/
theorem rawData_eq {c c' : Conn τ} (h : SendFrame c c') {seg seg' : TxSegment}
    (hs : c.tcp.txSeg = some seg) (hs' : c'.tcp.txSeg = some seg') : seg'.rawData = seg.rawData := by
  simpa [hs, hs'] using h.rawData

end SendFrame

/-! ## The routines that respect it -/

variable (env : Env) (c : Conn τ)

theorem sendFrame_setState (st : State) : SendFrame c { c with tcp.state := st } :=
  .of_log rfl rfl rfl rfl

theorem sendFrame_tcpSendCtrlSeg_ack (seq ack : UInt32) :
    SendFrame c (tcpSendCtrlSeg env c seq ack segFlagAck).1 := by
  have htcp := tcpSendCtrlSeg_ack_tcp env c seq ack
  exact .of_concat (by rw [htcp]) (by rw [htcp]) (by rw [htcp])
    (tcpSendCtrlSeg_log env c seq ack _) trivial

theorem sendFrame_tcpSendCtrlSeg_rst (seq ack : UInt32) :
    SendFrame c (tcpSendCtrlSeg env c seq ack segFlagRst).1 := by
  have htcp := tcpSendCtrlSeg_rst_tcp env c seq ack
  exact .of_concat (by rw [htcp]) (by rw [htcp]) (by rw [htcp])
    (tcpSendCtrlSeg_log env c seq ack _) trivial

theorem sendFrame_processReceivedSeq (seg : Received) :
    SendFrame c (processReceivedSeq env c seg).1 := by
  cases h : seqAccepted c.tcp seg.toSegment with
  | true =>
      rw [processReceivedSeq_of_accepted env c h]
      exact .refl c
  | false =>
      rcases (processReceivedSeq_of_rejected env c h).2 with h | ⟨_, h⟩
      · rw [h]
        exact .refl c
      · rw [h]
        exact sendFrame_tcpSendCtrlSeg_ack env c _ _

theorem sendFrame_tcpHandleData (dat : Received) :
    SendFrame c (tcpHandleData env c dat).1 := by
  rcases tcpHandleData_cases env c dat with ⟨h, _⟩ | ⟨_, _, htcp, l, hlog, hl⟩
  · rw [h]
    exact .refl c
  · have hid : (tcpHandleData env c dat).1.tcp.txSeg.map (fun seg => seg.toSegment.identity) =
        c.tcp.txSeg.map fun seg => seg.toSegment.identity := by
      rw [htcp]
      cases hs : c.tcp.txSeg <;> simp [takeText, hs, Segment.identity]
    have hraw : (tcpHandleData env c dat).1.tcp.txSeg.map TxSegment.rawData =
        c.tcp.txSeg.map TxSegment.rawData := by
      rw [htcp]
      cases hs : c.tcp.txSeg <;> simp [takeText, hs]
    refine ⟨by rw [htcp, takeText], by rw [htcp, takeText], hid, hraw, _,
      by rw [hlog, List.append_assoc], ?_⟩
    intro a ha
    rcases List.mem_append.1 ha with ha | ha
    · have : a = .queued (textBytes c.tcp dat) := by simpa using ha
      rw [this]
      trivial
    · rcases hl with rfl | ⟨sent, rfl⟩
      · simp at ha
      · rw [List.mem_singleton.1 ha]
        trivial

theorem sendFrame_tcpHandleFinAck (seg : Received) :
    SendFrame c (tcpHandleFinAck env c seg).1 := by
  cases h : sncmp c.tcp.snd.una .ls seg.ack .le c.tcp.snd.nxt with
  | false =>
      rw [tcpHandleFinAck_of_not env c h]
      exact .refl c
  | true =>
      rcases tcpHandleFinAck_of env c h with ⟨htcp, sent, hlog⟩
      exact .of_concat (by rw [htcp, takeFin]) (by rw [htcp, takeFin]) (by rw [htcp, takeFin])
        hlog trivial

theorem sendFrame_recvEvent (data : List Byte) (size : ℕ) :
    SendFrame c (recvEvent c data size) := by
  have h : ∀ r : Conn τ × List Byte × ℕ, SendFrame c r.1 →
      SendFrame c { r.1 with log := r.1.log ++ [Action.returned (memRead r.2.1 r.2.2)] } := by
    intro r hr
    exact hr.trans (.of_concat rfl rfl rfl rfl trivial)
  apply h
  unfold tcpRecv
  cases c.tcp.state
  case established =>
      exact .of_log rfl rfl rfl rfl
  all_goals exact .refl c

variable [TimerLib τ]

theorem sendFrame_tcpRetransmit : SendFrame c (tcpRetransmit env c) := by
  have htcp := tcpRetransmit_tcp env c
  rcases tcpRetransmit_log env c with hlog | ⟨seg, sent, _, hlog⟩
  · exact .of_log (by rw [htcp]) (by rw [htcp]) (by rw [htcp]) hlog
  · exact .of_concat (by rw [htcp]) (by rw [htcp]) (by rw [htcp]) hlog trivial

end Tcp
end DtsNet
