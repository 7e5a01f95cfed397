import DtsNet.Tcp.Queue

/-!
# Reading — what `tcp_recv` returns

Over a run, the bytes returned and the bytes still unread should make up the bytes queued.  The
loop of `recv_when_established` reads every block to the start of the caller's buffer, and only
ESTABLISHED has a handler for `tcp_recv`; `RecvOk` keeps a call away from both.
-/

namespace DtsNet
namespace Tcp

open Ip Dblk

variable {τ : Type}

/-! ## One call -/

def queueUnread (q : List Block) : List Byte :=
  q.flatMap Block.unread

/-- The unread bytes of the first block that has any. -/
def headUnread : List Block → List Byte
  | [] => []
  | b :: q => if b.unread = [] then headUnread q else b.unread

/-- The blocks of `rx_data` are single nodes. -/
def Singles (q : List Block) : Prop :=
  ∀ b ∈ q, ∃ n, b = [n]

/-- A read of `size` bytes stays within one block. -/
def WithinBlock (q : List Block) (size : ℕ) : Prop :=
  size ≤ (headUnread q).length ∨ queueUnread q = headUnread q

theorem queueUnread_cons (n : Node) (q : List Block) :
    queueUnread ([n] :: q) = n.unread ++ queueUnread q := by
  simp [queueUnread, Block.unread]

theorem headUnread_cons (n : Node) (q : List Block) :
    headUnread ([n] :: q) = if n.unread = [] then headUnread q else n.unread := by
  simp [headUnread, Block.unread]

@[simp] theorem memWrite_nil (mem : List Byte) : memWrite mem [] = mem := by
  simp [memWrite]

/-- Blocks without unread bytes are dropped. -/
theorem recvLoop_of_nil {q : List Block} (hq : Singles q) (hnil : queueUnread q = [])
    (data : List Byte) {size doneSize : ℕ} (hlt : doneSize < size) :
    recvLoop q data size doneSize = ([], data, doneSize) := by
  induction q with
  | nil =>
      rfl
  | cons b q ih =>
      rcases hq b (by simp) with ⟨n, rfl⟩
      rw [queueUnread_cons, List.append_eq_nil_iff] at hnil
      have hpos : 0 < size - doneSize := by omega
      have hread := dblkRead_single n data hpos
      have hrest := ih (fun b hb => hq b (by simp [hb])) hnil.2
      simp only [hnil.1, List.take_nil, memWrite_nil, List.length_nil, Nat.min_zero] at hread
      simp only [recvLoop, hlt, if_true, hread]
      rw [if_pos hpos]
      exact hrest

section Head

variable (n : Node) {q : List Block} (data : List Byte) {size : ℕ} (hsize : 0 < size)

include hsize

theorem recvLoop_skip (hn : n.unread = []) :
    recvLoop ([n] :: q) data size 0 = recvLoop q data size 0 := by
  have hread := dblkRead_single n data hsize
  simp only [hn, List.take_nil, memWrite_nil, List.length_nil, Nat.min_zero] at hread
  simp [recvLoop, hsize, hread]

/-- The call is served from the first block alone. -/
theorem recvLoop_head (hlen : size ≤ n.unread.length) :
    recvLoop ([n] :: q) data size 0 =
      ([{ n with offset := n.offset + size }] :: q, memWrite data (n.unread.take size), size) := by
  have hread := dblkRead_single n data hsize
  have hmin : min size n.unread.length = size := Nat.min_eq_left hlen
  simp [recvLoop, hsize, hread, hmin]

/-- The first block is read to its end, and the others have nothing to add. -/
theorem recvLoop_last (hq : Singles q) (hrest : queueUnread q = [])
    (hlt : n.unread.length < size) :
    recvLoop ([n] :: q) data size 0 = ([], memWrite data n.unread, n.unread.length) := by
  have hread := dblkRead_single n data hsize
  have hmin : min size n.unread.length = n.unread.length := Nat.min_eq_right (Nat.le_of_lt hlt)
  have htake : n.unread.take size = n.unread := List.take_of_length_le (Nat.le_of_lt hlt)
  rw [← recvLoop_of_nil hq hrest (memWrite data n.unread) hlt]
  simp [recvLoop, hsize, hread, hmin, htake, hlt]

end Head

/-- What a call that stays within one block leaves and returns. -/
structure Reads (q : List Block) (size : ℕ) (r : List Block × List Byte × ℕ) : Prop where
  singles : Singles r.1
  left : queueUnread r.1 = (queueUnread q).drop size
  returned : r.2.2 = min size (queueUnread q).length
  data : memRead r.2.1 r.2.2 = (queueUnread q).take size

theorem reads_zero {q : List Block} (hq : Singles q) (data : List Byte) :
    Reads q 0 (recvLoop q data 0 0) := by
  have hloop : recvLoop q data 0 0 = (q, data, 0) := by
    cases q <;> simp [recvLoop]
  rw [hloop]
  exact ⟨hq, by simp, by simp, by simp [memRead]⟩

theorem reads_head (n : Node) {q : List Block} (hq : Singles q) (data : List Byte) {size : ℕ}
    (hsize : 0 < size) (hlen : size ≤ n.unread.length) :
    Reads ([n] :: q) size (recvLoop ([n] :: q) data size 0) := by
  have hdrop : Node.unread { n with offset := n.offset + size } = n.unread.drop size := by
    simp [Node.unread, Nat.add_comm]
  have htake : (n.unread.take size).length = size := by simp [hlen]
  rw [recvLoop_head n data hsize hlen]
  refine ⟨?_, ?_, ?_, ?_⟩
  · intro b hb
    rcases List.mem_cons.1 hb with rfl | hb
    · exact ⟨_, rfl⟩
    · exact hq b hb
  · rw [queueUnread_cons, queueUnread_cons, hdrop, List.drop_append_of_le_length hlen]
  · have hle : size ≤ (queueUnread ([n] :: q)).length := by
      simp [queueUnread_cons]
      omega
    exact (Nat.min_eq_left hle).symm
  · rw [queueUnread_cons, List.take_append_of_le_length hlen]
    simpa [htake] using memRead_memWrite data (n.unread.take size)

theorem reads_last (n : Node) {q : List Block} (hq : Singles q) (hrest : queueUnread q = [])
    (data : List Byte) {size : ℕ} (hlt : n.unread.length < size) :
    Reads ([n] :: q) size (recvLoop ([n] :: q) data size 0) := by
  have hsize : 0 < size := Nat.lt_of_le_of_lt (Nat.zero_le _) hlt
  have hunread : queueUnread ([n] :: q) = n.unread := by
    rw [queueUnread_cons, hrest, List.append_nil]
  rw [recvLoop_last n data hsize hq hrest hlt]
  refine ⟨?_, ?_, ?_, ?_⟩
  · intro b hb
    simp at hb
  · rw [hunread, List.drop_of_length_le (Nat.le_of_lt hlt)]
    rfl
  · rw [hunread]
    exact (Nat.min_eq_right (Nat.le_of_lt hlt)).symm
  · rw [hunread, List.take_of_length_le (Nat.le_of_lt hlt)]
    exact memRead_memWrite data n.unread

theorem recvLoop_reads {q : List Block} (hq : Singles q) {size : ℕ} (hfit : WithinBlock q size)
    (data : List Byte) : Reads q size (recvLoop q data size 0) := by
  rcases Nat.eq_zero_or_pos size with rfl | hsize
  · exact reads_zero hq data
  · induction q with
    | nil =>
        exact ⟨hq, by simp [recvLoop, queueUnread], by simp [recvLoop, queueUnread],
          by simp [recvLoop, queueUnread, memRead]⟩
    | cons b q ih =>
        rcases hq b (by simp) with ⟨n, rfl⟩
        have hq' : Singles q := fun b hb => hq b (by simp [hb])
        by_cases hn : n.unread = []
        · have hunread : queueUnread ([n] :: q) = queueUnread q := by
            simp [queueUnread_cons, hn]
          have hfit' : WithinBlock q size := by
            simpa [WithinBlock, hunread, headUnread_cons, hn] using hfit
          rcases ih hq' hfit' with ⟨hsingles, hleft, hreturned, hdata⟩
          rw [recvLoop_skip n data hsize hn]
          exact ⟨hsingles, by rw [hunread, hleft], by rw [hunread, hreturned],
            by rw [hunread, hdata]⟩
        · rw [WithinBlock, queueUnread_cons, headUnread_cons, if_neg hn] at hfit
          by_cases hlen : size ≤ n.unread.length
          · exact reads_head n hq' data hsize hlen
          · have hrest : queueUnread q = [] := by
              rcases hfit with hfit | hfit
              · exact absurd hfit hlen
              · simpa using hfit
            exact reads_last n hq' hrest data (Nat.lt_of_not_le hlen)

/-! ## The invariant -/

/-- What was returned and what is unread is what was queued. -/
structure ReadInv (c : Conn τ) : Prop where
  singles : Singles c.tcp.rxData
  queued : returnedBytes c.log ++ queueUnread c.tcp.rxData = queuedBytes c.log

/-- A call for bytes comes in ESTABLISHED and stays within one block, or finds nothing unread. -/
def RecvOk (c : Conn τ) : Event → Prop
  | .recv _ size =>
      0 < size →
        if c.tcp.state = .established then WithinBlock c.tcp.rxData size
        else queueUnread c.tcp.rxData = []
  | _ => True

theorem queueUnread_freshBlock (bss : List (List Byte)) :
    queueUnread (bss.map freshBlock) = bss.flatten := by
  induction bss with
  | nil =>
      rfl
  | cons bs bss ih =>
      rw [List.map_cons, freshBlock, queueUnread_cons, ih]
      simp [Node.unread]

/-- Blocks that are queued are unread. -/
theorem QueueMove.readInv {bss : List (List Byte)} {c c' : Conn τ} (h : QueueMove bss c c')
    (hc : ReadInv c) : ReadInv c' := by
  rcases h.log with ⟨l, hlog, hq, hr⟩
  refine ⟨?_, ?_⟩
  · intro b hb
    rw [h.rxData] at hb
    rcases List.mem_append.1 hb with hb | hb
    · exact hc.singles b hb
    · rcases List.mem_map.1 hb with ⟨bs, _, rfl⟩
      exact ⟨_, rfl⟩
  · have hunread : queueUnread c'.tcp.rxData = queueUnread c.tcp.rxData ++ bss.flatten := by
      rw [h.rxData, ← queueUnread_freshBlock]
      simp [queueUnread]
    calc
      returnedBytes c'.log ++ queueUnread c'.tcp.rxData
          = returnedBytes c.log ++ queueUnread c.tcp.rxData ++ bss.flatten := by
            simp [hlog, hr, hunread]
      _ = queuedBytes c.log ++ bss.flatten := by rw [hc.queued]
      _ = queuedBytes c'.log := by simp [hlog, hq]

/-- What one call returns. -/
theorem readInv_recvEvent {c : Conn τ} {data : List Byte} {size : ℕ} (hc : ReadInv c)
    (hok : RecvOk c (.recv data size)) :
    ReadInv (recvEvent c data size) ∧
      (0 < size → (tcpRecv c data size).2.2 < size →
        queueUnread (recvEvent c data size).tcp.rxData = []) := by
  by_cases hst : c.tcp.state = .established
  · have hrecv : tcpRecv c data size = recvWhenEstablished c data size := by
      simp [tcpRecv, hst, recvEventProcess]
    have hfit : WithinBlock c.tcp.rxData size := by
      rcases Nat.eq_zero_or_pos size with rfl | hsize
      · exact Or.inl (Nat.zero_le _)
      · simpa [hst] using hok hsize
    rcases recvLoop_reads hc.singles hfit data with ⟨hsingles, hleft, hreturned, hdata⟩
    have hrx : (recvEvent c data size).tcp.rxData = (recvLoop c.tcp.rxData data size 0).1 := by
      simp [recvEvent, hrecv, recvWhenEstablished]
    have hlog : (recvEvent c data size).log =
        c.log ++ [.returned ((queueUnread c.tcp.rxData).take size)] := by
      simp [recvEvent, hrecv, recvWhenEstablished, hdata]
    have hsplit : (queueUnread c.tcp.rxData).take size ++
        queueUnread (recvEvent c data size).tcp.rxData = queueUnread c.tcp.rxData := by
      rw [hrx, hleft, List.take_append_drop]
    refine ⟨⟨?_, ?_⟩, ?_⟩
    · rw [hrx]
      exact hsingles
    · calc
        returnedBytes (recvEvent c data size).log ++ queueUnread (recvEvent c data size).tcp.rxData
            = returnedBytes c.log ++ ((queueUnread c.tcp.rxData).take size ++
                queueUnread (recvEvent c data size).tcp.rxData) := by
              simp [hlog, returnedBytes]
        _ = queuedBytes c.log := by rw [hsplit, hc.queued]
        _ = queuedBytes (recvEvent c data size).log := by simp [hlog, queuedBytes]
    · intro _ hlt
      have hshort : (recvLoop c.tcp.rxData data size 0).2.2 < size := by
        simpa [hrecv, recvWhenEstablished] using hlt
      rw [hrx, hleft]
      refine List.drop_of_length_le ?_
      omega
  · have hrecv : tcpRecv c data size = (c, data, 0) := by
      cases h : c.tcp.state with
      | established =>
          exact absurd h hst
      | _ =>
          simp [tcpRecv, h, recvEventProcess]
    have hevent : recvEvent c data size = { c with log := c.log ++ [.returned []] } := by
      simp [recvEvent, hrecv, memRead]
    rw [hevent]
    refine ⟨⟨hc.singles, ?_⟩, ?_⟩
    · simpa [returnedBytes, queuedBytes] using hc.queued
    · intro hsize _
      simpa [hst] using hok hsize

/-! ## Runs -/

variable [TimerLib τ]

theorem readInv_step {c : Conn τ} {e : Event} (hc : ReadInv c) (hok : RecvOk c e) :
    ReadInv (step c e) := by
  by_cases he : ∃ data size, e = .recv data size
  · rcases he with ⟨data, size, rfl⟩
    exact (readInv_recvEvent hc hok).1
  · have hne : ∀ data size, e ≠ .recv data size := fun data size h => he ⟨data, size, h⟩
    rcases queueMove_step c hne with ⟨bss, hmove⟩
    exact hmove.readInv hc

theorem readInv_opened {c : Conn τ} (hc : Opened c) : ReadInv c := by
  rcases hc with ⟨env, ip, port, dest, destPort, h⟩
  refine (queueMove_openWhenClosed env h).readInv ⟨?_, rfl⟩
  intro b hb
  simp [tcpNew] at hb

theorem readInv_run {c₀ : Conn τ} {es : List Event} (h₀ : Opened c₀)
    (hok : Machine.Along step RecvOk c₀ es) : ReadInv (runConn c₀ es) :=
  Machine.run_invariant step (fun _ _ hc he => readInv_step hc he) (readInv_opened h₀) hok

/-- In every run whose calls of `tcp_recv` keep to `RecvOk`, the bytes returned are the first ones
queued, and a call that returns less than it was asked for leaves nothing unread. -/
theorem recv_returns_queued {c₀ : Conn τ} {es : List Event} (h₀ : Opened c₀)
    (hok : Machine.Along step RecvOk c₀ es) :
    returnedBytes (runConn c₀ es).log <+: queuedBytes (runConn c₀ es).log ∧
      ∀ pre data size post, es = pre ++ .recv data size :: post → 0 < size →
        (tcpRecv (runConn c₀ pre) data size).2.2 < size →
          returnedBytes (runConn c₀ (pre ++ [.recv data size])).log =
            queuedBytes (runConn c₀ (pre ++ [.recv data size])).log := by
  refine ⟨⟨_, (readInv_run h₀ hok).queued⟩, ?_⟩
  intro pre data size post hes hsize hlt
  rw [hes, Machine.along_append] at hok
  rcases hok with ⟨hpre, hcall, _⟩
  rcases readInv_recvEvent (readInv_run h₀ hpre) hcall with ⟨hinv, hdrained⟩
  have hrun : runConn c₀ (pre ++ [.recv data size]) = recvEvent (runConn c₀ pre) data size := by
    simp [step]
  rw [hrun, ← hinv.queued, hdrained hsize hlt, List.append_nil]

/-- Two segments with a byte each. -/
def sampleText : List Event :=
  [.received (.working 101) (peerSegment 700 101 (segFlagSyn ||| segFlagAck) []),
    .received (.working 102) (peerSegment 701 101 segFlagAck [1]),
    .received (.working 103) (peerSegment 702 101 segFlagAck [2])]

theorem recv_returns_queued_sample :
    returnedBytes (runConn (sampleConn 100 (some samplePeer))
        (sampleText ++ [.recv [0, 0] 1, .recv [0, 0] 1])).log <+:
      queuedBytes (runConn (sampleConn 100 (some samplePeer))
        (sampleText ++ [.recv [0, 0] 1, .recv [0, 0] 1])).log := by
  have hok : Machine.Along step RecvOk (sampleConn 100 (some samplePeer))
      (sampleText ++ [.recv [0, 0] 1, .recv [0, 0] 1]) := by
    refine ⟨trivial, trivial, trivial, ?_, ?_, trivial⟩
    · intro _
      rw [if_pos (by decide)]
      exact Or.inl (by decide)
    · intro _
      rw [if_pos (by decide)]
      exact Or.inl (by decide)
  exact (recv_returns_queued (opened_sampleConn _ _) hok).1

/-- One call for both bytes puts the second over the first. -/
theorem recv_overwrites :
    ∃ c₀ : Conn Deadline, ∃ es : List Event, Opened c₀ ∧
      ¬ returnedBytes (runConn c₀ es).log <+: queuedBytes (runConn c₀ es).log := by
  refine ⟨sampleConn 100 (some samplePeer), sampleText ++ [.recv [0, 0] 2],
    opened_sampleConn _ _, ?_⟩
  have hreturned : returnedBytes (runConn (sampleConn 100 (some samplePeer))
      (sampleText ++ [.recv [0, 0] 2])).log = [2, 0] := by
    decide
  have hqueued : queuedBytes (runConn (sampleConn 100 (some samplePeer))
      (sampleText ++ [.recv [0, 0] 2])).log = [1, 2] := by
    decide
  rw [hreturned, hqueued]
  decide

end Tcp
end DtsNet
