import DtsNet.Tcp.Clock
import DtsNet.Tcp.Retransmission
import DtsNet.Tcp.SendSequence
import DtsNet.Tcp.Tandem

/-!
# Ready — what keeps both ends able to go on

Beside `Tandem`, every run of the pair keeps what the timers rely on: a segment in `tx_seg` stands at
`snd.una`, is packed, has its timer running and has text, and no empty block waits behind it.  What
holds of every buffer given to `tcp_send` holds of every block that waits.
-/

namespace DtsNet
namespace Tcp

open Ip Dblk History Slices

variable {τ : Type} [TimerLib τ]

/-! ## One end -/

variable {s : Endpoint} {c d : Conn τ}

/-- The text of every block that waits, and of a data segment in `tx_seg`, has the property. -/
structure AllText (P : List Byte → Prop) (c : Conn τ) : Prop where
  data : ∀ tx ∈ c.tcp.txData, P tx.bytes
  pending : ∀ seg, c.tcp.txSeg = some seg → seg.flags = segFlagAck → P seg.payload

/-- No options are packed. -/
def NoOptions (c : Conn τ) : Prop :=
  ∀ seg, c.tcp.txSeg = some seg → seg.dataOffset = 5

section Kept

variable {P : List Byte → Prop} {c' : Conn τ}

omit [TimerLib τ]

theorem SendFrame.allText (h : SendFrame c c') (hc : AllText P c) : AllText P c' := by
  refine ⟨by rw [h.txData]; exact hc.data, ?_⟩
  intro seg' hs' hflags
  rcases h.exists_of_some hs' with ⟨seg, hs, hid⟩
  rw [Segment.payload_of_identity hid]
  exact hc.pending seg hs ((Segment.flags_of_identity hid).symm.trans hflags)

theorem SendFrame.noOptions (h : SendFrame c c') (hc : NoOptions c) : NoOptions c' := by
  intro seg' hs'
  rcases h.exists_of_some hs' with ⟨seg, hs, hid⟩
  rw [Segment.dataOffset_of_identity hid]
  exact hc seg hs

theorem Sending.allText {fits : Prop} (h : Sending fits c) (hs : c.tcp.txSeg = none) :
    AllText P c := by
  refine ⟨?_, fun seg hseg => ?_⟩
  · rw [h.busy hs]
    exact fun _ hmem => absurd hmem List.not_mem_nil
  · rw [hs] at hseg
    cases hseg

theorem noOptions_of_none (hs : c.tcp.txSeg = none) : NoOptions c := by
  intro seg hseg
  rw [hs] at hseg
  cases hseg

end Kept

/-- The first block that waits becomes the text of `tx_seg`, or nothing happens. -/
theorem tcpConstructData_slot {env : Env} (hmem : env.AllocOk) (c : Conn τ) :
    tcpConstructData env c = c ∨ ∃ tx rest, c.tcp.txData = tx :: rest ∧
      (tcpConstructData env c).tcp.txData = rest ∧
      (tcpConstructData env c).tcp.txSeg = some (packTxSegment true (dataSegment c.tcp tx)) := by
  rcases tcpConstructData_cases env c with heq | ⟨tx, rest, hs, hd⟩
  · exact Or.inl heq
  · rcases tcpConstructData_cons env c hmem hs hd with ⟨htcp, _⟩
    exact Or.inr ⟨tx, rest, hd, by rw [htcp], by rw [htcp]⟩

theorem allText_tcpConstructData {P : List Byte → Prop} {env : Env} (hmem : env.AllocOk)
    (hc : AllText P c) : AllText P (tcpConstructData env c) := by
  rcases tcpConstructData_slot hmem c with heq | ⟨tx, rest, hd, hdata, hseg⟩
  · rw [heq]
    exact hc
  · have hall := hc.data
    rw [hd] at hall
    refine ⟨?_, ?_⟩
    · rw [hdata]
      exact fun b hb => hall b (List.mem_cons_of_mem _ hb)
    · intro seg hs _
      rw [hseg] at hs
      cases hs
      exact hall tx List.mem_cons_self

theorem noOptions_tcpConstructData {env : Env} (hmem : env.AllocOk) (hc : NoOptions c) :
    NoOptions (tcpConstructData env c) := by
  rcases tcpConstructData_slot hmem c with heq | ⟨tx, rest, _, _, hseg⟩
  · rw [heq]
    exact hc
  · intro seg hs
    rw [hseg] at hs
    cases hs
    rfl

theorem allText_step {P : List Byte → Prop} (hc : EndInv s c) (hsend : SendInv True c)
    (hall : AllText P c) {text : List Byte} {e : Event} (hok : EndOk s text c e)
    (hdata : ∀ env data, e = .send env data → P data) : AllText P (step c e) := by
  rcases step_sending hc hsend hok with
      hf | ⟨env, data, he, _, hmem, hlen, hstep⟩ | ⟨env, seg, pending, _, _, hmem, _, _, _, hf⟩ |
      ⟨c₁, syn, ack, hf, hs, _, hstep⟩
  · exact hf.allText hall
  · rw [hstep]
    refine allText_tcpConstructData hmem ⟨?_, hall.pending⟩
    intro tx htx
    rcases List.mem_append.1 htx with htx | htx
    · exact hall.data tx htx
    · rw [List.mem_singleton.1 htx, bytes_acceptData (by omega)]
      exact hdata env data he
  · refine hf.allText (allText_tcpConstructData hmem ⟨hall.data, ?_⟩)
    intro seg hseg
    cases hseg
  · have hf' := hf.allText hall
    rw [hstep, tcpTxSegComplete_some c₁ hs]
    refine ⟨hf'.data, ?_⟩
    intro seg hseg
    cases hseg

theorem noOptions_step (hc : EndInv s c) (hsend : SendInv True c) (h : NoOptions c)
    {text : List Byte} {e : Event} (hok : EndOk s text c e) : NoOptions (step c e) := by
  rcases step_sending hc hsend hok with
      hf | ⟨env, data, _, _, hmem, _, hstep⟩ | ⟨env, seg, pending, _, _, hmem, _, _, _, hf⟩ |
      ⟨c₁, syn, ack, _, hs, _, hstep⟩
  · exact hf.noOptions h
  · rw [hstep]
    exact noOptions_tcpConstructData hmem h
  · exact hf.noOptions (noOptions_tcpConstructData hmem (noOptions_of_none rfl))
  · rw [hstep, tcpTxSegComplete_some c₁ hs]
    exact noOptions_of_none rfl

/-- What an end keeps, beside `Paced`, so that it can always go on. -/
structure Ready [LawfulTimerLib τ] (c : Conn τ) : Prop where
  sequence : SequenceInv c
  retransmit : RetransmitInv c
  /-- No empty block waits, and no data segment is empty. -/
  full : AllText (· ≠ []) c
  noOptions : NoOptions c

omit [TimerLib τ] in
/-- No segment of the peer breaks the send sequence, or leaves `tx_seg` without its timer. -/
theorem netOk_ok (hc : EndInv s c) {text : List Byte} {e : Event} (hok : EndOk s text c e) :
    SequenceOk c e ∧ RetransmitOk c e := by
  have hshape := hc.shape
  cases e with
  | received env seg =>
      have hAF : segCtrlAF seg.toSegment = false := by simp [segCtrlAF, hok.2.fin]
      rcases hc.state with hst | hst | hst | hst
      · simp [SequenceOk, RetransmitOk, hst]
      · refine ⟨by simp [SequenceOk, hst], ?_⟩
        simp only [RetransmitOk, hst]
        intro hA hR
        have hno := (hok.2.rst hR).2
        rw [hA] at hno
        cases hno
      · rw [hst] at hshape
        rcases hshape with ⟨_, hfresh, _, hnxt, _⟩
        have hsends := hok.2
        rw [hfresh.accepted] at hsends
        refine ⟨?_, by simp [RetransmitOk, hst]⟩
        simp only [SequenceOk, hst]
        intro _ _ hA
        split
        · rw [s.ack_of_nil hsends hA, hnxt]
        · intro hF
          rw [hok.2.fin] at hF
          cases hF
      · simp [SequenceOk, RetransmitOk, hst, hAF]
  | close env =>
      exact hok.elim
  | _ =>
      exact ⟨trivial, trivial⟩

section Ready

variable [LawfulTimerLib τ]

theorem ready_step (hc : EndInv s c) (hsend : SendInv True c) (h : Ready c) {text : List Byte}
    {e : Event} (hok : EndOk s text c e) (hmem : e.AllocOk)
    (hdata : ∀ env data, e = .send env data → data ≠ []) : Ready (step c e) := by
  rcases netOk_ok hc hok with ⟨hsequence, hretransmit⟩
  exact ⟨sequenceInv_step hsend h.sequence hmem hsequence,
    retransmitInv_step hsend h.retransmit hmem hretransmit, allText_step hc hsend h.full hok hdata,
    noOptions_step hc hsend h.noOptions hok⟩

theorem ready_opened {env : Env} {ip : Netif} {port : UInt32} {dest : Option IpAddr}
    {destPort : UInt16} (hmem : env.AllocOk) (hopen : tcpOpenConn env ip port dest destPort = some c) :
    Ready c := by
  have hc : OpenedOk c := ⟨env, ip, port, dest, destPort, hmem, hopen⟩
  cases dest with
  | none =>
      rw [tcpOpenConn_passive] at hopen
      cases hopen
      refine ⟨sequenceInv_opened hc, retransmitInv_opened hc,
        ⟨fun tx htx => absurd htx List.not_mem_nil, ?_⟩, noOptions_of_none rfl⟩
      intro seg hseg
      cases hseg
  | some dest =>
      rcases tcpOpenConn_active (τ := τ) env hmem ip port dest destPort with ⟨sent, _, h⟩
      rw [hopen] at h
      cases h
      refine ⟨sequenceInv_opened hc, retransmitInv_opened hc,
        ⟨fun tx htx => absurd htx List.not_mem_nil, ?_⟩, ?_⟩
      · intro seg hseg hflags
        cases hseg
        have hne : segFlagSyn ≠ segFlagAck := by decide
        exact absurd hflags hne
      · intro seg hseg
        cases hseg
        rfl

omit [LawfulTimerLib τ] in
/-- The timer sends what lies in the header buffer of `tx_seg` again, and nothing else changes. -/
theorem step_loop_of_due (hst : Retransmits c.tcp.state) {now : ℕ}
    (hexp : TimerLib.expired c.tcp.tmr now = true) {seg : TxSegment} {raw : Segment}
    (hs : c.tcp.txSeg = some seg) (hraw : seg.rawData = some raw) :
    step c (.loop (.working now)) =
      { tcp := { c.tcp with tmr := TimerLib.start (TimerLib.stop c.tcp.tmr) now 5 }
        log := c.log ++ [.output (some (connDatagram c.tcp raw)) true] } := by
  have hproc := timeoutEventProcess_of_retransmits (τ := τ) hst
  simp [step, tcpLoopVisit, hexp, tcpTimeout, hproc, tcpRetransmit, hs, hraw, tcpIpSend,
    connDatagram, Env.working]

/-- The timer will send what is pending, and not before the clock has reached a given time. -/
theorem Ready.resends (h : Ready c) (hruns : TimersRun τ) {seg : TxSegment} {raw : Segment}
    (hs : c.tcp.txSeg = some seg) (hraw : seg.rawData = some raw) (now : ℕ) :
    ∃ later t, now ≤ later ∧ step c (.loop (.working later)) =
      { tcp := { c.tcp with tmr := t }
        log := c.log ++ [.output (some (connDatagram c.tcp raw)) true] } := by
  have hsome : c.tcp.txSeg ≠ none := by simp [hs]
  rcases hruns _ (h.retransmit.armed hsome) now with ⟨later, hle, hlater⟩
  exact ⟨later, _, hle, step_loop_of_due (h.retransmit.state hsome) hlater hs hraw⟩

/-! ## Both ends -/

structure Live (s : Endpoint) (x y : Conn τ) : Prop extends Tandem s x y where
  ready : Ready x
  readyPeer : Ready y

theorem Live.flip {x y : Conn τ} (h : Live s x y) : Live s.peer y x :=
  ⟨h.toTandem.flip, h.readyPeer, h.ready⟩

omit [TimerLib τ] [LawfulTimerLib τ] in
theorem NetOk.allocOk {peer : Conn τ} {e : Event} (h : NetOk peer e) : e.AllocOk := by
  cases e with
  | received env seg => exact h.1
  | send env data => exact h.1
  | recv data size => trivial
  | close env => exact h.elim
  | loop env => exact h

theorem live_step {x y : Conn τ} (h : Live s x y) (hiss : s.passive = false → s.iss < s.iss + 1)
    (hx : (acceptedBytes x.log).length + 1 < 2 ^ 32)
    (hy : (acceptedBytes y.log).length + 1 < 2 ^ 32) {e : Event} (hok : NetOk y e) :
    Live s (step x e) y := by
  refine ⟨tandem_step h.toTandem hiss hx hy hok, ?_, h.readyPeer⟩
  refine ready_step h.this h.paced.send h.ready (h.endOk hok) hok.allocOk ?_
  rintro env data rfl
  exact List.ne_nil_of_length_pos hok.2.1

theorem live_pairStep {p : Pair τ} (h : Live s p.a p.b) (hactive : s.passive = false)
    (hiss : s.iss < s.iss + 1) {e : PairEvent} (hok : PairOk p e)
    (hlen : longest p + 1 < 2 ^ 32) : Live s (pairStep p e).a (pairStep p e).b := by
  have ha : (acceptedBytes p.a.log).length ≤ longest p := Nat.le_max_left _ _
  have hb : (acceptedBytes p.b.log).length ≤ longest p := Nat.le_max_right _ _
  cases e with
  | atA e =>
      exact live_step h (fun _ => hiss) (by omega) (by omega) hok
  | atB e =>
      have hpassive : s.peer.passive = false → s.peer.iss < s.peer.iss + 1 := fun hno => by
        simp [Endpoint.peer, hactive] at hno
      have hflip := live_step h.flip hpassive (by omega) (by omega) hok
      have hpeer : s.peer.peer = s := by simp [Endpoint.peer]
      rw [← hpeer]
      exact hflip.flip

theorem live_opened {a b : Conn τ} (ha : OpenedLossy a) (hb : OpenedPassive b) :
    Live ⟨false, a.tcp.snd.iss, b.tcp.snd.iss⟩ a b := by
  have htandem := tandem_opened ha hb
  rcases ha with ⟨env, ip, port, dest, destPort, hmem, hopen⟩
  rcases hb.allocOk with ⟨env', ip', port', destPort', hmem', hopen'⟩
  exact ⟨htandem, ready_opened hmem hopen, ready_opened hmem' hopen'⟩

theorem live_run {a₀ b₀ : Conn τ} (ha : OpenedLossy a₀) (hb : OpenedPassive b₀)
    (hiss : a₀.tcp.snd.iss < a₀.tcp.snd.iss + 1) {es : List PairEvent}
    (hok : Machine.Along pairStep PairOk ⟨a₀, b₀⟩ es)
    (hlen : longest (runPair ⟨a₀, b₀⟩ es) + 1 < 2 ^ 32) :
    Live ⟨false, a₀.tcp.snd.iss, b₀.tcp.snd.iss⟩ (runPair ⟨a₀, b₀⟩ es).a
      (runPair ⟨a₀, b₀⟩ es).b := by
  have hN : longest (Machine.run pairStep ⟨a₀, b₀⟩ es) + 1 < 2 ^ 32 := hlen
  refine Machine.run_invariant_of_le pairStep
    (I := fun p => Live ⟨false, a₀.tcp.snd.iss, b₀.tcp.snd.iss⟩ p.a p.b) (m := longest)
    (N := 2 ^ 32 - 2) (fun p e _ => longest_step p e) ?_ (live_opened ha hb) hok (by omega)
  intro p e h hok hle
  have := longest_step p e
  exact live_pairStep h rfl hiss hok (by omega)

end Ready

end Tcp
end DtsNet
