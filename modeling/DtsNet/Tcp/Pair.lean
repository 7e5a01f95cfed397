import DtsNet.Tcp.Endpoint
import DtsNet.Tcp.Handshake

/-!
# Pair — two ends of this stack with a network between them

The network may deliver any segment that an end ever sent, as often as it likes and in any order,
or never; whatever reaches the IP layer therefore counts as in flight for good.  A run of the pair
is a run of two channels, one in each direction: what `tcp_send` accepts is given to the channel,
and what is queued to `rx_data` is what the channel delivers.
-/

namespace DtsNet
namespace Tcp

open Ip Dblk Slices

variable {τ : Type} [TimerLib τ]

/-! ## The machine -/

/-- `a` was opened actively, `b` passively. -/
structure Pair (τ : Type) where
  a : Conn τ
  b : Conn τ

/-- Something happens at one of the ends. -/
inductive PairEvent
  | atA (e : Event)
  | atB (e : Event)

def pairStep (p : Pair τ) : PairEvent → Pair τ
  | .atA e => { p with a := step p.a e }
  | .atB e => { p with b := step p.b e }

abbrev runPair (p : Pair τ) (es : List PairEvent) : Pair τ :=
  Machine.run pairStep p es

/-- What may happen to an end whose peer is `peer`: nobody calls `tcp_close`, and what arrives was
sent by the peer.  Allocations succeed; IP sends may fail. -/
def NetOk (peer : Conn τ) : Event → Prop
  | .received env seg => env.AllocOk ∧
      ∃ dg ∈ outputs peer.log, ∃ beyond, seg = dg.received beyond
  | .send env data => env.AllocOk ∧ 0 < data.length ∧ data.length ≤ 1379
  | .recv _ _ => True
  | .close _ => False
  | .loop env => env.AllocOk

def PairOk (p : Pair τ) : PairEvent → Prop
  | .atA e => NetOk p.b e
  | .atB e => NetOk p.a e

/-- What `tcp_open` makes of an active opener, whose SYN may be lost. -/
def OpenedLossy (a : Conn τ) : Prop :=
  ∃ env ip port dest destPort, env.AllocOk ∧ tcpOpenConn env ip port (some dest) destPort = some a

/-! ## The channels -/

/-- The bytes that go from one end to the other. -/
def stream (src dst : Conn τ) : Channel Byte :=
  { sent := acceptedBytes src.log, rcvd := queuedBytes dst.log }

/-- What has gone through a channel that was empty at first. -/
def Carried (c : Channel Byte) : Prop :=
  Channel.Steps { sent := [], rcvd := [] } c

omit [TimerLib τ] in
theorem Carried.safe {c : Channel Byte} (h : Carried c) : c.Safe :=
  Channel.Steps.safe h List.nil_prefix

section Advances

variable {src dst dst' : Conn τ}

omit [TimerLib τ]

theorem carried_deliver (h : Carried (stream src dst))
    (hadv : Advances (acceptedBytes src.log) dst dst') : Carried (stream src dst') := by
  rcases hadv.queued with ⟨bs, hqueued, hslice⟩
  have hstep := Channel.Step.deliver (stream src dst) bs hslice
  have hstream : stream src dst' = { stream src dst with rcvd := (stream src dst).rcvd ++ bs } := by
    simp [stream, hqueued]
  rw [Carried, hstream]
  exact h.tail hstep

theorem carried_accept {sent : List Byte} (h : Carried (stream dst src))
    (hadv : Advances sent dst dst') : Carried (stream dst' src) := by
  rcases hadv.accepted with ⟨bs, haccepted⟩
  have hstep := Channel.Step.accept (stream dst src) bs
  have hstream : stream dst' src = { stream dst src with sent := (stream dst src).sent ++ bs } := by
    simp [stream, haccepted]
  rw [Carried, hstream]
  exact h.tail hstep

end Advances

/-! ## The invariant -/

/-- Both ends, seen from `s`, and the channels between them. -/
structure Joint (s : Endpoint) (x y : Conn τ) : Prop where
  this : EndInv s x
  that : EndInv s.peer y
  out : Carried (stream x y)
  back : Carried (stream y x)

omit [TimerLib τ] in
theorem Joint.flip {s : Endpoint} {x y : Conn τ} (h : Joint s x y) : Joint s.peer y x := by
  have hpeer : s.peer.peer = s := by simp [Endpoint.peer]
  exact ⟨h.that, by rw [hpeer]; exact h.this, h.back, h.out⟩

omit [TimerLib τ] in
/-- Whatever the other end sent, it may still say, and this end may hear it. -/
theorem Joint.endOk {s : Endpoint} {x y : Conn τ} (h : Joint s x y) {e : Event} (hok : NetOk y e) :
    EndOk s (acceptedBytes y.log) x e := by
  cases e with
  | received env seg =>
      rcases hok with ⟨hmem, dg, hdg, beyond, rfl⟩
      refine ⟨hmem, ?_⟩
      have hsays : s.peer.Says y.log dg.seg :=
        meets_of_mem_outputs s.peer.lasting_says h.that.emits.log hdg
      -- what the peer acknowledges it has queued, and what it queued this end has accepted
      exact hsays.mono (List.prefix_refl _) h.out.safe.length_le
  | send env data =>
      exact ⟨hok.1, hok.2.2⟩
  | recv data size =>
      trivial
  | close env =>
      exact hok
  | loop env =>
      exact hok

/-- One event at this end. -/
theorem joint_step {s : Endpoint} {x y : Conn τ} (h : Joint s x y)
    (hiss : s.passive = false → s.iss < s.iss + 1) (hlen : (acceptedBytes y.log).length + 1 < 2 ^ 32)
    {e : Event} (hok : NetOk y e) : Joint s (step x e) y := by
  rcases endInv_step h.this hiss h.back.safe hlen (h.endOk hok) with ⟨hinv, hadv⟩
  exact ⟨hinv, h.that, carried_accept h.out hadv, carried_deliver h.back hadv⟩

/-! ## Runs -/

/-- The larger of the two streams. -/
def longest (p : Pair τ) : ℕ :=
  max (acceptedBytes p.a.log).length (acceptedBytes p.b.log).length

theorem acceptedBytes_length_step (c : Conn τ) (e : Event) :
    (acceptedBytes c.log).length ≤ (acceptedBytes (step c e).log).length := by
  rcases log_prefix_step c e with ⟨l, hlog⟩
  rw [← hlog, acceptedBytes_append, List.length_append]
  exact Nat.le_add_right _ _

theorem longest_step (p : Pair τ) (e : PairEvent) : longest p ≤ longest (pairStep p e) := by
  cases e with
  | atA e =>
      exact max_le_max (acceptedBytes_length_step p.a e) (Nat.le_refl _)
  | atB e =>
      exact max_le_max (Nat.le_refl _) (acceptedBytes_length_step p.b e)

theorem joint_pairStep {s : Endpoint} {p : Pair τ} (h : Joint s p.a p.b) (hactive : s.passive = false)
    (hiss : s.iss < s.iss + 1) {e : PairEvent} (hok : PairOk p e)
    (hlen : longest (pairStep p e) + 1 < 2 ^ 32) : Joint s (pairStep p e).a (pairStep p e).b := by
  have hle := longest_step p e
  cases e with
  | atA e =>
      have hb : (acceptedBytes p.b.log).length ≤ longest p := Nat.le_max_right _ _
      exact joint_step h (fun _ => hiss) (by omega) hok
  | atB e =>
      have ha : (acceptedBytes p.a.log).length ≤ longest p := Nat.le_max_left _ _
      have hpassive : s.peer.passive = false → s.peer.iss < s.peer.iss + 1 := fun hno => by
        simp [Endpoint.peer, hactive] at hno
      have hflip := joint_step h.flip hpassive (by omega) hok
      have hpeer : s.peer.peer = s := by simp [Endpoint.peer]
      rw [← hpeer]
      exact hflip.flip

/-- Two ends that have just been opened. -/
theorem joint_opened {a b : Conn τ} (ha : OpenedLossy a) (hb : OpenedPassive b) :
    Joint ⟨false, a.tcp.snd.iss, b.tcp.snd.iss⟩ a b := by
  have hstb : b.tcp.state = .listen := hb.listen.1
  rcases ha with ⟨env, ip, port, dest, destPort, hmem, hopen⟩
  rcases hb with ⟨env', ip', port', destPort', hopen'⟩
  have hsta : a.tcp.state = .synSent := (binding_tcpOpenConn env a hopen).2
  have hthis : EndInv ⟨false, a.tcp.snd.iss, b.tcp.snd.iss⟩ a := endInv_openActive hmem hopen rfl rfl
  have hthat : EndInv ⟨true, b.tcp.snd.iss, a.tcp.snd.iss⟩ b := endInv_openPassive hopen' rfl rfl
  have hfresha : Fresh a := by
    have hshape := hthis.shape
    rw [hsta] at hshape
    exact hshape.2.1
  have hfreshb : Fresh b := by
    have hshape := hthat.shape
    rw [hstb] at hshape
    exact hshape.2.1
  refine ⟨hthis, hthat, ?_, ?_⟩
  · rw [Carried, stream, hfresha.accepted, hfreshb.queued]
  · rw [Carried, stream, hfreshb.accepted, hfresha.queued]

/-- Every run of the pair is a run of two channels. -/
theorem carried_run {a₀ b₀ : Conn τ} (ha : OpenedLossy a₀) (hb : OpenedPassive b₀)
    (hiss : a₀.tcp.snd.iss < a₀.tcp.snd.iss + 1) {es : List PairEvent}
    (hok : Machine.Along pairStep PairOk ⟨a₀, b₀⟩ es)
    (hlen : longest (runPair ⟨a₀, b₀⟩ es) + 1 < 2 ^ 32) :
    Carried (stream (runPair ⟨a₀, b₀⟩ es).a (runPair ⟨a₀, b₀⟩ es).b) ∧
      Carried (stream (runPair ⟨a₀, b₀⟩ es).b (runPair ⟨a₀, b₀⟩ es).a) := by
  let s : Endpoint := ⟨false, a₀.tcp.snd.iss, b₀.tcp.snd.iss⟩
  have hN : longest (Machine.run pairStep ⟨a₀, b₀⟩ es) + 1 < 2 ^ 32 := hlen
  have hjoint : Joint s (runPair ⟨a₀, b₀⟩ es).a (runPair ⟨a₀, b₀⟩ es).b := by
    refine Machine.run_invariant_of_le pairStep (I := fun p => Joint s p.a p.b) (m := longest)
      (N := 2 ^ 32 - 2) (fun p e _ => longest_step p e) ?_ (joint_opened ha hb) hok (by omega)
    intro p e h hok hle
    exact joint_pairStep h rfl hiss hok (by omega)
  exact ⟨hjoint.out, hjoint.back⟩

/-- Whatever the network does, each end queues a prefix of what the other end accepted.  The initial
sequence number of the passive end does not matter. -/
theorem queued_prefix_accepted {a₀ b₀ : Conn τ} (ha : OpenedLossy a₀) (hb : OpenedPassive b₀)
    (hiss : a₀.tcp.snd.iss.toNat < 2 ^ 31) {es : List PairEvent}
    (hok : Machine.Along pairStep PairOk ⟨a₀, b₀⟩ es)
    (hlenA : (acceptedBytes (runPair ⟨a₀, b₀⟩ es).a.log).length < 2 ^ 31)
    (hlenB : (acceptedBytes (runPair ⟨a₀, b₀⟩ es).b.log).length < 2 ^ 31) :
    queuedBytes (runPair ⟨a₀, b₀⟩ es).b.log <+: acceptedBytes (runPair ⟨a₀, b₀⟩ es).a.log ∧
      queuedBytes (runPair ⟨a₀, b₀⟩ es).a.log <+: acceptedBytes (runPair ⟨a₀, b₀⟩ es).b.log := by
  have hlt : a₀.tcp.snd.iss < a₀.tcp.snd.iss + 1 := Circular.lt_succ_of_toNat_lt (by omega)
  have hlen : longest (runPair ⟨a₀, b₀⟩ es) < 2 ^ 31 := Nat.max_lt.2 ⟨hlenA, hlenB⟩
  rcases carried_run ha hb hlt hok (by omega) with ⟨hout, hback⟩
  exact ⟨hout.safe, hback.safe⟩

/-! ## A run with a duplicated segment -/

/-- The host at the other address, listening on port 80. -/
def sampleServer : Conn Deadline :=
  (tcpOpenConn (.working 200) { sampleIp with addr := samplePeer } 80 none 0).get rfl

/-- A segment from port 5000 of the one host to port 80 of the other, and one back. -/
def sampleRequest (seq ack : UInt32) (flags : UInt16) (payload : List Byte) : Datagram :=
  { src := sampleIp.addr
    dest := samplePeer
    seg := { (peerSegment seq ack flags payload).toSegment with srcPort := 5000, destPort := 80 } }

def sampleAnswer (seq ack : UInt32) (flags : UInt16) (payload : List Byte) : Datagram :=
  { src := samplePeer
    dest := sampleIp.addr
    seg := (peerSegment seq ack flags payload).toSegment }

def sampleExchange : List PairEvent :=
  let hear (now : ℕ) (dg : Datagram) : Event := .received (.working now) (dg.received [])
  [.atB (hear 201 (sampleRequest 100 0 segFlagSyn [])),
    .atA (hear 102 (sampleAnswer 200 101 (segFlagSyn ||| segFlagAck) [])),
    .atB (hear 203 (sampleRequest 101 201 segFlagAck [])),
    .atA (.send (.working 104) [1, 2]),
    .atB (hear 205 (sampleRequest 101 201 segFlagAck [1, 2])),
    .atB (hear 206 (sampleRequest 101 201 segFlagAck [1, 2])),
    .atB (.send (.working 207) [3]),
    .atA (hear 108 (sampleAnswer 201 103 segFlagAck [3]))]

theorem queued_prefix_accepted_sample :
    let p := runPair ⟨sampleConn 100 (some samplePeer), sampleServer⟩ sampleExchange
    (queuedBytes p.b.log = [1, 2] ∧ queuedBytes p.a.log = [3]) ∧
      queuedBytes p.b.log <+: acceptedBytes p.a.log ∧
      queuedBytes p.a.log <+: acceptedBytes p.b.log := by
  have ha : OpenedLossy (sampleConn 100 (some samplePeer)) :=
    ⟨.working 100, sampleIp, 5000, samplePeer, 80, Env.allocOk_working 100, rfl⟩
  have hb : OpenedPassive sampleServer :=
    ⟨.working 200, { sampleIp with addr := samplePeer }, 80, 0, rfl⟩
  refine ⟨by decide, queued_prefix_accepted ha hb (by decide) ?_ (by decide) (by decide)⟩
  refine ⟨⟨Env.allocOk_working _, _, ?_, [], rfl⟩, ⟨Env.allocOk_working _, _, ?_, [], rfl⟩,
    ⟨Env.allocOk_working _, _, ?_, [], rfl⟩, ⟨Env.allocOk_working _, by decide, by decide⟩,
    ⟨Env.allocOk_working _, _, ?_, [], rfl⟩, ⟨Env.allocOk_working _, _, ?_, [], rfl⟩,
    ⟨Env.allocOk_working _, by decide, by decide⟩, ⟨Env.allocOk_working _, _, ?_, [], rfl⟩, trivial⟩
  all_goals decide

end Tcp
end DtsNet
