import DtsNet.Ether.Reaction
import DtsNet.Library.Decay
import DtsNet.Tcp.Travel

/-!
# Silence — what is put on a network dies down

Hosts of this stack on any Ethernets, without connections.  Somebody puts frames on the wire, whatever
they hold; every frame arrives at the hosts that hear it, or at some of them, in any order; and the
hosts answer.  Each arrival costs one, and a frame brings in what its rank allows, so that the frames
that were put on the wire bound the number of arrivals: the hosts do not keep each other busy.
-/

namespace DtsNet
namespace Ether

open Dblk Ip Decay Machine
open Tcp (TimerLib)

/-! ## The network -/

/-- A frame on its way to a host: what the driver of the Ethernet will put into the receive buffer,
and the size that it will report. -/
structure Arrival (ι : Type) where
  host : ι
  ether : EtherT
  data : List Byte
  size : ℕ

def Arrival.rank {ι : Type} (a : Arrival ι) : ℕ :=
  frameRank a.data a.size

/-- The hosts, and the frames that are on the wire. -/
structure Network (ι τ κ : Type) where
  station : ι → Stack τ (List (EtherT × List Byte)) κ
  flight : List (Arrival ι)

/-- A frame that arrives or is lost is the `k`-th of those on the wire.  `crc` and `rest` are what
the receivers of the answers find behind them. -/
inductive NetEvent (ι : Type)
  | puts (frames : List (Arrival ι))
  | arrives (k now ident : ℕ) (malloc : Bool) (crc : ℕ → UInt32) (rest : ℕ → List Byte)
  | lost (k : ℕ)

section Wire

variable {ι : Type} (cable : ι → EtherT → List (ι × EtherT))

/-- The arrivals of what a host has sent, at every Ethernet that hears it. -/
def heard (i : ι) (sent : List (EtherT × List Byte)) (crc : ℕ → UInt32) (rest : ℕ → List Byte) :
    List (Arrival ι) :=
  (sent.flatMap fun f => (cable i f.1).map fun listener => (listener, f.2)).mapIdx fun j x =>
    let wire := zeroPadded x.2 (crc j)
    { host := x.1.1
      ether := x.1.2
      data := wire.bytes ++ rest j
      size := wire.bytes.length }

variable {cable}

theorem length_heard_le {n : ℕ} (hcable : ∀ i eth, (cable i eth).length ≤ n) (i : ι)
    (sent : List (EtherT × List Byte)) (crc : ℕ → UInt32) (rest : ℕ → List Byte) :
    (heard cable i sent crc rest).length ≤ sent.length * n := by
  have hone : ∀ x ∈ sent.map fun f =>
      ((cable i f.1).map fun listener => (listener, f.2)).length, x ≤ n := by
    intro x hx
    rcases List.mem_map.1 hx with ⟨f, -, rfl⟩
    rw [List.length_map]
    exact hcable i f.1
  have hsum := List.sum_le_card_nsmul _ n hone
  rw [List.length_map, Nat.nsmul_eq_mul] at hsum
  rw [heard, List.length_mapIdx, List.length_flatMap]
  exact hsum

theorem rank_of_mem_heard {i : ι} {r : ℕ} {sent : List (EtherT × List Byte)} {crc : ℕ → UInt32}
    {rest : ℕ → List Byte} (hsent : ∀ f ∈ sent, RanksBelow r f.2) {a : Arrival ι}
    (ha : a ∈ heard cable i sent crc rest) : a.rank < r := by
  rcases List.mem_mapIdx.1 ha with ⟨j, hj, rfl⟩
  have hmem := List.getElem_mem hj
  rcases List.mem_flatMap.1 hmem with ⟨f, hf, hlistener⟩
  rcases List.mem_map.1 hlistener with ⟨listener, -, hpair⟩
  have hframe := congrArg Prod.snd hpair
  dsimp only at hframe
  rw [Arrival.rank, ← hframe]
  exact hsent f hf (crc j) (rest j)

end Wire

/-- `tcp_ip_recv` drops every segment where there are no connections. -/
theorem tcpReceive_eq_dropSegment {τ τ' σ κ : Type} [ListLib] [TimerLib τ] (env : Tcp.Env)
    (ip : Option Netif) (hdr : Header) (data : List Byte) (size : ℕ)
    {st : Stack τ' (σ × Tcp.Table τ) κ} (h : st.driver.2 = []) :
    Tcp.tcpReceive env ip hdr data size st = dropSegment ip hdr data size st := by
  unfold Tcp.tcpReceive
  split
  · have hnone : ∀ (i : Netif) (dg : Tcp.Datagram) (beyond : List Byte),
        Tcp.tcpIpRecv env i dg beyond ([] : Tcp.Table τ) = [] := fun _ _ _ => rfl
    dsimp only
    rw [h, hnone, ← h]
    rfl
  · rfl

section Run

variable {ι τ κ : Type} [DecidableEq ι] [ListLib] [TimerLib τ] [TimerRemain τ]
  (cable : ι → EtherT → List (ι × EtherT))

def Network.step (net : Network ι τ κ) : NetEvent ι → Network ι τ κ
  | .puts frames => { net with flight := net.flight ++ frames }
  | .arrives k now ident malloc crc rest =>
      match net.flight[k]? with
      | none => net
      | some a =>
          -- the driver's list is emptied, so that it shows what is sent because of this frame
          let before := { net.station a.host with driver := [] }
          let after := (Stack.etherLlRecv logFrame (icmpReceive malloc ident) dropSegment now a.ether
            a.data a.size before).1
          { station := Function.update net.station a.host after
            flight := net.flight.eraseIdx k ++ heard cable a.host after.driver crc rest }
  | .lost k => { net with flight := net.flight.eraseIdx k }

/-- Only what is on the wire arrives or is lost. -/
def OnTheWire (net : Network ι τ κ) : NetEvent ι → Prop
  | .puts _ => True
  | .arrives k _ _ _ _ _ => k < net.flight.length
  | .lost k => k < net.flight.length

instance (net : Network ι τ κ) (e : NetEvent ι) : Decidable (OnTheWire net e) := by
  cases e <;> unfold OnTheWire <;> infer_instance

/-- The interfaces of all hosts have IPv4 addresses. -/
def Numbered (net : Network ι τ κ) : Prop :=
  ∀ i, ∀ nif ∈ (net.station i).arp.nifList, nif.ip.addr.version = 4

/-- A frame that arrives or is lost leaves the wire. -/
def NetEvent.taken : NetEvent ι → ℕ
  | .puts _ => 0
  | _ => 1

/-- What the frames that are put on the wire can set off, if each frame is heard at `n` places. -/
def NetEvent.brought (n : ℕ) : NetEvent ι → ℕ
  | .puts frames => weight (47 * n) Arrival.rank frames
  | _ => 0

/-! ## The interfaces stay -/

theorem nifList_etherArpEtherRecv {σ : Type} (send : σ → EtherT → List Byte → σ × Bool) (now : ℕ)
    (ether : EtherT) (data : List Byte) (dataSize : ℕ) (h : EtherArp τ) (s : σ) :
    (etherArpEtherRecv send now ether data dataSize h s).1.nifList = h.nifList := by
  unfold etherArpEtherRecv etherArpReceive
  split
  · rfl
  · split
    · rfl
    · split
      · split <;> rfl
      · rfl

omit [TimerLib τ] [TimerRemain τ] in
theorem arp_icmpReceive (malloc : Bool) (ident : ℕ) (ip : Option Netif) (hdr : Header)
    (data : List Byte) (size : ℕ) (st : Stack τ (List (EtherT × List Byte)) κ) :
    (icmpReceive malloc ident ip hdr data size st).arp = st.arp := by
  unfold icmpReceive
  split
  · rfl
  · split <;> rfl

omit [ListLib] [TimerLib τ] [TimerRemain τ] in
theorem arp_udpReceive {σ : Type} (ip : Option Netif) (hdr : Header) (data : List Byte) (size : ℕ)
    (st : Stack τ σ κ) : (Stack.udpReceive ip hdr data size st).arp = st.arp := by
  unfold Stack.udpReceive
  split <;> rfl

/-- Only a reply changes anything in the ARP module, and that is its table. -/
theorem nifList_etherLlRecv (malloc : Bool) (ident now : ℕ) (ether : EtherT) (data : List Byte)
    (dataSize : ℕ) (st : Stack τ (List (EtherT × List Byte)) κ) :
    (Stack.etherLlRecv logFrame (icmpReceive malloc ident) dropSegment now ether data dataSize
      st).1.arp.nifList = st.arp.nifList := by
  have hip : ∀ (ip : Option Netif) (raw : List Byte) (size : ℕ)
      (st : Stack τ (List (EtherT × List Byte)) κ),
      (ipLlRecv (icmpReceive malloc ident) dropSegment Stack.udpReceive ip Header.zero raw size
        st).arp = st.arp := by
    intro ip raw size st
    unfold ipLlRecv
    split
    · rfl
    · dsimp only
      split
      · exact arp_icmpReceive _ _ _ _ _ _ st
      · split
        · rfl
        · split
          · exact arp_udpReceive _ _ _ _ st
          · rfl
  unfold Stack.etherLlRecv
  split
  · split
    · rfl
    · dsimp only
      split
      · rw [hip]
        split
        · exact nifList_etherArpEtherRecv _ _ _ _ _ _ _
        · rfl
      · split
        · exact nifList_etherArpEtherRecv _ _ _ _ _ _ _
        · rfl
  · rfl

/-! ## Every arrival is paid for -/

variable {cable}

/-- An arrival takes a frame from the wire and puts at most `47 * n` of smaller rank on it. -/
theorem network_step [LawfulListLib] {n : ℕ} (hcable : ∀ i eth, (cable i eth).length ≤ n)
    {net : Network ι τ κ} (hnet : Numbered net) {e : NetEvent ι} (he : OnTheWire net e) :
    Numbered (net.step cable e) ∧
      weight (47 * n) Arrival.rank (net.step cable e).flight + e.taken ≤
        weight (47 * n) Arrival.rank net.flight + e.brought n := by
  cases e with
  | puts frames =>
      refine ⟨hnet, ?_⟩
      simp only [Network.step, weight_append, NetEvent.taken, NetEvent.brought, Nat.add_zero]
      exact Nat.le_refl _
  | lost k =>
      have hk : k < net.flight.length := he
      exact ⟨hnet, weight_eraseIdx_lt (47 * n) Arrival.rank hk⟩
  | arrives k now ident malloc crc rest =>
      have hk : k < net.flight.length := he
      let a := net.flight[k]
      let before : Stack τ (List (EtherT × List Byte)) κ := { net.station a.host with driver := [] }
      let after := (Stack.etherLlRecv logFrame (icmpReceive malloc ident) dropSegment now a.ether a.data
        a.size before).1
      have hstep : net.step cable (.arrives k now ident malloc crc rest) =
          { station := Function.update net.station a.host after
            flight := net.flight.eraseIdx k ++ heard cable a.host after.driver crc rest } := by
        simp only [Network.step, List.getElem?_eq_getElem hk]
        rfl
      have hlist : after.arp.nifList = (net.station a.host).arp.nifList :=
        nifList_etherLlRecv malloc ident now a.ether a.data a.size before
      have hbefore : ∀ nif ∈ before.arp.nifList, nif.ip.addr.version = 4 := hnet a.host
      rcases etherLlRecv_sends malloc ident now a.ether a.data a.size hbefore with
        ⟨new, hnew, hlen, hrank⟩
      have hsent : after.driver = new := hnew
      rw [hstep, hsent]
      constructor
      · intro i nif hnif
        by_cases hi : i = a.host
        · subst hi
          simp only [Function.update_self, hlist] at hnif
          exact hnet a.host nif hnif
        · simp only [Function.update_of_ne hi] at hnif
          exact hnet i nif hnif
      · have hcount : (heard cable a.host new crc rest).length ≤ 47 * n :=
          Nat.le_trans (length_heard_le hcable a.host new crc rest) (Nat.mul_le_mul_right n hlen)
        have hlighter := weight_react (47 * n) Arrival.rank hk hcount fun x hx =>
          rank_of_mem_heard hrank hx
        exact hlighter

/-- In every run, the frames that are on the wire at first and those that are put there later pay for
all the arrivals, however the hosts answer: a frame of rank `r` for `(47 * n + 1) ^ r`. -/
theorem network_falls_silent [LawfulListLib] {n : ℕ} (hcable : ∀ i eth, (cable i eth).length ≤ n)
    {net : Network ι τ κ} (hnet : Numbered net) {es : List (NetEvent ι)}
    (h : Along (Network.step cable) OnTheWire net es) :
    (es.map NetEvent.taken).sum +
        weight (47 * n) Arrival.rank (run (Network.step cable) net es).flight ≤
      weight (47 * n) Arrival.rank net.flight + (es.map (NetEvent.brought n)).sum := by
  -- the weight of what is on the wire is the potential
  let potential : Network ι τ κ → ℕ := fun net => weight (47 * n) Arrival.rank net.flight
  have hstep : ∀ (net : Network ι τ κ) (e : NetEvent ι), Numbered net → OnTheWire net e →
      Numbered (net.step cable e) ∧
        potential (net.step cable e) + e.taken ≤ potential net + e.brought n :=
    fun _ _ hs he => network_step hcable hs he
  exact spent_le_of_potential (Network.step cable) hstep hnet h

end Run

/-- Two hosts on one Ethernet, and a request of the first one for the address of the second. -/
def sampleNetwork : Network Bool Tcp.Deadline ℕ :=
  let request := zeroPadded (arpFrameBytes ethernetBroadcastAddress sampleEthA.macAddress
    (etherPacket Arp.arpOpReq sampleEthA.macAddress sampleNetif.addr.addr ⟨0, 0, 0, 0, 0, 0⟩
      ⟨10, 0, 0, 2⟩)) 0
  { station := fun i => if i then sampleStation sampleIpB sampleEthB else
      sampleStation sampleNetif sampleEthA
    flight := [{ host := true, ether := sampleEthB, data := request.bytes, size := 64 }] }

/-- The other host hears every frame. -/
def sampleCable (i : Bool) (_ : EtherT) : List (Bool × EtherT) :=
  [(!i, if i then sampleEthA else sampleEthB)]

/-- The request arrives, and then the reply. -/
def sampleTraffic : List (NetEvent Bool) :=
  [.arrives 0 100 0 true (fun _ => 0) fun _ => [], .arrives 0 101 0 true (fun _ => 0) fun _ => []]

theorem network_falls_silent_sample :
    (sampleTraffic.map NetEvent.taken).sum +
        weight (47 * 1) Arrival.rank
          (run (Network.step sampleCable) sampleNetwork sampleTraffic).flight ≤
      weight (47 * 1) Arrival.rank sampleNetwork.flight +
        (sampleTraffic.map (NetEvent.brought 1)).sum := by
  have hnumbered : Numbered sampleNetwork := by
    intro i nif hnif
    cases i <;> rw [List.mem_singleton.1 hnif] <;> rfl
  have honwire : Along (Network.step sampleCable) OnTheWire sampleNetwork sampleTraffic := by
    decide +kernel
  exact network_falls_silent (fun _ _ => Nat.le_refl 1) hnumbered honwire

end Ether
end DtsNet
