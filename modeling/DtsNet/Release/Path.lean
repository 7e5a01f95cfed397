import DtsNet.Stack

/-!
# Release — who frees what `tcp_ip_send` allocates

The way down once more, with the calls of `free`.  The duty to release is shared: `ip_ether_send`
frees a block that the driver took, `ip_hl_send` the fragments and the payload of a fragmented
datagram, and `tcp_ip_send` the copy of a datagram that did not go out.  `free` appends to a log.
-/

namespace DtsNet
namespace Release

open Dblk Ip Ether
open Tcp (TimerLib)

/-! ## Nodes that own memory -/

/-- What one call of `tcp_ip_send`, with the layers under it, gets from `malloc`. -/
inductive Chunk
  | copyNode
  | copyData
  | fragmentNode (i : ℕ)
  | frameData
  deriving DecidableEq, Repr

/-- A node with what its `data_malloc` and `node_malloc` flags say is to be freed with it. -/
structure Owned (ν : Type) where
  node : ν
  dataMalloc : Option Chunk
  nodeMalloc : Option Chunk
  deriving DecidableEq, Repr

namespace Owned

variable {ν μ : Type}

def map (f : ν → μ) (n : Owned ν) : Owned μ :=
  { node := f n.node
    dataMalloc := n.dataMalloc
    nodeMalloc := n.nodeMalloc }

/-- In the order in which they are freed. -/
def chunks (n : Owned ν) : List Chunk :=
  n.dataMalloc.toList ++ n.nodeMalloc.toList

/-- `dblk_node_new_from_stack`. -/
def fromStack (node : ν) : Owned ν :=
  { node := node
    dataMalloc := none
    nodeMalloc := none }

end Owned

/-- The nodes of one block, which are joined by `more`. -/
abbrev OwnedBlock (ν : Type) := List (Owned ν)

def blockChunks {ν : Type} (block : OwnedBlock ν) : List Chunk :=
  block.flatMap Owned.chunks

/-- The state of what lies below, and the calls of `free` so far. -/
structure Heap (σ : Type) where
  env : σ
  freed : List Chunk
  deriving DecidableEq, Repr

variable {σ τ ν : Type}

def Heap.free (chunks : List Chunk) (m : Heap σ) : Heap σ :=
  { m with freed := m.freed ++ chunks }

/-- `dblk_delete` frees the first block of a list and returns the rest. -/
def dblkDelete : List (OwnedBlock ν) → Heap σ → List (OwnedBlock ν) × Heap σ
  | [], m => ([], m)
  | block :: next, m => (next, m.free (blockChunks block))

def dblkListDelete : List (OwnedBlock ν) → Heap σ → Heap σ
  | [], m => m
  | block :: next, m => dblkListDelete next (dblkDelete (block :: next) m).2

/-! ## `ip_ether_send` -/

def etherSendLoop (send : σ → EtherT → List Byte → σ × Bool) (eth : EtherT) :
    List (OwnedBlock VNode) → Frame → Heap σ → Heap σ
  | [], _, m => m
  | block :: next, frame, m =>
      let sent := offerBlock send eth 3 { frame with payload := block.map Owned.node } m.env
      let m := { m with env := sent.2.1 }
      if sent.2.2 then
        etherSendLoop send eth next sent.1 (dblkDelete (block :: next) m).2
      else
        -- what was refused three times stays where it is
        m

/-- The frame for a datagram, in the buffer of 2048 bytes. -/
def ipFrame (mac : Mac) : Frame :=
  { destMacAddr := mac
    srcMacAddr := ⟨0, 0, 0, 0, 0, 0⟩
    payload := []
    type := etherTypeIp
    data := List.replicate 2048 0
    dataSize := 2048 }

section Send

variable [ListLib] (send : σ → EtherT → List Byte → σ × Bool) (malloc : σ → Bool) (h : EtherArp τ)

/-- The hardware address a datagram goes to; `none` inside is an address that is not known. -/
def destMac (eth : EtherT) (dest : IpAddr) (s : σ) : Option (σ × Option Mac) :=
  if ipAddrBroadcast dest then
    some (s, some ethernetBroadcastAddress)
  else
    etherArpGetMacAddress send h eth dest.addr s

/-- `malloc` says whether the buffer can be allocated, which may depend on all that went before. -/
def ipEtherSend (eth : EtherT) (dest : IpAddr) (blocks : List (OwnedBlock VNode)) (m : Heap σ) :
    Option (Heap σ × Bool) :=
  (destMac send h eth dest m.env).map fun
    | (s, none) => ({ m with env := s }, false)
    | (s, some mac) =>
        let m := { m with env := s }
        if malloc s then
          ((etherSendLoop send eth blocks (ipFrame mac) m).free [.frameData], true)
        else
          (m, false)

/-- An `ip_datagram_t` on its way to the driver; `raw_data` is on the stack. -/
structure Datagram where
  header : Header
  rawData : List Byte
  payload : OwnedBlock VNode
  deriving DecidableEq, Repr

def Datagram.toIp (d : Datagram) : IpDatagram :=
  { header := d.header
    rawData := d.rawData
    payload := d.payload.map Owned.node }

/-- `ip->ll_send(ip->ll, datagram)`, as in `Stack`. -/
def ipLlSend (ip : Netif) (m : Option (Heap σ)) (d : Datagram) : Option (Heap σ) × Bool :=
  match h.ll ip.handle, m with
  | some eth, some m =>
      let raw := Owned.fromStack (dblkNodeInit d.rawData)
      match ipEtherSend send malloc h eth d.header.dest [raw :: d.payload] m with
      | some (m, ok) => (some m, ok)
      | none => (none, false)
  | _, _ => (none, false)

end Send

/-! ## `ip_hl_send` -/

/-- Each fragment is one node of its own, numbered from `i`; its bytes lie in the payload. -/
def fragmentNodes : ℕ → List VNode → OwnedBlock VNode
  | _, [] => []
  | i, v :: vs =>
      { node := v
        dataMalloc := none
        nodeMalloc := some (.fragmentNode i) } :: fragmentNodes (i + 1) vs

section HlSend

variable (llSend : Option (Heap σ) → Datagram → Option (Heap σ) × Bool)

/-- The loop over the fragments, with what is released behind it or where it is left. -/
def sendFragments (payload : OwnedBlock Node) :
    OwnedBlock VNode → Header → ℕ → Option (Heap σ) → Option (Heap σ) × Bool
  | [], _, _, m => (m.map (dblkListDelete [payload]), true)
  | curr :: next, hdr, rawSize, m =>
      let packed :=
        ipHeaderPack (fragmentHeader hdr curr.node (next.map Owned.node)) rawSize
      let sent := llSend m { header := packed.1, rawData := packed.2, payload := [curr] }
      if sent.2 then
        sendFragments payload next (updateHeader packed.1) packed.2.length sent.1
      else
        (sent.1.map fun m =>
          let m := dblkListDelete [[curr]] m
          let m := dblkListDelete (next.map fun n => [n]) m
          dblkListDelete [payload] m, false)

def ipHlSend (ip : Netif) (ident : ℕ) (hdr : Header) (payload : OwnedBlock Node)
    (m : Option (Heap σ)) : Option (Heap σ) × Bool :=
  let payloadSize := dblkSize (payload.map Owned.node)
  let hdr :=
    { hdr with
      version := BitVec.ofNat 4 ip.addr.version.toNat
      src := ip.addr
      identification := UInt16.ofNat (ident + 1) }
  if payloadSize < 1400 then
    let hdr :=
      { hdr with
        totalLength := UInt16.ofNat payloadSize
        fragmentOffset := 0 }
    let packed := ipHeaderPack hdr 64
    llSend m
      { header := packed.1, rawData := packed.2, payload := payload.map (Owned.map Node.toVNode) }
  else
    let fragments := dblkFragment (blockChain (payload.map Owned.node)) 1400
    sendFragments llSend payload (fragmentNodes 0 fragments) { hdr with fragmentOffset := 0 } 64 m

end HlSend

/-! ## `tcp_ip_send` -/

/-- The node that `dblk_copy` makes of a block, with a size of 16 bits. -/
def copyOf (dblk : Block) : Node :=
  let cpy := dblkNodeNewWithBuff (dblkSize dblk)
  { cpy with data := (dblkCopyTo (dblk.map Node.toVNode) cpy.data cpy.size).1 }

/-- `dblk_copy`; the flags say which of the two allocations succeed. -/
def dblkCopy (dataMalloc nodeMalloc : Bool) (dblk : Block) (m : Heap σ) :
    OwnedBlock Node × Heap σ :=
  if dataMalloc then
    if nodeMalloc then
      ([{ node := copyOf dblk
          dataMalloc := some .copyData
          nodeMalloc := some .copyNode }], m)
    else
      ([], m.free [.copyData])
  else
    ([], m)

/-- The header of `tcp_ip_send`, in what was on the stack. -/
def tcpHeader (hdr : Header) (dest : IpAddr) : Header :=
  { hdr with
    options := []
    optionSize := 0
    typeOfService := 0
    protocol := ipProtocolTcp
    timeToLive := 60
    dest := dest }

/-- `raw` is the segment's `raw_data`. -/
def tcpIpSend [ListLib] (send : σ → EtherT → List Byte → σ × Bool) (malloc : σ → Bool)
    (h : EtherArp τ) (dataMalloc nodeMalloc : Bool) (ident : ℕ) (hdr : Header) (ip : Netif)
    (dest : IpAddr) (raw : Block) (s : σ) : Option (Heap σ) × Bool :=
  let copy := dblkCopy dataMalloc nodeMalloc raw { env := s, freed := [] }
  let sent :=
    ipHlSend (ipLlSend send malloc h ip) ip ident (tcpHeader hdr dest) copy.1 (some copy.2)
  if sent.2 then
    sent
  else
    (sent.1.map fun m => (dblkDelete [copy.1] m).2, false)

/-! ## The same calls without memory -/

section Forget

variable [ListLib] (send : σ → EtherT → List Byte → σ × Bool)

omit [ListLib] in
theorem env_etherSendLoop (eth : EtherT) (blocks : List (OwnedBlock VNode)) (frame : Frame)
    (m : Heap σ) :
    (etherSendLoop send eth blocks frame m).env =
      Ether.etherSendLoop send eth (blocks.map (List.map Owned.node)) frame m.env := by
  induction blocks generalizing frame m with
  | nil =>
      rfl
  | cons block next ih =>
      rw [etherSendLoop, List.map_cons, Ether.etherSendLoop]
      split
      · rw [ih]
        rfl
      · rfl

theorem env_ipEtherSend (malloc : Bool) (h : EtherArp τ) (eth : EtherT) (dest : IpAddr)
    (blocks : List (OwnedBlock VNode)) (m : Heap σ) :
    (ipEtherSend send (fun _ => malloc) h eth dest blocks m).map (fun r => (r.1.env, r.2)) =
      Ether.ipEtherSend send malloc h eth dest (blocks.map (List.map Owned.node)) m.env := by
  rw [ipEtherSend, Ether.ipEtherSend, Option.map_map, destMac]
  congr 1
  funext r
  rcases r with ⟨s, mac⟩
  cases mac with
  | none =>
      rfl
  | some mac =>
      cases malloc with
      | false =>
          rfl
      | true =>
          have hloop := env_etherSendLoop send eth blocks (ipFrame mac) { m with env := s }
          exact congrArg (fun s' => (s', true)) hloop

theorem env_ipLlSend (malloc : Bool) (h : EtherArp τ) (ip : Netif) (m : Option (Heap σ))
    (d : Datagram) :
    ((ipLlSend send (fun _ => malloc) h ip m d).1.map Heap.env,
        (ipLlSend send (fun _ => malloc) h ip m d).2) =
      DtsNet.ipLlSend send malloc h ip (m.map Heap.env) d.toIp := by
  cases hll : h.ll ip.handle with
  | none =>
      cases m <;> simp [ipLlSend, DtsNet.ipLlSend, hll]
  | some eth =>
      cases m with
      | none =>
          simp [ipLlSend, DtsNet.ipLlSend, hll]
      | some m =>
          have hsent := env_ipEtherSend send malloc h eth d.header.dest
            [Owned.fromStack (dblkNodeInit d.rawData) :: d.payload] m
          have hnodes : [Owned.fromStack (dblkNodeInit d.rawData) :: d.payload].map
              (List.map Owned.node) = [dblkNodeInit d.rawData :: d.toIp.payload] := rfl
          rw [hnodes] at hsent
          simp only [ipLlSend, DtsNet.ipLlSend, hll, Option.map_some]
          have hheader : d.toIp.header = d.header := rfl
          have hraw : d.toIp.rawData = d.rawData := rfl
          rw [hheader, hraw, ← hsent]
          cases ipEtherSend send (fun _ => malloc) h eth d.header.dest
            [Owned.fromStack (dblkNodeInit d.rawData) :: d.payload] m <;> rfl

end Forget

theorem dblkListDelete_eq (blocks : List (OwnedBlock ν)) (m : Heap σ) :
    dblkListDelete blocks m = m.free (blocks.flatMap blockChunks) := by
  induction blocks generalizing m with
  | nil =>
      simp [dblkListDelete, Heap.free]
  | cons block next ih =>
      simp [dblkListDelete, dblkDelete, ih, Heap.free]

theorem map_node_map {μ : Type} (f : ν → μ) (block : OwnedBlock ν) :
    (block.map (Owned.map f)).map Owned.node = (block.map Owned.node).map f := by
  rw [List.map_map, List.map_map]
  rfl

theorem map_node_fragmentNodes (i : ℕ) (vs : List VNode) :
    (fragmentNodes i vs).map Owned.node = vs := by
  induction vs generalizing i with
  | nil =>
      rfl
  | cons v vs ih =>
      simp [fragmentNodes, ih]

/-- The calls of `free` change nothing that the layers below see. -/
theorem env_sendFragments {llSend : Option (Heap σ) → Datagram → Option (Heap σ) × Bool}
    {llSend' : Option σ → IpDatagram → Option σ × Bool}
    (hll : ∀ m d, ((llSend m d).1.map Heap.env, (llSend m d).2) = llSend' (m.map Heap.env) d.toIp)
    (payload : OwnedBlock Node) (fragments : OwnedBlock VNode) (hdr : Header) (rawSize : ℕ)
    (m : Option (Heap σ)) :
    ((sendFragments llSend payload fragments hdr rawSize m).1.map Heap.env,
        (sendFragments llSend payload fragments hdr rawSize m).2) =
      Ip.sendFragments llSend' (fragments.map Owned.node) hdr rawSize (m.map Heap.env) := by
  induction fragments generalizing hdr rawSize m with
  | nil =>
      cases m <;> simp [sendFragments, Ip.sendFragments, dblkListDelete_eq, Heap.free]
  | cons curr next ih =>
      let packed := ipHeaderPack (fragmentHeader hdr curr.node (next.map Owned.node)) rawSize
      let d : Datagram := { header := packed.1, rawData := packed.2, payload := [curr] }
      have hsent : llSend' (m.map Heap.env)
          { header := packed.1, rawData := packed.2, payload := [curr.node] } =
            ((llSend m d).1.map Heap.env, (llSend m d).2) := (hll m d).symm
      rw [sendFragments, List.map_cons, Ip.sendFragments]
      dsimp only
      rw [hsent]
      cases hok : (llSend m d).2 with
      | true =>
          simpa [d, packed, hok] using ih (updateHeader packed.1) packed.2.length (llSend m d).1
      | false =>
          cases (llSend m d).1 <;> simp [dblkListDelete_eq, Heap.free]

theorem env_ipHlSend {llSend : Option (Heap σ) → Datagram → Option (Heap σ) × Bool}
    {llSend' : Option σ → IpDatagram → Option σ × Bool}
    (hll : ∀ m d, ((llSend m d).1.map Heap.env, (llSend m d).2) = llSend' (m.map Heap.env) d.toIp)
    (ip : Netif) (ident : ℕ) (hdr : Header) (payload : OwnedBlock Node) (m : Option (Heap σ)) :
    ((ipHlSend llSend ip ident hdr payload m).1.map Heap.env,
        (ipHlSend llSend ip ident hdr payload m).2) =
      Ip.ipHlSend llSend' ip ident hdr (payload.map Owned.node) (m.map Heap.env) := by
  rw [ipHlSend, Ip.ipHlSend]
  dsimp only
  split
  · rw [hll, Datagram.toIp]
    dsimp only
    rw [map_node_map]
  · rw [env_sendFragments hll, map_node_fragmentNodes]

/-- What is sent is what `ip_hl_send` sends of the copy. -/
theorem env_tcpIpSend [ListLib] (send : σ → EtherT → List Byte → σ × Bool) (malloc : Bool)
    (h : EtherArp τ) (dataMalloc nodeMalloc : Bool) (ident : ℕ) (hdr : Header) (ip : Netif)
    (dest : IpAddr) (raw : Block) (s : σ) :
    ((tcpIpSend send (fun _ => malloc) h dataMalloc nodeMalloc ident hdr ip dest raw s).1.map
          Heap.env,
        (tcpIpSend send (fun _ => malloc) h dataMalloc nodeMalloc ident hdr ip dest raw s).2) =
      Ip.ipHlSend (DtsNet.ipLlSend send malloc h ip) ip ident (tcpHeader hdr dest)
        (if dataMalloc && nodeMalloc then [copyOf raw] else []) (some s) := by
  let copy := dblkCopy dataMalloc nodeMalloc raw { env := s, freed := [] }
  -- a copy for which one of the allocations fails is the null pointer
  have hcopy : copy.1.map Owned.node = (if dataMalloc && nodeMalloc then [copyOf raw] else []) ∧
      copy.2.env = s := by
    cases dataMalloc <;> cases nodeMalloc <;> exact ⟨rfl, rfl⟩
  have hsent := env_ipHlSend (env_ipLlSend send malloc h ip) ip ident (tcpHeader hdr dest) copy.1
    (some copy.2)
  rw [hcopy.1, Option.map_some, hcopy.2] at hsent
  rw [← hsent, tcpIpSend]
  split
  · rfl
  · next hok =>
      rw [Option.map_map, Bool.not_eq_true] at *
      exact Prod.ext rfl hok.symm

end Release
end DtsNet
