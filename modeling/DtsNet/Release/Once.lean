import DtsNet.Release.Path

/-!
# Once — what is released, and how often

`ip_ether_send` ends a datagram in one of three ways.  If it fails, nothing is freed and the caller
is told so; if the driver takes the frame, the block is freed; if the driver refuses it three times,
nothing is freed and the caller takes it for sent.  From this it can be counted how often each thing
that `tcp_ip_send` allocated is freed.
-/

namespace DtsNet
namespace Release

open Dblk Ip Ether

variable {σ τ ν : Type}

/-! ## What becomes of one datagram -/

/-- No hardware address or no buffer; taken by the driver; or refused by it three times. -/
inductive Outcome
  | failed
  | taken
  | refused
  deriving DecidableEq, Repr

namespace Outcome

/-- What `ip_ether_send` returns. -/
def ok : Outcome → Bool
  | failed => false
  | taken => true
  | refused => true

/-- What `ip_ether_send` frees; a block that the driver refused is not freed, and counts as sent. -/
def frees (block : List Chunk) : Outcome → List Chunk
  | failed => []
  | taken => block ++ [.frameData]
  | refused => [.frameData]

end Outcome

section Send

variable [ListLib] (send : σ → EtherT → List Byte → σ × Bool) (malloc : σ → Bool) (h : EtherArp τ)

def etherOutcome (eth : EtherT) (dest : IpAddr) (block : List VNode) (s : σ) :
    Option (σ × Outcome) :=
  (destMac send h eth dest s).map fun
    | (s, none) => (s, .failed)
    | (s, some mac) =>
        if malloc s then
          let sent := offerBlock send eth 3 { ipFrame mac with payload := block } s
          (sent.2.1, if sent.2.2 then .taken else .refused)
        else
          (s, .failed)

/-- The outcome for a datagram of an interface, and the state it leaves below. -/
def llOutcome (ip : Netif) (s : σ) (d : IpDatagram) : Option (σ × Outcome) :=
  (h.ll ip.handle).bind fun eth =>
    etherOutcome send malloc h eth d.header.dest (dblkNodeInit d.rawData :: d.payload) s

theorem ipEtherSend_eq (eth : EtherT) (dest : IpAddr) (block : OwnedBlock VNode) (m : Heap σ) :
    ipEtherSend send malloc h eth dest [block] m =
      (etherOutcome send malloc h eth dest (block.map Owned.node) m.env).map fun r =>
        ({ env := r.1, freed := m.freed ++ r.2.frees (blockChunks block) }, r.2.ok) := by
  rw [ipEtherSend, etherOutcome, Option.map_map]
  congr 1
  funext r
  rcases r with ⟨s, mac⟩
  cases mac with
  | none =>
      simp [Outcome.frees, Outcome.ok]
  | some mac =>
      cases hmem : malloc s with
      | false =>
          simp [hmem, Outcome.frees, Outcome.ok]
      | true =>
          cases hsent : (offerBlock send eth 3
            { ipFrame mac with payload := block.map Owned.node } s).2.2 <;>
            simp [hmem, hsent, etherSendLoop, dblkDelete, Heap.free, Outcome.frees, Outcome.ok]

/-- What `ll_send` frees is read off the outcome. -/
theorem ipLlSend_eq (ip : Netif) (d : Datagram) (m : Heap σ) :
    ipLlSend send malloc h ip (some m) d =
      match llOutcome send malloc h ip m.env d.toIp with
      | some (s, o) => (some { env := s, freed := m.freed ++ o.frees (blockChunks d.payload) }, o.ok)
      | none => (none, false) := by
  cases hll : h.ll ip.handle with
  | none =>
      simp [ipLlSend, llOutcome, hll]
  | some eth =>
      have hraw : blockChunks (Owned.fromStack (dblkNodeInit d.rawData) :: d.payload) =
          blockChunks d.payload := rfl
      have hnodes : (Owned.fromStack (dblkNodeInit d.rawData) :: d.payload).map Owned.node =
          dblkNodeInit d.rawData :: d.payload.map Owned.node := rfl
      simp only [ipLlSend, llOutcome, hll, ipEtherSend_eq, hraw, hnodes, Option.bind_some,
        Datagram.toIp]
      cases etherOutcome send malloc h eth d.header.dest
        (dblkNodeInit d.rawData :: d.payload.map Owned.node) m.env <;> rfl

end Send

/-! ## What the loop over the fragments frees -/

/-- The nodes from the `i`-th on. -/
theorem blockChunks_fragmentNodes (i : ℕ) (vs : List VNode) :
    blockChunks (fragmentNodes i vs) = (List.range' i vs.length).map .fragmentNode := by
  induction vs generalizing i with
  | nil =>
      rfl
  | cons v vs ih =>
      have hcons : blockChunks (fragmentNodes i (v :: vs)) =
          .fragmentNode i :: blockChunks (fragmentNodes (i + 1) vs) := rfl
      rw [hcons, ih, List.length_cons, List.range'_succ, List.map_cons]

theorem flatMap_singletons (block : OwnedBlock ν) :
    (block.map fun n => [n]).flatMap blockChunks = blockChunks block := by
  induction block with
  | nil =>
      rfl
  | cons n block ih =>
      rw [List.map_cons, List.flatMap_cons, ih]
      simp [blockChunks]

/-- A lower layer whose calls have the given outcomes. -/
def Follows (llSend : Option (Heap σ) → Datagram → Option (Heap σ) × Bool)
    (outcome : σ → IpDatagram → Option (σ × Outcome)) : Prop :=
  ∀ m d, llSend (some m) d =
    match outcome m.env d.toIp with
    | some (s, o) => (some { env := s, freed := m.freed ++ o.frees (blockChunks d.payload) }, o.ok)
    | none => (none, false)

/-- Every fragment is taken by the driver, one after the other. -/
def AllTaken (outcome : σ → IpDatagram → Option (σ × Outcome)) :
    List VNode → Header → ℕ → σ → Prop
  | [], _, _, _ => True
  | curr :: next, hdr, rawSize, s =>
      let d := packedDatagram (fragmentHeader hdr curr next) rawSize [curr]
      ∃ s', outcome s d = some (s', .taken) ∧
        AllTaken outcome next (updateHeader d.header) d.rawData.length s'

instance AllTaken.decidable (outcome : σ → IpDatagram → Option (σ × Outcome)) :
    ∀ vs hdr rawSize s, Decidable (AllTaken outcome vs hdr rawSize s)
  | [], _, _, _ => isTrue trivial
  | curr :: next, hdr, rawSize, s =>
      let d := packedDatagram (fragmentHeader hdr curr next) rawSize [curr]
      match hout : outcome s d with
      | some (s', .taken) =>
          haveI := AllTaken.decidable outcome next (updateHeader d.header) d.rawData.length s'
          decidable_of_iff (AllTaken outcome next (updateHeader d.header) d.rawData.length s')
            ⟨fun h => ⟨s', hout, h⟩, fun ⟨t, ht, h⟩ => by
              have heq := hout.symm.trans ht
              cases heq
              exact h⟩
      | some (_, .refused) | some (_, .failed) | none => isFalse fun ⟨t, ht, _⟩ => by
          have heq := hout.symm.trans ht
          cases heq

section Fragments

variable {llSend : Option (Heap σ) → Datagram → Option (Heap σ) × Bool}
  {outcome : σ → IpDatagram → Option (σ × Outcome)} (hll : Follows llSend outcome)
  (payload : OwnedBlock Node)

include hll

/-- One fragment: a datagram that failed ends the loop, and everything is released; any other is
followed by the next one. -/
theorem sendFragments_cons (i : ℕ) {v : VNode} {vs : List VNode} {hdr : Header} {rawSize : ℕ}
    {d : IpDatagram} (hd : packedDatagram (fragmentHeader hdr v vs) rawSize [v] = d) (m : Heap σ) :
    sendFragments llSend payload (fragmentNodes i (v :: vs)) hdr rawSize (some m) =
      match outcome m.env d with
      | none => (none, false)
      | some (s, .failed) =>
          (some
            { env := s
              freed := m.freed ++ ((List.range' i (v :: vs).length).map .fragmentNode ++
                blockChunks payload) }, false)
      | some (s, o) =>
          sendFragments llSend payload (fragmentNodes (i + 1) vs) (updateHeader d.header)
            d.rawData.length (some { env := s, freed := m.freed ++ o.frees [.fragmentNode i] }) := by
  have hnodes := map_node_fragmentNodes (i + 1) vs
  have htoIp : Datagram.toIp
      { header := (ipHeaderPack (fragmentHeader hdr v vs) rawSize).1
        rawData := (ipHeaderPack (fragmentHeader hdr v vs) rawSize).2
        payload := [{ node := v, dataMalloc := none, nodeMalloc := some (.fragmentNode i) }] } = d :=
    hd
  have hheader : (ipHeaderPack (fragmentHeader hdr v vs) rawSize).1 = d.header :=
    congrArg IpDatagram.header hd
  have hraw : (ipHeaderPack (fragmentHeader hdr v vs) rawSize).2 = d.rawData :=
    congrArg IpDatagram.rawData hd
  rw [fragmentNodes, sendFragments, hnodes]
  dsimp only
  rw [hll, htoIp, hheader, hraw]
  cases hout : outcome m.env d with
  | none =>
      rfl
  | some r =>
      rcases r with ⟨s, o⟩
      cases o with
      | taken =>
          rfl
      | refused =>
          rfl
      | failed =>
          have hchunks := blockChunks_fragmentNodes (i + 1) vs
          simpa [Outcome.ok, Outcome.frees, dblkListDelete_eq, Heap.free, flatMap_singletons,
            List.range'_succ, blockChunks, Owned.chunks] using hchunks

omit hll in
theorem sendFragments_nil (i : ℕ) (hdr : Header) (rawSize : ℕ) (m : Heap σ) :
    sendFragments llSend payload (fragmentNodes i []) hdr rawSize (some m) =
      (some { m with freed := m.freed ++ blockChunks payload }, true) := by
  simp [fragmentNodes, sendFragments, dblkListDelete, dblkDelete, Heap.free]

variable {payload} {m' : Heap σ}

/-- Whether or not all went out, the payload is freed once, and nothing that belongs to neither the
payload nor the fragments. -/
theorem count_sendFragments {vs : List VNode} {i : ℕ} {hdr : Header} {rawSize : ℕ} {m : Heap σ}
    {ok : Bool}
    (h : sendFragments llSend payload (fragmentNodes i vs) hdr rawSize (some m) = (some m', ok))
    {c : Chunk} (hframe : c ≠ .frameData) (hc : ∀ j, i ≤ j → c ≠ .fragmentNode j) :
    m'.freed.count c = m.freed.count c + (blockChunks payload).count c := by
  induction vs generalizing i hdr rawSize m with
  | nil =>
      rw [sendFragments_nil] at h
      cases h
      exact List.count_append
  | cons v vs ih =>
      have hi : c ≠ .fragmentNode i := hc i (Nat.le_refl i)
      have hnext : ∀ j, i + 1 ≤ j → c ≠ .fragmentNode j := fun j hj => hc j (Nat.le_of_succ_le hj)
      rw [sendFragments_cons hll payload i rfl] at h
      split at h
      · cases h
      · -- it failed: the fragments that are left and the payload are freed
        cases h
        have hnone : ((List.range' i (v :: vs).length).map Chunk.fragmentNode).count c = 0 := by
          refine List.count_eq_zero.2 fun hmem => ?_
          rcases List.mem_map.1 hmem with ⟨j, hj, hjc⟩
          exact hc j (List.mem_range'_1.1 hj).1 hjc.symm
        simp only [List.count_append, hnone, Nat.zero_add]
      · -- otherwise this call freed at most the fragment
        next s o _ _ =>
          have hfrees : (o.frees [.fragmentNode i]).count c = 0 := by
            cases o <;> simp [Outcome.frees, hframe.symm, hi.symm]
          rw [ih h hnext, List.count_append, hfrees, Nat.add_zero]

/-- A loop that ends early does so at a datagram that failed. -/
theorem not_allTaken_of_failed {vs : List VNode} {i : ℕ} {hdr : Header} {rawSize : ℕ} {m : Heap σ}
    (h : sendFragments llSend payload (fragmentNodes i vs) hdr rawSize (some m) = (some m', false)) :
    ¬ AllTaken outcome vs hdr rawSize m.env := by
  induction vs generalizing i hdr rawSize m with
  | nil =>
      rw [sendFragments_nil] at h
      cases h
  | cons v vs ih =>
      -- the first was taken, so that the loop failed at a later one
      rintro ⟨s', hout, hrest⟩
      rw [sendFragments_cons hll payload i rfl, hout] at h
      exact ih h hrest

/-- A fragment is freed where the driver takes it, so that a loop that runs to its end frees each of
them exactly if all are taken. -/
theorem count_fragmentNode_iff {vs : List VNode} {i : ℕ} {hdr : Header} {rawSize : ℕ} {m : Heap σ}
    (hpayload : ∀ j, .fragmentNode j ∉ blockChunks payload)
    (h : sendFragments llSend payload (fragmentNodes i vs) hdr rawSize (some m) = (some m', true)) :
    (∀ j, i ≤ j → j < i + vs.length →
        m'.freed.count (.fragmentNode j) = m.freed.count (.fragmentNode j) + 1) ↔
      AllTaken outcome vs hdr rawSize m.env := by
  induction vs generalizing i hdr rawSize m with
  | nil =>
      simp only [List.length_nil, AllTaken, iff_true]
      intro j hj hlt
      omega
  | cons v vs ih =>
      rw [sendFragments_cons hll payload i rfl] at h
      -- the first one is freed by the first call of `ll_send` or not at all
      have hfirst : ∀ {s : σ} {o : Outcome},
          sendFragments llSend payload (fragmentNodes (i + 1) vs) (updateHeader
            (packedDatagram (fragmentHeader hdr v vs) rawSize [v]).header)
            (packedDatagram (fragmentHeader hdr v vs) rawSize [v]).rawData.length
            (some { env := s, freed := m.freed ++ o.frees [.fragmentNode i] }) = (some m', true) →
          m'.freed.count (.fragmentNode i) =
            m.freed.count (.fragmentNode i) + (o.frees [.fragmentNode i]).count (.fragmentNode i) := by
        intro s o h
        have hcount := count_sendFragments hll h (c := .fragmentNode i) (by simp) fun j hj => by
          intro heq
          cases heq
          omega
        rw [hcount, List.count_eq_zero.2 (hpayload i), List.count_append, Nat.add_zero]
      -- and the others are not
      have hothers : ∀ {o : Outcome} {j : ℕ}, i + 1 ≤ j →
          (m.freed ++ o.frees [.fragmentNode i]).count (.fragmentNode j) =
            m.freed.count (.fragmentNode j) := by
        intro o j hj
        have hne : i ≠ j := by omega
        cases o <;> simp [Outcome.frees, hne]
      cases hout : outcome m.env (packedDatagram (fragmentHeader hdr v vs) rawSize [v]) with
      | none =>
          rw [hout] at h
          cases h
      | some r =>
          rcases r with ⟨s, o⟩
          rw [hout] at h
          cases o with
          | failed =>
              cases h
          | refused =>
              -- nobody frees what the driver refused three times
              constructor
              · intro hall
                have hcount := hall i (Nat.le_refl i) (by simp)
                rw [hfirst h] at hcount
                simp [Outcome.frees] at hcount
              · rintro ⟨s', hout', _⟩
                rw [hout] at hout'
                cases hout'
          | taken =>
              have hrest := ih h
              constructor
              · intro hall
                refine ⟨s, hout, hrest.1 fun j hj hlt => ?_⟩
                rw [hothers hj]
                exact hall j (by omega) (by rw [List.length_cons]; omega)
              · rintro ⟨s', hout', htaken⟩ j hj hlt
                rw [hout] at hout'
                cases hout'
                rw [List.length_cons] at hlt
                rcases Nat.eq_or_lt_of_le hj with rfl | hj
                · rw [hfirst h]
                  simp [Outcome.frees]
                · rw [hrest.2 htaken j hj (by omega)]
                  exact congrArg (· + 1) (hothers hj)

end Fragments

/-! ## The whole call -/

/-- The header as `ip_hl_send` completes it. -/
def hlHeader (ip : Netif) (ident : ℕ) (hdr : Header) : Header :=
  { hdr with
    version := BitVec.ofNat 4 ip.addr.version.toNat
    src := ip.addr
    identification := UInt16.ofNat (ident + 1) }

/-- The datagram of a payload that needs no fragments. -/
def wholeDatagram (ip : Netif) (ident : ℕ) (hdr : Header) (payload : Block) : IpDatagram :=
  packedDatagram
    { hlHeader ip ident hdr with
      totalLength := UInt16.ofNat (dblkSize payload)
      fragmentOffset := 0 } 64 (payload.map Node.toVNode)

/-- A datagram that is not fragmented is not refused by the driver three times; of one that is, the
driver takes every fragment. -/
def Handled (outcome : σ → IpDatagram → Option (σ × Outcome)) (ip : Netif) (ident : ℕ) (hdr : Header)
    (payload : Block) (s : σ) : Prop :=
  if dblkSize payload < 1400 then
    ∀ s', outcome s (wholeDatagram ip ident hdr payload) ≠ some (s', .refused)
  else
    AllTaken outcome (dblkFragment (blockChain payload) 1400)
      { hlHeader ip ident hdr with fragmentOffset := 0 } 64 s

def fragmentCount (payload : Block) : ℕ :=
  if dblkSize payload < 1400 then 0 else (dblkFragment (blockChain payload) 1400).length

/-- The copy, its data, and the nodes of its fragments. -/
def allocated (dataMalloc nodeMalloc : Bool) (raw : Block) : List Chunk :=
  if dataMalloc then
    if nodeMalloc then
      [.copyData, .copyNode] ++ (List.range (fragmentCount [copyOf raw])).map .fragmentNode
    else
      [.copyData]
  else
    []

def AllReleased (dataMalloc nodeMalloc : Bool) (raw : Block) (m : Heap σ) : Prop :=
  ∀ c ∈ allocated dataMalloc nodeMalloc raw, m.freed.count c = 1

/-- The copy has the size of the segment, in 16 bits. -/
theorem size_copyOf (raw : Block) : (copyOf raw).size = dblkSize raw % 65536 := by
  have hnew : (dblkNodeNewWithBuff (dblkSize raw)).data.length = dblkSize raw % 65536 := by
    simp [dblkNodeNewWithBuff]
  have hcopy : (dblkCopyTo (raw.map Node.toVNode) (dblkNodeNewWithBuff (dblkSize raw)).data
      (dblkNodeNewWithBuff (dblkSize raw)).size).1.length =
        (dblkNodeNewWithBuff (dblkSize raw)).data.length :=
    length_dblkCopyTo (Nat.le_refl _)
  exact hcopy.trans hnew

section HlSend

variable {llSend : Option (Heap σ) → Datagram → Option (Heap σ) × Bool}
  {outcome : σ → IpDatagram → Option (σ × Outcome)}

theorem blockChunks_map (f : ν → VNode) (block : OwnedBlock ν) :
    blockChunks (block.map (Owned.map f)) = blockChunks block := by
  simp only [blockChunks, List.flatMap_map]
  rfl

theorem ipHlSend_whole (hll : Follows llSend outcome) {ip : Netif} {ident : ℕ} {hdr : Header}
    {payload : OwnedBlock Node} (hsize : dblkSize (payload.map Owned.node) < 1400) (m : Heap σ) :
    ipHlSend llSend ip ident hdr payload (some m) =
      match outcome m.env (wholeDatagram ip ident hdr (payload.map Owned.node)) with
      | some (s, o) => (some { env := s, freed := m.freed ++ o.frees (blockChunks payload) }, o.ok)
      | none => (none, false) := by
  rw [ipHlSend, if_pos hsize, hll, Datagram.toIp]
  dsimp only
  rw [map_node_map, blockChunks_map]
  rfl

end HlSend

section TcpSend

variable [ListLib] {send : σ → EtherT → List Byte → σ × Bool} {malloc : σ → Bool} {h : EtherArp τ}
  {dataMalloc nodeMalloc : Bool} {ident : ℕ} {hdr : Header} {ip : Netif} {dest : IpAddr}
  {raw : Block} {s : σ} {m : Heap σ} {ok : Bool}

theorem follows_ipLlSend : Follows (ipLlSend send malloc h ip) (llOutcome send malloc h ip) :=
  fun m d => ipLlSend_eq send malloc h ip d m

/-- What `tcp_ip_send` adds to `ip_hl_send`: it deletes the copy if that returned zero. -/
theorem exists_ipHlSend {copy : OwnedBlock Node × Heap σ}
    (hcopy : dblkCopy dataMalloc nodeMalloc raw { env := s, freed := [] } = copy)
    (hrun : tcpIpSend send malloc h dataMalloc nodeMalloc ident hdr ip dest raw s = (some m, ok)) :
    ∃ m₁, ipHlSend (ipLlSend send malloc h ip) ip ident (tcpHeader hdr dest) copy.1 (some copy.2) =
        (some m₁, ok) ∧
      m = if ok then m₁ else m₁.free (blockChunks copy.1) := by
  rw [tcpIpSend, hcopy] at hrun
  cases hsent : ipHlSend (ipLlSend send malloc h ip) ip ident (tcpHeader hdr dest) copy.1
      (some copy.2) with
  | mk r ok' =>
      rw [hsent] at hrun
      cases ok' with
      | true =>
          cases hrun
          exact ⟨m, rfl, rfl⟩
      | false =>
          cases r with
          | none =>
              cases hrun
          | some m₁ =>
              cases hrun
              exact ⟨m₁, rfl, rfl⟩

/-- Without a copy there is nothing to release behind `dblk_copy`. -/
theorem allReleased_of_no_copy (hcopy : ¬ (dataMalloc = true ∧ nodeMalloc = true))
    (hrun : tcpIpSend send malloc h dataMalloc nodeMalloc ident hdr ip dest raw s = (some m, ok)) :
    AllReleased dataMalloc nodeMalloc raw m := by
  cases dataMalloc with
  | false =>
      intro c hc
      cases hc
  | true =>
      cases nodeMalloc with
      | true =>
          exact absurd ⟨rfl, rfl⟩ hcopy
      | false =>
          rcases exists_ipHlSend rfl hrun with ⟨m₁, hsent, rfl⟩
          have hcopied : dblkCopy true false raw { env := s, freed := [] } =
              ([], { env := s, freed := [.copyData] }) := rfl
          rw [hcopied, ipHlSend_whole follows_ipLlSend (by simp [dblkSize])] at hsent
          intro c hc
          rw [List.mem_singleton.1 hc]
          split at hsent
          · next s' o _ =>
              cases hsent
              cases o <;> simp [Outcome.frees, Outcome.ok, blockChunks, Heap.free, hcopied]
          · cases hsent

theorem allReleased_iff_of_copy
    (hrun : tcpIpSend send malloc h true true ident hdr ip dest raw s = (some m, ok)) :
    AllReleased true true raw m ↔
      Handled (llOutcome send malloc h ip) ip ident (tcpHeader hdr dest) [copyOf raw] s := by
  let copy : OwnedBlock Node :=
    [{ node := copyOf raw
       dataMalloc := some .copyData
       nodeMalloc := some .copyNode }]
  have hcopied : dblkCopy true true raw { env := s, freed := [] } =
      (copy, { env := s, freed := [] }) := rfl
  have hchunks : blockChunks copy = [.copyData, .copyNode] := rfl
  rcases exists_ipHlSend hcopied hrun with ⟨m₁, hsent, rfl⟩
  by_cases hsize : dblkSize [copyOf raw] < 1400
  · -- one datagram
    have hsize' : dblkSize (copy.map Owned.node) < 1400 := hsize
    rw [ipHlSend_whole follows_ipLlSend hsize'] at hsent
    rw [AllReleased, allocated, Handled, if_pos hsize, fragmentCount, if_pos hsize]
    split at hsent
    · next s' o hout =>
        cases hsent
        have hout' : llOutcome send malloc h ip s
            (wholeDatagram ip ident (tcpHeader hdr dest) [copyOf raw]) = some (s', o) := hout
        rw [hout']
        cases o <;> simp [Outcome.frees, Outcome.ok, Heap.free, hchunks]
    · cases hsent
  · -- fragments
    let fragments := dblkFragment (blockChain [copyOf raw]) 1400
    have hsize' : ¬ dblkSize (copy.map Owned.node) < 1400 := hsize
    have hmem : ∀ c, c ∈ allocated true true raw ↔
        c = .copyData ∨ c = .copyNode ∨ ∃ j < fragments.length, .fragmentNode j = c := by
      intro c
      simp [allocated, fragmentCount, hsize, fragments]
    rw [ipHlSend, if_neg hsize'] at hsent
    have hcopyCount : ∀ c, c = .copyData ∨ c = .copyNode → m₁.freed.count c = 1 := by
      intro c hc
      have hcount := count_sendFragments follows_ipLlSend hsent (c := c)
        (by rcases hc with rfl | rfl <;> simp) (by rcases hc with rfl | rfl <;> simp)
      rw [hcount, hchunks]
      rcases hc with rfl | rfl <;> simp
    rw [Handled, if_neg hsize]
    cases ok with
    | true =>
        have hiff := count_fragmentNode_iff follows_ipLlSend (by simp [hchunks]) hsent
        have hzero : 0 + fragments.length = fragments.length := Nat.zero_add _
        refine Iff.trans ?_ hiff
        constructor
        · intro hall j _ hj
          have hj' : j < fragments.length := Nat.lt_of_lt_of_eq hj hzero
          exact hall _ ((hmem _).2 (Or.inr (Or.inr ⟨j, hj', rfl⟩)))
        · intro hall c hc
          rcases (hmem c).1 hc with hc | hc | ⟨j, hj, rfl⟩
          · exact hcopyCount c (Or.inl hc)
          · exact hcopyCount c (Or.inr hc)
          · exact hall j (Nat.zero_le j) (Nat.lt_of_lt_of_eq hj hzero.symm)
    | false =>
        -- the copy was deleted by `ip_hl_send` already
        have hnot := not_allTaken_of_failed follows_ipLlSend hsent
        refine iff_of_false ?_ hnot
        intro hall
        have htwice := hall .copyData ((hmem _).2 (Or.inl rfl))
        have honce := hcopyCount .copyData (Or.inl rfl)
        simp [Heap.free, hchunks, honce] at htwice

/-- Whatever happens below: of all that was allocated for a segment, each thing is freed once,
exactly if a datagram without fragments is not refused three times, and of one with fragments the
driver takes every one. -/
theorem allReleased_iff
    (hrun : tcpIpSend send malloc h dataMalloc nodeMalloc ident hdr ip dest raw s = (some m, ok)) :
    AllReleased dataMalloc nodeMalloc raw m ↔
      (dataMalloc = true → nodeMalloc = true →
        Handled (llOutcome send malloc h ip) ip ident (tcpHeader hdr dest) [copyOf raw] s) := by
  by_cases hcopy : dataMalloc = true ∧ nodeMalloc = true
  · rcases hcopy with ⟨rfl, rfl⟩
    have hiff := allReleased_iff_of_copy hrun
    exact ⟨fun hall _ _ => hiff.1 hall, fun hhandled => hiff.2 (hhandled rfl rfl)⟩
  · have hall := allReleased_of_no_copy hcopy hrun
    exact ⟨fun _ hdata hnode => absurd ⟨hdata, hnode⟩ hcopy, fun _ => hall⟩

end TcpSend

/-! ## A sample host -/

def sampleDest : IpAddr :=
  ⟨4, ⟨10, 0, 0, 2⟩, ⟨255, 0, 0, 0⟩⟩

def sampleEth : EtherT :=
  { handle := 1
    macAddress := ⟨2, 0, 0, 0, 0, 1⟩ }

/-- The host of the samples, whose ARP table is given. -/
def sampleArp (arpTable : List (Arpti Tcp.Deadline)) : EtherArp Tcp.Deadline :=
  { arpTable := arpTable
    arptiCount := 8
    nifList := [{ ip := sampleNetif, eth := sampleEth }]
    ll := fun _ => some sampleEth }

/-- The hardware address of the peer. -/
def sampleArpti : Arpti Tcp.Deadline :=
  { ip := sampleDest.addr
    mac := ⟨2, 0, 0, 0, 0, 2⟩
    tmr := ⟨none⟩ }

/-- A segment of `n` bytes. -/
def sampleRaw (n : ℕ) : Block :=
  [{ data := List.replicate n 0, offset := 0 }]

/-- The calls of `free` for a segment of `n` bytes, if the driver answers `accepts` to all frames. -/
def sampleSend (accepts : Bool) (arpTable : List (Arpti Tcp.Deadline)) (n : ℕ) :
    Option (Heap Unit) × Bool :=
  tcpIpSend (fun _ _ _ => ((), accepts)) (fun _ => true) (sampleArp arpTable) true true 0 Header.zero
    sampleNetif sampleDest (sampleRaw n) ()

/-- A segment in one datagram, and one in two fragments. -/
theorem allReleased_iff_sample :
    AllReleased true true (sampleRaw 20)
        ({ env := (), freed := [.copyData, .copyNode, .frameData] } : Heap Unit) ∧
      AllReleased true true (sampleRaw 1500)
        ({ env := (), freed := [.fragmentNode 0, .frameData, .fragmentNode 1, .frameData, .copyData,
            .copyNode] } : Heap Unit) := by
  have hwhole : sampleSend true [sampleArpti] 20 =
      (some { env := (), freed := [.copyData, .copyNode, .frameData] }, true) := by
    decide +kernel
  have hfragments : sampleSend true [sampleArpti] 1500 =
      (some
        { env := ()
          freed := [.fragmentNode 0, .frameData, .fragmentNode 1, .frameData, .copyData,
            .copyNode] }, true) := by
    decide +kernel
  refine ⟨(allReleased_iff hwhole).2 fun _ _ => ?_, (allReleased_iff hfragments).2 fun _ _ => ?_⟩
  · rw [Handled, if_pos (by decide)]
    rintro ⟨⟩
    decide +kernel
  · rw [Handled, if_neg (by decide +kernel)]
    decide +kernel

/-- A driver that refuses a small segment three times: nothing of the copy is freed.  An address that
is not known, and a segment of 1400 bytes: the copy is freed twice. -/
theorem allReleased_fails_sample :
    (∃ m, sampleSend false [sampleArpti] 20 = (some m, true) ∧ m.freed = [.frameData] ∧
        ¬ AllReleased true true (sampleRaw 20) m) ∧
      ∃ m, sampleSend true [] 1400 = (some m, false) ∧
        m.freed = [.fragmentNode 0, .copyData, .copyNode, .copyData, .copyNode] ∧
        ¬ AllReleased true true (sampleRaw 1400) m := by
  have hmem : ∀ n, .copyData ∈ allocated true true (sampleRaw n) := by
    simp [allocated]
  have hrefused : sampleSend false [sampleArpti] 20 =
      (some { env := (), freed := [.frameData] }, true) := by
    decide +kernel
  have hunknown : sampleSend true [] 1400 =
      (some
        { env := ()
          freed := [.fragmentNode 0, .copyData, .copyNode, .copyData, .copyNode] }, false) := by
    decide +kernel
  refine ⟨⟨_, hrefused, rfl, ?_⟩, ⟨_, hunknown, rfl, ?_⟩⟩
  · intro hall
    exact absurd (hall .copyData (hmem 20)) (by decide)
  · intro hall
    exact absurd (hall .copyData (hmem 1400)) (by decide)

end Release
end DtsNet
