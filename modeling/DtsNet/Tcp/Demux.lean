import DtsNet.Tcp.Table

/-!
# Demux — which connection gets a segment

A segment should go to the connection with its addresses and ports, and to a listener if there is
none.  The loop of `tcp_ip_recv` asks how a connection was opened and not in which state it is:
it takes an active connection whatever its peer, and leaves the last passive one that it passed
as the choice, listening or not.  `DemuxOk` describes the tables on which this does not matter.
-/

namespace DtsNet
namespace Tcp

open Ip Dblk

variable {τ : Type}

/-! ## The property -/

/-- The connections on the interface and the local port that the segment arrives for. -/
def candidates (ip : Netif) (dg : Datagram) (t : Table τ) : List (Conn τ) :=
  t.filter (onPort ip dg.seg.destPort.toUInt32)

/-- A connection of its own for the source of the segment. -/
def Exact (dg : Datagram) (c : Conn τ) : Prop :=
  c.tcp.state ≠ .listen ∧ fromPeer dg c = true

def Listening (c : Conn τ) : Prop :=
  c.tcp.state = .listen

instance (dg : Datagram) (c : Conn τ) : Decidable (Exact dg c) :=
  inferInstanceAs (Decidable (_ ∧ _))

instance (c : Conn τ) : Decidable (Listening c) :=
  inferInstanceAs (Decidable (_ = _))

/-- The segment is delivered to a candidate with the property `P`. -/
def DeliveredTo (ip : Netif) (dg : Datagram) (t : Table τ) (P : Conn τ → Prop) : Prop :=
  ∃ c i, bestMatch ip dg t = some (c, i) ∧ t[i]? = some c ∧ c ∈ candidates ip dg t ∧ P c

structure Demuxed (ip : Netif) (dg : Datagram) (t : Table τ) : Prop where
  exact : (∃ c ∈ candidates ip dg t, Exact dg c) → DeliveredTo ip dg t (Exact dg)
  listener : ¬ (∃ c ∈ candidates ip dg t, Exact dg c) →
    (∃ c ∈ candidates ip dg t, Listening c) → DeliveredTo ip dg t Listening
  nobody : ¬ (∃ c ∈ candidates ip dg t, Exact dg c) →
    ¬ (∃ c ∈ candidates ip dg t, Listening c) → bestMatch ip dg t = none

/-- With a passive connection for the source among the candidates: the first of these does not
listen, unless all connections for the source do.  Without one: the last candidate listens if it
is passive, and is for the source if it is active. -/
def DemuxOk (ip : Netif) (dg : Datagram) (t : Table τ) : Prop :=
  match (candidates ip dg t).find? fun c => c.tcp.passive && fromPeer dg c with
  | some c => Listening c → ∀ d ∈ candidates ip dg t, fromPeer dg d = true → Listening d
  | none =>
      match (candidates ip dg t).getLast? with
      | some c => if c.tcp.passive then Listening c else fromPeer dg c = true
      | none => True

/-! ## What the loop finds -/

theorem bestMatch_map_fst (ip : Netif) (dg : Datagram) (t : Table τ) :
    (bestMatch ip dg t).map Prod.fst =
      ((candidates ip dg t).find? (stopsAt dg)).or (candidates ip dg t).getLast? := by
  have hfst : candidates ip dg t =
      (t.zipIdx.filter fun c => onPort ip dg.seg.destPort.toUInt32 c.1).map Prod.fst := by
    have h := List.filter_map (f := Prod.fst) (p := onPort ip dg.seg.destPort.toUInt32)
      (l := t.zipIdx)
    rw [List.zipIdx_map_fst] at h
    exact h
  rw [hfst, List.find?_map, List.getLast?_map, bestMatch, bestMatchLoop_eq, Option.or_none,
    Option.map_or]
  rfl

/-- With active connections in the last place only, it does not matter whether the loop stops at
them. -/
theorem find?_stopsAt_or {dg : Datagram} {cs : List (Conn τ)}
    (h : cs.Pairwise fun c _ => c.tcp.passive = true) :
    (cs.find? (stopsAt dg)).or cs.getLast? =
      (cs.find? fun c => c.tcp.passive && fromPeer dg c).or cs.getLast? := by
  induction cs with
  | nil =>
      rfl
  | cons c cs ih =>
      rcases List.pairwise_cons.1 h with ⟨hc, hcs⟩
      cases hp : c.tcp.passive with
      | false =>
          have hnil : cs = [] := by
            refine List.eq_nil_iff_forall_not_mem.2 fun d hd => ?_
            simp [hp] at hc
            exact hc d hd
          simp [hnil, stopsAt, hp]
      | true =>
          cases hf : fromPeer dg c with
          | true =>
              simp [stopsAt, hp, hf]
          | false =>
              have ih := ih hcs
              cases hlast : cs.getLast? with
              | none =>
                  simp [List.getLast?_eq_none_iff.1 hlast, stopsAt, hp, hf]
              | some d =>
                  rw [hlast] at ih
                  simpa [stopsAt, hp, hf, List.getLast?_cons, hlast] using ih

section Reachable

variable (ip : Netif) (dg : Datagram) {t : Table τ} (ht : TableInv t)

include ht

theorem candidates_pairwise : (candidates ip dg t).Pairwise fun c _ => c.tcp.passive = true := by
  have hall : t.Pairwise fun c d => ActiveLast c.tcp.binding d.tcp.binding :=
    List.pairwise_map.1 ht.last
  refine (hall.sublist List.filter_sublist).imp_of_mem ?_
  intro c d hc hd hlast
  have hcon := (List.mem_filter.1 hc).2
  have hdon := (List.mem_filter.1 hd).2
  simp only [onPort, Bool.and_eq_true, beq_iff_eq] at hcon hdon
  by_contra hp
  have hsame : d.tcp.localhost.handle = c.tcp.localhost.handle ∧ d.tcp.port = c.tcp.port :=
    ⟨hdon.1.trans hcon.1.symm, hdon.2.trans hcon.2.symm⟩
  exact hlast (Bool.eq_false_iff.2 hp) hsame

theorem bestMatch_eq :
    (bestMatch ip dg t).map Prod.fst =
      ((candidates ip dg t).find? fun c => c.tcp.passive && fromPeer dg c).or
        (candidates ip dg t).getLast? := by
  rw [bestMatch_map_fst, find?_stopsAt_or (candidates_pairwise ip dg ht)]

theorem getLast?_of_active {c : Conn τ} (hc : c ∈ candidates ip dg t)
    (hactive : c.tcp.passive = false) : (candidates ip dg t).getLast? = some c := by
  rcases List.append_of_mem hc with ⟨pre, post, hsplit⟩
  have hpairs := candidates_pairwise ip dg ht
  rw [hsplit, List.pairwise_append, List.pairwise_cons] at hpairs
  have hnil : post = [] := by
    refine List.eq_nil_iff_forall_not_mem.2 fun d hd => ?_
    simpa [hactive] using hpairs.2.1.1 d hd
  simp [hsplit, hnil]

theorem not_listening_of_active {c : Conn τ} (hc : c ∈ candidates ip dg t)
    (hactive : c.tcp.passive = false) : ¬ Listening c := by
  intro hlisten
  exact ht.active c (List.mem_filter.1 hc).1 hactive (Or.inl hlisten)

end Reachable

/-- Where it is known which connection gets the segment, `DeliveredTo` is about that one. -/
theorem deliveredTo_iff {ip : Netif} {dg : Datagram} {t : Table τ} {c : Conn τ}
    (hbest : (bestMatch ip dg t).map Prod.fst = some c) (hc : c ∈ candidates ip dg t)
    (P : Conn τ → Prop) : DeliveredTo ip dg t P ↔ P c := by
  rcases Option.map_eq_some_iff.1 hbest with ⟨⟨c', i⟩, hb, rfl⟩
  constructor
  · rintro ⟨d, j, hd, _, _, hP⟩
    rw [hb] at hd
    cases hd
    exact hP
  · intro hP
    exact ⟨c', i, hb, bestMatch_getElem? hb, hc, hP⟩

/-- The segment goes where it should if the connection it goes to is right. -/
theorem demuxed_iff {ip : Netif} {dg : Datagram} {t : Table τ} {c : Conn τ}
    (hbest : (bestMatch ip dg t).map Prod.fst = some c) (hc : c ∈ candidates ip dg t) :
    Demuxed ip dg t ↔
      Exact dg c ∨ Listening c ∧ ∀ d ∈ candidates ip dg t, fromPeer dg d = true → Listening d := by
  have hsome : bestMatch ip dg t ≠ none := by
    intro hnone
    simp [hnone] at hbest
  constructor
  · intro h
    by_cases hexact : ∃ d ∈ candidates ip dg t, Exact dg d
    · exact Or.inl ((deliveredTo_iff hbest hc _).1 (h.exact hexact))
    · right
      by_cases hlisten : ∃ d ∈ candidates ip dg t, Listening d
      · refine ⟨(deliveredTo_iff hbest hc _).1 (h.listener hexact hlisten), ?_⟩
        intro d hd hpeer
        by_contra hstate
        exact hexact ⟨d, hd, hstate, hpeer⟩
      · exact absurd (h.nobody hexact hlisten) hsome
  · rintro (hexact | ⟨hlisten, hnone⟩)
    · have hsome' : ∃ d ∈ candidates ip dg t, Exact dg d := ⟨c, hc, hexact⟩
      exact ⟨fun _ => (deliveredTo_iff hbest hc _).2 hexact, fun h => absurd hsome' h,
        fun h => absurd hsome' h⟩
    · refine ⟨?_, fun _ _ => (deliveredTo_iff hbest hc _).2 hlisten,
        fun _ h => absurd ⟨c, hc, hlisten⟩ h⟩
      rintro ⟨d, hd, hstate, hpeer⟩
      exact absurd (hnone d hd hpeer) hstate

/-! ## The condition is exact -/

/-- On every reachable table, the segment goes to the connection it belongs to exactly if the
table meets `DemuxOk` for it. -/
theorem demuxed_iff_demuxOk [TimerLib τ] {t : Table τ} (ht : ReachableTable t) (ip : Netif)
    (dg : Datagram) : Demuxed ip dg t ↔ DemuxOk ip dg t := by
  have hinv := tableInv_of_reachable ht
  have hbest := bestMatch_eq ip dg hinv
  unfold DemuxOk
  split
  · next c hfind =>
      -- a passive connection of the peer: the loop stops at the first
      have hc : c ∈ candidates ip dg t := List.mem_of_find?_eq_some hfind
      have hpeer : c.tcp.passive = true ∧ fromPeer dg c = true := by
        simpa using List.find?_some hfind
      rw [hfind, Option.some_or] at hbest
      rw [demuxed_iff hbest hc]
      constructor
      · rintro (hexact | h) hlisten
        · exact absurd hlisten hexact.1
        · exact h.2
      · intro h
        by_cases hlisten : Listening c
        · exact Or.inr ⟨hlisten, h hlisten⟩
        · exact Or.inl ⟨hlisten, hpeer.2⟩
  · next hfind =>
      have hpassive : ∀ d ∈ candidates ip dg t, fromPeer dg d = true → d.tcp.passive = false := by
        intro d hd hpeer
        have hno := List.find?_eq_none.1 hfind d hd
        simpa [hpeer] using hno
      rw [hfind, Option.none_or] at hbest
      split
      · next c hlast =>
          have hc : c ∈ candidates ip dg t := List.mem_of_getLast? hlast
          rw [hlast] at hbest
          rw [demuxed_iff hbest hc]
          -- a connection of the peer is active and therefore the last one
          have honly : ∀ d ∈ candidates ip dg t, fromPeer dg d = true → d = c := by
            intro d hd hpeer
            have hd' := getLast?_of_active ip dg hinv hd (hpassive d hd hpeer)
            rw [hlast] at hd'
            exact (Option.some.inj hd').symm
          cases hp : c.tcp.passive with
          | true =>
              have hother : ∀ d ∈ candidates ip dg t, fromPeer dg d = true → Listening d := by
                intro d hd hpeer
                have hactive := hpassive d hd hpeer
                rw [honly d hd hpeer, hp] at hactive
                cases hactive
              rw [if_pos rfl]
              constructor
              · rintro (hexact | h)
                · exact absurd (hother c hc hexact.2) hexact.1
                · exact h.1
              · exact fun h => Or.inr ⟨h, hother⟩
          | false =>
              have hstate := not_listening_of_active ip dg hinv hc hp
              rw [if_neg Bool.false_ne_true]
              constructor
              · rintro (hexact | h)
                · exact hexact.2
                · exact absurd h.1 hstate
              · exact fun h => Or.inl ⟨hstate, h⟩
      · next hlast =>
          -- nobody is on the port
          have hnil : candidates ip dg t = [] := List.getLast?_eq_none_iff.1 hlast
          have hnone : bestMatch ip dg t = none := by
            rw [hlast] at hbest
            exact Option.map_eq_none_iff.1 hbest
          refine iff_of_true ⟨?_, ?_, fun _ _ => hnone⟩ trivial
          · rintro ⟨c, hc, _⟩
            simp [hnil] at hc
          · rintro _ ⟨c, hc, _⟩
            simp [hnil] at hc

/-- A SYN for port 5000 of the sample host. -/
def sampleSyn (src : IpAddr) : Datagram :=
  { src := src, dest := sampleIp.addr, seg := (peerSegment 700 0 segFlagSyn []).toSegment }

theorem reachableTable_listener : ReachableTable [sampleConn 100 none] := by
  refine .single (.opens (.working 100) [sampleIp] sampleIp.addr 5000 none 80 ?_)
  decide

/-- The listener answers one peer, and the port is opened for a second time. -/
def sampleTable : Table Deadline :=
  tcpIpRecv (.working 101) sampleIp (sampleSyn samplePeer) [] [sampleConn 100 none] ++
    [sampleConn 102 none]

theorem reachableTable_sampleTable : ReachableTable sampleTable := by
  refine (reachableTable_listener.tail
    (.arrives _ (.working 101) sampleIp (sampleSyn samplePeer) [])).tail
    (.opens (.working 102) [sampleIp] sampleIp.addr 5000 none 80 ?_)
  decide

/-- The next segment of the peer gets to the first of the two connections, the SYN of a stranger to the
second. -/
theorem demuxed_sample :
    let stranger : IpAddr := { samplePeer with addr := ⟨192, 168, 1, 3⟩ }
    (Demuxed sampleIp (sampleSyn samplePeer) sampleTable ∧
        (bestMatch sampleIp (sampleSyn samplePeer) sampleTable).map Prod.snd = some 0) ∧
      Demuxed sampleIp (sampleSyn stranger) sampleTable ∧
        (bestMatch sampleIp (sampleSyn stranger) sampleTable).map Prod.snd = some 1 := by
  have hiff := fun dg => demuxed_iff_demuxOk reachableTable_sampleTable sampleIp dg
  refine ⟨⟨(hiff _).2 ?_, by decide⟩, (hiff _).2 ?_, by decide⟩
  · have hanswered : ¬ Listening (tcpReceived (.working 101) (sampleConn 100 none)
        ((sampleSyn samplePeer).received [])) := by
      decide
    exact fun hlistening => absurd hlistening hanswered
  · exact (by decide : Listening (sampleConn 102 none))

/-- A listener that has answered one peer gets the segments of every other peer. -/
theorem not_demuxed_synReceived :
    ∃ (t : Table Deadline) (ip : Netif) (dg : Datagram), ReachableTable t ∧ ¬ Demuxed ip dg t := by
  let t := tcpIpRecv (.working 101) sampleIp (sampleSyn samplePeer) [] [sampleConn 100 none]
  let stranger : IpAddr := { samplePeer with addr := ⟨192, 168, 1, 3⟩ }
  refine ⟨t, sampleIp, sampleSyn stranger, ?_, ?_⟩
  · exact reachableTable_listener.tail (.arrives _ (.working 101) sampleIp (sampleSyn samplePeer) [])
  · intro h
    have hnone := h.nobody (by decide) (by decide)
    exact absurd hnone (by decide)

end Tcp
end DtsNet
