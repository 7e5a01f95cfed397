import DtsNet.Tcp.Accepting
import DtsNet.Tcp.Binding

/-!
# Table — the list of connections

`tcp_list` holds every connection of the host, in the order in which they were opened.  This
module has the functions that work on the list as a whole: `tcp_open`, which adds a connection,
`tcp_ip_recv`, which finds the connection of an arriving segment, and `tcp_loop`, which visits
them all and drops the CLOSED ones.
-/

namespace DtsNet
namespace Tcp

open Ip Dblk

variable {τ : Type} [TimerLib τ]

/-! ## Operations -/

/-- The place in the list stands for the pointer to the connection. -/
abbrev Table (τ : Type) := List (Conn τ)

/-- The connection is on this interface and local port. -/
def onPort (ip : Netif) (port : UInt32) (c : Conn τ) : Bool :=
  c.tcp.localhost.handle == ip.handle && c.tcp.port == port

/-- The remote address and port of the connection are the source of the segment. -/
def fromPeer (dg : Datagram) (c : Conn τ) : Bool :=
  ipAddrEquals c.tcp.dest dg.src && c.tcp.destPort == dg.seg.srcPort

/-- `tcp_open`; `none` where the code writes through a null pointer, the table as it was where
`tcp_open` returns one. -/
def tcpOpen (env : Env) (nifs : List Netif) (loc : IpAddr) (port : UInt32)
    (dest : Option IpAddr) (destPort : UInt16) (t : Table τ) : Option (Table τ) :=
  match ipFindNetif nifs loc with
  | some ip =>
      if t.any fun c => onPort ip port c && !c.tcp.passive then
        some t
      else if env.malloc .tcb [] then
        (tcpOpenConn env ip port dest destPort).map fun c => t ++ [c]
      else
        some t
  | none => some t

/-- The loop over `best_match` in `tcp_ip_recv`. -/
def bestMatchLoop (ip : Netif) (dg : Datagram) :
    List (Conn τ × ℕ) → Option (Conn τ × ℕ) → Option (Conn τ × ℕ)
  | [], best => best
  | c :: rest, best =>
      if onPort ip dg.seg.destPort.toUInt32 c.1 then
        if c.1.tcp.passive then
          if fromPeer dg c.1 then some c else bestMatchLoop ip dg rest (some c)
        else
          some c
      else
        bestMatchLoop ip dg rest best

/-- The connection that gets the segment, with its place in the table. -/
def bestMatch (ip : Netif) (dg : Datagram) (t : Table τ) : Option (Conn τ × ℕ) :=
  bestMatchLoop ip dg t.zipIdx none

/-- `tcp_ip_recv` for a datagram whose segment `tcp_unpack` accepts. -/
def tcpIpRecv (env : Env) (ip : Netif) (dg : Datagram) (beyond : List Byte) (t : Table τ) :
    Table τ :=
  match bestMatch ip dg t with
  | some (c, i) => t.set i (tcpReceived env c (dg.received beyond))
  | none => t

/-- `tcp_loop`; each connection is visited in an environment of its own. -/
def tcpLoop (envs : ℕ → Env) (t : Table τ) : Table τ :=
  (t.mapIdx fun i c => tcpLoopVisit (envs i) c).filter fun c => c.tcp.state != .closed

/-! ## Reachable tables -/

/-- Calls of the user on one connection. -/
def Event.IsCall : Event → Prop
  | .send _ _ => True
  | .recv _ _ => True
  | .close _ => True
  | _ => False

inductive TableStep : Table τ → Table τ → Prop
  | opens {t t' : Table τ} (env : Env) (nifs : List Netif) (loc : IpAddr) (port : UInt32)
      (dest : Option IpAddr) (destPort : UInt16) :
      tcpOpen env nifs loc port dest destPort t = some t' → TableStep t t'
  | arrives (t : Table τ) (env : Env) (ip : Netif) (dg : Datagram) (beyond : List Byte) :
      TableStep t (tcpIpRecv env ip dg beyond t)
  | loops (t : Table τ) (envs : ℕ → Env) : TableStep t (tcpLoop envs t)
  | calls {t : Table τ} {i : ℕ} {c : Conn τ} (e : Event) :
      e.IsCall → t[i]? = some c → TableStep t (t.set i (step c e))

def ReachableTable (t : Table τ) : Prop :=
  Relation.ReflTransGen TableStep [] t

/-! ## The invariant -/

/-- An active connection is the last one on its interface and port. -/
def ActiveLast (b b' : Binding) : Prop :=
  b.passive = false → ¬ (b'.localhost.handle = b.localhost.handle ∧ b'.port = b.port)

/-- Besides, an active connection never listens. -/
structure TableInv (t : Table τ) : Prop where
  active : ∀ c ∈ t, c.tcp.passive = false → ¬ Handshaking c.tcp.state
  last : (t.map fun c => c.tcp.binding).Pairwise ActiveLast

omit [TimerLib τ] in
theorem passive_of_binding {t t' : Tcb τ} (h : t'.binding = t.binding) : t'.passive = t.passive :=
  congrArg Binding.passive h

theorem not_handshaking_step_of_passive {c : Conn τ}
    (hc : c.tcp.passive = false → ¬ Handshaking c.tcp.state) (e : Event)
    (h : (step c e).tcp.passive = false) : ¬ Handshaking (step c e).tcp.state := by
  have hpassive : c.tcp.passive = false := by
    rw [← passive_of_binding (binding_step c e)]
    exact h
  exact not_handshaking_step (hc hpassive) e

/-- One connection makes a step. -/
theorem TableInv.set {t : Table τ} (ht : TableInv t) {i : ℕ} {c : Conn τ} (hi : t[i]? = some c)
    (e : Event) : TableInv (t.set i (step c e)) := by
  have hc : c ∈ t := List.mem_of_getElem? hi
  refine ⟨?_, ?_⟩
  · intro d hd
    rcases List.mem_or_eq_of_mem_set hd with hd | rfl
    · exact ht.active d hd
    · exact not_handshaking_step_of_passive (ht.active c hc) e
  · have hsame : (t.set i (step c e)).map (fun c => c.tcp.binding) =
        t.map fun c => c.tcp.binding := by
      refine List.ext_getElem? fun j => ?_
      by_cases hij : i = j
      · subst hij
        rcases List.getElem?_eq_some_iff.1 hi with ⟨hlt, hget⟩
        simp [hlt, hget, binding_step]
      · simp [hij]
    rw [hsame]
    exact ht.last

/-- All connections make a step, and some are dropped. -/
theorem TableInv.tcpLoop {t : Table τ} (ht : TableInv t) (envs : ℕ → Env) :
    TableInv (tcpLoop envs t) := by
  refine ⟨?_, ?_⟩
  · intro d hd
    rcases List.mem_mapIdx.1 (List.mem_filter.1 hd).1 with ⟨i, hi, rfl⟩
    exact not_handshaking_step_of_passive (ht.active _ (List.getElem_mem hi)) (.loop (envs i))
  · have hsame : (t.mapIdx fun i c => tcpLoopVisit (envs i) c).map (fun c => c.tcp.binding) =
        t.map fun c => c.tcp.binding := by
      refine List.ext_getElem? fun j => ?_
      cases h : t[j]? <;> simp [h, binding_tcpLoopVisit]
    have hsub := (List.filter_sublist (p := fun c : Conn τ => c.tcp.state != .closed)
      (l := t.mapIdx fun i c => tcpLoopVisit (envs i) c)).map fun c => c.tcp.binding
    rw [hsame] at hsub
    exact ht.last.sublist hsub

/-- The new connection comes behind those on its port, and none of these is active. -/
theorem TableInv.append {t : Table τ} (ht : TableInv t) {env : Env} {ip : Netif} {port : UInt32}
    {dest : Option IpAddr} {destPort : UInt16} {c : Conn τ}
    (hfree : (t.any fun c => onPort ip port c && !c.tcp.passive) = false)
    (hopen : tcpOpenConn env ip port dest destPort = some c) : TableInv (t ++ [c]) := by
  rcases binding_tcpOpenConn env c hopen with ⟨hbinding, hst⟩
  have hpassive : c.tcp.passive = dest.isNone := congrArg Binding.passive hbinding
  refine ⟨?_, ?_⟩
  · intro d hd
    rcases List.mem_append.1 hd with hd | hd
    · exact ht.active d hd
    · rw [List.mem_singleton.1 hd, hpassive, hst]
      intro hactive
      simp [hactive, Handshaking]
  · rw [List.map_append, List.pairwise_append]
    refine ⟨ht.last, by simp, ?_⟩
    intro b hb b' hb' hactive hsame
    rcases List.mem_map.1 hb with ⟨d, hd, rfl⟩
    have hb' : b' = c.tcp.binding := by simpa using hb'
    rw [hb', hbinding] at hsame
    have hnone := List.any_eq_false.1 hfree d hd
    have hactive : d.tcp.passive = false := hactive
    have hhandle : d.tcp.localhost.handle = ip.handle := hsame.1.symm
    have hport : d.tcp.port = port := hsame.2.symm
    have hon : onPort ip port d = true := by
      simp [onPort, hhandle, hport]
    simp [hon, hactive] at hnone

theorem TableInv.tcpOpen {t t' : Table τ} (ht : TableInv t) {env : Env} {nifs : List Netif}
    {loc : IpAddr} {port : UInt32} {dest : Option IpAddr} {destPort : UInt16}
    (h : tcpOpen env nifs loc port dest destPort t = some t') : TableInv t' := by
  unfold Tcp.tcpOpen at h
  split at h
  · split at h
    · cases h
      exact ht
    · next hfree =>
        split at h
        · rcases Option.map_eq_some_iff.1 h with ⟨c, hopen, rfl⟩
          exact ht.append (by simpa using hfree) hopen
        · cases h
          exact ht
  · cases h
    exact ht

/-- The loop stops at a connection that is active or has the source of the segment as its peer. -/
def stopsAt (dg : Datagram) (c : Conn τ) : Bool :=
  !c.tcp.passive || fromPeer dg c

omit [TimerLib τ] in
/-- The loop ends at the first connection on the port where it stops, or has gone past the last. -/
theorem bestMatchLoop_eq (ip : Netif) (dg : Datagram) (l : List (Conn τ × ℕ))
    (best : Option (Conn τ × ℕ)) :
    let cs := l.filter fun c => onPort ip dg.seg.destPort.toUInt32 c.1
    bestMatchLoop ip dg l best =
      (cs.find? fun c => stopsAt dg c.1).or (cs.getLast?.or best) := by
  induction l generalizing best with
  | nil =>
      rfl
  | cons c l ih =>
      cases hon : onPort ip dg.seg.destPort.toUInt32 c.1 with
      | false =>
          simpa [bestMatchLoop, hon] using ih best
      | true =>
          cases hstop : stopsAt dg c.1 with
          | true =>
              cases hp : c.1.tcp.passive <;>
                simp_all [bestMatchLoop, stopsAt]
          | false =>
              have hpass : c.1.tcp.passive = true ∧ fromPeer dg c.1 = false := by
                simpa [stopsAt] using hstop
              have hnext := ih (some c)
              simp only [bestMatchLoop, hon, hpass.1, hpass.2, hnext, hstop, List.filter_cons,
                List.find?_cons, List.getLast?_cons, if_true, Bool.false_eq_true, if_false]
              -- the candidate of the loop is the last one so far
              cases (l.filter fun c => onPort ip dg.seg.destPort.toUInt32 c.1).getLast? <;> rfl

omit [TimerLib τ] in
theorem bestMatch_getElem? {ip : Netif} {dg : Datagram} {t : Table τ} {c : Conn τ} {i : ℕ}
    (h : bestMatch ip dg t = some (c, i)) : t[i]? = some c := by
  rw [bestMatch, bestMatchLoop_eq] at h
  have hmem : (c, i) ∈ t.zipIdx := by
    rcases Option.or_eq_some_iff.1 h with h | ⟨_, h⟩
    · exact (List.mem_filter.1 (List.mem_of_find?_eq_some h)).1
    · rw [Option.or_none] at h
      exact (List.mem_filter.1 (List.mem_of_getLast? h)).1
  exact List.mem_zipIdx_iff_getElem?.1 hmem

/-! ## Reachable tables keep it -/

theorem TableInv.step {t t' : Table τ} (ht : TableInv t) (h : TableStep t t') : TableInv t' := by
  cases h with
  | opens env nifs loc port dest destPort h =>
      exact ht.tcpOpen h
  | arrives env ip dg beyond =>
      cases hbest : bestMatch ip dg t with
      | none =>
          simpa [tcpIpRecv, hbest] using ht
      | some b =>
          have h := ht.set (bestMatch_getElem? hbest) (.received env (dg.received beyond))
          simpa [tcpIpRecv, hbest, Tcp.step] using h
  | loops envs =>
      exact ht.tcpLoop envs
  | calls e he hi =>
      exact ht.set hi e

theorem tableInv_of_reachable {t : Table τ} (ht : ReachableTable t) : TableInv t := by
  induction ht with
  | refl =>
      exact ⟨by simp, by simp⟩
  | tail _ hstep ih =>
      exact ih.step hstep

end Tcp
end DtsNet
