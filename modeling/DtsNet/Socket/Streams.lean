import DtsNet.Socket.Projection
import DtsNet.Tcp.Pair
import DtsNet.Tcp.Reading

/-!
# Streams — from the descriptors of one host to those of another

Two hosts run any programs: sockets are opened, bound, polled and closed, other connections come and
go, and segments of anybody arrive.  As long as the two control blocks of one connection hear nothing
but each other, the two hosts behave for them as the pair of ends does, whatever the rest does.  The
bytes that `recv` returns at the one end are then the first ones that `send` took at the other.
-/

namespace DtsNet
namespace Socket

open Ip Dblk Tcp Udp

variable {τ : Type} [TimerLib τ]

/-! ## Two hosts -/

structure Hosts (τ : Type) where
  a : Host τ
  b : Host τ

/-- A step of one of the hosts. -/
inductive HostsEvent
  | atA (e : HostEvent)
  | atB (e : HostEvent)

def hostsStep (s : Hosts τ) : HostsEvent → Option (Hosts τ)
  | .atA e => (hostStep s.a e).map fun h => { s with a := h }
  | .atB e => (hostStep s.b e).map fun h => { s with b := h }

abbrev runHosts (s : Hosts τ) (es : List HostsEvent) : Option (Hosts τ) :=
  Machine.tryRun hostsStep s es

/-- Both hosts have just been booted. -/
def Hosts.init : Hosts τ :=
  ⟨.init, .init⟩

/-! ## One connection of them -/

/-- The segments that the peer has sent, if it is there. -/
def sentBy (peer : Option (Conn τ)) : List Datagram :=
  peer.elim [] fun y => outputs y.log

/-- What may happen to the end at `p` whose peer is `peer`: what arrives was sent by the peer, and
nobody closes its socket. -/
def Heard (p : ℕ) (peer : Option (Conn τ)) (h : Host τ) : HostEvent → Prop
  | .tcpArrives _ ip dg _ => h.receiver ip dg = some p → dg ∈ sentBy peer
  | .sendto _ _ fd buf _ => h.streams fd p = true → 0 < buf.length ∧ buf.length ≤ 1379
  | .close _ fd => (isTcpSock (h.sockets fd) && (h.sockets fd).tcp == some p) = false
  | _ => True

instance (p : ℕ) (peer : Option (Conn τ)) (h : Host τ) : ∀ e, Decidable (Heard p peer h e)
  | .tcpArrives _ ip dg _ =>
      inferInstanceAs (Decidable (h.receiver ip dg = some p → dg ∈ sentBy peer))
  | .sendto _ _ fd buf _ =>
      inferInstanceAs (Decidable (h.streams fd p = true → 0 < buf.length ∧ buf.length ≤ 1379))
  | .close _ fd =>
      inferInstanceAs (Decidable ((isTcpSock (h.sockets fd) && (h.sockets fd).tcp == some p) = false))
  | .socket _ _ _ | .bind _ _ _ _ | .listen _ _ _ | .accept _ _ _ | .connect _ _ _ _
  | .recvfrom _ _ _ _ | .udpArrives _ _ _ _ | .loops _ => isTrue trivial

/-- The ends at `p` and `q` hear only each other. -/
def Linked (p q : ℕ) (s : Hosts τ) : HostsEvent → Prop
  | .atA e => Heard p (s.b.tcb q) s.a e
  | .atB e => Heard q (s.a.tcb p) s.b e

instance (p q : ℕ) (s : Hosts τ) : ∀ e, Decidable (Linked p q s e)
  | .atA e => inferInstanceAs (Decidable (Heard p (s.b.tcb q) s.a e))
  | .atB e => inferInstanceAs (Decidable (Heard q (s.a.tcb p) s.b e))

def HostsEvent.AllocOk : HostsEvent → Prop
  | .atA e => e.AllocOk
  | .atB e => e.AllocOk

/-- What one end may meet, in terms of its own machine. -/
def Meets (peer : Option (Conn τ)) : Touch → Prop
  | .event e =>
      match peer with
      | some y => NetOk y e
      | none => ∀ y : Conn τ, NetOk y e
  | .close _ => False

omit [TimerLib τ] in
theorem meets_of_heard {p : ℕ} {peer : Option (Conn τ)} {h : Host τ} {e : HostEvent}
    (hok : Heard p peer h e) (hmem : e.AllocOk) {t : Touch} (ht : h.touch p e = some t) :
    Meets peer t := by
  cases e with
  | tcpArrives env ip dg beyond =>
      simp only [Host.touch] at ht
      split at ht
      · next hreceiver =>
          cases ht
          have hdg := hok hreceiver
          cases peer with
          | none =>
              simp [sentBy] at hdg
          | some y =>
              exact ⟨hmem, dg, hdg, beyond, rfl⟩
      · cases ht
  | sendto env udpSendto fd buf destAddr =>
      simp only [Host.touch] at ht
      split at ht
      · next hstr =>
          cases ht
          cases peer with
          | none =>
              exact fun y => ⟨hmem, hok hstr⟩
          | some y =>
              exact ⟨hmem, hok hstr⟩
      · cases ht
  | recvfrom fd buf len flags =>
      simp only [Host.touch] at ht
      split at ht
      · cases ht
        cases peer with
        | none =>
            exact fun y => trivial
        | some y =>
            trivial
      · cases ht
  | close env fd =>
      simp only [Host.touch] at ht
      split at ht
      · next hptr =>
          rw [hok] at hptr
          cases hptr
      · cases ht
  | loops envs =>
      rcases Option.map_eq_some_iff.1 ht with ⟨i, _, rfl⟩
      cases peer with
      | none =>
          exact fun y => hmem i
      | some y =>
          exact hmem i
  | _ =>
      cases ht

/-- The events of one end, as long as the other one is not there. -/
def Alone (x : Conn τ) : Prop :=
  ∃ x₀ xs, OpenedOk x₀ ∧ (∀ e ∈ xs, ∀ y : Conn τ, NetOk y e) ∧ x = runConn x₀ xs

/-- The pair of the ends, from the moment when they were made. -/
def PairRun (x y : Conn τ) : Prop :=
  ∃ x₀ y₀ es, OpenedOk x₀ ∧ OpenedOk y₀ ∧ Machine.Along pairStep PairOk ⟨x₀, y₀⟩ es ∧
    runPair ⟨x₀, y₀⟩ es = ⟨x, y⟩

/-! ## Turning the pair round -/

def flipPair (p : Pair τ) : Pair τ :=
  ⟨p.b, p.a⟩

def flipEvent : PairEvent → PairEvent
  | .atA e => .atB e
  | .atB e => .atA e

theorem pairStep_flip (p : Pair τ) (e : PairEvent) :
    pairStep (flipPair p) (flipEvent e) = flipPair (pairStep p e) := by
  cases e <;> rfl

omit [TimerLib τ] in
theorem pairOk_flip (p : Pair τ) (e : PairEvent) : PairOk (flipPair p) (flipEvent e) ↔ PairOk p e := by
  cases e <;> rfl

theorem runPair_flip (p : Pair τ) (es : List PairEvent) :
    runPair (flipPair p) (es.map flipEvent) = flipPair (runPair p es) := by
  induction es generalizing p with
  | nil =>
      rfl
  | cons e es ih =>
      calc
        runPair (flipPair p) ((e :: es).map flipEvent)
            = runPair (pairStep (flipPair p) (flipEvent e)) (es.map flipEvent) := rfl
        _ = runPair (flipPair (pairStep p e)) (es.map flipEvent) := by rw [pairStep_flip]
        _ = flipPair (runPair p (e :: es)) := ih (pairStep p e)

theorem along_flip {p : Pair τ} {es : List PairEvent} (h : Machine.Along pairStep PairOk p es) :
    Machine.Along pairStep PairOk (flipPair p) (es.map flipEvent) := by
  induction es generalizing p with
  | nil =>
      trivial
  | cons e es ih =>
      refine ⟨(pairOk_flip p e).2 h.1, ?_⟩
      rw [pairStep_flip]
      exact ih h.2

theorem PairRun.flip {x y : Conn τ} (h : PairRun x y) : PairRun y x := by
  rcases h with ⟨x₀, y₀, es, hx, hy, hok, hrun⟩
  refine ⟨y₀, x₀, es.map flipEvent, hy, hx, along_flip hok, ?_⟩
  calc
    runPair ⟨y₀, x₀⟩ (es.map flipEvent) = flipPair (runPair ⟨x₀, y₀⟩ es) := runPair_flip ⟨x₀, y₀⟩ es
    _ = ⟨y, x⟩ := by rw [hrun]; rfl

/-! ## Steps of the ends -/

/-- One more event at the first end. -/
theorem PairRun.step {x y : Conn τ} (h : PairRun x y) {e : Event} (hok : NetOk y e) :
    PairRun (Tcp.step x e) y := by
  rcases h with ⟨x₀, y₀, es, hx, hy, halong, hrun⟩
  have hrun : Machine.run pairStep ⟨x₀, y₀⟩ es = ⟨x, y⟩ := hrun
  refine ⟨x₀, y₀, es ++ [.atA e], hx, hy, ?_, ?_⟩
  · refine (Machine.along_append pairStep PairOk _ es _).2 ⟨halong, ?_, trivial⟩
    rw [hrun]
    exact hok
  · refine (Machine.run_append pairStep _ es _).trans ?_
    rw [hrun]
    rfl

theorem Alone.step {x : Conn τ} (h : Alone x) {e : Event} (hok : ∀ y : Conn τ, NetOk y e) :
    Alone (Tcp.step x e) := by
  rcases h with ⟨x₀, xs, hx, hxs, rfl⟩
  refine ⟨x₀, xs ++ [e], hx, fun f hf => ?_, ?_⟩
  · rcases List.mem_append.1 hf with hf | hf
    · exact hxs f hf
    · rw [List.mem_singleton.1 hf]
      exact hok
  · exact (Machine.run_append Tcp.step x₀ xs [e]).symm

/-- The other end is made. -/
theorem Alone.pairRun {x y : Conn τ} (h : Alone x) (hy : OpenedOk y) : PairRun x y := by
  rcases h with ⟨x₀, xs, hx, hxs, rfl⟩
  have hmeets : ∀ x₁ : Conn τ, Machine.Along pairStep PairOk ⟨x₁, y⟩ (xs.map .atA) ∧
      runPair ⟨x₁, y⟩ (xs.map .atA) = ⟨runConn x₁ xs, y⟩ := by
    induction xs with
    | nil =>
        exact fun x₁ => ⟨trivial, rfl⟩
    | cons e xs ih =>
        intro x₁
        rcases ih (fun f hf => hxs f (by simp [hf])) (Tcp.step x₁ e) with ⟨halong, hrun⟩
        exact ⟨⟨hxs e (by simp) y, halong⟩, hrun⟩
  exact ⟨x₀, y, xs.map .atA, hx, hy, (hmeets x₀).1, (hmeets x₀).2⟩

/-! ## The invariant -/

structure LinkInv (p q : ℕ) (s : Hosts τ) : Prop where
  a : HostInv s.a
  b : HostInv s.b
  aloneA : ∀ x, s.a.tcb p = some x → s.b.brk ≤ q → Alone x
  aloneB : ∀ y, s.b.tcb q = some y → s.a.brk ≤ p → Alone y
  both : ∀ x y, s.a.tcb p = some x → s.b.tcb q = some y → PairRun x y

omit [TimerLib τ] in
theorem linkInv_init [TimerLib τ] (p q : ℕ) : LinkInv p q (Hosts.init : Hosts τ) := by
  refine ⟨hostInv_init, hostInv_init, ?_, ?_, ?_⟩
  · intro x hx
    cases hx
  · intro y hy
    cases hy
  · intro x y hx
    cases hx

theorem LinkInv.flip {p q : ℕ} {s : Hosts τ} (h : LinkInv p q s) : LinkInv q p ⟨s.b, s.a⟩ :=
  ⟨h.b, h.a, h.aloneB, h.aloneA, fun x y hx hy => (h.both y x hy hx).flip⟩

/-- A step of the first host. -/
theorem LinkInv.step {p q : ℕ} {s : Hosts τ} (h : LinkInv p q s) {e : HostEvent} {a' : Host τ}
    (hok : Heard p (s.b.tcb q) s.a e) (hmem : e.AllocOk) (hstep : hostStep s.a e = some a') :
    LinkInv p q { s with a := a' } := by
  have hpart := takesPart_step h.a hstep p
  -- the control block at `p` is the old one after at most one event, or a new one
  have hcases : ∀ x', a'.tcb p = some x' →
      (∃ x, s.a.tcb p = some x ∧ x' = runTouches x (s.a.touch p e).toList) ∨
        s.a.brk = p ∧ OpenedOk x' := by
    intro x' hx'
    cases hx : s.a.tcb p with
    | some x =>
        left
        refine ⟨x, rfl, ?_⟩
        rcases hpart.old x hx with h | ⟨h, _⟩
        · exact Option.some.inj (hx'.symm.trans h)
        · rw [h] at hx'
          cases hx'
    | none =>
        right
        rcases hpart.new x' hx hx' with
          ⟨hp, env, ip, port, dest, destPort, hmade, hopen⟩
        exact ⟨hp.symm, env, ip, port, dest, destPort, hmade hmem, hopen⟩
  refine ⟨hostInv_step h.a hstep, h.b, fun x' hx' hq => ?_, fun y hy hp => ?_,
    fun x' y hx' hy => ?_⟩
  · rcases hcases x' hx' with ⟨x, hx, rfl⟩ | ⟨_, hmade⟩
    · have halone := h.aloneA x hx hq
      cases ht : s.a.touch p e with
      | none =>
          exact halone
      | some t =>
          have htouch := meets_of_heard hok hmem ht
          rw [h.b.tcb_none hq] at htouch
          cases t with
          | event e' =>
              exact halone.step htouch
          | close env =>
              exact htouch.elim
    · exact ⟨x', [], hmade, by simp, rfl⟩
  · exact h.aloneB y hy (hpart.brk.trans hp)
  · rcases hcases x' hx' with ⟨x, hx, rfl⟩ | ⟨hp, hmade⟩
    · have hpair := h.both x y hx hy
      cases ht : s.a.touch p e with
      | none =>
          exact hpair
      | some t =>
          have hy : s.b.tcb q = some y := hy
          have htouch := meets_of_heard hok hmem ht
          rw [hy] at htouch
          cases t with
          | event e' =>
              exact hpair.step htouch
          | close env =>
              exact htouch.elim
    · exact ((h.aloneB y hy (Nat.le_of_eq hp)).pairRun hmade).flip

theorem linkInv_step {p q : ℕ} {s s' : Hosts τ} {e : HostsEvent} (h : LinkInv p q s)
    (hok : Linked p q s e) (hmem : e.AllocOk) (hstep : hostsStep s e = some s') : LinkInv p q s' := by
  cases e with
  | atA e =>
      rcases Option.map_eq_some_iff.1 hstep with ⟨a', ha, rfl⟩
      exact h.step hok hmem ha
  | atB e =>
      rcases Option.map_eq_some_iff.1 hstep with ⟨b', hb, rfl⟩
      have hflip : LinkInv q p ⟨b', s.a⟩ := h.flip.step hok hmem hb
      exact hflip.flip

/-! ## Runs -/

theorem openedOk_active {c : Conn τ} (h : OpenedOk c) (hactive : c.tcp.passive = false) :
    OpenedLossy c := by
  rcases h with ⟨env, ip, port, dest, destPort, hmem, hopen⟩
  cases dest with
  | some dest =>
      exact ⟨env, ip, port, dest, destPort, hmem, hopen⟩
  | none =>
      have hpassive := congrArg Binding.passive (binding_tcpOpenConn env c hopen).1
      have hactive : c.tcp.binding.passive = false := hactive
      rw [hactive] at hpassive
      cases hpassive

theorem openedOk_passive {c : Conn τ} (h : OpenedOk c) (hpassive : c.tcp.passive = true) :
    OpenedPassive c := by
  rcases h with ⟨env, ip, port, dest, destPort, hmem, hopen⟩
  cases dest with
  | none =>
      exact ⟨env, ip, port, destPort, hopen⟩
  | some dest =>
      have hactive := congrArg Binding.passive (binding_tcpOpenConn env c hopen).1
      have hpassive : c.tcp.binding.passive = true := hpassive
      rw [hpassive] at hactive
      cases hactive

theorem binding_pairStep (p : Pair τ) (e : PairEvent) :
    (pairStep p e).a.tcp.binding = p.a.tcp.binding ∧ (pairStep p e).b.tcp.binding = p.b.tcp.binding := by
  cases e with
  | atA e =>
      exact ⟨binding_step p.a e, rfl⟩
  | atB e =>
      exact ⟨rfl, binding_step p.b e⟩

theorem binding_runPair (p : Pair τ) (es : List PairEvent) :
    (runPair p es).a.tcp.binding = p.a.tcp.binding ∧
      (runPair p es).b.tcp.binding = p.b.tcp.binding := by
  refine Machine.run_preserves pairStep (I := fun q => q.a.tcp.binding = p.a.tcp.binding ∧
    q.b.tcp.binding = p.b.tcp.binding) ?_ ⟨rfl, rfl⟩ es
  intro q e hq
  rcases binding_pairStep q e with ⟨ha, hb⟩
  exact ⟨ha.trans hq.1, hb.trans hq.2⟩

/-- In every run of two hosts in which the ends of a connection hear only each other, these are what the
pair of ends makes of some allowed run. -/
theorem hosts_refine_pair {es : List HostsEvent} {s : Hosts τ} (hrun : runHosts .init es = some s)
    {p q : ℕ} (hok : Machine.TryAlong hostsStep (Linked p q) (Hosts.init : Hosts τ) es)
    (hmem : ∀ e ∈ es, e.AllocOk) {a b : Conn τ} (ha : s.a.tcb p = some a) (hb : s.b.tcb q = some b) (hactive : a.tcp.passive = false)
    (hpassive : b.tcp.passive = true) :
    ∃ a₀ b₀ xs, OpenedLossy a₀ ∧ OpenedPassive b₀ ∧ a₀.tcp.snd.iss = a.tcp.snd.iss ∧
      Machine.Along pairStep PairOk ⟨a₀, b₀⟩ xs ∧ runPair ⟨a₀, b₀⟩ xs = ⟨a, b⟩ := by
  have hinv : LinkInv p q s := Machine.tryRun_invariant_of_along
    (fun _ _ _ h hok hstep => linkInv_step h hok.1 hok.2 hstep) (linkInv_init p q)
    (hok.and (Machine.tryAlong_of_forall hmem)) hrun
  rcases hinv.both a b ha hb with ⟨a₀, b₀, xs, ha₀, hb₀, halong, hxs⟩
  have hbinding := binding_runPair ⟨a₀, b₀⟩ xs
  rw [hxs] at hbinding
  have hactive₀ : a₀.tcp.passive = false := (passive_of_binding hbinding.1).symm.trans hactive
  have hpassive₀ : b₀.tcp.passive = true := (passive_of_binding hbinding.2).symm.trans hpassive
  exact ⟨a₀, b₀, xs, openedOk_active ha₀ hactive₀, openedOk_passive hb₀ hpassive₀,
    (congrArg Binding.iss hbinding.1).symm, halong, hxs⟩

/-! ## What `recv` returns -/

/-- Each call of `recv` on the end at `p` asks for no more than the first block with unread bytes still
holds, or no other block has unread bytes. -/
def ReadsOk (p : ℕ) (h : Host τ) : HostEvent → Prop
  | .recvfrom fd _ len _ => h.streams fd p = true → ∀ c ∈ h.tcb p, WithinBlock c.tcp.rxData len
  | _ => True

instance (q : List Block) (size : ℕ) : Decidable (WithinBlock q size) :=
  inferInstanceAs (Decidable (_ ∨ _))

instance (p : ℕ) (h : Host τ) : ∀ e, Decidable (ReadsOk p h e)
  | .recvfrom fd _ len _ => inferInstanceAs
      (Decidable (h.streams fd p = true → ∀ c ∈ h.tcb p, WithinBlock c.tcp.rxData len))
  | .socket _ _ _ | .bind _ _ _ _ | .listen _ _ _ | .accept _ _ _ | .connect _ _ _ _
  | .sendto _ _ _ _ _ | .close _ _ | .tcpArrives _ _ _ _ | .udpArrives _ _ _ _ | .loops _ =>
      isTrue trivial

def BothRead (p q : ℕ) (s : Hosts τ) : HostsEvent → Prop
  | .atA e => ReadsOk p s.a e
  | .atB e => ReadsOk q s.b e

instance (p q : ℕ) (s : Hosts τ) : ∀ e, Decidable (BothRead p q s e)
  | .atA e => inferInstanceAs (Decidable (ReadsOk p s.a e))
  | .atB e => inferInstanceAs (Decidable (ReadsOk q s.b e))

omit [TimerLib τ] in
theorem recvOk_of_reads {p : ℕ} {h : Host τ} {e : HostEvent} (hok : ReadsOk p h e) {c : Conn τ}
    (hc : h.tcb p = some c) {e' : Event} (ht : h.touch p e = some (.event e')) : RecvOk c e' := by
  cases e with
  | recvfrom fd buf len flags =>
      simp only [Host.touch] at ht
      split at ht
      · next hstr =>
          cases ht
          rcases (streams_iff.1 hstr).2.2 with ⟨d, hd, hest⟩
          rw [hc] at hd
          cases hd
          intro _
          rw [if_pos hest]
          exact hok hstr c hc
      · cases ht
  | tcpArrives env ip dg beyond =>
      simp only [Host.touch] at ht
      split at ht <;> cases ht
      trivial
  | sendto env udpSendto fd buf destAddr =>
      simp only [Host.touch] at ht
      split at ht <;> cases ht
      trivial
  | close env fd =>
      simp only [Host.touch] at ht
      split at ht <;> cases ht
  | loops envs =>
      rcases Option.map_eq_some_iff.1 ht with ⟨i, _, heq⟩
      cases heq
      trivial
  | _ =>
      cases ht

theorem readInv_closeConn (env : Env) {c : Conn τ} (hc : ReadInv c) : ReadInv (closeConn env c) :=
  readInv_step (e := .close env) ⟨hc.singles, hc.queued⟩ trivial

/-- What a step of its host leaves of a control block. -/
theorem readInv_hostStep {p : ℕ} {h h' : Host τ} {e : HostEvent} (hh : HostInv h)
    (hread : ∀ c, h.tcb p = some c → ReadInv c) (hok : ReadsOk p h e) (hstep : hostStep h e = some h')
    {c' : Conn τ} (hc' : h'.tcb p = some c') : ReadInv c' := by
  have hpart := takesPart_step hh hstep p
  cases hc : h.tcb p with
  | none =>
      exact readInv_opened (hpart.new c' hc hc').2.opened
  | some c =>
      have hinv := hread c hc
      rcases hpart.old c hc with h' | ⟨h', _⟩
      · rw [h'] at hc'
        cases hc'
        cases ht : h.touch p e with
        | none =>
            exact hinv
        | some t =>
            cases t with
            | event e' =>
                exact readInv_step hinv (recvOk_of_reads hok hc ht)
            | close env =>
                exact readInv_closeConn env hinv
      · rw [h'] at hc'
        cases hc'

/-- What was returned and what is unread is what was queued, at both ends. -/
structure ReadsInv (p q : ℕ) (s : Hosts τ) : Prop where
  a : HostInv s.a
  b : HostInv s.b
  readA : ∀ c, s.a.tcb p = some c → ReadInv c
  readB : ∀ c, s.b.tcb q = some c → ReadInv c

theorem readsInv_step {p q : ℕ} {s s' : Hosts τ} {e : HostsEvent} (h : ReadsInv p q s)
    (hok : BothRead p q s e) (hstep : hostsStep s e = some s') : ReadsInv p q s' := by
  cases e with
  | atA e =>
      rcases Option.map_eq_some_iff.1 hstep with ⟨a', ha, rfl⟩
      exact ⟨hostInv_step h.a ha, h.b, fun c hc => readInv_hostStep h.a h.readA hok ha hc, h.readB⟩
  | atB e =>
      rcases Option.map_eq_some_iff.1 hstep with ⟨b', hb, rfl⟩
      exact ⟨h.a, hostInv_step h.b hb, h.readA, fun c hc => readInv_hostStep h.b h.readB hok hb hc⟩

theorem readsInv_run {es : List HostsEvent} {s : Hosts τ} (hrun : runHosts .init es = some s)
    {p q : ℕ} (hok : Machine.TryAlong hostsStep (BothRead p q) (Hosts.init : Hosts τ) es) :
    ReadsInv p q s := by
  have hinit : ReadsInv p q (Hosts.init : Hosts τ) := by
    refine ⟨hostInv_init, hostInv_init, fun c hc => ?_, fun c hc => ?_⟩ <;> cases hc
  exact Machine.tryRun_invariant_of_along (fun _ _ _ h hok hstep => readsInv_step h hok hstep) hinit hok
    hrun

/-- Over two hosts, whatever their other sockets do: the bytes that `recv` has returned on one end of a
connection are the first ones that `send` has taken on the other end. -/
theorem sockets_stream {es : List HostsEvent} {s : Hosts τ} (hrun : runHosts .init es = some s)
    {p q : ℕ} (hok : Machine.TryAlong hostsStep (Linked p q) (Hosts.init : Hosts τ) es)
    (hmem : ∀ e ∈ es, e.AllocOk)
    (hread : Machine.TryAlong hostsStep (BothRead p q) (Hosts.init : Hosts τ) es) {a b : Conn τ}
    (ha : s.a.tcb p = some a) (hb : s.b.tcb q = some b) (hactive : a.tcp.passive = false)
    (hpassive : b.tcp.passive = true) (hiss : a.tcp.snd.iss ≠ 4294967295)
    (hlenA : (acceptedBytes a.log).length + 1 < 2 ^ 32)
    (hlenB : (acceptedBytes b.log).length + 1 < 2 ^ 32) :
    returnedBytes b.log <+: acceptedBytes a.log ∧ returnedBytes a.log <+: acceptedBytes b.log := by
  rcases hosts_refine_pair hrun hok hmem ha hb hactive hpassive with
    ⟨a₀, b₀, xs, ha₀, hb₀, hsame, halong, hxs⟩
  have hreads := readsInv_run hrun hread
  have hlt : a₀.tcp.snd.iss < a₀.tcp.snd.iss + 1 := by
    rw [hsame]
    exact lt_add_one_of_ne hiss
  have hlen : longest (runPair ⟨a₀, b₀⟩ xs) + 1 < 2 ^ 32 := by
    rw [hxs]
    simp only [longest]
    omega
  rcases carried_run ha₀ hb₀ hlt halong hlen with ⟨hout, hback⟩
  rw [hxs] at hout hback
  have hqueuedB : returnedBytes b.log <+: queuedBytes b.log := ⟨_, (hreads.readB b hb).queued⟩
  have hqueuedA : returnedBytes a.log <+: queuedBytes a.log := ⟨_, (hreads.readA a ha).queued⟩
  exact ⟨hqueuedB.trans hout.safe, hqueuedA.trans hback.safe⟩

/-! ## A sample connection -/

/-- The other host's interface. -/
def sampleOther : Netif :=
  { sampleIp with addr := samplePeer }

/-- One host listens, the other one connects and sends two bytes. -/
def sampleHosts : List HostsEvent :=
  let request (seq ack : UInt32) (flags : UInt16) (payload : List Byte) : Datagram :=
    { sampleRequest seq ack flags payload with seg.srcPort := 6024 }
  let synAck : Datagram :=
    { sampleAnswer 200 101 (segFlagSyn ||| segFlagAck) [] with seg.destPort := 6024 }
  [.atB (.socket afInet sockStream 0),
    .atB (.bind true [sampleOther] 1 ⟨⟨2, 1, 168, 192⟩, 80⟩),
    .atB (.listen (.working 200) [sampleOther] 1),
    .atA (.socket afInet sockStream 0),
    .atA (.connect (fun _ => (.working 100, 5000)) [sampleIp] 1 ⟨⟨2, 1, 168, 192⟩, 80⟩),
    .atB (.tcpArrives (.working 201) sampleOther (request 100 0 segFlagSyn []) []),
    .atA (.tcpArrives (.working 102) sampleIp synAck []),
    .atB (.tcpArrives (.working 203) sampleOther (request 101 201 segFlagAck []) []),
    .atA (.sendto (.working 104) (fun _ _ _ => false) 1 [1, 2] none),
    .atB (.tcpArrives (.working 205) sampleOther (request 101 201 segFlagAck [1, 2]) []),
    .atB (.recvfrom 1 [0, 0] 2 msgDontwait)]

def sampleFinal : Hosts Deadline :=
  (runHosts .init sampleHosts).get (by decide)

theorem runHosts_sample : runHosts .init sampleHosts = some sampleFinal :=
  (Option.some_get _).symm

theorem sampleHosts_allocOk : ∀ e ∈ sampleHosts, e.AllocOk := by
  intro e he
  simp only [sampleHosts, List.mem_cons, List.not_mem_nil, or_false] at he
  rcases he with rfl | rfl | rfl | rfl | rfl | rfl | rfl | rfl | rfl | rfl | rfl <;>
    first
      | trivial
      | exact Env.allocOk_working _
      | exact fun _ => Env.allocOk_working _

theorem hosts_refine_pair_sample :
    ∃ a b a₀ b₀ xs, sampleFinal.a.tcb 1 = some a ∧ sampleFinal.b.tcb 1 = some b ∧
      OpenedLossy a₀ ∧ OpenedPassive b₀ ∧ runPair ⟨a₀, b₀⟩ xs = ⟨a, b⟩ := by
  rcases hosts_refine_pair runHosts_sample (p := 1) (q := 1) (by decide) sampleHosts_allocOk
    (Option.some_get (by decide)).symm (Option.some_get (by decide)).symm (by decide) (by decide) with
    ⟨a₀, b₀, xs, ha₀, hb₀, _, _, hxs⟩
  exact ⟨_, _, a₀, b₀, xs, (Option.some_get _).symm, (Option.some_get _).symm, ha₀, hb₀, hxs⟩

theorem sockets_stream_sample :
    ∃ a b, sampleFinal.a.tcb 1 = some a ∧ sampleFinal.b.tcb 1 = some b ∧
      returnedBytes b.log = [1, 2] ∧ returnedBytes b.log <+: acceptedBytes a.log ∧
      returnedBytes a.log <+: acceptedBytes b.log := by
  refine ⟨_, _, (Option.some_get (by decide)).symm, (Option.some_get (by decide)).symm, by decide, ?_⟩
  exact sockets_stream runHosts_sample (p := 1) (q := 1) (by decide) sampleHosts_allocOk (by decide)
    (Option.some_get _).symm (Option.some_get _).symm (by decide) (by decide) (by decide) (by decide)
    (by decide)

end Socket
end DtsNet
