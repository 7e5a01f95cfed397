import DtsNet.Mem
import DtsNet.Socket.Reuse

/-!
# Descriptors — whether open descriptors are distinct

`close` puts a record back into the pool whether or not it is there already.  As long as only open
descriptors are closed, the pool of the socket layer is a pool of items: every record is either free
or handed out.  A descriptor that is closed again is in the pool twice, and comes out of it twice.
-/

namespace DtsNet
namespace Socket

open Ip Dblk Tcp Udp Mem

variable {τ : Type} [TimerLib τ]

/-! ## The property -/

/-- The descriptor that a call hands out. -/
def handsOut (g : Tracked τ) (e : HostEvent) : Option ℕ :=
  (hostCall g.host e).bind fun r =>
    match e with
    | .socket _ _ _ => if 0 < r.2 then some r.2.toNat else none
    -- the descriptor of the connection, which `accept` gets from `socket`
    | .accept _ _ _ => if 0 < r.2 then some r.2.toNat else none
    | _ => none

structure DistinctOpen (g : Tracked τ) : Prop where
  /-- Whatever is called next, a descriptor that it hands out is not open. -/
  fresh : ∀ e fd, handsOut g e = some fd → g.isOpen fd = false
  /-- There are no more open descriptors than records. -/
  bounded : ∀ fds : List ℕ, fds.Nodup → (∀ fd ∈ fds, g.isOpen fd = true) →
    fds.length ≤ dtsNetSocketMaxCount

/-- What is closed is open. -/
def ClosesOpen (g : Tracked τ) : HostEvent → Prop
  | .close _ fd => g.isOpen fd = true
  | _ => True

/-! ## The calls that leave the pool alone -/

structure SamePool (h h' : Host τ) : Prop where
  freeList : h'.freeList = h.freeList
  inited : h'.socketApiInited = h.socketApiInited

omit [TimerLib τ] in
theorem SamePool.trans {h₁ h₂ h₃ : Host τ} (h : SamePool h₁ h₂) (h' : SamePool h₂ h₃) :
    SamePool h₁ h₃ :=
  ⟨h'.freeList.trans h.freeList, h'.inited.trans h.inited⟩

omit [TimerLib τ] in
theorem samePool_bind (allocUdp : Bool) (nifs : List Netif) (fd : ℕ) (hostAddr : SockaddrIn)
    (h : Host τ) : SamePool h (bind allocUdp nifs fd hostAddr h).1 := by
  unfold bind
  cases ipFindNetif nifs (nacv hostAddr) with
  | none =>
      exact ⟨rfl, rfl⟩
  | some ip =>
      dsimp only
      split
      · split <;> exact ⟨rfl, rfl⟩
      · split <;> exact ⟨rfl, rfl⟩

theorem samePool_tcpOpenAt {env : Env} {nifs : List Netif} {loc : IpAddr} {port : UInt32}
    {dest : Option IpAddr} {destPort : UInt16} {h h' : Host τ} {tcp : Option ℕ}
    (hopen : tcpOpenAt env nifs loc port dest destPort h = some (h', tcp)) : SamePool h h' := by
  rcases tcpOpenAt_cases hopen with ⟨rfl, _⟩ | ⟨_, _, _, _, rfl⟩ <;> exact ⟨rfl, rfl⟩

theorem samePool_listen {env : Env} {nifs : List Netif} {fd : ℕ} {h h' : Host τ} {r : ℤ}
    (hlisten : listen env nifs fd h = some (h', r)) : SamePool h h' := by
  rcases listen_cases hlisten with ⟨_, rfl, _⟩ | ⟨ip, h₁, tcp, _, _, hopen, rfl, _⟩
  · exact ⟨rfl, rfl⟩
  · exact (samePool_tcpOpenAt hopen).trans ⟨rfl, rfl⟩

theorem samePool_connectLoop {nifs : List Netif} {fd : ℕ} {ip : Netif} {dest : IpAddr}
    {destPort : UInt16} {attempts : List (Env × UInt32)} {h h' : Host τ} {r : ℤ}
    (hloop : connectLoop nifs fd ip dest destPort attempts h = some (h', r)) : SamePool h h' := by
  induction attempts generalizing h with
  | nil =>
      cases hloop
      exact ⟨rfl, rfl⟩
  | cons attempt attempts ih =>
      rcases attempt with ⟨env, rand⟩
      rcases Option.bind_eq_some_iff.1 hloop with ⟨⟨h₁, tcp⟩, hopen, hrest⟩
      have hset : SamePool h (h₁.setSocket fd { h₁.sockets fd with tcp := tcp }) :=
        (samePool_tcpOpenAt hopen).trans ⟨rfl, rfl⟩
      cases tcp with
      | some p =>
          cases hrest
          exact hset
      | none =>
          exact hset.trans (ih hrest)

theorem samePool_connect {attempts : Fin 3 → Env × UInt32} {nifs : List Netif} {fd : ℕ}
    {destAddr : SockaddrIn} {h h' : Host τ} {r : ℤ}
    (hconnect : connect attempts nifs fd destAddr h = some (h', r)) : SamePool h h' := by
  unfold connect at hconnect
  split at hconnect
  · split at hconnect
    · exact samePool_connectLoop hconnect
    · cases hconnect
      exact ⟨rfl, rfl⟩
  · cases hconnect
    exact ⟨rfl, rfl⟩

theorem samePool_sendto {env : Env} {udpSendto : IpAddr → UInt16 → List Byte → Bool} {fd : ℕ}
    {buf : List Byte} {destAddr : Option SockaddrIn} {h h' : Host τ} {r : ℤ}
    (hsend : sendto env udpSendto fd buf destAddr h = some (h', r)) : SamePool h h' := by
  rcases sendto_cases hsend with rfl | ⟨p, _, rfl⟩ <;> exact ⟨rfl, rfl⟩

omit [TimerLib τ] in
theorem samePool_recvfrom {fd : ℕ} {buf : List Byte} {len flags : ℕ} {h h' : Host τ}
    {r : List Byte × ℤ} (hrecv : recvfrom fd buf len flags h = some (h', r)) : SamePool h h' := by
  rcases recvfrom_host hrecv with rfl | rfl | ⟨p, _, rfl⟩ <;> exact ⟨rfl, rfl⟩

omit [TimerLib τ] in
theorem samePool_udpIpRecv (alloc : Bool) (ip : Netif) (destPort : UInt16) (data : List Byte)
    (h : Host τ) : SamePool h (udpIpRecv alloc ip destPort data h) := by
  rcases udpIpRecv_cases alloc ip destPort data h with heq | ⟨_, _, _, _, _, _, _, heq⟩ <;>
    rw [heq] <;> exact ⟨rfl, rfl⟩

theorem samePool_tcpIpRecv (env : Env) (ip : Netif) (dg : Datagram) (beyond : List Byte)
    (h : Host τ) : SamePool h (tcpIpRecv env ip dg beyond h) := by
  unfold tcpIpRecv
  split <;> exact ⟨rfl, rfl⟩

/-- `accept` hands out what it gets from `socket`. -/
theorem accept_socket {env : Env} {nifs : List Netif} {fd : ℕ} {h h' : Host τ} {r : ℤ}
    (haccept : accept env nifs fd h = some (h', r)) :
    SamePool h h' ∧ r ≤ 0 ∨
      ∃ domain type protocol, SamePool (socket domain type protocol h).1 h' ∧
        r = (socket domain type protocol h).2 := by
  cases htcp : isTcpSock (h.sockets fd) with
  | false =>
      simp only [accept, htcp, Bool.false_eq_true, if_false] at haccept
      cases haccept
      exact Or.inl ⟨⟨rfl, rfl⟩, by decide⟩
  | true =>
      simp only [accept, htcp, if_true] at haccept
      rcases Option.bind_eq_some_iff.1 haccept with ⟨status, hstatus, hrest⟩
      by_cases hest : status = .established
      · refine Or.inr ⟨(h.sockets fd).domain, (h.sockets fd).type, (h.sockets fd).protocol, ?_⟩
        simp only [hest, if_true] at hrest
        split at hrest
        · rcases Option.bind_eq_some_iff.1 hrest with ⟨ip, hip, hmap⟩
          rcases Option.map_eq_some_iff.1 hmap with ⟨⟨h₂, tcp⟩, hopen, heq⟩
          cases heq
          have hopened := samePool_tcpOpenAt hopen
          exact ⟨⟨hopened.freeList, hopened.inited⟩, rfl⟩
        · cases hrest
          exact ⟨⟨rfl, rfl⟩, rfl⟩
      · simp only [hest, if_false] at hrest
        cases hrest
        exact Or.inl ⟨⟨rfl, rfl⟩, by decide⟩

/-! ## The pool of the socket layer -/

/-- The free list, as the next call of `socket` finds it. -/
def Host.pool (h : Host τ) : List ℕ :=
  (initSocketApi h).freeList

/-- The pool holds the records as a pool of items does, all but those with the places `held`; the
record with the place `i` has the address `i + 1`. -/
structure Serves (h : Host τ) (p : ItemList) (held : List ℕ) : Prop where
  pool : h.pool = p.list.map (· + 1)
  count : p.count = dtsNetSocketMaxCount
  divided : Divided p held
  inited : held ≠ [] → h.socketApiInited = true

section Pool

omit [TimerLib τ]

theorem SamePool.pool {h h' : Host τ} (hsame : SamePool h h') : h'.pool = h.pool := by
  simp only [Host.pool, Socket.initSocketApi, hsame.freeList, hsame.inited]
  split
  · exact hsame.freeList
  · rfl

theorem Serves.frame {h h' : Host τ} {p : ItemList} {held : List ℕ} (hs : Serves h p held)
    (hsame : SamePool h h') : Serves h' p held := by
  refine ⟨hsame.pool.trans hs.pool, hs.count, hs.divided, fun hne => ?_⟩
  rw [hsame.inited]
  exact hs.inited hne

theorem initSocketApi_inited (h : Host τ) : (initSocketApi h).socketApiInited = true := by
  unfold initSocketApi
  split
  · assumption
  · rfl

/-- A pool that is initialised is what it is. -/
theorem pool_of_inited {h : Host τ} (hinited : h.socketApiInited = true) : h.pool = h.freeList := by
  rw [Host.pool, initSocketApi, if_pos hinited]

theorem Serves.initSocketApi {h : Host τ} {p : ItemList} {held : List ℕ} (hs : Serves h p held) :
    Serves (Socket.initSocketApi h) p held := by
  refine ⟨?_, hs.count, hs.divided, fun _ => initSocketApi_inited h⟩
  rw [pool_of_inited (initSocketApi_inited h)]
  exact hs.pool

/-- A call fails, or it hands out a record that was not handed out before. -/
def ServesCall (p : ItemList) (held : List ℕ) (h' : Host τ) (r : ℤ) : Prop :=
  r ≤ 0 ∧ Serves h' p held ∨
    ∃ i p', i ∉ held ∧ r = ((i + 1 : ℕ) : ℤ) ∧ Serves h' p' (i :: held)

theorem Serves.socket {h : Host τ} {p : ItemList} {held : List ℕ} (hs : Serves h p held)
    (domain type protocol : ℤ) :
    ServesCall p held (Socket.socket domain type protocol h).1
      (Socket.socket domain type protocol h).2 := by
  have hinit := hs.initSocketApi
  unfold ServesCall Socket.socket
  dsimp only
  split
  · split
    · have hpool : (Socket.initSocketApi h).freeList = p.list.map (· + 1) := hs.pool
      cases hlist : p.list with
      | nil =>
          rw [hlist, List.map_nil] at hpool
          simp only [memAllocSocket, hpool]
          exact Or.inl ⟨by decide, hinit⟩
      | cons i rest =>
          -- the record in front is handed out
          rw [hlist, List.map_cons] at hpool
          rcases hs.divided.alloc (by simp [MemItem.freeItems, hlist]) with
            ⟨j, p', halloc, hnot, hdivided, hcount⟩
          have hp : p' = { p with list := rest } ∧ i = j := by
            simpa [MemItem.alloc, hlist, eq_comm, and_comm] using halloc
          rcases hp with ⟨rfl, rfl⟩
          simp only [memAllocSocket, hpool]
          refine Or.inr ⟨i, { p with list := rest }, hnot, rfl, ?_, hs.count, hdivided, ?_⟩
          · exact pool_of_inited (initSocketApi_inited h)
          · exact fun _ => initSocketApi_inited h
    · exact Or.inl ⟨(by decide : -einval ≤ 0), hinit⟩
  · exact Or.inl ⟨(by decide : -einval ≤ 0), hinit⟩

theorem Serves.memFreeSocket {h : Host τ} {p : ItemList} {held : List ℕ} (hs : Serves h p held)
    {i : ℕ} (hi : i ∈ held) :
    Serves (Socket.memFreeSocket h (i + 1)) (MemItem.free i p) (held.erase i) := by
  -- something was handed out, so the pool is initialised and the record goes to its end
  have hinited := hs.inited (List.ne_nil_of_mem hi)
  rcases hs.divided.free hi with ⟨hdivided, _, hcount⟩
  refine ⟨?_, hcount.trans hs.count, hdivided, fun _ => hinited⟩
  rw [pool_of_inited (by exact hinited)]
  have hpool := hs.pool
  rw [pool_of_inited hinited] at hpool
  simp [Socket.memFreeSocket, hpool, MemItem.free]

end Pool

theorem Serves.close {h h' : Host τ} {p : ItemList} {held : List ℕ} (hs : Serves h p held) {i : ℕ}
    (hi : i ∈ held) {env : Env} {r : ℤ} (hclose : Socket.close env (i + 1) h = some (h', r)) :
    Serves h' (MemItem.free i p) (held.erase i) := by
  rcases close_cases hclose with rfl | ⟨tcb, _, rfl⟩
  · exact hs.memFreeSocket hi
  · have hframe : SamePool h (h.onTcb tcb (closeConn env)) := ⟨rfl, rfl⟩
    exact (hs.frame hframe).memFreeSocket hi

theorem Serves.accept {h h' : Host τ} {p : ItemList} {held : List ℕ} (hs : Serves h p held)
    {env : Env} {nifs : List Netif} {fd : ℕ} {r : ℤ}
    (haccept : Socket.accept env nifs fd h = some (h', r)) : ServesCall p held h' r := by
  rcases accept_socket haccept with ⟨hsame, hr⟩ | ⟨domain, type, protocol, hsame, rfl⟩
  · exact Or.inl ⟨hr, hs.frame hsame⟩
  · rcases hs.socket domain type protocol with ⟨hr, hs'⟩ | ⟨i, p', hnot, hr, hs'⟩
    · exact Or.inl ⟨hr, hs'.frame hsame⟩
    · exact Or.inr ⟨i, p', hnot, hr, hs'.frame hsame⟩

/-! ## Every step keeps the descriptors distinct -/

/-- The open descriptors are those of the records that the pool does not hold. -/
structure Opens (g : Tracked τ) (p : ItemList) (held : List ℕ) : Prop where
  serves : Serves g.host p held
  isOpen : ∀ fd, g.isOpen fd = true ↔ fd ∈ held.map (· + 1)

section Opens

omit [TimerLib τ]

/-- What is handed out is open now, and nothing else has changed. -/
theorem opens_handOut {g : Tracked τ} {p : ItemList} {held : List ℕ} (hg : Opens g p held)
    {h' : Host τ} {r : ℤ} (hcall : ServesCall p held h' r) {g' : Tracked τ} (hhost : g'.host = h')
    (hopen : g'.isOpen = if 0 < r then Function.update g.isOpen r.toNat true else g.isOpen) :
    ∃ p' held', Opens g' p' held' := by
  rcases hcall with ⟨hr, hs⟩ | ⟨i, p', _, rfl, hs⟩
  · refine ⟨p, held, hhost ▸ hs, ?_⟩
    rw [hopen, if_neg (by omega)]
    exact hg.isOpen
  · refine ⟨p', i :: held, hhost ▸ hs, fun fd => ?_⟩
    rw [hopen, if_pos (by omega), Int.toNat_natCast]
    by_cases hfd : fd = i + 1
    · simp [hfd]
    · rw [Function.update_of_ne hfd, hg.isOpen]
      simp [hfd]

theorem opens_same {g g' : Tracked τ} {p : ItemList} {held : List ℕ} (hg : Opens g p held)
    (hsame : SamePool g.host g'.host) (hopen : g'.isOpen = g.isOpen) : Opens g' p held :=
  ⟨hg.serves.frame hsame, fun fd => by rw [hopen]; exact hg.isOpen fd⟩

end Opens

theorem opens_close {g : Tracked τ} {p : ItemList} {held : List ℕ} (hg : Opens g p held) {fd : ℕ}
    (hfd : g.isOpen fd = true) {env : Env} {h' : Host τ} {r : ℤ}
    (hclose : close env fd g.host = some (h', r)) :
    ∃ p' held', Opens { g.closes fd with host := h' } p' held' := by
  rcases List.mem_map.1 ((hg.isOpen fd).1 hfd) with ⟨i, hi, rfl⟩
  have hnodup : held.Nodup := (List.nodup_append.1 hg.serves.divided.nodup).2.1
  refine ⟨MemItem.free i p, held.erase i, hg.serves.close hi hclose, fun fd' => ?_⟩
  by_cases hfd' : fd' = i + 1
  · -- a place is held once, so it is not held any more
    subst hfd'
    simp [Tracked.closes, hnodup.not_mem_erase]
  · have hopen : (g.closes (i + 1)).isOpen fd' = g.isOpen fd' := by
      simp [Tracked.closes, hfd']
    simp only [hopen, hg.isOpen, List.mem_map, hnodup.mem_erase_iff]
    constructor
    · rintro ⟨j, hj, rfl⟩
      exact ⟨j, ⟨fun heq => hfd' (by rw [heq]), hj⟩, rfl⟩
    · rintro ⟨j, hj, rfl⟩
      exact ⟨j, hj.2, rfl⟩

theorem opens_step {g g' : Tracked τ} {p : ItemList} {held : List ℕ} (hg : Opens g p held)
    {e : HostEvent} (hclose : ClosesOpen g e) (hstep : trackedStep g e = some g') :
    ∃ p' held', Opens g' p' held' := by
  rcases Option.map_eq_some_iff.1 hstep with ⟨result, hcall, rfl⟩
  cases e with
  | socket domain type protocol =>
      cases hcall
      refine opens_handOut hg (hg.serves.socket domain type protocol) rfl ?_
      simp only [Tracked.told]
      split <;> rfl
  | accept env nifs fd =>
      refine opens_handOut hg (hg.serves.accept hcall) rfl ?_
      simp only [Tracked.told]
      split <;> rfl
  | close env fd =>
      exact opens_close hg hclose hcall
  | bind allocUdp nifs fd hostAddr =>
      cases hcall
      refine ⟨p, held, opens_same hg (samePool_bind allocUdp nifs fd hostAddr g.host) ?_⟩
      simp only [Tracked.told]
      split
      · split <;> rfl
      · rfl
  | listen env nifs fd =>
      refine ⟨p, held, opens_same hg (samePool_listen hcall) ?_⟩
      simp only [Tracked.told]
      split <;> rfl
  | connect attempts nifs fd destAddr =>
      refine ⟨p, held, opens_same hg (samePool_connect hcall) ?_⟩
      simp only [Tracked.told]
      split <;> rfl
  | sendto env udpSendto fd buf destAddr =>
      exact ⟨p, held, opens_same hg (samePool_sendto hcall) rfl⟩
  | recvfrom fd buf len flags =>
      rcases Option.map_eq_some_iff.1 hcall with ⟨⟨h₁, r₁⟩, hrecv, heq⟩
      cases heq
      exact ⟨p, held, opens_same hg (samePool_recvfrom hrecv) rfl⟩
  | udpArrives alloc ip destPort data =>
      cases hcall
      exact ⟨p, held, opens_same hg (samePool_udpIpRecv alloc ip destPort data g.host) rfl⟩
  | tcpArrives env ip dg beyond =>
      cases hcall
      exact ⟨p, held, opens_same hg (samePool_tcpIpRecv env ip dg beyond g.host) rfl⟩
  | loops envs =>
      cases hcall
      exact ⟨p, held, opens_same hg ⟨rfl, rfl⟩ rfl⟩

omit [TimerLib τ] in
/-- Before the first call of `socket` no record is handed out. -/
theorem opens_init : Opens (Tracked.init : Tracked τ) (ItemList.init dtsNetSocketMaxCount) [] := by
  refine ⟨⟨rfl, rfl, divided_itemList_init _, fun hne => absurd rfl hne⟩, fun fd => ?_⟩
  simp [Tracked.init]

/-- The descriptor that is handed out is the result of the call. -/
theorem handsOut_result {g : Tracked τ} {e : HostEvent} {fd : ℕ} (h : handsOut g e = some fd) :
    ∃ h' : Host τ, ∃ r : ℤ, 0 < r ∧ r.toNat = fd ∧
      ∀ p held, Serves g.host p held → ServesCall p held h' r := by
  rcases Option.bind_eq_some_iff.1 h with ⟨result, hcall, hr⟩
  cases e with
  | socket domain type protocol =>
      dsimp only at hr
      split at hr
      · next hpos =>
          cases hr
          cases hcall
          exact ⟨_, _, hpos, rfl, fun p held hs => hs.socket domain type protocol⟩
      · cases hr
  | accept env nifs fd' =>
      dsimp only at hr
      split at hr
      · next hpos =>
          cases hr
          exact ⟨result.1, result.2, hpos, rfl, fun p held hs => hs.accept hcall⟩
      · cases hr
  | _ =>
      cases hr

theorem distinctOpen_of_opens {g : Tracked τ} {p : ItemList} {held : List ℕ}
    (hg : Opens g p held) : DistinctOpen g where
  fresh e fd hfd := by
    rcases handsOut_result hfd with ⟨h', r, hpos, rfl, hserves⟩
    rcases hserves p held hg.serves with ⟨hr, _⟩ | ⟨i, _, hnot, rfl, _⟩
    · exact absurd hpos (not_lt.2 hr)
    · rw [Int.toNat_natCast, Bool.eq_false_iff]
      intro hopen
      simpa [hnot] using (hg.isOpen (i + 1)).1 hopen
  bounded fds hnodup hopen := by
    -- open descriptors are held, and what is held and what is free are ten
    have hsub : fds ⊆ held.map (· + 1) := fun fd hfd => (hg.isOpen fd).1 (hopen fd hfd)
    have hle : fds.length ≤ held.length := by
      simpa using (List.subperm_of_subset hnodup hsub).length_le
    have hlen := hg.serves.divided.length
    have hcount : MemItem.count p = dtsNetSocketMaxCount := hg.serves.count
    omega

theorem opens_run {es : List HostEvent} {g : Tracked τ}
    (hclose : Machine.TryAlong trackedStep ClosesOpen (.init : Tracked τ) es)
    (hrun : runTracked .init es = some g) : ∃ p held, Opens g p held :=
  Machine.tryRun_invariant_of_along (I := fun g : Tracked τ => ∃ p held, Opens g p held)
    (fun _ _ _ ⟨_, _, hg⟩ hclose hstep => opens_step hg hclose hstep) ⟨_, _, opens_init⟩ hclose hrun

/-- In every run in which only open descriptors are closed, open descriptors are distinct, and there
are ten at most. -/
theorem open_descriptors_distinct {es : List HostEvent} {g : Tracked τ}
    (hclose : Machine.TryAlong trackedStep ClosesOpen (.init : Tracked τ) es)
    (hrun : runTracked .init es = some g) : DistinctOpen g := by
  rcases opens_run hclose hrun with ⟨p, held, hg⟩
  exact distinctOpen_of_opens hg

/-! ## A descriptor that is closed again -/

/-- As many calls of `socket`. -/
def socketCalls (n : ℕ) : List HostEvent :=
  List.replicate n (.socket afInet sockDgram 0)

/-- If the descriptors stay distinct until the pool is empty, then the records in it and the open
ones are ten at most. -/
theorem length_pool_le {l : List ℕ} {g : Tracked τ} (hpool : g.host.pool = l)
    (hpos : ∀ fd ∈ l, 0 < fd) {fds : List ℕ} (hnodup : fds.Nodup)
    (hopen : ∀ fd ∈ fds, g.isOpen fd = true)
    (hall : ∀ n g', runTracked g (socketCalls n) = some g' → DistinctOpen g') :
    l.length + fds.length ≤ dtsNetSocketMaxCount := by
  induction l generalizing g fds with
  | nil =>
      simpa using (hall 0 g rfl).bounded fds hnodup hopen
  | cons fd rest ih =>
      have hfree : (initSocketApi g.host).freeList = fd :: rest := hpool
      have hfd : 0 < fd := hpos fd (by simp)
      have hslot : slotFor afInet sockDgram 0 g.host = some fd := by
        simp [slotFor, hfree, hfd]
      rcases socket_slot hslot with ⟨_, _, _, hresult, hhost⟩
      -- the record in front comes out, and was not open
      have hout : handsOut g (.socket afInet sockDgram 0) = some fd := by
        simp [handsOut, hostCall, hresult, hfd]
      have hfresh := (hall 0 g rfl).fresh _ fd hout
      have hnot : fd ∉ fds := fun hmem => by simp [hopen fd hmem] at hfresh
      obtain ⟨g', hg'⟩ : ∃ g', g' = { g.handOut fd false with
          host := (socket afInet sockDgram 0 g.host).1 } := ⟨_, rfl⟩
      have hstep : trackedStep g (.socket afInet sockDgram 0) = some g' := by
        simp [trackedStep, hostCall, Tracked.told, hresult, hfd, hg']
      have hpool' : g'.host.pool = rest := by
        rw [hg', pool_of_inited (by simp [hhost, Host.setSocket, initSocketApi_inited])]
        simp [hhost, Host.setSocket, hfree]
      have hopen' : ∀ fd' ∈ fd :: fds, g'.isOpen fd' = true := by
        intro fd' hfd'
        by_cases heq : fd' = fd
        · simp [hg', Tracked.handOut, heq]
        · have hmem : fd' ∈ fds := by simpa [heq] using hfd'
          simp [hg', Tracked.handOut, heq, hopen fd' hmem]
      have hall' : ∀ n g'', runTracked g' (socketCalls n) = some g'' → DistinctOpen g'' := by
        intro n g'' hrun
        refine hall (n + 1) g'' ?_
        rw [socketCalls, List.replicate_succ, runTracked, Machine.tryRun_cons, hstep]
        exact hrun
      have hrest := ih hpool' (fun fd' hfd' => hpos fd' (by simp [hfd']))
        (List.nodup_cons.2 ⟨hnot, hnodup⟩) hopen' hall'
      simp only [List.length_cons] at hrest ⊢
      omega

omit [TimerLib τ] in
theorem pool_memFreeSocket (h : Host τ) (fd : ℕ) :
    (memFreeSocket h fd).pool.Perm (fd :: h.pool) := by
  unfold Host.pool initSocketApi memFreeSocket
  dsimp only
  split
  · exact List.perm_append_singleton fd h.freeList
  · rw [List.append_assoc]
    exact List.perm_middle

/-- Where a descriptor is closed that is not open, after any run in which this did not happen yet,
some number of calls of `socket` then finds the descriptors not distinct, or too many. -/
theorem not_distinct_of_closed {es : List HostEvent} {g g' : Tracked τ} {env : Env} {fd : ℕ}
    (hclose : Machine.TryAlong trackedStep ClosesOpen (.init : Tracked τ) es)
    (hrun : runTracked .init es = some g) (hfd : 0 < fd) (hopen : g.isOpen fd = false)
    (hstep : trackedStep g (.close env fd) = some g') :
    ∃ n g'', runTracked g' (socketCalls n) = some g'' ∧ ¬ DistinctOpen g'' := by
  rcases opens_run hclose hrun with ⟨p, held, hg⟩
  rcases Option.map_eq_some_iff.1 hstep with ⟨⟨h', r⟩, hcall, rfl⟩
  have hpool : h'.pool.Perm (fd :: g.host.pool) := by
    rcases close_cases hcall with rfl | ⟨tcb, _, rfl⟩
    · exact pool_memFreeSocket g.host fd
    · have hframe : SamePool g.host (g.host.onTcb tcb (closeConn env)) := ⟨rfl, rfl⟩
      rw [← hframe.pool]
      exact pool_memFreeSocket _ fd
  have hslots := hg.serves.pool
  by_contra hnone
  simp only [not_exists, not_and, not_not] at hnone
  -- no null pointer is in the pool, at which `socket` would fail
  have hpos : ∀ fd' ∈ h'.pool, 0 < fd' := by
    intro fd' hmem
    rcases List.mem_cons.1 (hpool.mem_iff.1 hmem) with rfl | hmem
    · exact hfd
    · rw [hslots] at hmem
      rcases List.mem_map.1 hmem with ⟨i, _, rfl⟩
      exact Nat.succ_pos i
  have hnodup : (held.map (· + 1)).Nodup :=
    (List.nodup_append.1 hg.serves.divided.nodup).2.1.map (Nat.succ_injective)
  have hheld : ∀ fd' ∈ held.map (· + 1), (g.closes fd).isOpen fd' = true := by
    intro fd' hmem
    have hopen' := (hg.isOpen fd').2 hmem
    have hne : fd' ≠ fd := fun heq => by simp [heq, hopen] at hopen'
    simpa [Tracked.closes, hne] using hopen'
  have hle := @length_pool_le τ _ _ { g.closes fd with host := h' } rfl hpos _ hnodup hheld hnone
  -- the ten records and the one that was put back are more than ten
  have hlen := hg.serves.divided.length
  have hcount : MemItem.count p = dtsNetSocketMaxCount := hg.serves.count
  have hfree : (MemItem.freeItems p).length = g.host.pool.length := by
    rw [hslots, List.length_map]
    rfl
  simp only [hpool.length_eq, List.length_cons, List.length_map] at hle
  omega

/-- A descriptor is closed once. -/
def closedOnce : List HostEvent :=
  [.socket afInet sockDgram 0, .close (.working 7) 1] ++ socketCalls 10

/-- A descriptor is closed again, as a caller does whose `bind` fails twice. -/
def closedTwice : List HostEvent :=
  [.socket afInet sockDgram 0, .close (.working 7) 1, .close (.working 7) 1] ++ socketCalls 10

theorem closesOpen_socketCalls (g : Tracked τ) (n : ℕ) :
    Machine.TryAlong trackedStep ClosesOpen g (socketCalls n) := by
  refine Machine.tryAlong_mono ?_
    (Machine.tryAlong_of_forall (P := fun e => e = .socket afInet sockDgram 0) ?_)
  · rintro _ _ rfl
    trivial
  · intro e he
    exact List.eq_of_mem_replicate he

theorem open_descriptors_distinct_sample :
    DistinctOpen ((runTracked (.init : Tracked Deadline) closedOnce).get (by decide)) := by
  have hclose : Machine.TryAlong trackedStep ClosesOpen (.init : Tracked Deadline) closedOnce := by
    refine ⟨trivial, fun g hg => ?_⟩
    cases hg
    exact ⟨rfl, fun g _ => closesOpen_socketCalls g 10⟩
  exact open_descriptors_distinct hclose (Option.some_get _).symm

/-- The descriptor that was closed twice is open, and `socket` hands it out again. -/
theorem closedTwice_not_distinct :
    ¬ DistinctOpen ((runTracked (.init : Tracked Deadline) closedTwice).get (by decide)) := by
  intro hg
  have hopen := hg.fresh (.socket afInet sockDgram 0) 1 (by decide)
  revert hopen
  decide

end Socket
end DtsNet
