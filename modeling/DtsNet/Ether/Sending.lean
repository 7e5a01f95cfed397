import DtsNet.Ether.Arp
import Mathlib.Data.Nat.Count

/-!
# Sending — the tries of `ip_ether_send`

The driver has its answers ready, one for each frame that it is offered, and keeps what it was
offered.  A block is offered three times at most; the frame is used again for the next block, with
the size that `ether_pack` left in it.
-/

namespace DtsNet
namespace Ether

open Dblk Ip

/-! ## A driver with given answers -/

/-- A frame that was offered, and whether the driver took it. -/
structure Offer where
  bytes : List Byte
  taken : Bool
  deriving DecidableEq, Repr

/-- The answers that are still to come, and what was offered so far. -/
structure Driver where
  answers : ℕ → Bool
  log : List Offer

/-- `ether->send`. -/
def Driver.send (d : Driver) (_ : EtherT) (bytes : List Byte) : Driver × Bool :=
  ({ answers := fun k => d.answers (k + 1), log := d.log ++ [⟨bytes, d.answers 0⟩] }, d.answers 0)

/-- The driver after these offers. -/
def Driver.after (d : Driver) (offers : List Offer) : Driver :=
  { answers := fun k => d.answers (offers.length + k), log := d.log ++ offers }

@[simp] theorem Driver.after_nil (d : Driver) : d.after [] = d := by
  simp [Driver.after]

@[simp] theorem Driver.after_after (d : Driver) (offers more : List Offer) :
    (d.after offers).after more = d.after (offers ++ more) := by
  simp [Driver.after, Nat.add_assoc]

theorem Driver.answers_after_one (d : Driver) (o : Offer) (j : ℕ) :
    (d.after [o]).answers j = d.answers (j + 1) :=
  congrArg d.answers (Nat.add_comm 1 j)

theorem Driver.send_eq (d : Driver) (eth : EtherT) (bytes : List Byte) :
    d.send eth bytes = (d.after [⟨bytes, d.answers 0⟩], d.answers 0) := by
  simp [Driver.send, Driver.after, Nat.add_comm]

/-- What the driver took. -/
def accepted (offers : List Offer) : List (List Byte) :=
  (offers.filter Offer.taken).map Offer.bytes

/-- A frame with a whole block behind its header: the bytes, as many as `dblk_size` says. -/
structure WholeFrame (eth : EtherT) (mac : Mac) (block : List VNode) (frame : List Byte) :
    Prop where
  bytes : frame = frameBytes mac eth.macAddress etherTypeIp (vbytes block)
  length : frame.length = 14 + dblkVSize block

/-- The result of a transmission of these blocks tells what the driver did with them. -/
structure Reports (eth : EtherT) (mac : Mac) (blocks : List (List VNode)) (offers : List Offer)
    (ret : Bool) : Prop where
  accepted : ∃ sent, sent <+: blocks ∧ List.Forall₂ (WholeFrame eth mac) sent (accepted offers)
  tries : ∀ refused, refused <:+: offers → (∀ o ∈ refused, o.taken = false) → refused.length ≤ 3
  ret : ret = true ↔ (Ether.accepted offers).length = blocks.length

/-- The driver does not refuse three times in a row before it has taken `n` frames. -/
def NeverStuck (answers : ℕ → Bool) (n : ℕ) : Prop :=
  ∀ i, (∀ k < 3, answers (i + k) = false) → n ≤ Nat.count (fun k => answers k = true) i

/-! ## Runs of refusals -/

/-- The first three answers are refusals, or one of them is the first that is not. -/
theorem refused_or_taken (answers : ℕ → Bool) (retry : ℕ) :
    (∀ j < retry, answers j = false) ∨
      ∃ k < retry, (∀ j < k, answers j = false) ∧ answers k = true := by
  induction retry with
  | zero =>
      exact Or.inl fun j hj => absurd hj (Nat.not_lt_zero j)
  | succ retry ih =>
      obtain hall | ⟨k, hk, hbefore, htaken⟩ := ih
      · cases hlast : answers retry with
        | true =>
            exact Or.inr ⟨retry, Nat.lt_succ_self retry, hall, hlast⟩
        | false =>
            refine Or.inl fun j hj => ?_
            obtain hlt | rfl := Nat.lt_succ_iff_lt_or_eq.1 hj
            · exact hall j hlt
            · exact hlast
      · exact Or.inr ⟨k, Nat.lt_succ_of_lt hk, hbefore, htaken⟩

theorem not_neverStuck_succ {answers : ℕ → Bool} (h : ∀ j < 3, answers j = false) (n : ℕ) :
    ¬ NeverStuck answers (n + 1) := by
  intro hnever
  have hle := hnever 0 (fun k hk => (congrArg answers (Nat.zero_add k)).trans (h k hk))
  rw [Nat.count_zero] at hle
  omega

/-- Once a frame was taken, the refusals are counted from there on. -/
theorem neverStuck_succ_iff {answers : ℕ → Bool} {k : ℕ} (hk : k < 3)
    (hrefused : ∀ j < k, answers j = false) (htaken : answers k = true) (n : ℕ) :
    NeverStuck answers (n + 1) ↔ NeverStuck (fun j => answers (k + 1 + j)) n := by
  have hcount : ∀ i, Nat.count (fun j => answers j = true) (k + 1 + i) =
      1 + Nat.count (fun j => answers (k + 1 + j) = true) i := by
    intro i
    have hnone : Nat.count (fun j => answers j = true) k = 0 := by
      rw [Nat.count_iff_forall_not.2 fun j hj => by simp [hrefused j hj]]
    rw [Nat.count_add, Nat.count_succ, hnone, if_pos htaken]
  constructor
  · intro hnever i hi
    have hle := hnever (k + 1 + i) fun j hj => (congrArg answers (Nat.add_assoc _ _ _)).trans
      (hi j hj)
    rw [hcount] at hle
    change n ≤ Nat.count (fun j => answers (k + 1 + j) = true) i
    omega
  · intro hnever i hi
    -- three refusals cannot begin before the frame that was taken
    have hlt : k < i := by
      by_contra hge
      have hbad := hi (k - i) (by omega)
      rw [show i + (k - i) = k by omega, htaken] at hbad
      cases hbad
    obtain ⟨i, rfl⟩ := Nat.exists_eq_add_of_le hlt
    have hle : n ≤ Nat.count (fun j => answers (k + 1 + j) = true) i :=
      hnever i fun j hj => (congrArg answers (Nat.add_assoc _ _ _)).symm.trans (hi j hj)
    rw [hcount]
    omega

/-- A piece of a list without the element in its middle lies on one side of it. -/
theorem infix_append_cons {α : Type} {l a b : List α} {x : α} (h : l <:+: a ++ x :: b)
    (hx : x ∉ l) : l <:+: a ∨ l <:+: b := by
  have hfront : ∀ a, l <+: a ++ x :: b → l <+: a := by
    intro a hl
    -- a prefix that goes on behind `a` takes in `x`
    obtain hle | ⟨t, rfl⟩ := List.prefix_or_prefix_of_prefix hl (List.prefix_append a (x :: b))
    · exact hle
    · cases t with
      | nil =>
          rw [List.append_nil]
      | cons y t =>
          obtain ⟨rfl, -⟩ := List.cons_prefix_cons.1 ((List.prefix_append_right_inj a).1 hl)
          exact absurd (List.mem_append_right a List.mem_cons_self) hx
  induction a with
  | nil =>
      cases List.infix_cons_iff.1 h with
      | inl hl =>
          exact Or.inl (hfront [] hl).isInfix
      | inr hl =>
          exact Or.inr hl
  | cons y a ih =>
      cases List.infix_cons_iff.1 h with
      | inl hl =>
          exact Or.inl (hfront (y :: a) hl).isInfix
      | inr hl =>
          exact (ih hl).imp_left List.infix_cons

/-- No more than three refusals stand next to each other. -/
def ShortRefusals (offers : List Offer) : Prop :=
  ∀ refused, refused <:+: offers → (∀ o ∈ refused, o.taken = false) → refused.length ≤ 3

theorem shortRefusals_of_length {offers : List Offer} (h : offers.length ≤ 3) :
    ShortRefusals offers :=
  fun _ hinfix _ => hinfix.length_le.trans h

theorem ShortRefusals.append_taken {refused offers : List Offer} {o : Offer}
    (hrefused : refused.length ≤ 3) (ho : o.taken = true) (h : ShortRefusals offers) :
    ShortRefusals (refused ++ o :: offers) := by
  intro l hl hall
  have hmem : o ∉ l := fun hmem => Bool.false_ne_true ((hall o hmem).symm.trans ho)
  cases infix_append_cons hl hmem with
  | inl hleft =>
      exact hleft.length_le.trans hrefused
  | inr hright =>
      exact h l hright hall

/-! ## The loop with its counter -/

/-- The loop of `ip_ether_send` as it is written; without result when the fuel is used up. -/
def etherSendWhile {σ : Type} (send : σ → EtherT → List Byte → σ × Bool) (eth : EtherT) :
    ℕ → List (List VNode) → ℕ → Frame → σ → Option σ
  | _, [], _, _, s => some s
  | _, _ :: _, 0, _, s => some s
  | 0, _ :: _, _ + 1, _, _ => none
  | fuel + 1, block :: next, retry + 1, frame, s =>
      let sent := etherHlSend send eth { frame with payload := block } s
      if sent.2.2 then
        etherSendWhile send eth fuel next 3 sent.1 sent.2.1
      else
        etherSendWhile send eth fuel (block :: next) retry sent.1 sent.2.1

section Terminates

variable {σ : Type} (send : σ → EtherT → List Byte → σ × Bool) (eth : EtherT)

/-- One block with `retry` tries left, by induction on them. -/
theorem etherSendWhile_offerBlock {block : List VNode} {next : List (List VNode)}
    (hnext : ∀ fuel frame s, 3 * next.length ≤ fuel →
      etherSendWhile send eth fuel next 3 frame s = some (etherSendLoop send eth next frame s))
    {retry fuel : ℕ} (hfuel : retry + 3 * next.length ≤ fuel) (frame : Frame) (s : σ) :
    etherSendWhile send eth fuel (block :: next) retry frame s =
      let sent := offerBlock send eth retry { frame with payload := block } s
      some (if sent.2.2 then etherSendLoop send eth next sent.1 sent.2.1 else sent.2.1) := by
  induction retry generalizing fuel frame s with
  | zero =>
      rw [etherSendWhile, offerBlock]
      · rfl
  | succ retry ih =>
      obtain ⟨fuel, rfl⟩ := Nat.exists_eq_add_of_le' (show 1 ≤ fuel by omega)
      rw [etherSendWhile, offerBlock]
      dsimp only
      cases htaken : (etherHlSend send eth { frame with payload := block } s).2.2 with
      | true =>
          -- the counter is back at three for the next block
          rw [if_pos rfl, if_pos rfl, htaken, if_pos rfl]
          exact hnext fuel _ _ (by omega)
      | false =>
          rw [if_neg Bool.false_ne_true, if_neg Bool.false_ne_true, ih (by omega)]
          rfl

/-- Three rounds for each block are enough. -/
theorem etherSendWhile_eq (blocks : List (List VNode)) {fuel : ℕ}
    (hfuel : 3 * blocks.length ≤ fuel) (frame : Frame) (s : σ) :
    etherSendWhile send eth fuel blocks 3 frame s =
      some (etherSendLoop send eth blocks frame s) := by
  induction blocks generalizing fuel frame s with
  | nil =>
      rw [etherSendWhile, etherSendLoop]
  | cons block next ih =>
      have hlen : (block :: next).length = next.length + 1 := List.length_cons
      rw [etherSendWhile_offerBlock send eth (fun fuel frame s hle => ih hle frame s)
        (show 3 + 3 * next.length ≤ fuel by omega), etherSendLoop]

end Terminates

/-! ## One frame -/

/-- The frame goes to this address, with room for `cap` bytes of payload. -/
structure Carries (mac : Mac) (cap : ℕ) (frame : Frame) : Prop where
  dest : frame.destMacAddr = mac
  type : frame.type = etherTypeIp
  dataSize : frame.dataSize = cap + 14

/-- What is offered of a block, and the room for the next one: a block that does not fit is cut. -/
structure Cut (eth : EtherT) (mac : Mac) (block : List VNode) (cap : ℕ) (bytes : List Byte)
    (cap' : ℕ) : Prop where
  length : bytes.length = 14 + min (dblkVSize block) cap
  room : cap' = min (dblkVSize block) cap
  whole : dblkVSize block ≤ cap → (∀ n ∈ block, n.WellFormed) →
    bytes = frameBytes mac eth.macAddress etherTypeIp (vbytes block)

/-- Another try offers the same block with the room that is left. -/
theorem Cut.again {eth : EtherT} {mac : Mac} {block : List VNode} {cap cap' cap'' : ℕ}
    {bytes bytes' : List Byte} (h : Cut eth mac block cap bytes cap')
    (h' : Cut eth mac block cap' bytes' cap'') : Cut eth mac block cap bytes' cap'' := by
  have hroom : min (dblkVSize block) cap' = min (dblkVSize block) cap := by
    have hcap := h.room
    omega
  refine ⟨hroom ▸ h'.length, hroom ▸ h'.room, fun hle hwf => h'.whole ?_ hwf⟩
  have hcap := h.room
  omega

/-- The whole block goes out just when there is room for it, and it has the bytes it says. -/
theorem Cut.wholeFrame_iff {eth : EtherT} {mac : Mac} {block : List VNode} {cap cap' : ℕ}
    {bytes : List Byte} (h : Cut eth mac block cap bytes cap') :
    WholeFrame eth mac block bytes ↔ dblkVSize block ≤ cap ∧ ∀ n ∈ block, n.WellFormed := by
  have hlen := h.length
  constructor
  · rintro ⟨hbytes, hwhole⟩
    have hframe := length_frameBytes mac eth.macAddress etherTypeIp (vbytes block)
    rw [← hbytes] at hframe
    exact ⟨by omega, (length_vbytes_eq_iff block).1 (by omega)⟩
  · rintro ⟨hle, hwf⟩
    exact ⟨h.whole hle hwf, by omega⟩

/-- `ether_pack` leaves the size of what it copied in `data_size`. -/
theorem dataSize_etherPack (frame : Frame) :
    (etherPack frame).dataSize = min (dblkVSize frame.payload) (frame.dataSize - 14) + 14 :=
  congrArg (· + 14) (dblkCopyTo_snd _ _ _)

theorem etherHlSend_cut {σ : Type} (send : σ → EtherT → List Byte → σ × Bool) (eth : EtherT)
    {mac : Mac} {cap : ℕ} {frame : Frame} (hframe : Carries mac cap frame) (s : σ) :
    ∃ cap' bytes, Carries mac cap' (etherHlSend send eth frame s).1 ∧
      Cut eth mac frame.payload cap bytes cap' ∧
      (etherHlSend send eth frame s).2 = send s eth bytes := by
  let packed := (etherHlSend send eth frame s).1
  have hcap : frame.dataSize - 14 = cap := by
    rw [hframe.dataSize, Nat.add_sub_cancel]
  have hpacked : packed.dataSize = min (dblkVSize frame.payload) cap + 14 :=
    hcap ▸ dataSize_etherPack { frame with srcMacAddr := eth.macAddress }
  refine ⟨min (dblkVSize frame.payload) cap, memRead packed.data packed.dataSize,
    ⟨hframe.dest, hframe.type, hpacked⟩, ⟨?_, rfl, fun hle hwf => ?_⟩, rfl⟩
  · rw [length_memRead, hpacked, Nat.add_comm]
  · -- the memory that the driver reads is the packed frame
    have htype : ¬ frame.type < 0x05DC := by
      rw [hframe.type]
      decide
    have hsize : (vbytes frame.payload).length + 14 ≤ frame.dataSize := by
      rw [(length_vbytes_eq_iff _).2 hwf, hframe.dataSize]
      omega
    have hread := etherHlSend_eq (fun _ _ bytes => (bytes, true)) eth [] htype hwf hsize
    rw [hframe.dest, hframe.type] at hread
    exact congrArg Prod.fst hread

/-! ## One block -/

section Offers

variable (eth : EtherT) {mac : Mac} {cap : ℕ} {frame : Frame}

/-- The driver takes the block at the try number `k`. -/
theorem offerBlock_taken (hframe : Carries mac cap frame) {retry k : ℕ} (hk : k < retry)
    {d : Driver} (hrefused : ∀ j < k, d.answers j = false)
    (htaken : d.answers k = true) :
    ∃ frame' refused bytes cap',
      offerBlock Driver.send eth retry frame d =
        (frame', d.after (refused ++ [⟨bytes, true⟩]), true) ∧
      refused.length = k ∧ (∀ o ∈ refused, o.taken = false) ∧
      Carries mac cap' frame' ∧ Cut eth mac frame.payload cap bytes cap' := by
  induction retry generalizing frame cap k d with
  | zero =>
      omega
  | succ retry ih =>
      obtain ⟨cap', bytes, hcarries, hcut, hsent⟩ := etherHlSend_cut Driver.send eth hframe d
      rw [Driver.send_eq] at hsent
      cases k with
      | zero =>
          -- this try is the one
          rw [htaken] at hsent
          refine ⟨_, [], bytes, cap', ?_, rfl, fun o ho => absurd ho List.not_mem_nil, hcarries,
            hcut⟩
          rw [offerBlock, hsent, if_pos rfl, List.nil_append, ← hsent]
      | succ k =>
          -- a refusal, after which the other answers move up by one
          rw [hrefused 0 (Nat.succ_pos k)] at hsent
          obtain ⟨frame', refused, bytes', cap'', heq, hlen, hall, hcarries', hcut'⟩ :=
            ih hcarries (Nat.lt_of_succ_lt_succ hk)
              (fun j hj => (d.answers_after_one _ j).trans (hrefused _ (Nat.succ_lt_succ hj)))
              ((d.answers_after_one _ k).trans htaken)
          refine ⟨frame', ⟨bytes, false⟩ :: refused, bytes', cap'', ?_, congrArg (· + 1) hlen,
            ?_, hcarries', hcut.again hcut'⟩
          · rw [offerBlock, hsent, if_neg Bool.false_ne_true, heq, Driver.after_after]
            rfl
          · exact List.forall_mem_cons.2 ⟨rfl, hall⟩

/-- The driver refuses the block at every try. -/
theorem offerBlock_refused (hframe : Carries mac cap frame) {retry : ℕ} {d : Driver}
    (hrefused : ∀ j < retry, d.answers j = false) :
    ∃ frame' refused,
      offerBlock Driver.send eth retry frame d = (frame', d.after refused, false) ∧
      refused.length = retry ∧ ∀ o ∈ refused, o.taken = false := by
  induction retry generalizing frame cap d with
  | zero =>
      refine ⟨frame, [], ?_, rfl, fun o ho => absurd ho List.not_mem_nil⟩
      rw [offerBlock, Driver.after_nil]
  | succ retry ih =>
      obtain ⟨cap', bytes, hcarries, _, hsent⟩ := etherHlSend_cut Driver.send eth hframe d
      rw [Driver.send_eq, hrefused 0 (Nat.succ_pos retry)] at hsent
      obtain ⟨frame', refused, heq, hlen, hall⟩ := ih hcarries
        (fun j hj => (d.answers_after_one _ j).trans (hrefused _ (Nat.succ_lt_succ hj)))
      refine ⟨frame', ⟨bytes, false⟩ :: refused, ?_, congrArg (· + 1) hlen, ?_⟩
      · rw [offerBlock, hsent, if_neg Bool.false_ne_true, heq, Driver.after_after]
        rfl
      · exact List.forall_mem_cons.2 ⟨rfl, hall⟩

end Offers

/-! ## All blocks -/

section Run

variable (eth : EtherT) {mac : Mac}

theorem accepted_of_refused {offers : List Offer} (h : ∀ o ∈ offers, o.taken = false) :
    accepted offers = [] := by
  have hfilter : offers.filter Offer.taken = [] :=
    List.filter_eq_nil_iff.2 fun o ho => by simp [h o ho]
  rw [accepted, hfilter, List.map_nil]

theorem accepted_append_taken {refused : List Offer} (h : ∀ o ∈ refused, o.taken = false)
    (bytes : List Byte) (offers : List Offer) :
    accepted (refused ++ ⟨bytes, true⟩ :: offers) = bytes :: accepted offers := by
  have hnone : (refused.filter Offer.taken).map Offer.bytes = [] := accepted_of_refused h
  rw [accepted, List.filter_append, List.map_append, hnone, List.nil_append,
    List.filter_cons_of_pos rfl, List.map_cons, accepted]

/-- A run of the loop, by induction on the blocks: what is offered, and when every block is taken
as a whole. -/
theorem etherSendLoop_run (blocks : List (List VNode)) {cap : ℕ} {frame : Frame}
    (hframe : Carries mac cap frame) (d : Driver) :
    ∃ offers, etherSendLoop Driver.send eth blocks frame d = d.after offers ∧
      ShortRefusals offers ∧
      (List.Forall₂ (WholeFrame eth mac) blocks (accepted offers) ↔
        NeverStuck d.answers blocks.length ∧ (cap :: blocks.map dblkVSize).IsChain (· ≥ ·) ∧
          ∀ b ∈ blocks, ∀ n ∈ b, n.WellFormed) := by
  induction blocks generalizing cap frame d with
  | nil =>
      refine ⟨[], ?_, shortRefusals_of_length (Nat.zero_le 3), fun _ => ⟨?_, ?_, ?_⟩,
        fun _ => List.Forall₂.nil⟩
      · rw [etherSendLoop, Driver.after_nil]
      · exact fun _ _ => Nat.zero_le _
      · exact List.IsChain.singleton cap
      · exact fun b hb => absurd hb List.not_mem_nil
  | cons block next ih =>
      have hblock : Carries mac cap { frame with payload := block } :=
        ⟨hframe.dest, hframe.type, hframe.dataSize⟩
      rw [etherSendLoop, List.map_cons, List.length_cons, List.isChain_cons_cons,
        List.forall_mem_cons]
      obtain hall | ⟨k, hk, hbefore, htaken⟩ := refused_or_taken d.answers 3
      · -- the loop ends here
        obtain ⟨frame', refused, heq, hlen, hrefused⟩ := offerBlock_refused eth hblock hall
        refine ⟨refused, ?_, shortRefusals_of_length (Nat.le_of_eq hlen), fun hwhole => ?_,
          fun h => absurd h.1 (not_neverStuck_succ hall next.length)⟩
        · rw [heq]
          exact if_neg Bool.false_ne_true
        · rw [accepted_of_refused hrefused] at hwhole
          cases hwhole
      · -- the room for the next block is what this one has left of it
        obtain ⟨frame', refused, bytes, cap', heq, hlen, hrefused, hcarries, hcut⟩ :=
          offerBlock_taken eth hblock hk hbefore htaken
        have hcut : Cut eth mac block cap bytes cap' := hcut
        let d' := d.after (refused ++ [⟨bytes, true⟩])
        obtain ⟨offers, hloop, hshort, hiff⟩ := ih hcarries d'
        have hanswers : d'.answers = fun j => d.answers (k + 1 + j) := by
          rw [← hlen]
          simp only [d', Driver.after, List.length_append, List.length_singleton]
        rw [hanswers] at hiff
        refine ⟨refused ++ ⟨bytes, true⟩ :: offers, ?_,
          hshort.append_taken (by omega) rfl, ?_⟩
        · rw [heq]
          change etherSendLoop Driver.send eth next frame' d' = _
          rw [hloop, Driver.after_after, List.append_assoc, List.singleton_append]
        · rw [accepted_append_taken hrefused, List.forall₂_cons, hcut.wholeFrame_iff, hiff,
            neverStuck_succ_iff hk hbefore htaken]
          constructor
          · rintro ⟨⟨hle, hwf⟩, hnever, hchain, hrest⟩
            rw [hcut.room, Nat.min_eq_left hle] at hchain
            exact ⟨hnever, ⟨hle, hchain⟩, hwf, hrest⟩
          · rintro ⟨hnever, ⟨hle, hchain⟩, hwf, hrest⟩
            rw [hcut.room, Nat.min_eq_left hle]
            exact ⟨⟨hle, hwf⟩, hnever, hchain, hrest⟩

/-- The hardware address is known without asking. -/
def KnownMac {τ : Type} [ListLib] (h : EtherArp τ) (dest : IpAddr) (mac : Mac) : Prop :=
  if ipAddrBroadcast dest then
    mac = ethernetBroadcastAddress
  else
    (ListLib.find (listMatchArpti dest.addr) h.arpTable).map Arpti.mac = some mac

/-- The frame of `ip_ether_send` before the first block. -/
def freshFrame (mac : Mac) : Frame :=
  { destMacAddr := mac
    srcMacAddr := ⟨0, 0, 0, 0, 0, 0⟩
    payload := []
    type := etherTypeIp
    data := List.replicate 2048 0
    dataSize := 2048 }

theorem ipEtherSend_of_knownMac {τ σ : Type} [ListLib]
    (send : σ → EtherT → List Byte → σ × Bool) {h : EtherArp τ} {dest : IpAddr}
    (hmac : KnownMac h dest mac) (blocks : List (List VNode)) (s : σ) :
    ipEtherSend send true h eth dest blocks s =
      some (etherSendLoop send eth blocks (freshFrame mac) s, true) := by
  unfold KnownMac at hmac
  by_cases hbroadcast : ipAddrBroadcast dest
  · rw [if_pos hbroadcast] at hmac
    rw [ipEtherSend, if_pos hbroadcast, ← hmac]
    rfl
  · rw [if_neg hbroadcast] at hmac
    obtain ⟨arpti, hfind, rfl⟩ := Option.map_eq_some_iff.1 hmac
    rw [ipEtherSend, if_neg hbroadcast, etherArpGetMacAddress, hfind]
    rfl

/-- `ip_ether_send` ends, but it reports what it did just when the driver never refuses three times
in a row while there is something to send, no block is larger than one before it, and the blocks
have the bytes they say: it returns 1 after a block it gave up, and a larger block is cut to the
size of the frame before. -/
theorem ipEtherSend_reports_iff {τ : Type} [ListLib] {h : EtherArp τ} {dest : IpAddr}
    (hmac : KnownMac h dest mac) {blocks : List (List VNode)}
    (hsize : ∀ b ∈ blocks, dblkVSize b ≤ 1500) (answers : ℕ → Bool) :
    ∃ d ret, ipEtherSend Driver.send true h eth dest blocks ⟨answers, []⟩ = some (d, ret) ∧
      etherSendWhile Driver.send eth (3 * blocks.length) blocks 3 (freshFrame mac) ⟨answers, []⟩ =
        some d ∧
      (Reports eth mac blocks d.log ret ↔
        NeverStuck answers blocks.length ∧ (blocks.map dblkVSize).Pairwise (· ≥ ·) ∧
          ∀ b ∈ blocks, ∀ n ∈ b, n.WellFormed) := by
  have hframe : Carries mac 2034 (freshFrame mac) := ⟨rfl, rfl, rfl⟩
  obtain ⟨offers, hloop, hshort, hiff⟩ := etherSendLoop_run eth blocks hframe ⟨answers, []⟩
  refine ⟨_, _, ipEtherSend_of_knownMac eth Driver.send hmac blocks _,
    etherSendWhile_eq Driver.send eth blocks (Nat.le_refl _) _ _, ?_⟩
  have hroom : ∀ size ∈ blocks.map dblkVSize, 2034 ≥ size := by
    intro size hmem
    obtain ⟨b, hb, rfl⟩ := List.mem_map.1 hmem
    exact (hsize b hb).trans (by decide)
  rw [List.isChain_iff_pairwise, List.pairwise_cons, and_iff_right hroom] at hiff
  rw [hloop, ← hiff]
  constructor
  · -- as many frames as blocks were taken, so the blocks they carry are all of them
    intro hreports
    obtain ⟨sent, hsent, hwhole⟩ := hreports.accepted
    have hlen : sent.length = blocks.length := hwhole.length_eq.trans (hreports.ret.1 rfl)
    exact hsent.eq_of_length hlen ▸ hwhole
  · intro hwhole
    exact ⟨⟨blocks, List.prefix_refl blocks, hwhole⟩, hshort, fun _ => hwhole.length_eq.symm,
      fun _ => rfl⟩

end Run

/-! ## Two failing runs -/

/-- A table without entries, and the address of all hosts, which needs none. -/
def emptyTable : EtherArp Unit :=
  { arpTable := [], arptiCount := 0, nifList := [], ll := fun _ => none }

def allHosts : IpAddr :=
  { version := 4, addr := ⟨0xFF, 0xFF, 0xFF, 0xFF⟩, netmask := ⟨0, 0, 0, 0⟩ }

def someEther : EtherT :=
  { handle := 0, macAddress := ⟨2, 0, 0, 0, 0, 1⟩ }

/-- Two blocks that do not grow, and a driver that refuses every third frame. -/
theorem ipEtherSend_reports_sample :
    ∃ d ret, ipEtherSend Driver.send true emptyTable someEther allHosts
        [[dblkNodeInit [1, 2]], [dblkNodeInit [3]]] ⟨fun k => k % 3 != 0, []⟩ = some (d, ret) ∧
      Reports someEther ethernetBroadcastAddress [[dblkNodeInit [1, 2]], [dblkNodeInit [3]]]
        d.log ret := by
  have hnever : NeverStuck (fun k => k % 3 != 0) 2 := by
    intro i hi
    have h0 := hi 0 (by decide)
    have h1 := hi 1 (by decide)
    simp only [bne_eq_false_iff_eq] at h0 h1
    omega
  have hmac : KnownMac emptyTable allHosts ethernetBroadcastAddress := rfl
  have hsize : ∀ b ∈ [[dblkNodeInit [1, 2]], [dblkNodeInit [3]]], dblkVSize b ≤ 1500 := by decide
  obtain ⟨d, ret, hsend, -, hiff⟩ :=
    ipEtherSend_reports_iff someEther hmac hsize fun k => k % 3 != 0
  exact ⟨d, ret, hsend, hiff.2 ⟨hnever, by decide, by decide⟩⟩

/-- A block that the driver never takes is reported as sent, and a block that is larger than the
one before it goes out without its end. -/
theorem ipEtherSend_misreports_sample :
    (∃ d ret, ipEtherSend Driver.send true emptyTable someEther allHosts [[dblkNodeInit [1]]]
        ⟨fun _ => false, []⟩ = some (d, ret) ∧
      ¬ Reports someEther ethernetBroadcastAddress [[dblkNodeInit [1]]] d.log ret) ∧
    ∃ d ret, ipEtherSend Driver.send true emptyTable someEther allHosts
        [[dblkNodeInit [1]], [dblkNodeInit [2, 3]]] ⟨fun _ => true, []⟩ = some (d, ret) ∧
      ¬ Reports someEther ethernetBroadcastAddress [[dblkNodeInit [1]], [dblkNodeInit [2, 3]]]
        d.log ret := by
  constructor
  · refine ⟨_, _, rfl, fun h => ?_⟩
    have hlen := h.ret.1 rfl
    revert hlen
    decide +kernel
  · refine ⟨_, _, rfl, fun h => ?_⟩
    obtain ⟨sent, hsent, hwhole⟩ := h.accepted
    have hall := hsent.eq_of_length (hwhole.length_eq.trans (by decide +kernel))
    rw [hall] at hwhole
    have hcut := (hwhole.get (i := 1) (by decide) (by decide +kernel)).length
    revert hcut
    decide +kernel

end Ether
end DtsNet
