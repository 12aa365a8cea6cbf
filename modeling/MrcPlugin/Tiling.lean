-- The chunks of a send tile its bytes. The share of every QP is rounded up, so
-- the shares add up to the size or more, and the running offset cuts the last
-- of them to what is left.
import MrcPlugin.PostedSends

namespace net_ib.p2p

open cuts

/-! ## The share of a QP -/

theorem chunkShare_dvd (size : Int) (weight cnt : Nat) : 128 ∣ chunkShare size weight cnt := by
  unfold chunkShare IB_WRITE_CHUNK_ALIGNMENT
  refine (Nat.dvd_mod_iff ?_).mpr (Nat.dvd_mul_left 128 _)
  decide

theorem DIVUP_eq {x y : Nat} (hx : x < 2 ^ 63) (hy : y < 2 ^ 63) : DIVUP x y = (x + y - 1) / y := by
  unfold DIVUP
  rw [Nat.mod_eq_of_lt (by omega)]

/-- A quotient that is rounded up is enough, and by less than one part too much. -/
theorem DIVUP_bounds {x y : Nat} (hx : x < 2 ^ 63) (hy : y < 2 ^ 63) (hpos : 0 < y) :
    x ≤ y * DIVUP x y ∧ y * DIVUP x y ≤ x + y - 1 := by
  rw [DIVUP_eq hx hy]
  have h1 := Nat.div_add_mod (x + y - 1) y
  have h2 := Nat.mod_lt (x + y - 1) hpos
  omega

/-- While the weight is below 200, the share fits in 32 bits, and the QPs of a
device together carry their part of the size by weight. -/
theorem chunkShare_ge {size : Int} {weight cnt : Nat} (h0 : 0 ≤ size) (h1 : size < 2 ^ 31)
    (hw : weight ≤ 199) (hc : 0 < cnt) (hc' : cnt ≤ 128) :
    size.toNat * weight ≤ 100 * (cnt * chunkShare size weight cnt) := by
  have hs : size.toNat ≤ 2 ^ 31 - 1 := by omega
  have ha : size.toNat * weight ≤ (2 ^ 31 - 1) * 199 := Nat.mul_le_mul hs hw
  have hprod : u64 size * weight % 2 ^ 64 = size.toNat * weight := by
    rw [u64_of_nonneg h0 (by omega), Nat.mod_eq_of_lt (by omega)]
  unfold chunkShare IB_WRITE_CHUNK_ALIGNMENT
  rw [hprod]
  generalize size.toNat * weight = a at ha
  obtain ⟨hlow, hhigh⟩ :=
    DIVUP_bounds (show a < 2 ^ 63 by omega) (show 100 * cnt < 2 ^ 63 by omega) (by omega)
  generalize DIVUP a (100 * cnt) = x at hlow hhigh
  -- The quotient is at most the one for a single QP.
  have hx : 100 * x ≤ a + 100 := by
    have hmul : 100 * (cnt * x) ≤ a + 100 * cnt := by
      have := Nat.mul_assoc 100 cnt x
      omega
    by_cases hle : x ≤ 1
    · omega
    · have : 1 * (x - 1) ≤ cnt * (x - 1) := Nat.mul_le_mul_right _ hc
      have : cnt * (x - 1) = cnt * x - cnt := by rw [Nat.mul_sub, Nat.mul_one]
      omega
  obtain ⟨hlow', hhigh'⟩ :=
    DIVUP_bounds (show x < 2 ^ 63 by omega) (show 128 < 2 ^ 63 by decide) (by decide)
  rw [Nat.mod_eq_of_lt (by omega)]
  calc a ≤ 100 * cnt * x := hlow
    _ ≤ 100 * cnt * (DIVUP x 128 * 128) := Nat.mul_le_mul_left _ (by omega)
    _ = 100 * (cnt * (DIVUP x 128 * 128)) := Nat.mul_assoc ..

/-! ## One send along the QPs -/

/-- The data writes with one scatter element that a list of posts makes for
send `r` of the group. -/
def dataWrs (posts : List SendPost) (r : Nat) : List IbvSendWr :=
  (posts.filterMap (fun p => p.wrs[r]?)).filter (fun wr => wr.num_sge = 1)

/-- The scatter element of send `r` goes only when all its bytes have gone out. -/
def HasSge (call : MultiSendCall) (r off : Nat) (s : MultiSendState) : Prop :=
  (s.wrs r).num_sge = 1 ∨ ((s.wrs r).num_sge = 0 ∧ off = call.bytes r)

section
variable {call : MultiSendCall} {r : Nat}

theorem chunkWr_num_sge (call : MultiSendCall) (s : MultiSendState) (qp : NcclIbQp)
    (origDevIndex r : Nat) : (chunkWr call s qp origDevIndex r).num_sge =
      if (chunkWr call s qp origDevIndex r).sge.length = 0 then 0 else (s.wrs r).num_sge := rfl

theorem hasSge_postOnQp (hr : r < call.nreqs) {s : MultiSendState} {off : Nat}
    (h : Track call r off s) (hsge : HasSge call r off s) (hoff : off ≤ call.bytes r) (q : Nat × Nat)
    (hshare : 0 < call.bytes r → 0 < shareOn call r q) :
    HasSge call r (off + min (call.bytes r - off) (shareOn call r q)) (postOnQp call s q) := by
  obtain ⟨p, qpIndex⟩ := q
  have hnum : ((postOnQp call s (p, qpIndex)).wrs r).num_sge =
      if min (call.bytes r - off) (shareOn call r (p, qpIndex)) = 0 then 0
      else (s.wrs r).num_sge := by
    rw [postOnQp_wrs hr, ← chunkWr_length h hoff]
    rfl
  unfold HasSge
  rw [hnum]
  split
  · right
    refine ⟨rfl, ?_⟩
    -- A chunk of no bytes means that nothing is left.
    by_cases hz : 0 < call.bytes r
    · have := hshare hz
      omega
    · omega
  · rcases hsge with h | h
    · exact Or.inl h
    · omega

/-- The data writes of send `r` are the pieces that hold bytes. -/
theorem dataWrs_loopPosts (hr : r < call.nreqs) (hlast : call.nreqs - 1 ≤ call.lastWr)
    (qps : List (Nat × Nat)) : ∀ s off, Track call r off s → HasSge call r off s →
      off ≤ call.bytes r → (∀ q ∈ qps, 0 < call.bytes r → 0 < shareOn call r q) →
      List.Forall₂ (Writes (call.comm.base.reqs (call.reqs r)).send.data
        (call.comm.ctsFifo call.slot r).addr) (dataWrs (loopPosts call s qps) r)
        (nonempty (pieces (call.bytes r) off (qps.map (shareOn call r)))) := by
  induction qps with
  | nil => intro s off _ _ _ _; exact List.Forall₂.nil
  | cons q rest ih =>
    intro s off h hsge hoff hshare
    have hrest := ih _ _ (track_postOnQp hr h hoff q)
      (hasSge_postOnQp hr h hsge hoff q (hshare q (List.mem_cons_self ..))) (by omega)
      (fun q' hq' => hshare q' (List.mem_cons_of_mem _ hq'))
    obtain ⟨p, qpIndex⟩ := q
    have hlen := chunkWr_length h hoff p qpIndex
    have hget : ((List.range (call.lastWr + 1)).map (qpWrs call s (call.comm.base.qps p)
        (call.comm.base.qps qpIndex).devIndex))[r]? = some (chunkWr call s
          (call.comm.base.qps p) (call.comm.base.qps qpIndex).devIndex r) := by
      rw [List.getElem?_map, List.getElem?_range (by omega)]
      simp [qpWrs, hr]
    have hnum := chunkWr_num_sge call s (call.comm.base.qps p)
      (call.comm.base.qps qpIndex).devIndex r
    rw [hlen] at hnum
    rw [List.map_cons, pieces, loopPosts]
    unfold dataWrs nonempty at *
    simp only [List.filterMap_cons, hget, List.filter_cons]
    by_cases hz : min (call.bytes r - off) (shareOn call r (p, qpIndex)) = 0
    · rw [if_pos hz] at hnum
      simpa [hz, hnum] using hrest
    · have hone : (s.wrs r).num_sge = 1 := by
        rcases hsge with h | h
        · exact h
        · omega
      rw [if_neg hz, hone] at hnum
      simp only [hz, hnum, decide_true, if_true, ne_eq, not_false_eq_true]
      exact List.Forall₂.cons ⟨h.source, h.target, hlen⟩ hrest

end

/-! ## The whole call -/

/-- A group of sends that waits in `slot` to be posted for the first time. -/
structure ReadyGroup (comm : NcclIbSendComm) (slot : Nat) : Prop where
  nreqs_pos : 0 < (comm.ctsFifo slot 0).nreqs
  nreqs_le : (comm.ctsFifo slot 0).nreqs ≤ 8
  matched : ∀ r < (comm.ctsFifo slot 0).nreqs, (comm.sendReqs slot r).isSome
  size_nonneg : ∀ r < (comm.ctsFifo slot 0).nreqs, 0 ≤ (reqAt comm slot r).send.size
  size_lt : ∀ r < (comm.ctsFifo slot 0).nreqs, (reqAt comm slot r).send.size < 2 ^ 31
  id_lt : (reqAt comm slot 0).id < 2 ^ 56
  unsent : comm.base.resiliency = true → ∀ q, (reqAt comm slot 0).send.sentData q = false

/-- The data writes of `ncclIbMultiSend` tile every send of the group. -/
def SendsAreTiled (env : NetEnv) (comm : NcclIbSendComm) (slot : Nat) : Prop :=
  ∃ comm' posts, ncclIbMultiSend env comm slot = .ok (comm', posts) ∧
    ∀ r < (comm.ctsFifo slot 0).nreqs, ∃ ps : List Piece,
      List.Forall₂ (Writes (reqAt comm slot r).send.data (comm.ctsFifo slot r).addr)
        (dataWrs posts r) ps ∧
      Tiles 128 0 (reqAt comm slot r).send.size.toNat ps

/-- The shares of a send over its QPs add up to its size. -/
theorem shares_cover {sh : Shape} {comm : NcclIbSendComm} {slot : Nat}
    (hs : Striped sh comm.base) (hg : ReadyGroup comm slot) (env : NetEnv)
    (hw : ∀ d < sh.ndevs, (reqAt comm slot 0).send.weights d ≤ 199)
    (hsum : 100 ≤ ((List.range sh.ndevs).map (reqAt comm slot 0).send.weights).sum)
    {r : Nat} (hr : r < (comm.ctsFifo slot 0).nreqs) :
    (reqAt comm slot r).send.size.toNat ≤
      ((qpsOf sh comm.base (reqAt comm slot 0).id).map (shareOn (multiSendCall env comm slot
        (qpsOf sh comm.base (reqAt comm slot 0).id)) r)).sum := by
  have hlen := qpsOf_length_le sh comm.base (reqAt comm slot 0).id
  generalize hqps : qpsOf sh comm.base (reqAt comm slot 0).id = qps at hlen ⊢
  -- The devices of the QPs, one for each QP.
  let devs := qps.map (fun q => (comm.base.qps q.2).devIndex)
  have hcount : ∀ d, (multiSendCall env comm slot qps).qpsPerDev d = devs.count d := by
    intro d
    show qps.countP _ = (qps.map _).count d
    rw [List.count, List.countP_map]
    exact List.countP_congr (by simp)
  have hmem : ∀ d < sh.ndevs, d ∈ devs := by
    intro d hd
    obtain ⟨i, hi, hdev⟩ := exists_part_on_device hs hg.id_lt hd
    refine List.mem_map.mpr ⟨((comm.base.activeQps (reqQpIndex sh comm.base
      (reqAt comm slot 0).id i)).getD 0, reqQpIndex sh comm.base (reqAt comm slot 0).id i), ?_, hdev⟩
    rw [← hqps]
    exact List.mem_map.mpr ⟨i, List.mem_range.mpr hi, rfl⟩
  have hshare : ∀ d < sh.ndevs,
      (reqAt comm slot r).send.size.toNat * (reqAt comm slot 0).send.weights d ≤
        100 * (devs.count d * chunkShare (reqAt comm slot r).send.size
          ((reqAt comm slot 0).send.weights d) (devs.count d)) := by
    intro d hd
    refine chunkShare_ge (hg.size_nonneg r hr) (hg.size_lt r hr) (hw d hd)
      (List.count_pos_iff.mpr (hmem d hd)) ?_
    exact List.count_le_length.trans (by rw [List.length_map]; exact hlen)
  have hall := weighted_shares devs hmem hsum hshare
  have hmap : qps.map (shareOn (multiSendCall env comm slot qps) r) =
      devs.map (fun d => chunkShare (reqAt comm slot r).send.size
        ((reqAt comm slot 0).send.weights d) (devs.count d)) := by
    show _ = (qps.map _).map _
    rw [List.map_map]
    refine List.map_congr_left (fun q _ => ?_)
    show chunkShare _ _ ((multiSendCall env comm slot qps).qpsPerDev _) = _
    rw [hcount]
    rfl
  rw [hmap]
  omega

theorem chunkShare_pos {size : Int} {weight cnt : Nat} (h0 : 0 < size) (h1 : size < 2 ^ 31)
    (hw : 0 < weight) (hw' : weight ≤ 199) (hc : 0 < cnt) (hc' : cnt ≤ 128) :
    0 < chunkShare size weight cnt := by
  have h := chunkShare_ge h0.le h1 hw' hc hc'
  have : 0 < size.toNat * weight := Nat.mul_pos (by omega) hw
  rcases Nat.eq_zero_or_pos (chunkShare size weight cnt) with hz | hpos
  · rw [hz] at h
    omega
  · exact hpos

theorem hasSge_init (env : NetEnv) {comm : NcclIbSendComm} {slot r : Nat} (qps : List (Nat × Nat))
    (hr : r < (comm.ctsFifo slot 0).nreqs) (imm : Nat) :
    HasSge (multiSendCall env comm slot qps) r 0
      (multiSendInit (multiSendCall env comm slot qps) imm) := by
  left
  unfold multiSendInit
  by_cases hlast : r = (multiSendCall env comm slot qps).lastWr
  · have hlt : (multiSendCall env comm slot qps).lastWr <
        (multiSendCall env comm slot qps).nreqs := hlast ▸ hr
    simp only [if_pos hlast, initLastWr, if_pos hlt]
    rfl
  · simp only [if_neg hlast]
    rfl

/-- The posts of the loop tile a send of the group, when every device has a weight
from 1 to 199 and the weights make at least 100. -/
theorem tiles_callPosts (env : NetEnv) {sh : Shape} {comm : NcclIbSendComm} {slot : Nat}
    (hs : Striped sh comm.base) (hg : ReadyGroup comm slot)
    (hw : ∀ d < sh.ndevs, 1 ≤ (reqAt comm slot 0).send.weights d)
    (hw' : ∀ d < sh.ndevs, (reqAt comm slot 0).send.weights d ≤ 199)
    (hsum : 100 ≤ ((List.range sh.ndevs).map (reqAt comm slot 0).send.weights).sum)
    {r : Nat} (hr : r < (comm.ctsFifo slot 0).nreqs) : ∃ ps : List Piece,
      List.Forall₂ (Writes (reqAt comm slot r).send.data (comm.ctsFifo slot r).addr)
        (dataWrs (callPosts env comm slot (qpsOf sh comm.base (reqAt comm slot 0).id)) r) ps ∧
      Tiles 128 0 (reqAt comm slot r).send.size.toNat ps := by
  have hcover := shares_cover hs hg env hw' hsum hr
  have hlt : ∀ q ∈ qpsOf sh comm.base (reqAt comm slot 0).id, q.2 < sh.nqps :=
    fun q hq => qpsOf_lt hq
  have hlen := qpsOf_length_le sh comm.base (reqAt comm slot 0).id
  generalize qpsOf sh comm.base (reqAt comm slot 0).id = qps at hcover hlt hlen ⊢
  have hbytes : (multiSendCall env comm slot qps).bytes r = (reqAt comm slot r).send.size.toNat :=
    u32_of_nonneg (hg.size_nonneg r hr) (lt_trans (hg.size_lt r hr) (by decide))
  have hpos : ∀ q ∈ qps, 0 < (multiSendCall env comm slot qps).bytes r →
      0 < shareOn (multiSendCall env comm slot qps) r q := by
    intro q hmem hsize
    have hd : (comm.base.qps q.2).devIndex < sh.ndevs := by
      rw [hs.devIndex _ (hlt q hmem)]
      exact Nat.mod_lt _ sh.ndevs_pos
    have hsize' : 0 < (reqAt comm slot r).send.size := by
      rw [hbytes] at hsize
      omega
    refine chunkShare_pos hsize' (hg.size_lt r hr) (hw _ hd) (hw' _ hd) ?_ ?_
    · exact List.countP_pos_iff.mpr ⟨q, hmem, decide_eq_true rfl⟩
    · exact List.countP_le_length.trans hlen
  have hwrites := dataWrs_loopPosts (show r < (multiSendCall env comm slot qps).nreqs from hr)
    (lastWr_ge env comm slot qps) qps _ 0 (track_init env qps hr (immDataOf comm.base
      (comm.base.reqs ((multiSendCall env comm slot qps).reqs 0)))) (hasSge_init env qps hr _)
    (Nat.zero_le _) hpos
  rw [hbytes] at hwrites
  refine ⟨_, hwrites, tiles_pieces (qps.map (shareOn (multiSendCall env comm slot qps) r)) 0
    (Nat.zero_le _) (Nat.dvd_zero 128) ?_ (by rw [Nat.zero_add]; exact hcover)⟩
  intro s hmem
  obtain ⟨q, _, rfl⟩ := List.mem_map.mp hmem
  exact chunkShare_dvd _ _ _

/-! ## The laws -/

/-- The writes of a group tile each of its sends, when every device has a weight
from 1 to 199 and the weights make at least 100. -/
theorem the_chunks_tile_every_send (env : NetEnv) (sh : Shape) (comm : NcclIbSendComm) (slot : Nat)
    (hs : Striped sh comm.base) (hact : ∀ q < sh.nqps, (comm.base.activeQps q).isSome)
    (hg : ReadyGroup comm slot)
    (hw : ∀ d < sh.ndevs, 1 ≤ (reqAt comm slot 0).send.weights d)
    (hw' : ∀ d < sh.ndevs, (reqAt comm slot 0).send.weights d ≤ 199)
    (hsum : 100 ≤ ((List.range sh.ndevs).map (reqAt comm slot 0).send.weights).sum) :
    SendsAreTiled env comm slot := by
  refine ⟨_, _, multiSend_eq env hs hact hg.nreqs_pos hg.nreqs_le hg.matched, ?_⟩
  intro r hr
  have htiles := tiles_callPosts env hs hg hw hw' hsum hr
  have hnd := reqQpIndex_nodup sh comm.base hg.id_lt
  rw [← qpsOf_indexes] at hnd
  generalize qpsOf sh comm.base (reqAt comm slot 0).id = qps at hnd htiles ⊢
  have hposted := foldl_posted (multiSendCall env comm slot qps) qps
    (multiSendInit (multiSendCall env comm slot qps) (immDataOf comm.base
      (comm.base.reqs ((multiSendCall env comm slot qps).reqs 0))))
    (fun _ => hnd) (fun hres q _ => hg.unsent hres q.2)
  rw [hposted]
  exact htiles

/-- A comm with one device and one QP, with one send that waits in slot 0. -/
def oneSend (weight : Nat) (size : Int) : NcclIbSendComm :=
  { freshSend Shape.one with
    base := { freshBase Shape.one true with
      reqs := fun _ => { blankRequest with
        type := NCCL_NET_IB_REQ_SEND
        nreqs := 1
        send := { blankRequest.send with size, data := 0x1000, weights := fun _ => weight } } }
    ctsFifo := fun _ _ =>
      { addr := 0x2000, size := 2 ^ 31, rkeys := fun _ => 7, nreqs := 1, tag := 0, idx := 1 }
    sendReqs := fun _ _ => some 0
    sendReqsCnt := fun _ => 1 }

theorem readyGroup_oneSend (weight : Nat) {size : Int} (h0 : 0 ≤ size) (h1 : size < 2 ^ 31) :
    ReadyGroup (oneSend weight size) 0 := by
  refine ⟨?_, ?_, fun _ _ => rfl, fun _ _ => h0, fun _ _ => h1, ?_, fun h => ?_⟩
  · show 0 < 1
    decide
  · show 1 ≤ 8
    decide
  · show 0 < 2 ^ 56
    decide
  · cases h

theorem striped_oneSend (weight : Nat) (size : Int) :
    Striped Shape.one (oneSend weight size).base :=
  { striped_freshBase Shape.one true with }

/-- A comm in which a group of sends of these sizes waits in slot 0. -/
def sendsOf (sh : Shape) (weights : Nat → Nat) (sizes : List Int) : NcclIbSendComm :=
  { freshSend sh with
    base := { freshBase sh true with
      reqs := fun j => { blankRequest with
        type := NCCL_NET_IB_REQ_SEND
        nreqs := sizes.length
        send := { blankRequest.send with size := sizes.getD j 0, data := 0x100000 * (j + 1), weights } } }
    ctsFifo := fun _ r =>
      { addr := 0x20000000 + 0x100000 * r, size := 2 ^ 31, rkeys := fun d => 7 + d
        nreqs := sizes.length, tag := r, idx := 1 }
    sendReqs := fun _ r => some r
    sendReqsCnt := fun _ => sizes.length
    remCmplsRecords :=
      { elems := fun _ r => sizes.getD r 0, elemsAddr := 0, addr := 0, rkeys := fun _ => 0 } }

theorem striped_sendsOf (sh : Shape) (weights : Nat → Nat) (sizes : List Int) :
    Striped sh (sendsOf sh weights sizes).base :=
  { striped_freshBase sh true with }

theorem readyGroup_sendsOf (sh : Shape) (weights : Nat → Nat) {sizes : List Int} (hne : sizes ≠ [])
    (hle : sizes.length ≤ 8) (hfit : ∀ x ∈ sizes, 0 ≤ x ∧ x < 2 ^ 31) :
    ReadyGroup (sendsOf sh weights sizes) 0 := by
  have hget : ∀ r < sizes.length, 0 ≤ sizes.getD r 0 ∧ sizes.getD r 0 < 2 ^ 31 := by
    intro r hr
    rw [← List.getElem_eq_getD (h := hr) 0]
    exact hfit _ (List.getElem_mem hr)
  refine ⟨List.length_pos_iff.mpr hne, hle, fun _ _ => rfl, fun r hr => (hget r hr).1,
    fun r hr => (hget r hr).2, ?_, fun h => ?_⟩
  · show 0 < 2 ^ 56
    decide
  · cases h

/-- Three sends that are split over four QPs, on two devices with different weights. -/
def splitSends : NcclIbSendComm :=
  let comm := sendsOf Shape.twoTwo (fun d => if d = 0 then 33 else 67) [5001, 131073, 1]
  { comm with base := { comm.base with splitDataOnQps := 1 } }

theorem striped_splitSends : Striped Shape.twoTwo splitSends.base :=
  { striped_freshBase Shape.twoTwo true with }

theorem readyGroup_splitSends : ReadyGroup splitSends 0 :=
  { readyGroup_sendsOf Shape.twoTwo (fun d => if d = 0 then 33 else 67)
      (List.cons_ne_nil 5001 [131073, 1]) (by decide) (by decide) with }

theorem a_group_on_four_qps_is_tiled : SendsAreTiled plainEnv splitSends 0 :=
  the_chunks_tile_every_send plainEnv Shape.twoTwo splitSends 0 striped_splitSends
    (fun _ _ => rfl) readyGroup_splitSends (by decide) (by decide) (by decide)

/-- The limit on the weights is needed: with weight 200, the share of the only
QP of a send of `2 ^ 31 - 1` bytes is `2 ^ 32`, which is 0 in `sge.length`. -/
theorem a_weight_of_200_can_send_nothing :
    ¬ ∀ (env : NetEnv) (sh : Shape) (comm : NcclIbSendComm) (slot : Nat),
      Striped sh comm.base → (∀ q < sh.nqps, (comm.base.activeQps q).isSome) →
      ReadyGroup comm slot →
      (∀ d < sh.ndevs, 1 ≤ (reqAt comm slot 0).send.weights d) →
      (∀ d < sh.ndevs, (reqAt comm slot 0).send.weights d < 2 ^ 8) →
      100 ≤ ((List.range sh.ndevs).map (reqAt comm slot 0).send.weights).sum →
      SendsAreTiled env comm slot := by
  intro h
  obtain ⟨comm', posts, hok, htiled⟩ := h plainEnv Shape.one (oneSend 200 (2 ^ 31 - 1)) 0
    (striped_oneSend 200 _) (fun _ _ => rfl) (readyGroup_oneSend 200 (by decide) (by decide))
    (fun _ _ => show 1 ≤ 200 by decide) (fun _ _ => show 200 < 2 ^ 8 by decide) (by decide)
  have hposts : (ncclIbMultiSend plainEnv (oneSend 200 (2 ^ 31 - 1)) 0).map
      (fun x => dataWrs x.2 0) = .ok [] := by rfl
  rw [hok] at hposts
  have hnone : dataWrs posts 0 = [] := by
    injection hposts
  obtain ⟨ps, hwrites, htiles⟩ := htiled 0 (by decide)
  rw [hnone] at hwrites
  cases hwrites
  have hunion := Set.ext_iff.mp htiles.union 0
  simp [reqAt, oneSend] at hunion

end net_ib.p2p
