-- The invariant of a connection. The elements on their way belong to groups that
-- the sender has not posted yet, so a slot is never written while its old
-- elements are in use. Every step that stays in the window keeps it.
import MrcPlugin.World
import MrcPlugin.SendMatch

namespace net_ib.p2p

open queues counts runs

/-! ## The elements of the groups -/

/-- `g` gives every group so far its elements. -/
def Extends (g : Nat → List NcclIbSendFifo) (groups : List (List NcclIbSendFifo)) : Prop :=
  ∀ k group, groups[k]? = some group → g k = group

/-- The groups so far, and no others. -/
def groupsSoFar (groups : List (List NcclIbSendFifo)) (k : Nat) : List NcclIbSendFifo :=
  (groups[k]?).getD []

theorem extends_groupsSoFar (groups : List (List NcclIbSendFifo)) :
    Extends (groupsSoFar groups) groups := by
  intro k group h
  unfold groupsSoFar
  rw [h]
  rfl

/-- The elements of a group carry its id and its size. -/
def GroupOk (k : Nat) (group : List NcclIbSendFifo) : Prop :=
  group.length ≤ NCCL_NET_IB_MAX_RECVS ∧
    ∀ (r : Nat) (e : NcclIbSendFifo), group[r]? = some e → e.idx = k + 1 ∧ e.nreqs = group.length

theorem groupsOk_soFar {groups : List (List NcclIbSendFifo)}
    (h : ∀ k group, groups[k]? = some group → GroupOk k group) :
    GroupsOk (groupsSoFar groups) := by
  have hk : ∀ k, groupsSoFar groups k = [] ∨ GroupOk k (groupsSoFar groups k) := by
    intro k
    unfold groupsSoFar
    cases hget : groups[k]? with
    | none => exact .inl rfl
    | some group => exact .inr (h k group hget)
  refine ⟨fun k => ?_, fun k r e he => ?_, fun k r e he => ?_⟩
  · rcases hk k with hnil | hok
    · rw [hnil]
      exact Nat.zero_le _
    · exact hok.1
  · rcases hk k with hnil | hok
    · rw [hnil] at he
      cases he
    · exact (hok.2 r e he).1
  · rcases hk k with hnil | hok
    · rw [hnil] at he
      cases he
    · exact (hok.2 r e he).2

/-! ## The invariant -/

/-- What is sure about an element on its way. -/
structure MsgOk (w : World) (m : CtsMsg) : Prop where
  src : m.src = slotOf m.id
  dst : m.dst = slotOf m.id
  ahead : w.snd.comm.base.fifoHead ≤ m.id
  /-- It is, or will be read as, the element that its group wrote. -/
  elem : ∃ group e, w.groups[m.id]? = some group ∧ group[m.r]? = some e ∧
    (m.elem = none → w.rcv.comm.remCtsFifo.elems (slotOf m.id) m.r = e) ∧
    ∀ e', m.elem = some e' → e' = e
  missing : (w.snd.comm.ctsFifo (slotOf m.id) m.r).idx ≠ m.id + 1

/-- What is sure about the send side, for every way the groups can go on. -/
structure SendSure (sh : Shape) (bs : NcclIbNetCommBase) (g : Nat → List NcclIbSendFifo)
    (s : SendState) : Prop where
  good : SendGood sh bs g s
  history : SendHistory g s
  matched : SendMatch sh g s
  waiting : SendPartial g s

structure WorldGood (sh : Shape) (bs br : NcclIbNetCommBase) (pre : Bool) (w : World) : Prop where
  recv : RecvGood sh.swap br pre w.rcv
  send : ∀ g, GroupsOk g → Extends g w.groups → SendSure sh bs g w.snd
  split : br.splitDataOnQps = bs.splitDataOnQps
  scheme : br.recvMatchingScheme = bs.recvMatchingScheme
  peer : w.rcv.peerHead = w.snd.comm.base.fifoHead
  length : w.groups.length = w.rcv.comm.base.fifoHead
  groups : ∀ k group, w.groups[k]? = some group → GroupOk k group
  one_msg : (w.cts.map (fun m => (m.id, m.r))).Nodup
  msgs : ∀ m ∈ w.cts, MsgOk w m

section
variable {sh : Shape} {bs br : NcclIbNetCommBase} {pre : Bool} {w t : World}

theorem WorldGood.soFar (h : WorldGood sh bs br pre w) :
    GroupsOk (groupsSoFar w.groups) ∧ SendSure sh bs (groupsSoFar w.groups) w.snd :=
  ⟨groupsOk_soFar h.groups,
    h.send _ (groupsOk_soFar h.groups) (extends_groupsSoFar w.groups)⟩

theorem world_init (h : World.Init sh pre w) :
    WorldGood sh w.snd.comm.base w.rcv.comm.base pre w := by
  exact
    { recv := good_recvInit h.rcv
      send := fun g _ _ => ⟨good_init h.snd, history_init h.snd, match_init h.snd,
        fun a ha => by rw [h.snd.log] at ha; cases ha⟩
      split := h.split, scheme := h.scheme
      peer := h.rcv.peerHead.trans h.snd.fifoHead.symm
      length := by rw [h.groups, h.rcv.fifoHead]; rfl
      groups := fun k group hk => by rw [h.groups] at hk; cases hk
      one_msg := by rw [h.cts]; exact List.nodup_nil
      msgs := fun m hm => by rw [h.cts] at hm; cases hm }

/-- The group of the sender is open on the receiver when its elements are there. -/
theorem WorldGood.current_group (h : WorldGood sh bs br pre w) (hthere : CtsThere w.snd.comm) :
    ∃ group, w.groups[w.snd.comm.base.fifoHead]? = some group := by
  obtain ⟨hg, hs⟩ := h.soFar
  have helem := hs.good.cts_elem hg hthere.1
  unfold groupsSoFar at helem
  cases hget : w.groups[w.snd.comm.base.fifoHead]? with
  | none =>
    rw [hget] at helem
    cases helem
  | some group => exact ⟨group, rfl⟩

/-- A group that the receiver has reported done was posted by the sender. -/
theorem WorldGood.reported_posted (h : WorldGood sh bs br pre w) {id : Nat}
    (hrep : .data id ∈ w.rcv.reported) : id < w.snd.comm.base.fifoHead := by
  have hst := (h.recv.reported _ hrep).2.1
  have : id < w.rcv.peerHead := of_decide_eq_true hst
  rwa [h.peer] at this

/-- An element on its way is one of the next 256 groups. -/
theorem WorldGood.near (h : WorldGood sh bs br pre w) (hwin : w.InWindow) {m : CtsMsg}
    (hm : m ∈ w.cts) : m.id < w.snd.comm.base.fifoHead + NET_IB_MAX_REQUESTS := by
  obtain ⟨group, _, hget, _⟩ := (h.msgs m hm).elem
  have hlt : m.id < w.rcv.comm.base.fifoHead := by
    rw [← h.length]
    exact (List.getElem?_eq_some_iff.mp hget).1
  by_contra hge
  have hcur : w.snd.comm.base.fifoHead < w.rcv.comm.base.fifoHead := by
    unfold NET_IB_MAX_REQUESTS at hge
    omega
  have hnot : .data w.snd.comm.base.fifoHead ∉ w.rcv.reported := fun hrep =>
    Nat.lt_irrefl _ (h.reported_posted hrep)
  have := hwin.recv _ hcur hnot
  omega

/-! ## The elements move -/

/-- The provider reads an element: it finds what the group wrote. -/
theorem good_ctsRead (h : WorldGood sh bs br pre w) {n id src dst r : Nat}
    (hget : w.cts[n]? = some ⟨id, src, dst, r, none⟩) :
    WorldGood sh bs br pre { w with
      cts := w.cts.set n ⟨id, src, dst, r, some (w.rcv.comm.remCtsFifo.elems src r)⟩ } := by
  have hold := h.msgs _ (List.mem_of_getElem? hget)
  have hkeys : (w.cts.set n ⟨id, src, dst, r, some (w.rcv.comm.remCtsFifo.elems src r)⟩).map
      (fun m => (m.id, m.r)) = w.cts.map (fun m => (m.id, m.r)) := by
    apply List.ext_getElem?
    intro i
    rw [List.getElem?_map, List.getElem?_map, List.getElem?_set]
    split
    · rename_i hi
      subst hi
      rw [if_pos (List.getElem?_eq_some_iff.mp hget).1, hget]
      rfl
    · rfl
  refine { h with one_msg := hkeys ▸ h.one_msg, msgs := fun m hm => ?_ }
  rcases List.mem_or_eq_of_mem_set hm with hm | rfl
  · exact { h.msgs m hm with }
  · obtain ⟨group, e, hgroup, helem, hnone, _⟩ := hold.elem
    refine ⟨hold.src, hold.dst, hold.ahead, ⟨group, e, hgroup, helem, ?_, ?_⟩, hold.missing⟩
    · intro hc
      cases hc
    · intro e' he'
      have hsrc : src = slotOf id := hold.src
      rw [← Option.some.inj he', hsrc]
      exact hnone rfl

/-- An element reaches the sender, in a slot whose old group is posted. -/
theorem good_ctsWrite (h : WorldGood sh bs br pre w) (hwin : w.InWindow) {n id src dst r : Nat}
    {e : NcclIbSendFifo} (hget : w.cts[n]? = some ⟨id, src, dst, r, some e⟩) :
    WorldGood sh bs br pre { w with
      cts := w.cts.eraseIdx n
      snd := { w.snd with comm := { w.snd.comm with
        ctsFifo := Function.update w.snd.comm.ctsFifo dst
          (Function.update (w.snd.comm.ctsFifo dst) r e) } } } := by
  have hmem := List.mem_of_getElem? hget
  have hold := h.msgs _ hmem
  have hnear := h.near hwin hmem
  obtain ⟨group, e0, hgroup, helem, _, hread⟩ := hold.elem
  have he : e = e0 := hread e rfl
  subst he
  have hdst : dst = slotOf id := hold.dst
  subst hdst
  have hidx : e.idx = id + 1 := ((h.groups id group hgroup).2 r e helem).1
  refine { h with send := ?_, one_msg := ?_, msgs := ?_ }
  · intro g hg hext
    have hs := h.send g hg hext
    have hel : (g id)[r]? = some e := by
      rw [hext id group hgroup]
      exact helem
    have hgood := good_cts hs.good hel
    have hdoes : SendDoes sh bs g w.snd _ := .arrives hel ⟨hold.ahead, hnear⟩
    have hhist := history_step hs.good hgood hs.history hdoes
    exact ⟨hgood, hhist, match_step hg hs.good hgood hs.history hhist hs.matched hdoes,
      partial_step hg hs.good hs.history hs.matched hs.waiting hdoes⟩
  · exact h.one_msg.sublist ((List.eraseIdx_sublist _ _).map _)
  · intro m hm
    obtain ⟨i, hi, hmi⟩ := List.mem_eraseIdx_iff_getElem?.mp hm
    have hok := h.msgs m (List.mem_of_getElem? hmi)
    refine ⟨hok.src, hok.dst, hok.ahead, hok.elem, ?_⟩
    show (Function.update w.snd.comm.ctsFifo (slotOf id)
      (Function.update (w.snd.comm.ctsFifo (slotOf id)) r e) (slotOf m.id) m.r).idx ≠ m.id + 1
    rw [update_row]
    split
    · rename_i hat
      rw [hidx]
      intro hid
      -- The same element is on its way only once.
      have hkey : (m.id, m.r) = (id, r) := by
        rw [hat.2]
        congr 1
        omega
      apply hi
      refine (List.getElem?_inj (by rw [List.length_map]; exact (List.getElem?_eq_some_iff.mp hmi).1)
        h.one_msg).mp ?_
      rw [List.getElem?_map, List.getElem?_map, hmi, hget]
      exact congrArg some hkey
    · exact hok.missing

end

/-! ## A call of ncclIbIsend -/

section
variable {sh : Shape} {b0 : NcclIbNetCommBase} {g : Nat → List NcclIbSendFifo} {s t : SendState}

/-- In the window, the slot of the current group is free. -/
theorem slotFree_of_window (h : SendGood sh b0 g s) (hh : SendHistory g s) {new : Accept}
    (hid : new.id = s.comm.base.fifoHead)
    (hwin : ∀ a ∈ s.log, a.serial ∉ s.reported → new.id < a.id + NET_IB_MAX_REQUESTS) :
    s.SlotFree := by
  intro r o ho
  obtain ⟨r', o', ho', hopen⟩ := h.row_open _ _ _ ho
  obtain ⟨a, ha, haid, _, haser⟩ := hh.owner _ _ _ ho'
  have hnear := hwin a ha (haser ▸ hopen)
  obtain ⟨hslot, hle, _⟩ := h.owner _ _ _ ho
  have hone := h.one_id _ _ _ _ _ ho ho'
  unfold slotOf NET_IB_MAX_REQUESTS at *
  omega

/-- What an accepted call does and posts. -/
structure IsendDoes (sh : Shape) (b0 : NcclIbNetCommBase) (g : Nat → List NcclIbSendFifo)
    (s t : SendState) (env : NetEnv) (a : IsendArgs) (r i : Nat) (posts : List SendPost) :
    Prop where
  there : CtsThere s.comm
  entry : matchEntry s.comm (slotOf s.comm.base.fifoHead) (g s.comm.base.fifoHead).length a.tag =
    some r
  index : i < NET_IB_MAX_REQUESTS
  unused : (s.comm.base.reqs i).type = NCCL_NET_IB_REQ_UNUSED
  free : s.SlotFree
  bound : SendGood sh b0 g (s.bound a r i (boundReq sh s.comm a r i))
  accepts : Accepts sh env (g s.comm.base.fifoHead).length
    (s.bound a r i (boundReq sh s.comm a r i)) t
  posted : posts = [] ∧ t.comm.base.fifoHead = s.comm.base.fifoHead ∨
    posts = groupPosts sh env (s.bound a r i (boundReq sh s.comm a r i)).comm ∧ posts ≠ [] ∧
      t.comm.base.fifoHead = s.comm.base.fifoHead + 1 ∧
      ∀ r' < (g s.comm.base.fifoHead).length,
        ((s.bound a r i (boundReq sh s.comm a r i)).owner (slotOf s.comm.base.fifoHead) r').isSome

theorem isend_does (hg : GroupsOk g) (h : SendGood sh b0 g s) (hh : SendHistory g s)
    {env : NetEnv} {a : IsendArgs} (hnext : s.next g (.isend env a) = some t)
    (hwin : ∀ x ∈ t.log, x.serial ∉ t.reported → ∀ y ∈ t.log, y.id < x.id + NET_IB_MAX_REQUESTS) :
    t = s ∧ (ncclIbIsend env s.comm a).posts = [] ∨
      ∃ r i, IsendDoes sh b0 g s t env a r i (ncclIbIsend env s.comm a).posts := by
  have hcall : s.call = none := by
    by_contra hsome
    simp only [SendState.next] at hnext
    rw [if_pos (Option.isSome_iff_ne_none.mpr hsome)] at hnext
    cases hnext
  have hplain := h.plain.same h.same
  rcases isend_cases hplain.striped hplain.isSome env a with
    ⟨hcomm, hposts, hret⟩ | ⟨r, i, hthere, hm, hi, hu, hends⟩
  · left
    refine ⟨?_, hposts⟩
    simp only [SendState.next, hcomm] at hnext
    split at hnext
    · cases hnext
    split at hnext
    · exact (Option.some.inj hnext).symm
    · cases hnext
    · exact (Option.some.inj hnext).symm
    · rename_i hsome
      exact absurd hsome (hret _)
  right
  have hn := h.cts_nreqs hg hthere
  rw [hn] at hm
  -- The call returned a request, so its send is in the log.
  have hfree : s.SlotFree := by
    have hlog : ∀ out, ncclIbIsend env s.comm a = out → out.ret = .ok (some i) →
        ∃ new : Accept, new.id = s.comm.base.fifoHead ∧ t.log = s.log ++ [new] ∧
          t.reported = s.reported := by
      intro out hout hret
      simp only [SendState.next, hcall, hout, hret] at hnext
      rw [← Option.some.inj hnext]
      exact ⟨_, rfl, rfl, rfl⟩
    obtain ⟨new, hid, hlog, hrep⟩ : ∃ new : Accept, new.id = s.comm.base.fifoHead ∧
        t.log = s.log ++ [new] ∧ t.reported = s.reported := by
      generalize hout : ncclIbIsend env s.comm a = out at hends
      cases hends with
      | waits _ => exact hlog _ hout rfl
      | posts _ _ => exact hlog _ hout rfl
      | fails _ hsend =>
        have hb : PlainBase sh (bindEntry s.comm (slotOf s.comm.base.fifoHead) r i
            (boundReq sh s.comm a r i)).base :=
          (h.plain.same h.same).same ⟨rfl, rfl, rfl, rfl, rfl, rfl, rfl, rfl, rfl, rfl⟩
        have hle : ((bindEntry s.comm (slotOf s.comm.base.fifoHead) r i
            (boundReq sh s.comm a r i)).ctsFifo (slotOf s.comm.base.fifoHead) 0).nreqs ≤
            NCCL_NET_IB_MAX_RECVS := Nat.le_trans (Nat.le_of_eq hn) (hg.length_le _)
        have hbad := multiSend_error hb.striped hb.isSome hle hsend
        simp only [SendState.next, hcall, hout, hbad] at hnext
        cases hnext
    refine slotFree_of_window h hh hid (fun x hx hxrep => ?_)
    rw [hlog, hrep] at hwin
    exact hwin x (List.mem_append_left _ hx) hxrep new
      (List.mem_append_right _ (List.mem_singleton_self _))
  obtain ⟨hgood, t', hnext', hacc⟩ := isend_accepted hg h hcall hfree hthere hm hi hu hends
  rw [hnext'] at hnext
  cases hnext
  refine ⟨r, i, hthere, hm, hi, hu, hfree, hgood, hacc, ?_⟩
  have hf' := (takes_bound a r i (boundReq sh s.comm a r i)).slotFree hfree
  have hrow := row_full hg hgood hf'
  rw [hn] at hends
  generalize hout : ncclIbIsend env s.comm a = out at hends
  cases hends with
  | waits hcnt =>
    left
    simp only [SendState.next, hcall, hout] at hnext'
    rw [← Option.some.inj hnext']
    exact ⟨rfl, rfl⟩
  | fails hcnt hsend =>
    obtain ⟨_, hok, _⟩ := multiSend_full hg hgood hf' hthere
      (Nat.lt_of_le_of_lt (Nat.zero_le _) (matchEntry_cases hm).1) (hrow hcnt) env
    have : (Except.error _ : Except Stop (NcclIbSendComm × List SendPost)) = .ok _ :=
      hsend.symm.trans hok
    cases this
  | posts hcnt hsend =>
    right
    obtain ⟨reqs, hok, _, _, hne⟩ := multiSend_full hg hgood hf' hthere
      (Nat.lt_of_le_of_lt (Nat.zero_le _) (matchEntry_cases hm).1) (hrow hcnt) env
    obtain ⟨rfl, rfl⟩ := Prod.mk.inj (Except.ok.inj (hsend.symm.trans hok))
    simp only [SendState.next, hcall, hout] at hnext'
    rw [← Option.some.inj hnext']
    exact ⟨rfl, hne, rfl, hrow hcnt⟩

/-- The QPs of a group have the same numbers on both sides. -/
theorem qpsOf_swap {bs br : NcclIbNetCommBase} (hs : PlainBase sh bs) (hr : PlainBase sh.swap br)
    (hsplit : br.splitDataOnQps = bs.splitDataOnQps) (id : Nat) :
    (qpsOf sh.swap br id).map Prod.fst = (qpsOf sh bs id).map Prod.fst := by
  have hq : reqQps sh.swap br = reqQps sh bs := by
    unfold reqQps
    rw [hsplit, sh.swap_nqps, sh.swap_nDataQps]
  have hi : ∀ i, reqQpIndex sh.swap br id i = reqQpIndex sh bs id i := by
    intro i
    unfold reqQpIndex
    rw [hq, sh.swap_nqps]
  unfold qpsOf
  rw [hq, List.map_map, List.map_map]
  apply List.map_congr_left
  intro i _
  have hlt := reqQpIndex_lt sh bs id i
  simp only [Function.comp_apply, hi]
  rw [hs.active _ hlt, hr.active _ (by rw [sh.swap_nqps]; exact hlt)]

/-- Of the list of a QP, the last work request reaches the receiver as data. -/
theorem dataMsgs_chain {wr_id imm : Nat} {p : SendPost} {q : Nat × Nat}
    (h : Chain wr_id imm p q) (b : NcclIbNetCommBase) (id : Nat) : ∃ len, dataMsgs b id p =
      [⟨⟨true, 0, IBV_WC_RECV_RDMA_WITH_IMM, imm, len, (b.qps q.1).qpn⟩, q.1,
        (b.qps q.1).devIndex, false, .data id⟩] := by
  obtain ⟨front, last, hwrs, hfront, _, hop, _, himm⟩ := h.list
  have hnone : front.filter (fun wr => decide (wr.opcode = IBV_WR_RDMA_WRITE_WITH_IMM)) = [] := by
    apply List.filter_eq_nil_iff.mpr
    intro wr hwr
    rw [(hfront wr hwr).2]
    decide
  have hlast : (front ++ [last]).filter (fun wr =>
      decide (wr.opcode = IBV_WR_RDMA_WRITE_WITH_IMM)) = [last] := by
    rw [List.filter_append, hnone, List.nil_append]
    simp [hop]
  unfold dataMsgs
  rw [hwrs, hlast, h.qp]
  exact ⟨_, by rw [List.map_singleton, himm]⟩

/-- The data of a full group, as the receiver gets it. -/
theorem peerMsgs_groupPosts {br b : NcclIbNetCommBase} (h : SendGood sh b0 g s)
    (hfree : s.SlotFree) (hpos : 0 < (g s.comm.base.fifoHead).length)
    (hfull : ∀ r < (g s.comm.base.fifoHead).length,
      (s.owner (slotOf s.comm.base.fifoHead) r).isSome)
    (hr : PlainBase sh.swap br) (hb : b.qps = br.qps)
    (hsplit : br.splitDataOnQps = b0.splitDataOnQps)
    (hscheme : br.recvMatchingScheme = b0.recvMatchingScheme) (env : NetEnv) :
    PeerMsgs sh.swap br s.comm.base.fifoHead
      ((groupPosts sh env s.comm).flatMap (dataMsgs b s.comm.base.fifoHead)) := by
  have himm : br.recvMatchingScheme = BY_ID → immDataOf s.comm.base
      (reqAt s.comm (slotOf s.comm.base.fifoHead) 0) % NET_IB_MAX_REQUESTS =
        slotOf s.comm.base.fifoHead := by
    intro hby
    obtain ⟨o, ho⟩ := Option.isSome_iff_exists.mp (hfull 0 hpos)
    have hoid := hfree 0 o ho
    obtain ⟨i, _, hi, _, _, hid, _⟩ := h.open_req _ _ _ ho (h.current _ _ _ ho hoid)
    have hid0 : (reqAt s.comm (slotOf s.comm.base.fifoHead) 0).id = s.comm.base.fifoHead := by
      unfold reqAt
      rw [hi]
      exact hid.trans hoid
    unfold immDataOf
    rw [if_pos (by rw [h.same.recvMatchingScheme, ← hscheme]; exact hby), hid0]
    unfold slotOf NET_IB_MAX_REQUESTS
    omega
  have hchain : List.Forall₂ (Chain _ (immDataOf s.comm.base
      (reqAt s.comm (slotOf s.comm.base.fifoHead) 0))) (groupPosts sh env s.comm)
      (qpsOf sh s.comm.base s.comm.base.fifoHead) :=
    chain_loopPosts (qpsOf sh s.comm.base s.comm.base.fifoHead) _ (marked_init _ _)
  have hlt : ∀ q ∈ qpsOf sh s.comm.base s.comm.base.fifoHead, q.1 < sh.swap.nqps := by
    intro q hq
    rw [sh.swap_nqps]
    exact ((h.plain.same h.same).qpsOf_fst hq).2
  have hqps : (qpsOf sh s.comm.base s.comm.base.fifoHead).map Prod.fst =
      (qpsOf sh.swap br s.comm.base.fifoHead).map Prod.fst := by
    rw [h.same.qpsOf, qpsOf_swap h.plain hr hsplit]
  generalize groupPosts sh env s.comm = posts at hchain
  generalize qpsOf sh s.comm.base s.comm.base.fifoHead = qps at hchain hlt hqps
  refine ⟨?_, ?_⟩
  · clear hqps
    induction hchain with
    | nil => intro c hc; cases hc
    | @cons p q ps qs hp _ ih =>
      intro c hc
      rw [List.flatMap_cons] at hc
      rcases List.mem_append.mp hc with hc | hc
      · obtain ⟨len, hmsg⟩ := dataMsgs_chain hp b s.comm.base.fifoHead
        rw [hmsg] at hc
        rw [List.mem_singleton.mp hc]
        exact ⟨rfl, rfl, rfl, hlt q (List.mem_cons_self ..), by rw [hb], rfl, by rw [hb], himm⟩
      · exact ih (fun x hx => hlt x (List.mem_cons_of_mem _ hx)) c hc
  · rw [← hqps]
    clear hqps hlt
    induction hchain with
    | nil => rfl
    | @cons p q ps qs hp _ ih =>
      obtain ⟨len, hmsg⟩ := dataMsgs_chain hp b s.comm.base.fifoHead
      rw [List.flatMap_cons, List.map_append, hmsg, ih]
      rfl

/-- A step other than a call of `ncclIbIsend` posts nothing and leaves the FIFO. -/
theorem send_frame (hg : GroupsOk g) (h : SendGood sh b0 g s) {act : SendAct}
    (hact : ∀ env a, act ≠ .isend env a) (hnext : s.next (fun _ => []) act = some t) :
    SendGood sh b0 g t ∧ SendDoes sh b0 g s t ∧
      t.comm.base.fifoHead = s.comm.base.fifoHead ∧ t.comm.ctsFifo = s.comm.ctsFifo := by
  have hnext' : s.next g act = some t := by
    cases act with
    | cts k r => cases hnext
    | isend env a => exact hnext
    | testBegin r => exact hnext
    | test env n => exact hnext
    | complete q => exact hnext
    | speed buf => exact hnext
  obtain ⟨hgood, hdoes⟩ := send_step hg h (fun env a r he => absurd he (hact env a)) hnext'
  refine ⟨hgood, hdoes, ?_⟩
  cases act with
  | isend env a => exact absurd rfl (hact env a)
  | cts k r => cases hnext
  | testBegin r =>
    simp only [SendState.next] at hnext
    split at hnext
    · rw [← Option.some.inj hnext]
      exact ⟨rfl, rfl⟩
    · cases hnext
  | test env n =>
    obtain ⟨_, htest⟩ := test_next hg h hnext'
    cases htest with
    | moves => exact ⟨rfl, rfl⟩
    | charges => exact ⟨rfl, rfl⟩
    | reports _ _ hrel => exact ⟨hrel.fifoHead, hrel.ctsFifo⟩
  | complete q =>
    simp only [SendState.next] at hnext
    split at hnext
    · cases hnext
    · rw [← Option.some.inj hnext]
      exact ⟨rfl, rfl⟩
  | speed buf =>
    rw [← Option.some.inj hnext]
    exact ⟨rfl, rfl⟩

/-- The facts of the send side go along with a step. -/
theorem SendSure.step (hg : GroupsOk g) (h : SendSure sh b0 g s) (hgood : SendGood sh b0 g t)
    (hdoes : SendDoes sh b0 g s t) : SendSure sh b0 g t := by
  have hhist := history_step h.good hgood h.history hdoes
  exact ⟨hgood, hhist, match_step hg h.good hgood h.history hhist h.matched hdoes,
    partial_step hg h.good h.history h.matched h.waiting hdoes⟩

end

/-! ## A step of the sender -/

section
variable {sh : Shape} {bs br : NcclIbNetCommBase} {pre : Bool} {w t : World}

/-- The send side makes a step that posts nothing. -/
theorem WorldGood.sender (h : WorldGood sh bs br pre w) {snd : SendState}
    (hsend : ∀ g, GroupsOk g → Extends g w.groups → SendSure sh bs g snd)
    (hfifo : snd.comm.base.fifoHead = w.snd.comm.base.fifoHead)
    (hcts : snd.comm.ctsFifo = w.snd.comm.ctsFifo) :
    WorldGood sh bs br pre { w with snd } := by
  refine { h with send := hsend, peer := h.peer.trans hfifo.symm, msgs := fun m hm => ?_ }
  have hok := h.msgs m hm
  exact ⟨hok.src, hok.dst, hfifo ▸ hok.ahead, hok.elem, hcts ▸ hok.missing⟩

/-- A call of `ncclIbIsend` posts nothing, or its group reaches the receiver. -/
theorem WorldGood.isend_arrives (h : WorldGood sh bs br pre w) {env : NetEnv} {a : IsendArgs}
    {snd : SendState} (hnext : w.snd.next (fun _ => []) (.isend env a) = some snd)
    (hwin : ∀ x ∈ snd.log, x.serial ∉ snd.reported → ∀ y ∈ snd.log,
      y.id < x.id + NET_IB_MAX_REQUESTS) :
    (w.afterIsend (ncclIbIsend env w.snd.comm a) = w.rcv ∧
      snd.comm.base.fifoHead = w.snd.comm.base.fifoHead) ∨
    ∃ msgs, w.afterIsend (ncclIbIsend env w.snd.comm a) = w.rcv.arrives msgs ∧
      PeerMsgs sh.swap br w.rcv.peerHead msgs ∧
      w.rcv.peerHead < w.rcv.comm.base.fifoHead ∧
      snd.comm.base.fifoHead = w.snd.comm.base.fifoHead + 1 ∧ CtsThere w.snd.comm := by
  obtain ⟨hg0, hs0⟩ := h.soFar
  rcases isend_does hg0 hs0.good hs0.history hnext hwin with ⟨rfl, hposts⟩ | ⟨r, i, hd⟩
  · exact .inl ⟨if_pos hposts, rfl⟩
  rcases hd.posted with ⟨hposts, hfifo⟩ | ⟨hposts, hne, hfifo, hfull⟩
  · exact .inl ⟨if_pos hposts, hfifo⟩
  obtain ⟨group, hgroup⟩ := h.current_group hd.there
  have hpeer : w.rcv.peerHead < w.rcv.comm.base.fifoHead := by
    rw [h.peer, ← h.length]
    exact (List.getElem?_eq_some_iff.mp hgroup).1
  refine .inr ⟨_, if_neg hne, ?_, hpeer, hfifo, hd.there⟩
  rw [hposts, h.peer]
  exact peerMsgs_groupPosts hd.bound
    ((takes_bound a r i (boundReq sh w.snd.comm a r i)).slotFree hd.free)
    (Nat.lt_of_le_of_lt (Nat.zero_le _) (matchEntry_cases hd.entry).1) hfull h.recv.plain
    h.recv.same.qps h.split h.scheme env

theorem world_isend (h : WorldGood sh bs br pre w) {env : NetEnv} {a : IsendArgs}
    {snd : SendState} (hnext : w.snd.next (fun _ => []) (.isend env a) = some snd)
    (hwin : ∀ x ∈ snd.log, x.serial ∉ snd.reported → ∀ y ∈ snd.log,
      y.id < x.id + NET_IB_MAX_REQUESTS) :
    WorldGood sh bs br pre
      { w with snd, rcv := w.afterIsend (ncclIbIsend env w.snd.comm a) } := by
  obtain ⟨hg0, hs0⟩ := h.soFar
  have hdoes : ∀ g, GroupsOk g → SendSure sh bs g w.snd →
      snd = w.snd ∧ (ncclIbIsend env w.snd.comm a).posts = [] ∨
      ∃ r i, IsendDoes sh bs g w.snd snd env a r i (ncclIbIsend env w.snd.comm a).posts :=
    fun g hg hs => isend_does hg hs.good hs.history hnext hwin
  have hsend : ∀ g, GroupsOk g → Extends g w.groups → SendSure sh bs g snd := by
    intro g hg hext
    have hs := h.send g hg hext
    rcases hdoes g hg hs with ⟨rfl, _⟩ | ⟨r, i, hd⟩
    · exact hs
    · have hr := (matchEntry_cases hd.entry).1
      have hf' := (takes_bound a r i (boundReq sh w.snd.comm a r i)).slotFree hd.free
      exact hs.step hg (good_accepts hg hd.bound hf' hd.there
        (Nat.lt_of_le_of_lt (Nat.zero_le _) hr) hd.accepts)
        (.accepts hd.there hd.entry hd.index hd.unused hd.free hd.bound hd.accepts)
  have hcts : snd.comm.ctsFifo = w.snd.comm.ctsFifo := by
    rcases hdoes _ hg0 hs0 with ⟨rfl, _⟩ | ⟨r, i, hd⟩
    · rfl
    · cases hd.accepts with
      | waits => rfl
      | posts => rfl
  rcases h.isend_arrives hnext hwin with ⟨hrcv, hfifo⟩ | ⟨msgs, hrcv, hmsgs, hpeer, hfifo, hthere⟩
  · rw [hrcv]
    exact h.sender hsend hfifo hcts
  rw [hrcv]
  refine { h with
    recv := good_arrives h.recv hpeer hmsgs, send := hsend
    peer := ?_, length := h.length, msgs := ?_ }
  · show w.rcv.peerHead + 1 = _
    rw [h.peer, hfifo]
  · intro m hm
    have hok := h.msgs m hm
    refine ⟨hok.src, hok.dst, ?_, hok.elem, by rw [hcts]; exact hok.missing⟩
    -- All elements of the posted group had arrived.
    show snd.comm.base.fifoHead ≤ m.id
    rw [hfifo]
    refine Nat.lt_of_le_of_ne hok.ahead (fun hid => hok.missing ?_)
    obtain ⟨group', e, hget, helem, _⟩ := hok.elem
    have hn := hs0.good.cts_nreqs hg0 hthere
    have hlen : groupsSoFar w.groups w.snd.comm.base.fifoHead = group' := by
      rw [hid]
      exact extends_groupsSoFar w.groups _ _ hget
    rw [← hid]
    refine hthere.2 m.r ?_
    rw [hn, hlen]
    exact (List.getElem?_eq_some_iff.mp helem).1

/-! ## A step of the receiver -/

/-- A step other than a call of `ncclIbIrecv` leaves the elements of the groups. -/
theorem recv_frame {s u : RecvState} {b : NcclIbNetCommBase} (h : RecvGood sh b pre s)
    {act : RecvAct} (hact : ∀ env bufs, act ≠ .irecv env bufs) (hnext : s.next act = some u) :
    u.comm.base.fifoHead = s.comm.base.fifoHead ∧ u.peerHead = s.peerHead ∧
      u.comm.remCtsFifo = s.comm.remCtsFifo := by
  cases act with
  | irecv env bufs => exact absurd rfl (hact env bufs)
  | iflush bufs =>
    rcases iflush_next h hnext with ⟨comm, hframe, _, rfl⟩ | ⟨i, cqes, ht⟩
    · exact ⟨hframe.fifoHead, rfl, hframe.remCtsFifo⟩
    · exact ⟨ht.fifoHead, ht.peerHead, ht.remCtsFifo⟩
  | testBegin r =>
    simp only [RecvState.next] at hnext
    split at hnext
    · rw [← Option.some.inj hnext]
      exact ⟨rfl, rfl, rfl⟩
    · cases hnext
  | test env n =>
    obtain ⟨_, htest⟩ := recvTest_next h hnext
    cases htest with
    | moves => exact ⟨rfl, rfl, rfl⟩
    | charges ht => exact ⟨ht.frame.fifoHead, ht.peerHead, ht.frame.remCtsFifo⟩
    | loses _ _ hframe => exact ⟨hframe.fifoHead, rfl, hframe.remCtsFifo⟩
    | reports => exact ⟨rfl, rfl, rfl⟩
  | complete q flush =>
    simp only [RecvState.next] at hnext
    split at hnext
    · cases hnext
    · rw [← Option.some.inj hnext]
      exact ⟨rfl, rfl, rfl⟩
  | deliver q =>
    simp only [RecvState.next] at hnext
    split at hnext
    · rw [← Option.some.inj hnext]
      exact ⟨rfl, rfl, rfl⟩
    · cases hnext
  | record slot sizes =>
    rw [← Option.some.inj hnext]
    exact ⟨rfl, rfl, rfl⟩

/-- In the window, the slot of a new group is free on the receiver. -/
theorem recvFree_of_window {s u : RecvState} (hfifo : u.comm.base.fifoHead = s.comm.base.fifoHead + 1)
    (hrep : u.reported = s.reported)
    (hwin : ∀ id < u.comm.base.fifoHead, .data id ∉ u.reported →
      u.comm.base.fifoHead ≤ id + NET_IB_MAX_REQUESTS) :
    ∀ id < s.comm.base.fifoHead, slotOf id = slotOf s.comm.base.fifoHead →
      .data id ∈ s.reported := by
  intro id hid hslot
  by_contra hnot
  have := hwin id (by omega) (hrep ▸ hnot)
  unfold slotOf NET_IB_MAX_REQUESTS at *
  omega

/-- The receive side makes a step that opens no group. -/
theorem world_recv (h : WorldGood sh bs br pre w) {act : RecvAct} {rcv : RecvState}
    (hact : ∀ env bufs, act ≠ .irecv env bufs) (hnext : w.rcv.next act = some rcv) :
    WorldGood sh bs br pre { w with rcv } := by
  obtain ⟨hfifo, hpeer, hcts⟩ := recv_frame h.recv hact hnext
  obtain ⟨hgood, _⟩ := recv_step h.recv (fun hf => absurd (hfifo.symm.trans hf) (by omega)) hnext
  refine { h with
    recv := hgood, peer := hpeer.trans h.peer, length := h.length.trans hfifo.symm
    msgs := fun m hm => ?_ }
  have hok := h.msgs m hm
  exact ⟨hok.src, hok.dst, hok.ahead, by rw [hcts]; exact hok.elem, hok.missing⟩

theorem rowOf_row (base : Nat) {slot : Nat} (h : slot < 256) :
    rowOf ((base + slot * rowBytes) % 2 ^ 64) base = slot := by
  unfold rowOf rowBytes NCCL_NET_IB_MAX_RECVS sizeofSendFifo
  omega

/-- The elements that a new group sends. -/
theorem ctsMsgs_irecv {comm comm' : NcclIbRecvComm} {n : Nat} {posts : List RecvPost}
    {b : NcclIbNetCommBase} (h : IrecvPosts sh b comm n posts)
    (haddr : comm'.remCtsFifo.addr = comm.remCtsFifo.addr)
    (helems : comm'.remCtsFifo.elemsAddr = comm.remCtsFifo.elemsAddr) (id : Nat) :
    ∃ inlined : Bool, posts.flatMap (ctsMsgs comm' id) = (List.range n).map (fun r =>
      { id, src := slotOf comm.base.fifoHead, dst := slotOf comm.base.fifoHead, r
        elem := if inlined then some (comm'.remCtsFifo.elems (slotOf comm.base.fifoHead) r)
          else none }) := by
  obtain ⟨p, wr, hposts, _, hremote, hlocal, hlen⟩ := h
  have hrecvs : ∀ l : List (Nat × Nat), (l.map (fun q =>
      RecvPost.recv q.1 (slotOf comm.base.fifoHead))).flatMap (ctsMsgs comm' id) = [] := by
    intro l
    apply List.flatMap_eq_nil_iff.mpr
    intro x hx
    obtain ⟨q, _, rfl⟩ := List.mem_map.mp hx
    rfl
  have hfront : (if comm.prepostReceiveWorkRequests then [] else (qpsOf sh b comm.base.fifoHead).map
      (fun q => RecvPost.recv q.1 (slotOf comm.base.fifoHead))).flatMap (ctsMsgs comm' id) = [] := by
    split
    · rfl
    · exact hrecvs _
  refine ⟨wr.inlineData, ?_⟩
  have hcount : n * sizeofSendFifo / sizeofSendFifo = n := Nat.mul_div_cancel n (by decide)
  rw [hposts, List.flatMap_append, hfront, List.nil_append]
  simp only [List.flatMap_cons, List.flatMap_nil, List.append_nil, ctsMsgs, hremote, hlocal, hlen,
    haddr, helems, rowOf_row _ (slotOf_lt comm.base.fifoHead), hcount]

theorem world_irecv (h : WorldGood sh bs br pre w) {env : NetEnv} {bufs : List RecvBuffer}
    {rcv : RecvState} (hnext : w.rcv.next (.irecv env bufs) = some rcv)
    (hwin : ∀ id < rcv.comm.base.fifoHead, .data id ∉ rcv.reported →
      rcv.comm.base.fifoHead ≤ id + NET_IB_MAX_REQUESTS) :
    WorldGood sh bs br pre
      (w.afterIrecv rcv bufs.length (ncclIbIrecv env w.rcv.comm bufs)) := by
  rcases irecv_next h.recv hnext with ⟨rfl, hret⟩ | ⟨hcall, i, cqes, recvs, ht, hret, hcomm, hposts⟩
  · have hsame : w.afterIrecv w.rcv bufs.length (ncclIbIrecv env w.rcv.comm bufs) = w := by
      unfold World.afterIrecv
      split
      · rename_i j hj
        exact absurd hj (hret j)
      · rfl
    rw [hsame]
    exact h
  have hd := ht.does
  have hfree := recvFree_of_window hd.fifoHead ht.reported hwin
  have hgood := good_irecv h.recv ht hcall hfree
  have hafter : w.afterIrecv rcv bufs.length (ncclIbIrecv env w.rcv.comm bufs) =
      { w with
        rcv
        cts := w.cts ++ (ncclIbIrecv env w.rcv.comm bufs).posts.flatMap
          (ctsMsgs rcv.comm w.rcv.comm.base.fifoHead)
        groups := w.groups ++ [(List.range bufs.length).map
          (rcv.comm.remCtsFifo.elems (slotOf w.rcv.comm.base.fifoHead))] } := by
    unfold World.afterIrecv
    simp only [hret, hcomm]
  obtain ⟨inlined, hmsgs⟩ := ctsMsgs_irecv hposts hd.addr hd.elemsAddr w.rcv.comm.base.fifoHead
  rw [hafter, hmsgs]
  have hold : ∀ k group, w.groups[k]? = some group → k < w.rcv.comm.base.fifoHead := by
    intro k group hk
    rw [← h.length]
    exact (List.getElem?_eq_some_iff.mp hk).1
  have helem : ∀ r < bufs.length, (rcv.comm.remCtsFifo.elems (slotOf w.rcv.comm.base.fifoHead) r).idx =
      w.rcv.comm.base.fifoHead + 1 ∧
      (rcv.comm.remCtsFifo.elems (slotOf w.rcv.comm.base.fifoHead) r).nreqs = bufs.length := by
    intro r hr
    rw [hd.elems, Function.update_self]
    unfold fillElems
    rw [List.getElem?_eq_getElem hr]
    exact ⟨rfl, rfl⟩
  have hnew : (w.groups ++ [(List.range bufs.length).map
      (rcv.comm.remCtsFifo.elems (slotOf w.rcv.comm.base.fifoHead))])[w.rcv.comm.base.fifoHead]? =
      some ((List.range bufs.length).map
        (rcv.comm.remCtsFifo.elems (slotOf w.rcv.comm.base.fifoHead))) := by
    rw [← h.length, List.getElem?_append_right (Nat.le_refl _), Nat.sub_self]
    rfl
  refine
    { recv := hgood, send := ?_, split := h.split, scheme := h.scheme
      peer := ht.peerHead.trans h.peer, length := ?_, groups := ?_, one_msg := ?_, msgs := ?_ }
  · intro g hg hext
    refine h.send g hg (fun k group hk => hext k group ?_)
    show (w.groups ++ _)[k]? = some group
    rw [List.getElem?_append_left (List.getElem?_eq_some_iff.mp hk).1]
    exact hk
  · show (w.groups ++ [_]).length = rcv.comm.base.fifoHead
    rw [List.length_append, h.length, hd.fifoHead]
    rfl
  · intro k group hk
    have hk : (w.groups ++ [_])[k]? = some group := hk
    rw [List.getElem?_append] at hk
    split at hk
    · exact h.groups k group hk
    · rename_i hge
      have hkeq : k = w.rcv.comm.base.fifoHead := by
        have hlt := (List.getElem?_eq_some_iff.mp hk).1
        rw [List.length_singleton] at hlt
        rw [← h.length]
        omega
      subst hkeq
      rw [h.length, Nat.sub_self] at hk
      rw [← Option.some.inj hk]
      refine ⟨by rw [List.length_map, List.length_range]; exact hd.length_le, fun r e he => ?_⟩
      have hr : r < bufs.length := by
        have := (List.getElem?_eq_some_iff.mp he).1
        rwa [List.length_map, List.length_range] at this
      rw [List.getElem?_map, List.getElem?_range hr] at he
      rw [← Option.some.inj he, List.length_map, List.length_range]
      exact helem r hr
  · show (w.cts ++ _).map (fun m => (m.id, m.r)) |>.Nodup
    rw [List.map_append, List.map_map]
    refine List.nodup_append.mpr ⟨h.one_msg, ?_, ?_⟩
    · refine List.Nodup.map ?_ List.nodup_range
      intro r r' he
      exact (Prod.mk.inj he).2
    · intro x hx y hy hxy
      obtain ⟨m, hm, rfl⟩ := List.mem_map.mp hx
      obtain ⟨r, _, rfl⟩ := List.mem_map.mp hy
      obtain ⟨group, _, hget, _⟩ := (h.msgs m hm).elem
      have := hold _ _ hget
      have hid : m.id = w.rcv.comm.base.fifoHead := (Prod.mk.inj hxy).1
      omega
  · intro m hm
    rcases List.mem_append.mp hm with hm | hm
    · have hok := h.msgs m hm
      obtain ⟨group, e, hget, hel, hnone, hsome⟩ := hok.elem
      have hlt := hold _ _ hget
      refine ⟨hok.src, hok.dst, hok.ahead, ⟨group, e, ?_, hel, fun hn => ?_, hsome⟩, hok.missing⟩
      · show (w.groups ++ _)[m.id]? = some group
        rw [List.getElem?_append_left (List.getElem?_eq_some_iff.mp hget).1]
        exact hget
      · -- An element that is not read yet is in a slot that is not free.
        have hslot : slotOf m.id ≠ slotOf w.rcv.comm.base.fifoHead := by
          intro hs
          have := h.reported_posted (hfree m.id hlt hs)
          have := hok.ahead
          omega
        show rcv.comm.remCtsFifo.elems (slotOf m.id) m.r = e
        rw [hd.elems, Function.update_of_ne hslot]
        exact hnone hn
    · obtain ⟨r, hr, rfl⟩ := List.mem_map.mp hm
      have hr := List.mem_range.mp hr
      refine ⟨rfl, rfl, ?_, ⟨_, rcv.comm.remCtsFifo.elems (slotOf w.rcv.comm.base.fifoHead) r,
        hnew, ?_, fun _ => rfl, fun e' he' => ?_⟩, ?_⟩
      · show w.snd.comm.base.fifoHead ≤ w.rcv.comm.base.fifoHead
        rw [← h.peer]
        exact h.recv.peer
      · rw [List.getElem?_map, List.getElem?_range hr]
        rfl
      · simp only at he'
        split at he'
        · exact (Option.some.inj he').symm
        · cases he'
      · intro hidx
        obtain ⟨hg, hs⟩ := h.soFar
        have hel := hs.good.cts_elem hg hidx
        unfold groupsSoFar at hel
        rw [List.getElem?_eq_none (Nat.le_of_eq h.length)] at hel
        cases hel

/-! ## Every step -/

theorem world_step (h : WorldGood sh bs br pre w) {act : WorldAct} (hnext : w.next act = some t)
    (hwin : t.InWindow) : WorldGood sh bs br pre t := by
  cases act with
  | send act =>
    simp only [World.next] at hnext
    split at hnext
    · cases hnext
    rename_i snd hsnd
    by_cases hact : ∃ env a, act = .isend env a
    · obtain ⟨env, a, rfl⟩ := hact
      simp only at hnext
      cases hnext
      exact world_isend h hsnd hwin.send
    · have hact' : ∀ env a, act ≠ .isend env a := fun env a he => hact ⟨env, a, he⟩
      have ht : t = { w with snd } := by
        cases act with
        | isend env a => exact absurd rfl (hact' env a)
        | cts k r => cases hsnd
        | testBegin r => exact (Option.some.inj hnext).symm
        | test env n => exact (Option.some.inj hnext).symm
        | complete q => exact (Option.some.inj hnext).symm
        | speed buf => exact (Option.some.inj hnext).symm
      rw [ht]
      obtain ⟨hg, hs⟩ := h.soFar
      obtain ⟨_, _, hfifo, hcts⟩ := send_frame hg hs.good hact' hsnd
      refine h.sender (fun g hg hext => ?_) hfifo hcts
      have hsure := h.send g hg hext
      obtain ⟨hgood, hdoes, _⟩ := send_frame hg hsure.good hact' hsnd
      exact hsure.step hg hgood hdoes
  | recv act =>
    simp only [World.next] at hnext
    split at hnext
    · cases hnext
    rename_i rcv hrcv
    by_cases hact : ∃ env bufs, act = .irecv env bufs
    · obtain ⟨env, bufs, rfl⟩ := hact
      simp only at hnext
      have ht := (Option.some.inj hnext).symm
      have hafter : t.rcv = rcv := by
        rw [ht]
        unfold World.afterIrecv
        simp only
        split <;> rfl
      rw [ht]
      exact world_irecv h hrcv (hafter ▸ hwin.recv)
    · have hact' : ∀ env bufs, act ≠ .irecv env bufs := fun env bufs he => hact ⟨env, bufs, he⟩
      have ht : t = { w with rcv } := by
        cases act with
        | irecv env bufs => exact absurd rfl (hact' env bufs)
        | iflush bufs => exact (Option.some.inj hnext).symm
        | testBegin r => exact (Option.some.inj hnext).symm
        | test env n => exact (Option.some.inj hnext).symm
        | complete q flush => exact (Option.some.inj hnext).symm
        | deliver q => exact (Option.some.inj hnext).symm
        | record slot sizes => exact (Option.some.inj hnext).symm
      rw [ht]
      exact world_recv h hact' hrcv
  | ctsRead n =>
    simp only [World.next] at hnext
    split at hnext
    · rename_i id src dst r hget
      cases hnext
      exact good_ctsRead h hget
    · cases hnext
  | ctsWrite n =>
    simp only [World.next] at hnext
    split at hnext
    · rename_i id src dst r e hget
      cases hnext
      exact good_ctsWrite h ⟨hwin.send, hwin.recv⟩ hget
    · cases hnext

/-- Every reachable state of a connection is good. -/
theorem world_reachable (h : Reachable (worldSystem sh pre) w) :
    ∃ bs br, WorldGood sh bs br pre w :=
  h.invariant (P := fun w => ∃ bs br, WorldGood sh bs br pre w)
    (fun w hinit => ⟨_, _, world_init hinit⟩)
    (fun w t _ hgood hstep => by
      obtain ⟨bs, br, hgood⟩ := hgood
      obtain ⟨⟨act, hnext⟩, hwin⟩ := hstep
      exact ⟨bs, br, world_step hgood hnext hwin⟩)

end

end net_ib.p2p
