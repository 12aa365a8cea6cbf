-- Which send is matched with which entry of a receive group. An entry gets one
-- send of its tag, equal tags are served in the order of the calls, and the bytes
-- of the send go to the buffer of the entry and stay inside it.
import MrcPlugin.SendHistory
import MrcPlugin.Tiling

namespace net_ib.p2p

open queues counts cuts

/-! ## What is said about the matches -/

/-- The bytes that a send may write: its size, cut to the buffer of its entry. -/
def sendBytes (a : IsendArgs) (e : NcclIbSendFifo) : Nat := min a.size e.size

/-- The weights give every device from 1 to 199 percent, and 100 or more in all. -/
def GoodWeights (sh : Shape) (weights : Nat → Nat) : Prop :=
  (∀ d < sh.ndevs, 1 ≤ weights d ∧ weights d ≤ 199) ∧
    100 ≤ ((List.range sh.ndevs).map weights).sum

/-- How a posted group writes the bytes of the send `a` to its entry `e`: as pieces
at the same offset in both buffers, and inside both. -/
def WritesInto (x : Sent) (a : Accept) (e : NcclIbSendFifo) : Prop :=
  ∃ ps : List Piece,
    List.Forall₂ (fun post p => ∃ wr, post.wrs[a.r]? = some wr ∧ Writes a.args.data e.addr wr p)
      x.posts ps ∧
    ∀ p ∈ ps, p.start + p.len ≤ sendBytes a.args e

/-- The whole of the send is written, each byte once. -/
def WritesAll (x : Sent) (a : Accept) (e : NcclIbSendFifo) : Prop :=
  ∃ ps : List Piece, List.Forall₂ (Writes a.args.data e.addr) (dataWrs x.posts a.r) ps ∧
    Tiles 128 0 (sendBytes a.args e) ps

/-- What is sure about a posted group. -/
structure SentOk (sh : Shape) (group : List NcclIbSendFifo) (log : List Accept) (x : Sent) :
    Prop where
  inside : ∀ a ∈ log, a.id = x.id → ∀ e, group[a.r]? = some e → WritesInto x a e
  whole : x.id < 2 ^ 56 →
    (∀ a ∈ log, a.id = x.id → ∀ e, group[a.r]? = some e → sendBytes a.args e < 2 ^ 31) →
    (∀ a ∈ log, a.id = x.id → a.r = 0 → GoodWeights sh a.weights) →
    ∀ a ∈ log, a.id = x.id → ∀ e, group[a.r]? = some e → WritesAll x a e

/-- The matches of a send comm. -/
structure SendMatch (sh : Shape) (g : Nat → List NcclIbSendFifo) (s : SendState) : Prop where
  serials : s.log.map Accept.serial = List.range s.nextSerial
  tag : ∀ a ∈ s.log, ∃ e, (g a.id)[a.r]? = some e ∧ e.tag = u32 a.args.tag
  /-- An entry gets one send. -/
  unique : ∀ a ∈ s.log, ∀ b ∈ s.log, a.id = b.id → a.r = b.r → a = b
  /-- The entries of the same tag in front of a matched one are matched. -/
  lower : ∀ a ∈ s.log, ∀ r < a.r, ∀ e, (g a.id)[r]? = some e → e.tag = u32 a.args.tag →
    ∃ b ∈ s.log, b.id = a.id ∧ b.r = r
  order : ∀ a ∈ s.log, ∀ b ∈ s.log, a.id = b.id → u32 a.args.tag = u32 b.args.tag →
    a.serial < b.serial → a.r < b.r
  reported : ∀ a ∈ s.log, a.serial ∈ s.reported → a.id < s.comm.base.fifoHead
  /-- The requests of the current group hold what the calls gave. -/
  bound : ∀ a ∈ s.log, a.id = s.comm.base.fifoHead → ∃ i e,
    s.comm.sendReqs (slotOf a.id) a.r = some i ∧ (g a.id)[a.r]? = some e ∧
    (s.comm.base.reqs i).send.data = a.args.data ∧
    (s.comm.base.reqs i).send.size = i32 (sendBytes a.args e) ∧
    (a.r = 0 → (s.comm.base.reqs i).send.weights = a.weights)
  sentIds : s.sent.map Sent.id = List.range s.comm.base.fifoHead
  sent : ∀ x ∈ s.sent, SentOk sh (g x.id) s.log x

section
variable {sh : Shape} {b0 : NcclIbNetCommBase} {g : Nat → List NcclIbSendFifo} {s t : SendState}

theorem match_init (h : SendState.Init sh s) : SendMatch sh g s := by
  have hlog : ∀ a, a ∉ s.log := fun a => by rw [h.log]; exact List.not_mem_nil
  exact
    { serials := by rw [h.log, h.nextSerial]; rfl
      tag := fun a ha => absurd ha (hlog a)
      unique := fun a ha => absurd ha (hlog a)
      lower := fun a ha => absurd ha (hlog a)
      order := fun a ha => absurd ha (hlog a)
      reported := fun a ha => absurd ha (hlog a)
      bound := fun a ha => absurd ha (hlog a)
      sentIds := by rw [h.sent, h.fifoHead]; rfl
      sent := fun x hx => by rw [h.sent] at hx; cases hx }

theorem SendMatch.eq_of_serial (h : SendMatch sh g s) {a b : Accept} (ha : a ∈ s.log)
    (hb : b ∈ s.log) (he : a.serial = b.serial) : a = b := by
  have hnd : (s.log.map Accept.serial).Nodup := by
    rw [h.serials]
    exact List.nodup_range
  exact List.inj_on_of_nodup_map hnd ha hb he

/-! ## A send is accepted -/

/-- A send of the current group holds its entry. -/
theorem entry_taken (h : SendGood sh b0 g s) (hh : SendHistory g s) (hm : SendMatch sh g s)
    {a : Accept} (ha : a ∈ s.log) (hid : a.id = s.comm.base.fifoHead) :
    s.comm.sendReqs (slotOf s.comm.base.fifoHead) a.r ≠ none := by
  intro hnone
  have hrep : a.serial ∉ s.reported := fun hrep => by
    have := hm.reported a ha hrep
    omega
  have ho := hh.unreported a ha hrep
  rw [hid] at ho
  rw [(h.entry _ _).mpr hnone] at ho
  cases ho

/-- An entry that is taken has its send in the log. -/
theorem taken_entry (h : SendGood sh b0 g s) (hh : SendHistory g s) (hfree : s.SlotFree) {r : Nat}
    (hr : s.comm.sendReqs (slotOf s.comm.base.fifoHead) r ≠ none) :
    ∃ b ∈ s.log, b.id = s.comm.base.fifoHead ∧ b.r = r := by
  cases ho : s.owner (slotOf s.comm.base.fifoHead) r with
  | none => exact absurd ((h.entry _ _).mp ho) hr
  | some o =>
    obtain ⟨b, hb, hid, hbr, _⟩ := hh.owner _ _ _ ho
    exact ⟨b, hb, hid.trans (hfree r o ho), hbr⟩

/-- The matched entry is the first one that is free and has the tag. -/
theorem matchEntry_first {comm : NcclIbSendComm} {slot nreqs : Nat} {tag : Int} {r : Nat}
    (h : matchEntry comm slot nreqs tag = some r) :
    ∀ r' < r, (comm.ctsFifo slot r').tag = u32 tag → comm.sendReqs slot r' ≠ none := by
  intro r' hr' htag hnone
  unfold matchEntry at h
  have hlt := (matchEntry_cases h).1
  obtain ⟨_, as, bs, hsplit, hbefore⟩ := List.find?_eq_some_iff_append.mp h
  have hlen : as.length = r := by
    have hget := congrArg (fun l => l[as.length]?) hsplit
    simp only [List.getElem?_append_right (Nat.le_refl _), Nat.sub_self, List.getElem?_cons_zero]
      at hget
    rw [List.getElem?_eq_some_iff] at hget
    obtain ⟨_, hget⟩ := hget
    rw [List.getElem_range] at hget
    exact hget
  have hmem : r' ∈ as := by
    have hget := congrArg (fun l => l[r']?) hsplit
    simp only [List.getElem?_range (Nat.lt_trans hr' hlt),
      List.getElem?_append_left (show r' < as.length by omega)] at hget
    exact List.mem_of_getElem? hget.symm
  have := hbefore r' hmem
  simp [hnone, htag] at this

theorem match_bound (hg : GroupsOk g) (h : SendGood sh b0 g s) (hh : SendHistory g s)
    (hm : SendMatch sh g s) (hfree : s.SlotFree) (hthere : CtsThere s.comm) {a : IsendArgs}
    {r i : Nat}
    (hmatch : matchEntry s.comm (slotOf s.comm.base.fifoHead) (g s.comm.base.fifoHead).length
      a.tag = some r)
    (hu : (s.comm.base.reqs i).type = NCCL_NET_IB_REQ_UNUSED) :
    SendMatch sh g (s.bound a r i (boundReq sh s.comm a r i)) := by
  have ht := takes_bound (s := s) a r i (boundReq sh s.comm a r i)
  obtain ⟨hr, hnone, htag⟩ := matchEntry_cases hmatch
  have hn := h.cts_nreqs hg hthere
  have helem : ∀ r' < (g s.comm.base.fifoHead).length, (g s.comm.base.fifoHead)[r']? =
      some (s.comm.ctsFifo (slotOf s.comm.base.fifoHead) r') := fun r' hr' =>
    h.cts_elem hg (hthere.2 r' (hn ▸ hr'))
  have hlog : ∀ x, x ∈ (s.bound a r i (boundReq sh s.comm a r i)).log ↔ x ∈ s.log ∨
      x = ⟨s.comm.base.fifoHead, r, s.nextSerial, a, s.reported, s.comm.base.weights⟩ := by
    intro x
    show x ∈ s.log ++ [_] ↔ _
    rw [List.mem_append, List.mem_singleton]
  -- No send of the group holds the entry.
  have hother : ∀ x ∈ s.log, x.id = s.comm.base.fifoHead → x.r ≠ r := by
    intro x hx hid hxr
    exact entry_taken h hh hm hx hid (hxr ▸ hnone)
  have hcur : ∀ x ∈ s.log, x.id ≤ s.comm.base.fifoHead := hh.id_le
  refine
    { serials := ?_, tag := ?_, unique := ?_, lower := ?_, order := ?_, reported := ?_
      bound := ?_, sentIds := hm.sentIds, sent := ?_ }
  · show (s.log ++ [_]).map Accept.serial = List.range (s.nextSerial + 1)
    rw [List.map_append, hm.serials, List.range_succ]
    rfl
  · intro x hx
    rcases (hlog x).mp hx with hx | rfl
    · exact hm.tag x hx
    · exact ⟨_, helem r hr, htag⟩
  · intro x hx y hy hid hxr
    rcases (hlog x).mp hx with hx | rfl <;> rcases (hlog y).mp hy with hy | rfl
    · exact hm.unique x hx y hy hid hxr
    · exact absurd hxr (hother x hx hid)
    · exact absurd hxr.symm (hother y hy hid.symm)
    · rfl
  · intro x hx r' hr' e he htag'
    rcases (hlog x).mp hx with hx | rfl
    · obtain ⟨b, hb, hrest⟩ := hm.lower x hx r' hr' e he htag'
      exact ⟨b, (hlog b).mpr (.inl hb), hrest⟩
    · simp only at hr' he htag'
      rw [helem r' (Nat.lt_trans hr' hr)] at he
      cases he
      obtain ⟨b, hb, hid, hbr⟩ := taken_entry h hh hfree (matchEntry_first hmatch r' hr' htag')
      exact ⟨b, (hlog b).mpr (.inl hb), hid, hbr⟩
  · intro x hx y hy hid htags hlt
    rcases (hlog x).mp hx with hx | rfl <;> rcases (hlog y).mp hy with hy | rfl
    · exact hm.order x hx y hy hid htags hlt
    · -- A lower free entry of the tag would have been taken before.
      simp only at hid htags ⊢
      by_contra hge
      have hne := hother x hx hid
      have hrx : r < x.r := by omega
      obtain ⟨b, hb, hbid, hbr⟩ := hm.lower x hx r hrx _ (hid ▸ helem r hr) (htag.trans htags.symm)
      exact hother b hb (hbid.trans hid) hbr
    · have := hh.serial_lt y hy
      simp only at hlt
      omega
    · exact absurd hlt (Nat.lt_irrefl _)
  · intro x hx hrep
    rw [ht.fifoHead]
    rw [ht.reported] at hrep
    rcases (hlog x).mp hx with hx | rfl
    · exact hm.reported x hx hrep
    · exact absurd (h.reported_lt _ hrep) (Nat.lt_irrefl _)
  · intro x hx hid
    rw [ht.fifoHead] at hid
    rcases (hlog x).mp hx with hxs | rfl
    · obtain ⟨j, e, hj, he, hdata⟩ := hm.bound x hxs hid
      have hji : j ≠ i := by
        rintro rfl
        have hrep : x.serial ∉ s.reported := fun hrep => by
          have := hm.reported x hxs hrep
          omega
        obtain ⟨j', _, hj', _, htype, _⟩ := h.open_req _ _ _ (hh.unreported x hxs hrep) hrep
        rw [hj] at hj'
        cases hj'
        rw [hu] at htype
        cases htype
      refine ⟨j, e, ?_, he, ?_⟩
      · rw [ht.entry, hid, if_neg (fun hc => hother x hxs hid hc.2), ← hid]
        exact hj
      · rw [ht.reqs j hji]
        exact hdata
    · refine ⟨i, _, ?_, helem r hr, ?_⟩
      · rw [ht.entry, if_pos ⟨rfl, rfl⟩]
      · rw [ht.req]
        unfold boundReq sendRequest
        rw [(addEvents _ _).2.2.2.2.2.1]
        refine ⟨rfl, ?_, fun hr0 => ?_⟩
        · have hcut : ∀ n : Nat, (if a.size > n then n else a.size) = min a.size n := by
            intro n
            split <;> omega
          simp only [hcut]
          rfl
        · exact if_pos hr0
  · intro x hx
    have hxid : x.id < s.comm.base.fifoHead := by
      have hmem : x.id ∈ s.sent.map Sent.id := List.mem_map.mpr ⟨x, hx, rfl⟩
      rw [hm.sentIds] at hmem
      exact List.mem_range.mp hmem
    have hold : ∀ y ∈ (s.bound a r i (boundReq sh s.comm a r i)).log, y.id = x.id → y ∈ s.log := by
      intro y hy hid
      rcases (hlog y).mp hy with hy | rfl
      · exact hy
      · simp only at hid
        omega
    obtain ⟨hin, hwhole⟩ := hm.sent x hx
    refine ⟨fun y hy hid => hin y (hold y hy hid) hid, fun hlt hsize hw y hy hid => ?_⟩
    exact hwhole hlt (fun z hz => hsize z ((hlog z).mpr (.inl hz)))
      (fun z hz => hw z ((hlog z).mpr (.inl hz))) y (hold y hy hid) hid

/-! ## A full group is posted -/

/-- What the requests of the current group hold, when it is posted. -/
theorem SendMatch.at_entry (hg : GroupsOk g) (h : SendGood sh b0 g s) (hm : SendMatch sh g s)
    (hthere : CtsThere s.comm) {a : Accept} (ha : a ∈ s.log) (hid : a.id = s.comm.base.fifoHead)
    {e : NcclIbSendFifo} (he : (g a.id)[a.r]? = some e) :
    a.r < (s.comm.ctsFifo (slotOf s.comm.base.fifoHead) 0).nreqs ∧
      s.comm.ctsFifo (slotOf s.comm.base.fifoHead) a.r = e ∧
      (reqAt s.comm (slotOf s.comm.base.fifoHead) a.r).send.data = a.args.data ∧
      (reqAt s.comm (slotOf s.comm.base.fifoHead) a.r).send.size = i32 (sendBytes a.args e) ∧
      (a.r = 0 → (reqAt s.comm (slotOf s.comm.base.fifoHead) a.r).send.weights = a.weights) := by
  obtain ⟨i, e', hi, he', hdata, hsize, hw⟩ := hm.bound a ha hid
  rw [he] at he'
  cases he'
  have hr : a.r < (s.comm.ctsFifo (slotOf s.comm.base.fifoHead) 0).nreqs := by
    rw [h.cts_nreqs hg hthere, ← hid]
    exact (List.getElem?_eq_some_iff.mp he).1
  have helem := h.cts_elem hg (hthere.2 a.r hr)
  rw [← hid, he] at helem
  have hreq : reqAt s.comm (slotOf s.comm.base.fifoHead) a.r = s.comm.base.reqs i := by
    unfold reqAt
    rw [← hid, hi]
    rfl
  rw [hreq]
  exact ⟨hr, by rw [← hid]; exact (Option.some.inj helem).symm, hdata, hsize, hw⟩

/-- The bytes of a send, as the code counts them, are not more than the entry takes. -/
theorem u32_i32_le (n : Nat) : u32 (i32 n) ≤ n := by
  unfold u32 i32
  rw [show (2 : Int) ^ 32 = ((2 ^ 32 : Nat) : Int) by norm_cast, Int.bmod_emod]
  omega

/-- The posts of the current group write its sends to their entries. -/
theorem sentOk_posted (hg : GroupsOk g) (h : SendGood sh b0 g s) (hh : SendHistory g s)
    (hm : SendMatch sh g s) (hfree : s.SlotFree) (hthere : CtsThere s.comm)
    (hpos : 0 < (g s.comm.base.fifoHead).length)
    (hfull : ∀ r < (g s.comm.base.fifoHead).length,
      (s.owner (slotOf s.comm.base.fifoHead) r).isSome)
    (env : NetEnv) (owners : List (Option Owner)) :
    SentOk sh (g s.comm.base.fifoHead) s.log
      ⟨s.comm.base.fifoHead, owners, groupPosts sh env s.comm⟩ := by
  have hn := h.cts_nreqs hg hthere
  have hb := h.plain.same h.same
  have hsend : ∀ r < (s.comm.ctsFifo (slotOf s.comm.base.fifoHead) 0).nreqs,
      ∃ a ∈ s.log, a.id = s.comm.base.fifoHead ∧ a.r = r := by
    intro r hr
    refine taken_entry h hh hfree (fun hnone => ?_)
    have := hfull r (hn ▸ hr)
    rw [(h.entry _ _).mpr hnone] at this
    cases this
  refine ⟨?_, ?_⟩
  · intro a ha hid e he
    have hid : a.id = s.comm.base.fifoHead := hid
    obtain ⟨hr, helem, hdata, hsize, _⟩ := hm.at_entry hg h hthere ha hid (hid ▸ he)
    obtain ⟨ps, hwrites, hin⟩ :=
      writes_callPosts env (qpsOf sh s.comm.base s.comm.base.fifoHead) hr
    rw [hdata, helem] at hwrites
    rw [hsize] at hin
    exact ⟨ps, hwrites, fun p hp => Nat.le_trans (hin p hp) (u32_i32_le _)⟩
  · intro hlt hsmall hweights a ha hid e he
    have hid : a.id = s.comm.base.fifoHead := hid
    have hsizes : ∀ r < (s.comm.ctsFifo (slotOf s.comm.base.fifoHead) 0).nreqs, ∃ n : Nat,
        n < 2 ^ 31 ∧ (reqAt s.comm (slotOf s.comm.base.fifoHead) r).send.size = n := by
      intro r hr
      obtain ⟨c, hc, hcid, rfl⟩ := hsend r hr
      obtain ⟨e', he', _⟩ := hm.tag c hc
      obtain ⟨_, _, _, hsize, _⟩ := hm.at_entry hg h hthere hc hcid he'
      have hlt := hsmall c hc hcid e' (hcid ▸ he')
      exact ⟨_, hlt, hsize.trans (i32_natCast hlt)⟩
    have hid0 : (reqAt s.comm (slotOf s.comm.base.fifoHead) 0).id = s.comm.base.fifoHead := by
      obtain ⟨o, ho⟩ := Option.isSome_iff_exists.mp (hfull 0 hpos)
      have hoid := hfree 0 o ho
      obtain ⟨i, _, hi, _, _, hid, _⟩ := h.open_req _ _ _ ho (h.current _ _ _ ho hoid)
      unfold reqAt
      rw [hi]
      exact hid.trans hoid
    have hready : ReadyGroup s.comm (slotOf s.comm.base.fifoHead) :=
      { nreqs_pos := hn ▸ hpos
        nreqs_le := Nat.le_trans (Nat.le_of_eq hn) (hg.length_le _)
        matched := fun r hr => by
          rw [Option.isSome_iff_ne_none]
          obtain ⟨c, hc, hcid, rfl⟩ := hsend r hr
          exact entry_taken h hh hm hc hcid
        size_nonneg := fun r hr => by
          obtain ⟨n, _, hn⟩ := hsizes r hr
          omega
        size_lt := fun r hr => by
          obtain ⟨n, _, hn⟩ := hsizes r hr
          omega
        id_lt := Nat.lt_of_le_of_lt (Nat.le_of_eq hid0) hlt
        unsent := fun hres => by
          rw [hb.resiliency] at hres
          cases hres }
    obtain ⟨a0, ha0, ha0id, ha0r⟩ := hsend 0 (hn ▸ hpos)
    have hw : (reqAt s.comm (slotOf s.comm.base.fifoHead) 0).send.weights = a0.weights := by
      obtain ⟨e0, he0, _⟩ := hm.tag a0 ha0
      have := (hm.at_entry hg h hthere ha0 ha0id he0).2.2.2.2 ha0r
      rwa [ha0r] at this
    obtain ⟨hone, hsum⟩ := hweights a0 ha0 ha0id ha0r
    obtain ⟨hr, helem, hdata, hsize, _⟩ := hm.at_entry hg h hthere ha hid (hid ▸ he)
    obtain ⟨ps, hwrites, htiles⟩ := tiles_callPosts env hb.striped hready
      (fun d hd => hw ▸ (hone d hd).1) (fun d hd => hw ▸ (hone d hd).2) (hw ▸ hsum) hr
    rw [hid0, hdata, helem] at hwrites
    rw [hsize, i32_natCast (hsmall a ha hid e he), Int.toNat_natCast] at htiles
    exact ⟨ps, hwrites, htiles⟩

theorem match_accepts (hg : GroupsOk g) (h : SendGood sh b0 g s) (hh : SendHistory g s)
    (hm : SendMatch sh g s) (hfree : s.SlotFree) (hthere : CtsThere s.comm)
    (hpos : 0 < (g s.comm.base.fifoHead).length) {env : NetEnv}
    (ht : Accepts sh env (g s.comm.base.fifoHead).length s t) : SendMatch sh g t := by
  cases ht with
  | waits => exact hm
  | @posts reqs hfull _ =>
    have hfifo : (s.posted sh env (g s.comm.base.fifoHead).length reqs).comm.base.fifoHead =
        s.comm.base.fifoHead + 1 := rfl
    exact
      { serials := hm.serials, tag := hm.tag, unique := hm.unique, lower := hm.lower
        order := hm.order
        reported := fun a ha hrep => Nat.lt_succ_of_lt (hm.reported a ha hrep)
        bound := fun a ha hid => by
          have := hh.id_le a ha
          omega
        sentIds := by
          show (s.sent ++ [_]).map Sent.id = List.range (s.comm.base.fifoHead + 1)
          rw [List.map_append, hm.sentIds, List.range_succ]
          rfl
        sent := fun x hx => by
          rcases List.mem_append.mp hx with hx | hx
          · exact hm.sent x hx
          · rw [List.mem_singleton.mp hx]
            exact sentOk_posted hg h hh hm hfree hthere hpos hfull env _ }

/-! ## The other steps -/

theorem chargeAll_send (reqs : Nat → NcclIbRequest) (group : List Nat) (d i : Nat) :
    (chargeAll reqs group d i).send = (reqs i).send := by
  unfold chargeAll
  split <;> rfl

theorem match_test (h : SendGood sh b0 g s) (h' : SendGood sh b0 g t) (hh : SendHistory g s)
    (hh' : SendHistory g t) (hm : SendMatch sh g s) (ht : TestDoes s t) : SendMatch sh g t := by
  cases ht with
  | moves =>
    exact ⟨hm.1, hm.2, hm.3, hm.4, hm.5, hm.6, hm.7, hm.8, hm.9⟩
  | charges =>
    refine ⟨hm.1, hm.2, hm.3, hm.4, hm.5, hm.6, ?_, hm.8, hm.9⟩
    simp only [NcclIbSendComm.withReqs, chargeAll_send]
    exact hm.bound
  | @reports i comm' hcall hdone hrel =>
    obtain ⟨hi, hlive⟩ := h.call_live _ hcall
    have hfifo : comm'.base.fifoHead = s.comm.base.fifoHead := hrel.fifoHead
    -- The reported send is of a posted group.
    have hreported : ∀ a ∈ s.log, a.serial ∈ s.reported ++ [s.serialOf i] →
        a.id < s.comm.base.fifoHead := by
      intro a ha hrep
      rcases List.mem_append.mp hrep with hrep | hrep
      · exact hm.reported a ha hrep
      · obtain ⟨_, _, r, _, ho⟩ := h.live i hi hlive
        obtain ⟨b, hb, hbid, _, hserial⟩ := hh.owner _ _ _ ho
        have : a = b := hm.eq_of_serial ha hb ((List.mem_singleton.mp hrep).trans hserial.symm)
        rw [this, hbid]
        exact (complete_posted h hi hlive hdone).1
    refine
      { serials := hm.serials, tag := hm.tag, unique := hm.unique, lower := hm.lower
        order := hm.order, reported := ?_, bound := ?_, sentIds := ?_, sent := hm.sent }
    · intro a ha hrep
      show a.id < comm'.base.fifoHead
      rw [hfifo]
      exact hreported a ha hrep
    · intro a ha hid
      have hid : a.id = s.comm.base.fifoHead := hid.trans hfifo
      have hrep : a.serial ∉ s.reported ++ [s.serialOf i] := fun hrep => by
        have := hreported a ha hrep
        omega
      -- The entry stays, so its row was not cleared.
      have hkept : comm'.sendReqs (slotOf a.id) a.r ≠ none := by
        intro hnone
        have ho := hh'.unreported a ha hrep
        rw [(h'.entry _ _).mpr hnone] at ho
        cases ho
      have hrow : comm'.sendReqs (slotOf a.id) a.r = s.comm.sendReqs (slotOf a.id) a.r := by
        rw [hrel.row] at hkept ⊢
        split
        · rename_i hz
          rw [if_pos hz] at hkept
          by_cases hslot : slotOf a.id = slotOf (s.comm.base.reqs i).id
          · rw [hslot, Function.update_self] at hkept
            exact absurd rfl hkept
          · rw [Function.update_of_ne hslot]
        · rfl
      obtain ⟨j, e, hj, he, hdata⟩ := hm.bound a ha hid
      refine ⟨j, e, hrow.trans hj, he, ?_⟩
      have hsend : (comm'.base.reqs j).send = (s.comm.base.reqs j).send := by
        rw [hrel.reqs]
        by_cases hji : j = i
        · rw [hji, Function.update_self]
          rfl
        · rw [Function.update_of_ne hji]
      rw [hsend]
      exact hdata
    · show _ = List.range comm'.base.fifoHead
      rw [hfifo]
      exact hm.sentIds

theorem match_step (hg : GroupsOk g) (h : SendGood sh b0 g s) (h' : SendGood sh b0 g t)
    (hh : SendHistory g s) (hh' : SendHistory g t) (hm : SendMatch sh g s)
    (ht : SendDoes sh b0 g s t) : SendMatch sh g t := by
  cases ht with
  | none => exact hm
  | @accepts env a r i t hthere hmatch hi hunused hfree hbound ht =>
    obtain ⟨hr, hnone, _⟩ := matchEntry_cases hmatch
    exact match_accepts hg hbound (history_bound h hh hfree hnone)
      (match_bound hg h hh hm hfree hthere hmatch hunused)
      ((takes_bound a r i _).slotFree hfree) hthere (Nat.lt_of_le_of_lt (Nat.zero_le _) hr) ht
  | arrives => exact ⟨hm.1, hm.2, hm.3, hm.4, hm.5, hm.6, hm.7, hm.8, hm.9⟩
  | moves => exact ⟨hm.1, hm.2, hm.3, hm.4, hm.5, hm.6, hm.7, hm.8, hm.9⟩
  | tests ht => exact match_test h h' hh hh' hm ht
  | speed => exact ⟨hm.1, hm.2, hm.3, hm.4, hm.5, hm.6, hm.7, hm.8, hm.9⟩

/-! ## The current group is not complete -/

/-- A group that has some of its sends still waits for one. -/
def SendPartial (g : Nat → List NcclIbSendFifo) (s : SendState) : Prop :=
  ∀ a ∈ s.log, a.id = s.comm.base.fifoHead →
    ∃ r < (g a.id).length, ∀ b ∈ s.log, b.id = a.id → b.r ≠ r

/-- While the counter is below the size of the group, some entry is free. -/
theorem partial_of_cnt (hg : GroupsOk g) (h : SendGood sh b0 g s) (hh : SendHistory g s)
    (hm : SendMatch sh g s)
    (hcnt : s.comm.sendReqsCnt (slotOf s.comm.base.fifoHead) < (g s.comm.base.fifoHead).length) :
    SendPartial g s := by
  intro a _ hid
  by_contra hall
  push Not at hall
  have hopen : ∀ r ∈ List.range (g a.id).length,
      s.isOpen (slotOf s.comm.base.fifoHead) r = true := by
    intro r hr
    obtain ⟨b, hb, hbid, rfl⟩ := hall r (List.mem_range.mp hr)
    have hrep : b.serial ∉ s.reported := fun hrep => by
      have := hm.reported b hb hrep
      omega
    have ho := hh.unreported b hb hrep
    rw [hbid, hid] at ho
    exact (isOpen_iff _ _).mpr ⟨_, ho, hrep⟩
  have hfull : (List.range (g a.id).length).countP (s.isOpen (slotOf s.comm.base.fifoHead)) =
      (g a.id).length := by
    rw [List.countP_eq_length.mpr hopen, List.length_range]
  have hsub := (List.range_sublist.mpr (hg.length_le a.id)).countP_le
    (p := s.isOpen (slotOf s.comm.base.fifoHead))
  have hc := h.cnt (slotOf s.comm.base.fifoHead)
  rw [hid] at hfull hsub
  omega

theorem partial_step (hg : GroupsOk g) (h : SendGood sh b0 g s) (hh : SendHistory g s)
    (hm : SendMatch sh g s) (hp : SendPartial g s) (ht : SendDoes sh b0 g s t) :
    SendPartial g t := by
  cases ht with
  | none => exact hp
  | @accepts env a r i t hthere hmatch hi hunused hfree hbound ht =>
    obtain ⟨hr, hnone, _⟩ := matchEntry_cases hmatch
    have hhb : SendHistory g (s.bound a r i (boundReq sh s.comm a r i)) :=
      history_bound h hh hfree hnone
    cases ht with
    | waits hcnt =>
      exact partial_of_cnt hg hbound hhb (match_bound hg h hh hm hfree hthere hmatch hunused) hcnt
    | posts =>
      intro x hx hid
      have hle := hhb.id_le x hx
      have hid : x.id = s.comm.base.fifoHead + 1 := hid
      have hle : x.id ≤ s.comm.base.fifoHead := hle
      omega
  | arrives => exact hp
  | moves => exact hp
  | tests ht =>
    cases ht with
    | moves => exact hp
    | charges => exact hp
    | reports _ _ hrel =>
      intro x hx hid
      exact hp x hx (hid.trans hrel.fifoHead)
  | speed => exact hp

end

end net_ib.p2p
