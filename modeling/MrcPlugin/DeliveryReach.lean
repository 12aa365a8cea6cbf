-- Every step of a connection with its memories keeps the invariant. When a receive is
-- reported done, all writes of its group are placed, and their pieces make up the whole
-- of each send.
import MrcPlugin.DeliveryGood

namespace net_ib.p2p

open queues runs memory cuts

section
variable {sh : Shape} {bs br : NcclIbNetCommBase} {pre : Bool} {m : DataWorld}

/-! ## A group whose writes are all placed -/

/-- A byte of a send is in one of the pieces that its group has written. -/
theorem WritesAll.covers {x : Sent} {a : Accept} {e : NcclIbSendFifo} (h : WritesAll x a e) {o : Nat}
    (ho : o < sendBytes a.args e) : ∃ post ∈ x.posts, ∃ wr p, post.wrs[a.r]? = some wr ∧
      Writes a.args.data e.addr wr p ∧ p.start + p.len ≤ sendBytes a.args e ∧ wr.num_sge ≠ 0 ∧
      p.start ≤ o ∧ o < p.start + p.len := by
  obtain ⟨ps, hps, htiles⟩ := h
  obtain ⟨p, hp, hop⟩ := (Set.ext_iff.mp htiles.union o).mpr ⟨Nat.zero_le o, ho⟩
  obtain ⟨k, hk, rfl⟩ := List.mem_iff_getElem.mp hp
  have hk' : k < (dataWrs x.posts a.r).length := by
    rw [hps.length_eq]
    exact hk
  have hwrites := hps.get hk' hk
  obtain ⟨hmem, hone⟩ := List.mem_filter.mp (List.get_mem (dataWrs x.posts a.r) ⟨k, hk'⟩)
  obtain ⟨post, hpost, hwr⟩ := List.mem_filterMap.mp hmem
  -- The last byte of the piece is a byte of the send.
  have hend : ps[k].start + ps[k].len ≤ sendBytes a.args e := by
    have hlast : ps[k].start + ps[k].len - 1 ∈ ps[k].bytes := by
      obtain ⟨h1, h2⟩ := hop
      exact ⟨by omega, by omega⟩
    obtain ⟨_, h2⟩ := (Set.ext_iff.mp htiles.union _).mp ⟨_, hp, hlast⟩
    omega
  have hsge : ((dataWrs x.posts a.r).get ⟨k, hk'⟩).num_sge ≠ 0 := by
    have : ((dataWrs x.posts a.r).get ⟨k, hk'⟩).num_sge = 1 := of_decide_eq_true hone
    omega
  exact ⟨post, hpost, _, _, hwr, hwrites, hend, hsge, hop.1, hop.2⟩

/-- A group that is not reported and whose writes are all placed is delivered. -/
theorem DataGood.delivered_now (h : DataGood sh bs br pre m) {k : Nat}
    (hposted : k < m.world.snd.comm.base.fifoHead) (hopen : .data k ∉ m.world.rcv.reported)
    (hnone : ∀ f ∈ m.wires, f.id ≠ k) (hs : Sendable sh m.world k) : m.Delivered k m.dst := by
  have hagree := agreement_of_good h.world
  intro r e hentry
  obtain ⟨group, hgroup, he⟩ := hentry
  obtain ⟨group', hgroup', hfull⟩ := hagree.full k hposted
  rw [hgroup] at hgroup'
  obtain rfl := Option.some.inj hgroup'
  obtain ⟨a, ha, hid, hr⟩ := hfull r (List.getElem?_eq_some_iff.mp he).1
  have hwaits : m.world.Waits k r e := ⟨⟨group, hgroup, he⟩, hopen⟩
  refine ⟨a, ha, hid, hr, fun o ho => ?_⟩
  split
  · rename_i hlt
    obtain ⟨x, hx, hxid⟩ : ∃ x ∈ m.world.snd.sent, x.id = k := by
      have hmem : k ∈ m.world.snd.sent.map Sent.id := by
        rw [hagree.once]
        exact List.mem_range.mpr hposted
      exact List.mem_map.mp hmem
    subst hxid
    obtain ⟨group', hgroup', hok⟩ := hagree.writes x hx
    rw [hgroup] at hgroup'
    obtain rfl := Option.some.inj hgroup'
    have hsizes : ∀ b ∈ m.world.snd.log, b.id = x.id → ∀ e', group[b.r]? = some e' →
        sendBytes b.args e' < 2 ^ 31 := fun b hb hbid e' he' =>
      hs.sizes b hb hbid e' ⟨group, hgroup, he'⟩
    have hall := hok.whole hs.id_lt hsizes hs.weights a ha hid e (hr ▸ he)
    obtain ⟨post, hpost, wr, p, hwr, hwrites, hend, hsge, hlo, hhi⟩ := hall.covers hlt
    rcases h.landed x hx post hpost a.r wr hwr with hfly | hl
    · exact absurd rfl (hnone _ hfly)
    · exact hl e (hr ▸ hwaits) a ha hid rfl p hwrites hend hsge o hlo hhi
  · rename_i hge
    rcases h.bytes k r e hwaits o ho with hold | ⟨b, hb, hbid, hbr, hlt, _⟩
    · exact hold
    · rw [h.one_send ha hb (hid.trans hbid.symm) (hr.trans hbr.symm)] at hge
      exact absurd hlt hge

/-! ## Steps that accept no send and open no group -/

variable {t : World} {act : WorldAct}

theorem newlyDone_append {s t : RecvState} {l : List Cause} (h : t.reported = s.reported ++ l) :
    newlyDone s t = l.filterMap Cause.groupId := by
  unfold newlyDone
  rw [h, List.drop_left]

theorem mem_groupIds {l : List Cause} {k : Nat} :
    k ∈ l.filterMap Cause.groupId ↔ .data k ∈ l := by
  rw [List.mem_filterMap]
  constructor
  · rintro ⟨c, hc, hk⟩
    cases c with
    | data id =>
      obtain rfl : id = k := Option.some.inj hk
      exact hc
    | cts id => cases hk
    | flush n => cases hk
    | speed => cases hk
  · exact fun hk => ⟨_, hk, rfl⟩

theorem World.Quiet.waits {w : World} (h : w.Quiet t) {k r : Nat} {e : NcclIbSendFifo}
    (he : t.Waits k r e) : w.Waits k r e := by
  obtain ⟨⟨group, hgroup, helem⟩, hopen⟩ := he
  obtain ⟨l, hl⟩ := h.rcvReported
  rw [h.groups] at hgroup
  rw [hl] at hopen
  exact ⟨⟨group, hgroup, helem⟩, fun hmem => hopen (List.mem_append_left _ hmem)⟩

/-- A completion that no write waits for is not the completion of one. -/
theorem placed_not {c : Cqe} (h : m.placed c = true) {f : Flight} (hf : f ∈ m.wires)
    (hcause : c.cause = .data f.id) : c.qp ≠ f.qp := by
  intro hqp
  have hno := List.all_eq_true.mp h f hf
  simp [hcause, hqp] at hno

/-- The completions of the writes on their way wait, when the provider is ready. -/
theorem DataGood.still_waits (h : DataGood sh bs br pre m) (htakes : m.world.TakesFirst t act)
    (hready : m.ready act = true) {f : Flight} (hf : f ∈ m.wires) :
    (∃ c ∈ t.snd.sq, c.cause = .data f.id ∧ c.qp = f.qp) ∧
      ∃ c ∈ t.rcv.data, c.cause = .data f.id ∧ c.qp = f.qp := by
  constructor
  · obtain ⟨c, hc, hcause, hqp⟩ := h.sq f hf
    rcases htakes.sq c hc with hc | ⟨q, rest, rfl, hpop⟩
    · exact ⟨c, hc, hcause, hqp⟩
    · unfold DataWorld.ready at hready
      simp only [hpop] at hready
      exact absurd hqp (placed_not hready hf hcause)
  · obtain ⟨c, hc, hcause, hqp⟩ := h.data f hf
    rcases htakes.data c hc with hc | ⟨q, rest, rfl, hpop⟩
    · exact ⟨c, hc, hcause, hqp⟩
    · unfold DataWorld.ready at hready
      simp only [hpop] at hready
      exact absurd hqp (placed_not hready hf hcause)

theorem DataGood.quiet (h : DataGood sh bs br pre m) (hgood : WorldGood sh bs br pre t)
    (hq : m.world.Quiet t) (htakes : m.world.TakesFirst t act) (hready : m.ready act = true) :
    DataGood sh bs br pre { m with
      world := t
      taken := m.taken ++ (newlyDone m.world.rcv t.rcv).map (fun k => (k, m.dst)) } := by
  obtain ⟨l, hl⟩ := hq.rcvReported
  obtain ⟨ls, hls⟩ := hq.sndReported
  have hnew := newlyDone_append hl
  have hentry : ∀ k r e, t.Entry k r e ↔ m.world.Entry k r e := fun k r e => by
    unfold World.Entry
    rw [hq.groups]
  have hsendable : ∀ k, Sendable sh t k → Sendable sh m.world k := fun k hs =>
    ⟨hs.id_lt, fun a ha hid e he => hs.sizes a (hq.log ▸ ha) hid e ((hentry ..).mpr he),
      fun a ha => hs.weights a (hq.log ▸ ha)⟩
  have hdelivered : ∀ k mem taken, m.Delivered k mem →
      ({ m with world := t, taken } : DataWorld).Delivered k mem := by
    intro k mem taken hd r e he
    obtain ⟨a, ha, hrest⟩ := hd r e ((hentry ..).mp he)
    exact ⟨a, hq.log.symm ▸ ha, hrest⟩
  exact
    { world := hgood
      flights := fun f hf => by
        show ∃ x ∈ t.snd.sent, _
        rw [hq.sent]
        exact h.flights f hf
      extra := fun x hx p hp j wr hwr group hgroup => by
        rw [hq.records]
        exact h.extra x (hq.sent ▸ hx) p hp j wr hwr group (hq.groups ▸ hgroup)
      sq := fun f hf => (h.still_waits htakes hready hf).1
      data := fun f hf => (h.still_waits htakes hready hf).2
      source := fun a ha hopen =>
        h.source a (hq.log ▸ ha) (fun hmem => hopen (hls ▸ List.mem_append_left _ hmem))
      size_le := fun k r e he => h.size_le k r e (hq.waits he)
      apart := fun k r e k' r' e' he he' => h.apart k r e k' r' e' (hq.waits he) (hq.waits he')
      records := fun k r e he => by
        rw [hq.records]
        exact h.records k r e (hq.waits he)
      bytes := fun k r e he o ho => by
        rcases h.bytes k r e (hq.waits he) o ho with hb | ⟨a, ha, hrest⟩
        · exact .inl hb
        · exact .inr ⟨a, hq.log.symm ▸ ha, hrest⟩
      landed := fun x hx p hp j wr hwr => by
        rcases h.landed x (hq.sent ▸ hx) p hp j wr hwr with hfly | hlands
        · exact .inl hfly
        · exact .inr (fun e he a ha => hlands e (hq.waits he) a (hq.log ▸ ha))
      taken := fun k => by
        rw [hl, List.mem_append, List.map_append, List.mem_append, h.taken k, List.map_map, hnew,
          ← mem_groupIds]
        simp
      delivered := fun x hx hs => by
        rcases List.mem_append.mp hx with hx | hx
        · exact hdelivered _ _ _ (h.delivered x hx (hsendable _ hs))
        · obtain ⟨k, hk, rfl⟩ := List.mem_map.mp hx
          rw [hnew] at hk
          have hrep : .data k ∈ t.rcv.reported := hl ▸ List.mem_append_right _ (mem_groupIds.mp hk)
          have hnodup := hgood.recv.reported_nodup
          rw [hl] at hnodup
          refine hdelivered _ _ _ (h.delivered_now ?_ ?_ ?_ (hsendable _ hs))
          · -- The sender has posted what the receiver reports.
            have hlt := hgood.reported_posted hrep
            have hmem : k ∈ t.snd.sent.map Sent.id := by
              rw [(agreement_of_good hgood).once]
              exact List.mem_range.mpr hlt
            rw [hq.sent, (agreement_of_good h.world).once] at hmem
            exact List.mem_range.mp hmem
          · exact fun hold => (List.nodup_append.mp hnodup).2.2 _ hold _ (mem_groupIds.mp hk) rfl
          · rintro f hf rfl
            obtain ⟨c, hc, hcause, _⟩ := (h.still_waits htakes hready hf).2
            have hpend : c ∈ t.rcv.pend :=
              List.mem_append_left _ (List.mem_append_left _ (List.mem_append_left _ hc))
            have hzero := (hgood.recv.reported _ hrep).2.2 c.dev
            have hpos : 0 < t.rcv.pend.countP (causedBy (.data f.id) c.dev) :=
              List.countP_pos_iff.mpr ⟨c, hpend, causedBy_iff.mpr ⟨hcause, rfl⟩⟩
            omega }

/-! ## A send is accepted -/

theorem newlyDone_same {s t : RecvState} (h : t.reported = s.reported) : newlyDone s t = [] :=
  newlyDone_append (l := []) (by rw [h, List.append_nil])

theorem DataGood.sent_lt (h : DataGood sh bs br pre m) {x : Sent} (hx : x ∈ m.world.snd.sent) :
    x.id < m.world.snd.comm.base.fifoHead := by
  have hmem : x.id ∈ m.world.snd.sent.map Sent.id := List.mem_map_of_mem hx
  rw [(agreement_of_good h.world).once] at hmem
  exact List.mem_range.mp hmem

theorem DataGood.accepts (h : DataGood sh bs br pre m) (hgood : WorldGood sh bs br pre t)
    {args : IsendArgs} {posts : List SendPost} (ht : m.world.AcceptsSend t args posts) :
    DataGood sh bs br pre { m with
      world := t
      wires := m.wires ++ posts.flatMap (flightsOf m.world.snd.comm.base.fifoHead)
      sent := Function.update m.sent m.world.snd.nextSerial
        (fun o => m.src (cell addresses args.data o)) } := by
  obtain ⟨r, weights, hlog⟩ := ht.log
  have hold : ∀ a ∈ m.world.snd.log, a ∈ t.snd.log := fun a ha => by
    rw [hlog]
    exact List.mem_append_left _ ha
  have hsame : ∀ a ∈ m.world.snd.log, Function.update m.sent m.world.snd.nextSerial
      (fun o => m.src (cell addresses args.data o)) a.serial = m.sent a.serial := fun a ha =>
    Function.update_of_ne (Nat.ne_of_lt (ht.serial a ha)) _ _
  have hentry : ∀ k r e, t.Entry k r e ↔ m.world.Entry k r e := fun k r e => by
    unfold World.Entry
    rw [ht.groups]
  have hwaits : ∀ {k r e}, t.Waits k r e → m.world.Waits k r e := fun he =>
    ⟨(hentry ..).mp he.1, ht.rcvReported ▸ he.2⟩
  have hsents : ∀ x ∈ t.snd.sent, x ∈ m.world.snd.sent ∨
      x.id = m.world.snd.comm.base.fifoHead ∧ x.posts = posts := by
    intro x hx
    rcases ht.sent with ⟨_, hsent⟩ | ⟨owners, hsent⟩
    · exact .inl (hsent ▸ hx)
    · rw [hsent] at hx
      rcases List.mem_append.mp hx with hx | hx
      · exact .inl hx
      · rw [List.mem_singleton.mp hx]
        exact .inr ⟨rfl, rfl⟩
  have holdsent : ∀ x ∈ m.world.snd.sent, x ∈ t.snd.sent := by
    intro x hx
    rcases ht.sent with ⟨_, hsent⟩ | ⟨owners, hsent⟩
    · exact hsent.symm ▸ hx
    · rw [hsent]
      exact List.mem_append_left _ hx
  have hnewflight : ∀ f ∈ posts.flatMap (flightsOf m.world.snd.comm.base.fifoHead),
      ∃ p ∈ posts, f.id = m.world.snd.comm.base.fifoHead ∧ f.qp = p.qp ∧
        p.wrs[f.j]? = some f.wr := by
    intro f hf
    obtain ⟨p, hp, hf⟩ := List.mem_flatMap.mp hf
    exact ⟨p, hp, mem_flightsOf.mp hf⟩
  refine
    { world := hgood, flights := ?_, extra := ?_, sq := ?_, data := ?_, source := ?_
      size_le := fun k r e he => h.size_le k r e (hwaits he)
      apart := fun k r e k' r' e' he he' => h.apart k r e k' r' e' (hwaits he) (hwaits he')
      records := fun k r e he => by
        rw [ht.records]
        exact h.records k r e (hwaits he)
      bytes := ?_, landed := ?_
      taken := fun k => by rw [ht.rcvReported]; exact h.taken k
      delivered := ?_ }
  · intro f hf
    rcases List.mem_append.mp hf with hf | hf
    · obtain ⟨x, hx, hrest⟩ := h.flights f hf
      exact ⟨x, holdsent x hx, hrest⟩
    · obtain ⟨p, hp, hid, hqp, hwr⟩ := hnewflight f hf
      rcases ht.sent with ⟨hnil, _⟩ | ⟨owners, hsent⟩
      · rw [hnil] at hp
        cases hp
      · exact ⟨_, hsent.symm ▸ List.mem_append_right _ (List.mem_singleton_self _), hid.symm, p, hp,
          hqp.symm, hwr⟩
  · intro x hx p hp j wr hwr group hgroup hj
    rw [ht.records]
    have hgroup : m.world.groups[x.id]? = some group := ht.groups ▸ hgroup
    rcases hsents x hx with hx | ⟨hid, hposts⟩
    · exact h.extra x hx p hp j wr hwr group hgroup hj
    · exact ht.extra p (hposts ▸ hp) j wr hwr group (hid ▸ hgroup) hj
  · intro f hf
    rcases List.mem_append.mp hf with hf | hf
    · obtain ⟨c, hc, hrest⟩ := h.sq f hf
      exact ⟨c, ht.sq c hc, hrest⟩
    · obtain ⟨p, hp, hid, hqp, _⟩ := hnewflight f hf
      rw [hid, hqp]
      exact (ht.completions p hp).1
  · intro f hf
    rcases List.mem_append.mp hf with hf | hf
    · obtain ⟨c, hc, hrest⟩ := h.data f hf
      exact ⟨c, ht.data c hc, hrest⟩
    · obtain ⟨p, hp, hid, hqp, _⟩ := hnewflight f hf
      rw [hid, hqp]
      exact (ht.completions p hp).2
  · intro a ha hopen o ho
    have ha : a ∈ t.snd.log := ha
    rw [hlog] at ha
    rcases List.mem_append.mp ha with ha | ha
    · have hopen : a.serial ∉ m.world.snd.reported := ht.sndReported ▸ hopen
      exact (h.source a ha hopen o ho).trans (congrFun (hsame a ha).symm o)
    · rw [List.mem_singleton.mp ha]
      show _ = Function.update m.sent m.world.snd.nextSerial _ m.world.snd.nextSerial o
      rw [Function.update_self]
  · intro k r e he o ho
    rcases h.bytes k r e (hwaits he) o ho with hb | ⟨a, ha, hid, hr, hlt, hb⟩
    · exact .inl hb
    · exact .inr ⟨a, hold a ha, hid, hr, hlt, hb.trans (congrFun (hsame a ha).symm o)⟩
  · intro x hx p hp j wr hwr
    rcases hsents x hx with hx | ⟨hid, hposts⟩
    · rcases h.landed x hx p hp j wr hwr with hfly | hlands
      · exact .inl (List.mem_append_left _ hfly)
      · refine .inr (fun e he a ha hid hr piece hwrites hend hsge o hlo hhi => ?_)
        have ha : a ∈ t.snd.log := ha
        rw [hlog] at ha
        rcases List.mem_append.mp ha with ha | ha
        · exact (hlands e (hwaits he) a ha hid hr piece hwrites hend hsge o hlo hhi).trans
            (congrFun (hsame a ha).symm o)
        · -- The new send belongs to a group that was not posted.
          have hlt := h.sent_lt hx
          rw [List.mem_singleton.mp ha] at hid
          exact absurd hid.symm (Nat.ne_of_lt hlt)
    · left
      refine List.mem_append_right _ (List.mem_flatMap.mpr ⟨p, hposts ▸ hp, ?_⟩)
      exact mem_flightsOf.mpr ⟨hid, rfl, hwr⟩
  · intro x hx hs r e he
    obtain ⟨a, ha, hid, hr, hbytes⟩ := h.delivered x hx ⟨hs.id_lt,
      fun a ha hid e he => hs.sizes a (hold a ha) hid e ((hentry ..).mpr he),
      fun a ha => hs.weights a (hold a ha)⟩ r e ((hentry ..).mp he)
    refine ⟨a, hold a ha, hid, hr, fun o ho => ?_⟩
    simp only [hsame a ha]
    exact hbytes o ho

/-- A call that is not accepted only writes to the history of the next serial. -/
theorem DataGood.unsent (h : DataGood sh bs br pre m) (bytes : Nat → UInt8) :
    DataGood sh bs br pre { m with
      sent := Function.update m.sent m.world.snd.nextSerial bytes } := by
  have hsame : ∀ a ∈ m.world.snd.log,
      Function.update m.sent m.world.snd.nextSerial bytes a.serial = m.sent a.serial := fun a ha =>
    Function.update_of_ne (Nat.ne_of_lt (h.world.soFar.2.history.serial_lt a ha)) _ _
  refine
    { h with
      source := fun a ha hopen o ho => ?_, bytes := fun k r e he o ho => ?_
      landed := fun x hx p hp j wr hwr => ?_, delivered := fun x hx hs r e he => ?_ }
  · exact (h.source a ha hopen o ho).trans (congrFun (hsame a ha).symm o)
  · rcases h.bytes k r e he o ho with hb | ⟨a, ha, hid, hr, hlt, hb⟩
    · exact .inl hb
    · exact .inr ⟨a, ha, hid, hr, hlt, hb.trans (congrFun (hsame a ha).symm o)⟩
  · rcases h.landed x hx p hp j wr hwr with hfly | hlands
    · exact .inl hfly
    · refine .inr (fun e he a ha hid hr piece hwrites hend hsge o hlo hhi => ?_)
      exact (hlands e he a ha hid hr piece hwrites hend hsge o hlo hhi).trans
        (congrFun (hsame a ha).symm o)
  · obtain ⟨a, ha, hid, hr, hbytes⟩ := h.delivered x hx hs r e he
    refine ⟨a, ha, hid, hr, fun o ho => ?_⟩
    simp only [hsame a ha]
    exact hbytes o ho

/-! ## A group is opened -/

/-- What the next group writes to its history does not touch the groups so far. -/
theorem DataGood.opened_same (h : DataGood sh bs br pre m) (mem : Nat → UInt8) {k r : Nat}
    {e : NcclIbSendFifo} (he : m.world.Entry k r e) :
    Function.update m.opened m.world.rcv.comm.base.fifoHead mem k = m.opened k := by
  obtain ⟨group, hgroup, _⟩ := he
  have hlt := (List.getElem?_eq_some_iff.mp hgroup).1
  rw [h.world.length] at hlt
  exact Function.update_of_ne (Nat.ne_of_lt hlt) _ _

theorem DataGood.unopened (h : DataGood sh bs br pre m) (mem : Nat → UInt8) :
    DataGood sh bs br pre { m with
      opened := Function.update m.opened m.world.rcv.comm.base.fifoHead mem } := by
  refine { h with
    bytes := fun k r e he o ho => ?_, delivered := fun x hx hs r e he => ?_ }
  · rcases h.bytes k r e he o ho with hb | hb
    · exact .inl (hb.trans (congrFun (h.opened_same mem he.1).symm _))
    · exact .inr hb
  · obtain ⟨a, ha, hid, hr, hbytes⟩ := h.delivered x hx hs r e he
    refine ⟨a, ha, hid, hr, fun o ho => ?_⟩
    rw [hbytes o ho]
    show _ = if _ then _ else Function.update m.opened m.world.rcv.comm.base.fifoHead mem x.1 _
    rw [h.opened_same mem he]

section
variable {w : World} {bufs : List RecvBuffer}

/-- Entry `r` is the one that the new group has for buffer `r`. -/
def NewEntry (w : World) (bufs : List RecvBuffer) (k r : Nat) (e : NcclIbSendFifo) : Prop :=
  k = w.groups.length ∧ ∃ b, bufs[r]? = some b ∧ e.buffer = ⟨b.data, b.size⟩

theorem World.OpensGroup.old_group (ht : w.OpensGroup t bufs) {k : Nat} (hk : k < w.groups.length) :
    t.groups[k]? = w.groups[k]? := by
  obtain ⟨group, hgroups, _⟩ := ht.groups
  rw [hgroups, List.getElem?_append_left hk]

/-- The entries are those of before and those of the new group. -/
theorem World.OpensGroup.entry (ht : w.OpensGroup t bufs) {k r : Nat} {e : NcclIbSendFifo}
    (he : t.Entry k r e) : w.Entry k r e ∨ NewEntry w bufs k r e := by
  obtain ⟨group, hgroups, hnew⟩ := ht.groups
  obtain ⟨g, hg, he⟩ := he
  by_cases hk : k < w.groups.length
  · rw [ht.old_group hk] at hg
    exact .inl ⟨g, hg, he⟩
  · rw [hgroups, List.getElem?_append_right (Nat.le_of_not_lt hk)] at hg
    obtain ⟨hlen, hgroup⟩ := List.getElem?_eq_some_iff.mp hg
    rw [List.length_singleton] at hlen
    have hzero : k - w.groups.length = 0 := by omega
    simp only [hzero, List.getElem_cons_zero] at hgroup
    subst hgroup
    obtain ⟨b, hb, haddr, hsize⟩ := hnew r e he
    refine .inr ⟨by omega, b, hb, ?_⟩
    unfold NcclIbSendFifo.buffer
    rw [haddr, hsize]

theorem World.OpensGroup.waits (ht : w.OpensGroup t bufs) {k r : Nat} {e : NcclIbSendFifo}
    (he : t.Waits k r e) : w.Waits k r e ∨ NewEntry w bufs k r e :=
  (ht.entry he.1).imp_left fun hold => ⟨hold, ht.reported ▸ he.2⟩

theorem World.OpensGroup.old_entry (ht : w.OpensGroup t bufs) {k r : Nat} {e : NcclIbSendFifo}
    (he : w.Entry k r e) : t.Entry k r e := by
  obtain ⟨g, hg, he⟩ := he
  refine ⟨g, ?_, he⟩
  rw [ht.old_group (List.getElem?_eq_some_iff.mp hg).1]
  exact hg

/-- The new buffers are apart from those that wait and from each other. -/
theorem DataGood.opens_apart (h : DataGood sh bs br pre m) (ht : m.world.OpensGroup t bufs)
    (hbufs : Buffers m bufs) {k r k' r' : Nat} {e e' : NcclIbSendFifo} (he : t.Waits k r e)
    (he' : t.Waits k' r' e') (hne : (k, r) ≠ (k', r')) : Apart addresses e.buffer e'.buffer := by
  rcases ht.waits he with hold | ⟨hk, b, hb, hbuf⟩ <;>
    rcases ht.waits he' with hold' | ⟨hk', b', hb', hbuf'⟩
  · exact h.apart k r e k' r' e' hold hold' hne
  · rw [hbuf']
    exact hbufs.waiting b' (List.mem_of_getElem? hb') k r e hold
  · rw [hbuf]
    exact (hbufs.waiting b (List.mem_of_getElem? hb) k' r' e' hold').symm
  · rw [hbuf, hbuf']
    have hpair := List.pairwise_iff_getElem.mp hbufs.each_other
    obtain ⟨hr, rfl⟩ := List.getElem?_eq_some_iff.mp hb
    obtain ⟨hr', rfl⟩ := List.getElem?_eq_some_iff.mp hb'
    rcases Nat.lt_trichotomy r r' with hlt | heq | hgt
    · exact hpair r r' hr hr' hlt
    · exact absurd (by rw [hk, hk', heq]) hne
    · exact (hpair r' r hr' hr hgt).symm

/-- The sends that are posted are of groups that are open. -/
theorem DataGood.sent_open (h : DataGood sh bs br pre m) {x : Sent} (hx : x ∈ m.world.snd.sent) :
    x.id < m.world.groups.length := by
  have h1 := h.sent_lt hx
  have h2 := h.world.recv.peer
  rw [h.world.peer] at h2
  rw [h.world.length]
  omega

end

theorem DataGood.opens (h : DataGood sh bs br pre m) (hgood : WorldGood sh bs br pre t)
    {bufs : List RecvBuffer} (ht : m.world.OpensGroup t bufs) (hbufs : Buffers m bufs) :
    DataGood sh bs br pre { m with
      world := t, opened := Function.update m.opened m.world.rcv.comm.base.fifoHead m.dst } := by
  have hfifo := ht.fifoHead
  refine
    { world := hgood
      flights := fun f hf => by
        show ∃ x ∈ t.snd.sent, _
        rw [ht.snd]
        exact h.flights f hf
      extra := ?_
      sq := fun f hf => by
        show ∃ c ∈ t.snd.sq, _
        rw [ht.snd]
        exact h.sq f hf
      data := fun f hf => by
        show ∃ c ∈ t.rcv.data, _
        rw [ht.data]
        exact h.data f hf
      source := fun a ha hopen => by
        have ha : a ∈ t.snd.log := ha
        rw [ht.snd] at ha hopen
        exact h.source a ha hopen
      size_le := ?_
      apart := fun _ _ _ _ _ _ he he' hne => h.opens_apart ht hbufs he he' hne
      records := ?_, bytes := ?_, landed := ?_
      taken := fun k => by rw [ht.reported]; exact h.taken k
      delivered := ?_ }
  · intro x hx p hp j wr hwr g hg
    have hx : x ∈ t.snd.sent := hx
    rw [ht.snd] at hx ⊢
    have hg : t.groups[x.id]? = some g := hg
    rw [ht.old_group (h.sent_open hx)] at hg
    exact h.extra x hx p hp j wr hwr g hg
  · intro k r e he
    rcases ht.waits he with hold | ⟨_, b, hb, hbuf⟩
    · exact h.size_le k r e hold
    · have hsize : e.size = b.size := congrArg Buffer.size hbuf
      rw [hsize]
      exact hbufs.size_le b (List.mem_of_getElem? hb)
  · intro k r e he
    rw [ht.snd]
    rcases ht.waits he with hold | ⟨_, b, hb, hbuf⟩
    · exact h.records k r e hold
    · rw [hbuf]
      exact hbufs.records b (List.mem_of_getElem? hb)
  · intro k r e he o ho
    rcases ht.waits he with hold | ⟨hk, _⟩
    · rcases h.bytes k r e hold o ho with hb | ⟨a, ha, hrest⟩
      · exact .inl (hb.trans (congrFun (h.opened_same m.dst hold.1).symm _))
      · refine .inr ⟨a, ?_, hrest⟩
        rw [ht.snd]
        exact ha
    · left
      rw [hk, hfifo]
      exact (congrFun (Function.update_self _ _ _) _).symm
  · intro x hx p hp j wr hwr
    have hx : x ∈ t.snd.sent := hx
    rw [ht.snd] at hx
    rcases h.landed x hx p hp j wr hwr with hfly | hlands
    · exact .inl hfly
    · refine .inr (fun e he a ha => ?_)
      have ha : a ∈ t.snd.log := ha
      rw [ht.snd] at ha
      rcases ht.waits he with hold | ⟨hk, _⟩
      · exact hlands e hold a ha
      · exact absurd hk (Nat.ne_of_lt (h.sent_open hx))
  · intro x hx hs r e he
    have hrep : .data x.1 ∈ m.world.rcv.reported := (h.taken _).mpr (List.mem_map_of_mem hx)
    have hlen : x.1 < m.world.groups.length := by
      have h1 := h.world.reported_posted hrep
      have h2 := h.world.recv.peer
      rw [h.world.peer] at h2
      rw [h.world.length]
      omega
    have hold : m.world.Entry x.1 r e := by
      rcases ht.entry he with hold | ⟨hk, _⟩
      · exact hold
      · exact absurd hk (Nat.ne_of_lt hlen)
    obtain ⟨a, ha, hid, hr, hbytes⟩ := h.delivered x hx ⟨hs.id_lt,
      fun a ha hid e he => hs.sizes a (ht.snd.symm ▸ ha) hid e (ht.old_entry he),
      fun a ha => hs.weights a (ht.snd.symm ▸ ha)⟩ r e hold
    refine ⟨a, ht.snd.symm ▸ ha, hid, hr, fun o ho => ?_⟩
    rw [hbytes o ho]
    show _ = if _ then _ else Function.update m.opened m.world.rcv.comm.base.fifoHead m.dst x.1 _
    rw [h.opened_same m.dst hold]

/-! ## Every step -/

theorem afterWorld_quiet (t : World) (hs : ∀ env a, act ≠ .send (.isend env a))
    (hr : ∀ env bufs, act ≠ .recv (.irecv env bufs)) : m.afterWorld act t = { m with
      world := t
      taken := m.taken ++ (newlyDone m.world.rcv t.rcv).map (fun k => (k, m.dst)) } := by
  cases act with
  | send act =>
    cases act with
    | isend env a => exact absurd rfl (hs env a)
    | _ => rfl
  | recv act =>
    cases act with
    | irecv env bufs => exact absurd rfl (hr env bufs)
    | _ => rfl
  | ctsRead n => rfl
  | ctsWrite n => rfl

theorem DataGood.isend (h : DataGood sh bs br pre m) {env : NetEnv} {a : IsendArgs}
    (hnext : m.world.next (.send (.isend env a)) = some t) (hwin : t.InWindow) :
    DataGood sh bs br pre (m.afterWorld (.send (.isend env a)) t) := by
  have hgood := world_step h.world hnext hwin
  rcases world_accepts h.world hnext hwin with ⟨rfl, hposts⟩ | ht
  · unfold DataWorld.afterWorld
    simp only [hposts, newlyDone_same rfl, List.flatMap_nil, List.map_nil, List.append_nil]
    exact h.unsent _
  · unfold DataWorld.afterWorld
    simp only [newlyDone_same ht.rcvReported, List.map_nil, List.append_nil]
    exact h.accepts hgood ht

theorem DataGood.irecv (h : DataGood sh bs br pre m) {env : NetEnv} {bufs : List RecvBuffer}
    (hnext : m.world.next (.recv (.irecv env bufs)) = some t) (hwin : t.InWindow)
    (hbufs : Buffers m bufs) :
    DataGood sh bs br pre (m.afterWorld (.recv (.irecv env bufs)) t) := by
  have hgood := world_step h.world hnext hwin
  rcases world_opens h.world hnext with rfl | ht
  · unfold DataWorld.afterWorld
    simp only [newlyDone_same rfl, List.map_nil, List.append_nil]
    exact h.unopened _
  · unfold DataWorld.afterWorld
    simp only [newlyDone_same ht.reported, List.map_nil, List.append_nil]
    exact h.opens hgood ht hbufs

theorem DataGood.step (h : DataGood sh bs br pre m) {act : DataAct} {t : DataWorld}
    (hp : Promise act m) (hnext : m.next act = some t) (hwin : t.world.InWindow) :
    DataGood sh bs br pre t := by
  cases act with
  | world act =>
    simp only [DataWorld.next] at hnext
    split at hnext
    · cases hnext
    rename_i u hu
    split at hnext
    · rename_i hready
      obtain rfl := Option.some.inj hnext
      have hworld : (m.afterWorld act u).world = u := by
        unfold DataWorld.afterWorld
        simp only
        split <;> rfl
      rw [hworld] at hwin
      by_cases hs : ∃ env a, act = .send (.isend env a)
      · obtain ⟨env, a, rfl⟩ := hs
        exact h.isend hu hwin
      by_cases hr : ∃ env bufs, act = .recv (.irecv env bufs)
      · obtain ⟨env, bufs, rfl⟩ := hr
        exact h.irecv hu hwin hp
      have hs' : ∀ env a, act ≠ .send (.isend env a) := fun env a he => hs ⟨env, a, he⟩
      have hr' : ∀ env bufs, act ≠ .recv (.irecv env bufs) := fun env bufs he => hr ⟨env, bufs, he⟩
      obtain ⟨hq, htakes⟩ := world_quiet hs' hr' hu
      rw [afterWorld_quiet u hs' hr']
      exact h.quiet (world_step h.world hu hwin) hq htakes hready
    · cases hnext
  | place n again =>
    simp only [DataWorld.next] at hnext
    split at hnext
    · cases hnext
    · rename_i f hf
      obtain rfl := Option.some.inj hnext
      exact h.place hf again
  | sndStore mem =>
    obtain rfl := Option.some.inj hnext
    exact h.sndStore hp
  | rcvStore mem =>
    obtain rfl := Option.some.inj hnext
    exact h.rcvStore hp

/-- Every reachable state of a connection with its memories is good. -/
theorem data_reachable (h : Reachable (dataSystem sh pre) m) :
    ∃ bs br, DataGood sh bs br pre m :=
  h.invariant (P := fun m => ∃ bs br, DataGood sh bs br pre m)
    (fun m hinit => ⟨_, _, data_init hinit⟩)
    (fun m t _ hgood hstep => by
      obtain ⟨bs, br, hgood⟩ := hgood
      obtain ⟨act, hp, hnext, hwin⟩ := hstep
      exact ⟨bs, br, hgood.step hp hnext hwin⟩)

end

end net_ib.p2p
