-- The invariant of a connection with its memories. A write that is on its way has its
-- completions in front of it, its source still holds the bytes of the send, and it goes
-- to a buffer that waits for it. Every byte of such a buffer is the old one or the one
-- that was sent.
import MrcPlugin.Agreement
import MrcPlugin.DeliverySteps

namespace net_ib.p2p

open queues runs memory cuts

/-! ## The invariant -/

/-- Work request `j` of group `k` is placed: the piece that it writes is in its buffer. -/
def DataWorld.Landed (m : DataWorld) (k j : Nat) (wr : IbvSendWr) : Prop :=
  ∀ e, m.world.Waits k j e → ∀ a ∈ m.world.snd.log, a.id = k → a.r = j →
    ∀ p : Piece, Writes a.args.data e.addr wr p → p.start + p.len ≤ sendBytes a.args e →
      wr.num_sge ≠ 0 → ∀ o, p.start ≤ o → o < p.start + p.len →
        m.dst (cell addresses e.addr o) = m.sent a.serial o

/-- A byte of a buffer that waits: what was there before, or what was sent. -/
def DataWorld.ByteOk (m : DataWorld) (k r : Nat) (e : NcclIbSendFifo) (o : Nat) : Prop :=
  m.dst (cell addresses e.addr o) = m.opened k (cell addresses e.addr o) ∨
    ∃ a ∈ m.world.snd.log, a.id = k ∧ a.r = r ∧ o < sendBytes a.args e ∧
      m.dst (cell addresses e.addr o) = m.sent a.serial o

structure DataGood (sh : Shape) (bs br : NcclIbNetCommBase) (pre : Bool) (m : DataWorld) :
    Prop where
  world : WorldGood sh bs br pre m.world
  flights : ∀ f ∈ m.wires, ∃ x ∈ m.world.snd.sent, x.id = f.id ∧
    ∃ p ∈ x.posts, p.qp = f.qp ∧ p.wrs[f.j]? = some f.wr
  extra : ∀ x ∈ m.world.snd.sent, ∀ p ∈ x.posts, ∀ j wr, p.wrs[j]? = some wr →
    ∀ group, m.world.groups[x.id]? = some group → group.length ≤ j →
      IntoRecords m.world.snd.comm.recordsAddr wr
  /-- The completion of a write on its way is not there yet, on either side. -/
  sq : ∀ f ∈ m.wires, ∃ c ∈ m.world.snd.sq, c.cause = .data f.id ∧ c.qp = f.qp
  data : ∀ f ∈ m.wires, ∃ c ∈ m.world.rcv.data, c.cause = .data f.id ∧ c.qp = f.qp
  source : ∀ a ∈ m.world.snd.log, a.serial ∉ m.world.snd.reported → ∀ o < a.args.size,
    m.src (cell addresses a.args.data o) = m.sent a.serial o
  size_le : ∀ k r e, m.world.Waits k r e → e.size ≤ addresses
  apart : ∀ k r e k' r' e', m.world.Waits k r e → m.world.Waits k' r' e' → (k, r) ≠ (k', r') →
    Apart addresses e.buffer e'.buffer
  records : ∀ k r e, m.world.Waits k r e →
    Apart addresses (recordsAt m.world.snd.comm.recordsAddr) e.buffer
  bytes : ∀ k r e, m.world.Waits k r e → ∀ o < e.size, m.ByteOk k r e o
  landed : ∀ x ∈ m.world.snd.sent, ∀ p ∈ x.posts, ∀ j wr, p.wrs[j]? = some wr →
    ⟨x.id, p.qp, j, wr⟩ ∈ m.wires ∨ m.Landed x.id j wr
  taken : ∀ k, .data k ∈ m.world.rcv.reported ↔ k ∈ m.taken.map Prod.fst
  delivered : ∀ x ∈ m.taken, Sendable sh m.world x.1 → m.Delivered x.1 x.2

section
variable {sh : Shape} {bs br : NcclIbNetCommBase} {pre : Bool} {m : DataWorld}

theorem data_init (h : DataWorld.Init sh pre m) :
    DataGood sh m.world.snd.comm.base m.world.rcv.comm.base pre m := by
  have hgroups : ∀ k r e, ¬ m.world.Entry k r e := by
    rintro k r e ⟨group, hgroup, _⟩
    rw [h.world.groups] at hgroup
    cases hgroup
  have hwires : ∀ f, f ∉ m.wires := fun f => by rw [h.wires]; exact List.not_mem_nil
  have hsent : ∀ x, x ∉ m.world.snd.sent := fun x => by
    rw [h.world.snd.sent]
    exact List.not_mem_nil
  exact
    { world := world_init h.world
      flights := fun f hf => absurd hf (hwires f)
      extra := fun x hx => absurd hx (hsent x)
      sq := fun f hf => absurd hf (hwires f)
      data := fun f hf => absurd hf (hwires f)
      source := fun a ha => by rw [h.world.snd.log] at ha; cases ha
      size_le := fun k r e he => absurd he.1 (hgroups k r e)
      apart := fun k r e k' r' e' he => absurd he.1 (hgroups k r e)
      records := fun k r e he => absurd he.1 (hgroups k r e)
      bytes := fun k r e he => absurd he.1 (hgroups k r e)
      landed := fun x hx => absurd hx (hsent x)
      taken := fun k => by rw [h.world.rcv.reported, h.taken]; simp
      delivered := fun x hx => by rw [h.taken] at hx; cases hx }

/-! ## A write on its way -/

theorem Entry.unique {w : World} {k r : Nat} {e e' : NcclIbSendFifo} (h : w.Entry k r e)
    (h' : w.Entry k r e') : e = e' := by
  obtain ⟨group, hgroup, he⟩ := h
  obtain ⟨group', hgroup', he'⟩ := h'
  rw [hgroup] at hgroup'
  obtain rfl := Option.some.inj hgroup'
  rw [he] at he'
  exact Option.some.inj he'

/-- The receive group of a write is not reported, and its sends are not reported. -/
theorem DataGood.flight_open (h : DataGood sh bs br pre m) {f : Flight} (hf : f ∈ m.wires) :
    .data f.id ∉ m.world.rcv.reported ∧
      ∀ r e, m.world.Entry f.id r e → ∃ a ∈ m.world.snd.log, a.id = f.id ∧ a.r = r ∧
        a.serial ∉ m.world.snd.reported := by
  obtain ⟨hg, hs⟩ := h.world.soFar
  constructor
  · obtain ⟨c, hc, hcause, _⟩ := h.data f hf
    have hpend : c ∈ m.world.rcv.pend :=
      List.mem_append_left _ (List.mem_append_left _ (List.mem_append_left _ hc))
    have hopen := (h.world.recv.pending hpend (by rw [hcause]; rfl)).2.1
    rwa [hcause] at hopen
  · rintro r e ⟨group, hgroup, he⟩
    obtain ⟨c, hc, hcause, _⟩ := h.sq f hf
    have hpend : c ∈ m.world.snd.pend := List.mem_append_left _ (List.mem_append_left _ hc)
    have hr : r < (groupsSoFar m.world.groups f.id).length := by
      rw [extends_groupsSoFar _ _ _ hgroup]
      exact (List.getElem?_eq_some_iff.mp he).1
    obtain ⟨o, ho, hoid, hopen⟩ := hs.good.pend_open c hpend f.id hcause r hr
    obtain ⟨a, ha, haid, har, haser⟩ := hs.history.owner _ _ _ ho
    exact ⟨a, ha, haid.trans hoid, har, haser ▸ hopen⟩

/-- Where a write goes: behind the data it only changes the completion records, and a
data write brings a piece of a send to the buffer that waits for it. -/
inductive FliesTo (m : DataWorld) (f : Flight) : Prop
  | records (hno : ∀ e, ¬ m.world.Entry f.id f.j e)
    (hinto : IntoRecords m.world.snd.comm.recordsAddr f.wr)
  | buffer {e : NcclIbSendFifo} {a : Accept} {p : Piece} (hwaits : m.world.Waits f.id f.j e)
    (ha : a ∈ m.world.snd.log) (hid : a.id = f.id) (hr : a.r = f.j)
    (hopen : a.serial ∉ m.world.snd.reported) (hwrites : Writes a.args.data e.addr f.wr p)
    (hinside : p.start + p.len ≤ sendBytes a.args e)

/-- The piece that a work request of a post writes. -/
theorem WritesInto.piece {x : Sent} {a : Accept} {e : NcclIbSendFifo} (h : WritesInto x a e)
    {post : SendPost} (hpost : post ∈ x.posts) {wr : IbvSendWr} (hwr : post.wrs[a.r]? = some wr) :
    ∃ p, Writes a.args.data e.addr wr p ∧ p.start + p.len ≤ sendBytes a.args e := by
  obtain ⟨ps, hps, hinside⟩ := h
  obtain ⟨k, hk, rfl⟩ := List.mem_iff_getElem.mp hpost
  have hk' : k < ps.length := by
    rw [← hps.length_eq]
    exact hk
  obtain ⟨wr', hwr', hwrites⟩ := hps.get hk hk'
  have hsame : some wr' = some wr := hwr'.symm.trans hwr
  rw [Option.some.inj hsame] at hwrites
  exact ⟨_, hwrites, hinside _ (List.get_mem ps ⟨k, hk'⟩)⟩

theorem DataGood.flies (h : DataGood sh bs br pre m) {f : Flight} (hf : f ∈ m.wires) :
    FliesTo m f := by
  obtain ⟨hnot, hsends⟩ := h.flight_open hf
  obtain ⟨x, hx, hid, p, hp, _, hwr⟩ := h.flights f hf
  obtain ⟨group, hgroup, hok⟩ := (agreement_of_good h.world).writes x hx
  by_cases hlt : f.j < group.length
  · have hentry : m.world.Entry f.id f.j group[f.j] :=
      ⟨group, hid ▸ hgroup, List.getElem?_eq_getElem hlt⟩
    obtain ⟨a, ha, haid, har, hopen⟩ := hsends _ _ hentry
    have helem : group[a.r]? = some group[f.j] := by
      rw [har]
      exact List.getElem?_eq_getElem hlt
    obtain ⟨piece, hwrites, hinside⟩ :=
      (hok.inside a ha (haid.trans hid.symm) _ helem).piece hp (har ▸ hwr)
    exact .buffer ⟨hentry, hnot⟩ ha haid har hopen hwrites hinside
  · refine .records ?_ (h.extra x hx p hp _ _ hwr group hgroup (Nat.le_of_not_lt hlt))
    rintro e ⟨group', hgroup', he⟩
    rw [← hid, hgroup] at hgroup'
    rw [← Option.some.inj hgroup'] at he
    exact hlt (List.getElem?_eq_some_iff.mp he).1

/-! ## A write is placed -/

/-- The memory of the receiver when a write is placed. -/
def DataWorld.placedMem (m : DataWorld) (f : Flight) : Nat → UInt8 :=
  copy addresses m.src m.dst f.wr.sge.addr f.wr.remote_addr (bytesOf f.wr)

theorem addresses_pos : 0 < addresses := by
  unfold addresses
  exact Nat.two_pow_pos 64

/-- A write to the completion records leaves every buffer that is apart from them. -/
theorem IntoRecords.leaves {addr : Nat} {f : Flight} (h : IntoRecords addr f.wr) {b : Buffer}
    (hapart : Apart addresses (recordsAt addr) b) {o : Nat} (ho : o < b.size) :
    m.placedMem f (cell addresses b.addr o) = m.dst (cell addresses b.addr o) := by
  unfold DataWorld.placedMem
  rcases h with hnone | ⟨slot, hslot, htarget, hlen⟩
  · rw [hnone]
    exact copy_of_ne (cell_lt addresses_pos _ _) (fun i hi => absurd hi (Nat.not_lt_zero i))
  · have hmod : f.wr.remote_addr ≡ (recordsAt addr).addr + slot * sizeofCompletionRecord
        [MOD addresses] := by
      rw [htarget]
      exact Nat.mod_modEq _ _
    refine copy_apart addresses_pos hmod ?_ hapart ho
    unfold recordsAt NET_IB_MAX_REQUESTS sizeofCompletionRecord at *
    simp only
    omega

theorem sendBytes_le_size (a : IsendArgs) (e : NcclIbSendFifo) : sendBytes a e ≤ e.size :=
  Nat.min_le_right _ _

theorem bytesOf_le {data addr : Nat} {wr : IbvSendWr} {p : Piece} (h : Writes data addr wr p) :
    bytesOf wr ≤ p.len ∧ (wr.num_sge ≠ 0 → bytesOf wr = p.len) := by
  unfold bytesOf
  split
  · rename_i hnone
    exact ⟨Nat.zero_le _, fun hne => absurd hnone hne⟩
  · exact ⟨Nat.le_of_eq h.length, fun _ => h.length⟩

/-- A data write, seen from the buffer that it goes to. -/
theorem placedMem_inside {f : Flight} {e : NcclIbSendFifo} {a : Accept} {p : Piece}
    (hsize : e.size ≤ addresses) (hwrites : Writes a.args.data e.addr f.wr p)
    (hinside : p.start + p.len ≤ sendBytes a.args e)
    (hsource : ∀ o < a.args.size, m.src (cell addresses a.args.data o) = m.sent a.serial o)
    {o : Nat} (ho : o < e.size) :
    m.placedMem f (cell addresses e.addr o) =
      if p.start ≤ o ∧ o < p.start + bytesOf f.wr then m.sent a.serial o
      else m.dst (cell addresses e.addr o) := by
  obtain ⟨hlen, _⟩ := bytesOf_le hwrites
  have hle := sendBytes_le_size a.args e
  have htarget : f.wr.remote_addr ≡ e.buffer.addr + p.start [MOD addresses] := hwrites.target
  unfold DataWorld.placedMem
  rw [show cell addresses e.addr o = cell addresses e.buffer.addr o from rfl,
    copy_inside (b := e.buffer) hsize htarget (show p.start + bytesOf f.wr ≤ e.size by omega) ho]
  split
  · rename_i hin
    have hcell : cell addresses f.wr.sge.addr (o - p.start) = cell addresses a.args.data o := by
      have hsrc : f.wr.sge.addr ≡ a.args.data + p.start [MOD addresses] := hwrites.source
      rw [cell_congr hsrc, cell_add, Nat.add_sub_cancel' hin.1]
    rw [hcell]
    refine hsource o ?_
    have : sendBytes a.args e ≤ a.args.size := Nat.min_le_left _ _
    omega
  · rfl

/-- A byte of a buffer that waits, after a write is placed: it is the old one, or the
one that was sent. -/
theorem DataGood.place_byte (h : DataGood sh bs br pre m) {f : Flight} (hf : f ∈ m.wires)
    {k r : Nat} {e : NcclIbSendFifo} (he : m.world.Waits k r e) {o : Nat} (ho : o < e.size) :
    m.placedMem f (cell addresses e.addr o) = m.dst (cell addresses e.addr o) ∨
      k = f.id ∧ r = f.j ∧ ∃ a ∈ m.world.snd.log, a.id = k ∧ a.r = r ∧ o < sendBytes a.args e ∧
        m.placedMem f (cell addresses e.addr o) = m.sent a.serial o := by
  cases h.flies hf with
  | records hno hinto => exact .inl (hinto.leaves (h.records k r e he) ho)
  | @buffer e' a p hwaits ha hid hr hopen hwrites hinside =>
    by_cases hsame : k = f.id ∧ r = f.j
    · obtain ⟨rfl, rfl⟩ := hsame
      obtain rfl := Entry.unique he.1 hwaits.1
      rw [placedMem_inside (h.size_le _ _ _ he) hwrites hinside (h.source a ha hopen) ho]
      split
      · rename_i hin
        have hlen := (bytesOf_le hwrites).1
        exact .inr ⟨rfl, rfl, a, ha, hid, hr, by omega, rfl⟩
      · exact .inl rfl
    · left
      have hapart := h.apart _ _ _ _ _ _ hwaits he
        (fun hp => hsame ⟨(Prod.mk.inj hp).1.symm, (Prod.mk.inj hp).2.symm⟩)
      have htarget : f.wr.remote_addr ≡ e'.buffer.addr + p.start [MOD addresses] := hwrites.target
      have hlen := (bytesOf_le hwrites).1
      have hle := sendBytes_le_size a.args e'
      exact copy_apart addresses_pos htarget (show p.start + bytesOf f.wr ≤ e'.size by omega)
        hapart ho

/-- A send of an entry is the only one. -/
theorem DataGood.one_send (h : DataGood sh bs br pre m) {a b : Accept}
    (ha : a ∈ m.world.snd.log) (hb : b ∈ m.world.snd.log) (hid : a.id = b.id) (hr : a.r = b.r) :
    a = b :=
  (agreement_of_good h.world).unique a ha b hb hid hr

/-- What was placed stays placed. -/
theorem DataGood.landed_place (h : DataGood sh bs br pre m) {f : Flight} (hf : f ∈ m.wires)
    (wires : List Flight) {k j : Nat} {wr : IbvSendWr} (hl : m.Landed k j wr) :
    ({ m with dst := m.placedMem f, wires } : DataWorld).Landed k j wr := by
  intro e he a ha hid hr p hwrites hinside hsge o hlo hhi
  have hle := sendBytes_le_size a.args e
  rcases h.place_byte hf he (show o < e.size by omega) with hold | ⟨_, _, b, hb, hbid, hbr, _, hnew⟩
  · exact hold.trans (hl e he a ha hid hr p hwrites hinside hsge o hlo hhi)
  · rw [h.one_send ha hb (hid.trans hbid.symm) (hr.trans hbr.symm)]
    exact hnew

/-- The write itself is placed. -/
theorem DataGood.place_lands (h : DataGood sh bs br pre m) {f : Flight} (hf : f ∈ m.wires)
    (wires : List Flight) :
    ({ m with dst := m.placedMem f, wires } : DataWorld).Landed f.id f.j f.wr := by
  intro e he a ha hid hr p hwrites hinside hsge o hlo hhi
  have hle := sendBytes_le_size a.args e
  obtain ⟨b, hb, hbid, hbr, hopen⟩ := (h.flight_open hf).2 _ _ he.1
  obtain rfl := h.one_send ha hb (hid.trans hbid.symm) (hr.trans hbr.symm)
  show m.placedMem f (cell addresses e.addr o) = m.sent a.serial o
  rw [placedMem_inside (h.size_le _ _ _ he) hwrites hinside (h.source a ha hopen) (by omega),
    (bytesOf_le hwrites).2 hsge, if_pos ⟨hlo, hhi⟩]

/-- A write is placed, and stays on its way or not. -/
theorem DataGood.place (h : DataGood sh bs br pre m) {n : Nat} {f : Flight}
    (hf : m.wires[n]? = some f) (again : Bool) : DataGood sh bs br pre { m with
      dst := m.placedMem f, wires := if again then m.wires else m.wires.eraseIdx n } := by
  have hmem := List.mem_of_getElem? hf
  have hsub : ∀ g ∈ (if again then m.wires else m.wires.eraseIdx n), g ∈ m.wires := by
    intro g hg
    split at hg
    · exact hg
    · exact List.mem_of_mem_eraseIdx hg
  refine
    { h with
      flights := fun g hg => h.flights g (hsub g hg), sq := fun g hg => h.sq g (hsub g hg)
      data := fun g hg => h.data g (hsub g hg), bytes := fun k r e he o ho => ?_
      landed := fun x hx p hp j wr hwr => ?_ }
  · rcases h.place_byte hmem he ho with hold | ⟨_, _, hnew⟩
    · rcases h.bytes k r e he o ho with hb | ⟨a, ha, hid, hr, hlt, hb⟩
      · exact .inl (hold.trans hb)
      · exact .inr ⟨a, ha, hid, hr, hlt, hold.trans hb⟩
    · exact .inr hnew
  · by_cases hthis : (⟨x.id, p.qp, j, wr⟩ : Flight) = f
    · right
      have hlands := h.place_lands hmem (if again then m.wires else m.wires.eraseIdx n)
      rw [← hthis] at hlands ⊢
      exact hlands
    rcases h.landed x hx p hp j wr hwr with hfly | hl
    · left
      split
      · exact hfly
      · obtain ⟨i, hi⟩ := List.mem_iff_getElem?.mp hfly
        refine List.mem_eraseIdx_iff_getElem?.mpr ⟨i, fun he => hthis ?_, hi⟩
        rw [he, hf] at hi
        exact (Option.some.inj hi).symm
    · exact .inr (h.landed_place hmem _ hl)

/-! ## The users store -/

theorem DataGood.sndStore (h : DataGood sh bs br pre m) {mem : Nat → UInt8}
    (hp : Promise (.sndStore mem) m) : DataGood sh bs br pre { m with src := mem } :=
  { h with source := fun a ha hopen o ho => (hp a ha hopen o ho).trans (h.source a ha hopen o ho) }

theorem DataGood.rcvStore (h : DataGood sh bs br pre m) {mem : Nat → UInt8}
    (hp : Promise (.rcvStore mem) m) : DataGood sh bs br pre { m with dst := mem } := by
  refine { h with
    bytes := fun k r e he o ho => ?_, landed := fun x hx p hpost j wr hwr => ?_ }
  · have hkeep := hp k r e he o ho
    rcases h.bytes k r e he o ho with hb | ⟨a, ha, hid, hr, hlt, hb⟩
    · exact .inl (hkeep.trans hb)
    · exact .inr ⟨a, ha, hid, hr, hlt, hkeep.trans hb⟩
  · rcases h.landed x hx p hpost j wr hwr with hfly | hl
    · exact .inl hfly
    · refine .inr (fun e he a ha hid hr piece hwrites hinside hsge o hlo hhi => ?_)
      have hle := sendBytes_le_size a.args e
      exact (hp _ _ e he o (by omega)).trans
        (hl e he a ha hid hr piece hwrites hinside hsge o hlo hhi)

end

end net_ib.p2p
