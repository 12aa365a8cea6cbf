-- The agreement of the two sides of a connection, in every order of their calls and
-- of the messages between them: the sender uses the elements of a receive group
-- for the send group of the same id, and for no other.
import MrcPlugin.WorldGood

namespace net_ib.p2p

open runs

/-! ## What the two sides agree on -/

structure Agreement (sh : Shape) (w : World) : Prop where
  /-- A call that accepts a send finds the elements of the receive group of its
  own id, all of them and no others. -/
  uses : ∀ env a i, (ncclIbIsend env w.snd.comm a).ret = .ok (some i) →
    ∃ group, w.groups[w.snd.comm.base.fifoHead]? = some group ∧
      (w.snd.comm.ctsFifo (slotOf w.snd.comm.base.fifoHead) 0).nreqs = group.length ∧
      ∀ r < group.length,
        group[r]? = some (w.snd.comm.ctsFifo (slotOf w.snd.comm.base.fifoHead) r)
  /-- Each accepted call is in the log once. -/
  calls : w.snd.log.map Accept.serial = List.range w.snd.nextSerial
  /-- A send is matched with an entry of its group that has its tag. -/
  tag : ∀ a ∈ w.snd.log, ∃ group e, w.groups[a.id]? = some group ∧ group[a.r]? = some e ∧
    e.tag = u32 a.args.tag
  /-- No entry is matched twice. -/
  unique : ∀ a ∈ w.snd.log, ∀ b ∈ w.snd.log, a.id = b.id → a.r = b.r → a = b
  /-- Equal tags are served in the order of the calls. -/
  order : ∀ a ∈ w.snd.log, ∀ b ∈ w.snd.log, a.id = b.id → u32 a.args.tag = u32 b.args.tag →
    a.serial < b.serial → a.r < b.r
  /-- A group that is posted has a send for every entry. -/
  full : ∀ k < w.snd.comm.base.fifoHead, ∃ group, w.groups[k]? = some group ∧
    ∀ r < group.length, ∃ a ∈ w.snd.log, a.id = k ∧ a.r = r
  /-- The group that is not posted yet misses one. -/
  missing : ∀ group, w.groups[w.snd.comm.base.fifoHead]? = some group → 0 < group.length →
    ∃ r < group.length, ∀ a ∈ w.snd.log, a.id = w.snd.comm.base.fifoHead → a.r ≠ r
  /-- `fifoHead` counts the posted groups, each posted once. -/
  once : w.snd.sent.map Sent.id = List.range w.snd.comm.base.fifoHead
  /-- The bytes of a send go to the buffer of its entry. -/
  writes : ∀ x ∈ w.snd.sent, ∃ group, w.groups[x.id]? = some group ∧ SentOk sh group w.snd.log x

/-! ## The law -/

section
variable {sh : Shape} {bs br : NcclIbNetCommBase} {pre : Bool} {w : World}

/-- A group that some element of `groupsSoFar` comes from is there. -/
theorem group_there {groups : List (List NcclIbSendFifo)} {k : Nat}
    (h : 0 < (groupsSoFar groups k).length) :
    groups[k]? = some (groupsSoFar groups k) := by
  unfold groupsSoFar at h ⊢
  cases hget : groups[k]? with
  | none =>
    rw [hget] at h
    exact absurd h (by decide)
  | some group => rfl

theorem agreement_of_good (h : WorldGood sh bs br pre w) : Agreement sh w := by
  obtain ⟨hg, hs⟩ := h.soFar
  have hposted : ∀ k < w.snd.comm.base.fifoHead,
      w.groups[k]? = some (groupsSoFar w.groups k) := fun k hk =>
    group_there (hs.good.posted_pos k hk)
  refine
    { uses := ?_, calls := hs.matched.serials, tag := ?_, unique := hs.matched.unique
      order := hs.matched.order, full := ?_, missing := ?_, once := hs.matched.sentIds
      writes := ?_ }
  · intro env a i hret
    have hb := hs.good.plain.same hs.good.same
    rcases isend_cases hb.striped hb.isSome env a with
      ⟨_, _, hnot⟩ | ⟨r, j, hthere, _, _, _, _⟩
    · exact absurd hret (hnot i)
    · obtain ⟨group, hgroup⟩ := h.current_group hthere
      have hsame := extends_groupsSoFar w.groups _ _ hgroup
      have hn := hs.good.cts_nreqs hg hthere
      rw [hsame] at hn
      refine ⟨group, hgroup, hn, fun r hr => ?_⟩
      have helem := hs.good.cts_elem hg (hthere.2 r (hn ▸ hr))
      rwa [hsame] at helem
  · intro a ha
    obtain ⟨e, he, htag⟩ := hs.matched.tag a ha
    have hlt := (List.getElem?_eq_some_iff.mp he).1
    exact ⟨_, e, group_there (Nat.lt_of_le_of_lt (Nat.zero_le _) hlt), he, htag⟩
  · intro k hk
    exact ⟨_, hposted k hk, fun r hr => hs.history.covered k hk r hr⟩
  · intro group hgroup hpos
    by_cases hsome : ∃ a ∈ w.snd.log, a.id = w.snd.comm.base.fifoHead
    · obtain ⟨a, ha, hid⟩ := hsome
      obtain ⟨r, hr, hno⟩ := hs.waiting a ha hid
      rw [hid, extends_groupsSoFar w.groups _ _ hgroup] at hr
      exact ⟨r, hr, fun b hb hbid => hno b hb (hbid.trans hid.symm)⟩
    · exact ⟨0, hpos, fun a ha hid => absurd ⟨a, ha, hid⟩ hsome⟩
  · intro x hx
    have hlt : x.id < w.snd.comm.base.fifoHead := by
      have hmem : x.id ∈ w.snd.sent.map Sent.id := List.mem_map.mpr ⟨x, hx, rfl⟩
      rw [hs.matched.sentIds] at hmem
      exact List.mem_range.mp hmem
    exact ⟨_, hposted _ hlt, hs.matched.sent x hx⟩

end

/-- In every run that stays in the window, the two sides agree. -/
theorem a_send_group_uses_its_own_receive_group (sh : Shape) (pre : Bool) (w : World)
    (h : Reachable (worldSystem sh pre) w) : Agreement sh w := by
  obtain ⟨_, _, hgood⟩ := world_reachable h
  exact agreement_of_good hgood

/-- Two devices on each side, before the first call. -/
def twoWorld : World :=
  { snd := startSend Shape.two, rcv := startRecv Shape.two.swap, cts := [], groups := [] }

theorem init_twoWorld : World.Init Shape.two false twoWorld where
  snd := init_startSend _
  rcv := init_startRecv _
  cts := rfl
  groups := rfl
  split := rfl
  scheme := rfl

/-- A group with tags 5 and 9, and a group with tag 5. Their elements are not written in
the order in which they were read, and the first send has tag 9. -/
def taggedActs : List WorldAct :=
  let buf := fun tag : Nat => ({ data := 1, size := 8, tag, rkeys := fun _ => 1 } : RecvBuffer)
  let isend := fun tag => WorldAct.send (.isend plainEnv (sendOf tag))
  [.recv (.irecv plainEnv [buf 5, buf 9]), .recv (.irecv plainEnv [buf 5]),
    .ctsRead 0, .ctsRead 1, .ctsRead 2, .ctsWrite 1, .ctsWrite 1, .ctsWrite 0,
    isend 9, isend 5, isend 5]

/-- The send with tag 9 takes the second receive of the first group, and the two with
tag 5 take the first receive of each group. -/
theorem sends_find_their_receives_by_tag : ∃ w, twoWorld.run taggedActs = some w ∧
    w.snd.log.map (fun a => (a.id, a.r)) = [(0, 1), (0, 0), (1, 0)] ∧ Agreement Shape.two w := by
  have hsome : (twoWorld.run taggedActs).map
      (fun w => w.snd.log.map (fun a => (a.id, a.r))) = some [(0, 1), (0, 0), (1, 0)] := by
    decide +kernel
  obtain ⟨w, hrun, hlog⟩ := Option.map_eq_some_iff.mp hsome
  exact ⟨w, hrun, hlog, a_send_group_uses_its_own_receive_group _ _ _
    (World.run_reachable (Reachable.init init_twoWorld) hrun)⟩

end net_ib.p2p
