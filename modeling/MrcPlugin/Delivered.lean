-- The bytes of every send arrive. In every run of a connection with its memories, the
-- buffers of a receive that is reported done hold the bytes of the sends that were
-- matched with them, a send that is reported done is in its buffer, and no write of
-- the sender changes anything else.
import MrcPlugin.DeliveryReach

namespace net_ib.p2p

open queues runs memory cuts

/-! ## The laws -/

/-- A receive that is reported done holds the bytes of its sends, and only these are new
in its buffers. -/
theorem a_reported_receive_holds_its_sends (sh : Shape) (pre : Bool) (m : DataWorld)
    (h : Reachable (dataSystem sh pre) m) :
    (∀ k, .data k ∈ m.world.rcv.reported ↔ k ∈ m.taken.map Prod.fst) ∧
      ∀ x ∈ m.taken, Sendable sh m.world x.1 → m.Delivered x.1 x.2 := by
  obtain ⟨_, _, hgood⟩ := data_reachable h
  exact ⟨hgood.taken, hgood.delivered⟩

/-- A send that is reported done is in the buffer of its entry, also when the receiver
has not seen that yet. -/
theorem a_reported_send_is_in_its_buffer (sh : Shape) (pre : Bool) (m : DataWorld)
    (h : Reachable (dataSystem sh pre) m) :
    ∀ a ∈ m.world.snd.log, a.serial ∈ m.world.snd.reported → Sendable sh m.world a.id →
      ∀ e, m.world.Waits a.id a.r e → ∀ o < sendBytes a.args e,
        m.dst (cell addresses e.addr o) = m.sent a.serial o := by
  obtain ⟨_, _, hgood⟩ := data_reachable h
  intro a ha hrep hs e he o ho
  have hposted := hgood.world.soFar.2.matched.reported a ha hrep
  have hnone : ∀ f ∈ m.wires, f.id ≠ a.id := by
    intro f hf hid
    obtain ⟨b, hb, hbid, hbr, hopen⟩ := (hgood.flight_open hf).2 a.r e (hid ▸ he.1)
    rw [hgood.one_send hb ha (hbid.trans hid) hbr] at hopen
    exact hopen hrep
  obtain ⟨b, hb, hbid, hbr, hbytes⟩ := hgood.delivered_now hposted he.2 hnone hs a.r e he.1
  obtain rfl := hgood.one_send hb ha hbid hbr
  rw [hbytes o (Nat.lt_of_lt_of_le ho (sendBytes_le_size _ _)), if_pos ho]

/-- An address that a send may change: one of its bytes in the buffer of its entry, while
the receive waits, or one of the completion records. -/
def DataWorld.MayChange (m : DataWorld) (x : Nat) : Prop :=
  (∃ k r e a o, m.world.Waits k r e ∧ a ∈ m.world.snd.log ∧ a.id = k ∧ a.r = r ∧
    o < sendBytes a.args e ∧ x = cell addresses e.addr o) ∨
  ∃ o < (recordsAt m.world.snd.comm.recordsAddr).size,
    x = cell addresses m.world.snd.comm.recordsAddr o

/-- Whatever the sizes and the weights of the sends are, a write of the sender changes
only what it may change. -/
theorem a_write_stays_in_its_buffer (sh : Shape) (pre : Bool) (m t : DataWorld) (n : Nat)
    (again : Bool) (h : Reachable (dataSystem sh pre) m) (hn : m.next (.place n again) = some t) :
    ∀ x < addresses, t.dst x ≠ m.dst x → m.MayChange x := by
  obtain ⟨_, _, hgood⟩ := data_reachable h
  intro x hx hne
  simp only [DataWorld.next] at hn
  split at hn
  · cases hn
  rename_i f hf
  obtain rfl := Option.some.inj hn
  obtain ⟨i, hi, rfl⟩ := copy_ne hx hne
  cases hgood.flies (List.mem_of_getElem? hf) with
  | records hno hinto =>
    right
    rcases hinto with hnone | ⟨slot, hslot, htarget, hlen⟩
    · rw [hnone] at hi
      exact absurd hi (Nat.not_lt_zero i)
    · refine ⟨slot * sizeofCompletionRecord + i, ?_, ?_⟩
      · unfold recordsAt NET_IB_MAX_REQUESTS sizeofCompletionRecord at *
        simp only
        omega
      · have hmod : f.wr.remote_addr ≡
            m.world.snd.comm.recordsAddr + slot * sizeofCompletionRecord [MOD addresses] := by
          rw [htarget]
          exact Nat.mod_modEq _ _
        rw [cell_congr hmod, cell_add]
  | @buffer e a p hwaits ha hid hr hopen hwrites hinside =>
    left
    have hlen := (bytesOf_le hwrites).1
    refine ⟨f.id, f.j, e, a, p.start + i, hwaits, ha, hid, hr, by omega, ?_⟩
    have htarget : f.wr.remote_addr ≡ e.addr + p.start [MOD addresses] := hwrites.target
    rw [cell_congr htarget, cell_add]

/-! ## Eight bytes -/

/-- An action whose promise is empty. -/
def DataAct.free : DataAct → Bool
  | .world (.recv (.irecv _ _)) => false
  | .world _ => true
  | .place _ _ => true
  | _ => false

theorem promise_of_free {act : DataAct} (h : act.free = true) (m : DataWorld) :
    Promise act m := by
  cases act with
  | world act =>
    cases act with
    | recv act =>
      cases act with
      | irecv env bufs => cases h
      | _ => trivial
    | _ => trivial
  | place n again => trivial
  | sndStore mem => cases h
  | rcvStore mem => cases h

/-- A step with nothing to promise, as long as the state is small. -/
def DataWorld.freeStep (act : DataAct) (m : DataWorld) : Option DataWorld :=
  if act.free then (m.next act).filter (fun t => t.world.Small) else none

theorem DataWorld.freeStep_step {sh : Shape} {pre : Bool} (act : DataAct) (m t : DataWorld)
    (h : m.freeStep act = some t) : (dataSystem sh pre).step m t := by
  unfold DataWorld.freeStep at h
  split at h
  · rename_i hfree
    obtain ⟨hnext, hsmall⟩ := Option.filter_eq_some_iff.mp h
    exact ⟨act, promise_of_free hfree m, hnext, (of_decide_eq_true hsmall).inWindow⟩
  · cases h

/-- Before the first call the memory of the sender counts up, and that of the receiver
is empty. -/
def firstData : DataWorld where
  world := firstWorld
  wires := []
  src := fun x => UInt8.ofNat x
  dst := fun _ => 0
  sent := fun _ _ => 0
  opened := fun _ _ => 0
  taken := []

/-- A receive of 16 bytes at 1 MiB. -/
def firstBuffer : RecvBuffer := { data := 2 ^ 20, size := 16, tag := 0, rkeys := fun _ => 1 }

/-- The state after the receive. -/
def openedData : Option DataWorld := firstData.next (.world (.recv (.irecv plainEnv [firstBuffer])))

theorem openedData_small : (openedData.map (fun m => decide m.world.Small)) = some true := by
  decide

theorem openedData_reachable {m : DataWorld} (h : openedData = some m) :
    Reachable (dataSystem Shape.one false) m := by
  have hinit : DataWorld.Init Shape.one false firstData := ⟨init_firstWorld, rfl, rfl⟩
  have hsmall := openedData_small
  rw [h] at hsmall
  have hsmall : m.world.Small := of_decide_eq_true (Option.some.inj hsmall)
  refine (Reachable.init hinit).step ⟨_, ?_, h, hsmall.inWindow⟩
  refine ⟨fun b hb => ?_, List.pairwise_singleton .., fun b _ k r e he => ?_, fun b hb => ?_⟩
  · rw [List.mem_singleton.mp hb]
    exact show 16 ≤ addresses by decide
  · obtain ⟨⟨group, hgroup, _⟩, _⟩ := he
    cases hgroup
  · rw [List.mem_singleton.mp hb]
    intro o ho o' ho' he
    have ho : o < 256 * 160 := ho
    have ho' : o' < 16 := ho'
    have he : (0 + o) % 2 ^ 64 = (2 ^ 20 + o') % 2 ^ 64 := he
    omega

/-- A send of 8 bytes, whose write is placed twice. -/
def sendActs : List DataAct :=
  [.world (.ctsRead 0), .world (.ctsWrite 0), .world (.send (.isend plainEnv (sendOf 0))),
    .place 0 true]

/-- Both sides see that the write is there, and test until they report it. -/
def doneActs : List DataAct :=
  [.place 0 false, .world (.send (.complete 0)), .world (.send (.testBegin 0))] ++
    List.replicate 6 (.world (.send (.test plainEnv 4)))

def recvActs : List DataAct :=
  [.world (.recv (.deliver 0)), .world (.recv (.complete 0 false)), .world (.recv (.testBegin 0))]
    ++ List.replicate 7 (.world (.recv (.test plainEnv 4)))

/-- The state after a list of actions that follow the receive. -/
def afterActs (acts : List DataAct) : Option DataWorld :=
  openedData.bind (follow DataWorld.freeStep acts)

theorem afterActs_reachable {acts : List DataAct} {m : DataWorld} (h : afterActs acts = some m) :
    Reachable (dataSystem Shape.one false) m := by
  obtain ⟨m0, h0, hrun⟩ := Option.bind_eq_some_iff.mp h
  exact (openedData_reachable h0).follow DataWorld.freeStep_step hrun

/-- The sends of a state: their groups, entries, sizes and weights. -/
def DataWorld.sends (m : DataWorld) : List (Nat × Nat × Nat × Nat) :=
  m.world.snd.log.map (fun a => (a.id, a.r, a.args.size, a.weights 0))

theorem sendable_first {m : DataWorld} (hsends : m.sends = [(0, 0, 8, 100)]) :
    Sendable Shape.one m.world 0 := by
  have hall : ∀ a ∈ m.world.snd.log, a.args.size = 8 ∧ a.weights 0 = 100 := by
    intro a ha
    have hmem : (a.id, a.r, a.args.size, a.weights 0) ∈ m.sends := List.mem_map_of_mem ha
    rw [hsends] at hmem
    have he := List.mem_singleton.mp hmem
    exact ⟨congrArg (fun x => x.2.2.1) he, congrArg (fun x => x.2.2.2) he⟩
  refine ⟨by decide, fun a ha _ e _ => ?_, fun a ha _ _ => ⟨fun d hd => ?_, ?_⟩⟩
  · have hle : sendBytes a.args e ≤ a.args.size := Nat.min_le_left _ _
    have hsize := (hall a ha).1
    omega
  · have hd : d < 1 := hd
    obtain rfl : d = 0 := by omega
    rw [(hall a ha).2]
    decide
  · show 100 ≤ (([0] : List Nat).map a.weights).sum
    rw [List.map_singleton, List.sum_singleton, (hall a ha).2]

theorem the_first_receive_holds_its_send : ∃ m, Reachable (dataSystem Shape.one false) m ∧
    ∃ mem, (0, mem) ∈ m.taken ∧ m.Delivered 0 mem := by
  have hsome : (afterActs (sendActs ++ doneActs ++ recvActs)).map (fun m =>
      (m.sends, m.taken.map Prod.fst)) = some ([(0, 0, 8, 100)], [0]) := by decide
  obtain ⟨m, hrun, hview⟩ := Option.map_eq_some_iff.mp hsome
  have hreach := afterActs_reachable hrun
  have hmem : 0 ∈ m.taken.map Prod.fst := by
    rw [(Prod.mk.inj hview).2]
    exact List.mem_singleton_self 0
  obtain ⟨⟨k, mem⟩, hx, rfl⟩ := List.mem_map.mp hmem
  exact ⟨m, hreach, mem, hx, (a_reported_receive_holds_its_sends _ _ m hreach).2 _ hx
    (sendable_first (Prod.mk.inj hview).1)⟩

/-- The send is reported before the receiver has polled anything. -/
theorem the_first_send_is_in_its_buffer : ∃ m, Reachable (dataSystem Shape.one false) m ∧
    ∃ a ∈ m.world.snd.log, a.serial ∈ m.world.snd.reported ∧ ∃ e, m.world.Waits a.id a.r e ∧
      ∀ o < sendBytes a.args e, m.dst (cell addresses e.addr o) = m.sent a.serial o := by
  have hsome : (afterActs (sendActs ++ doneActs)).map (fun m =>
      (m.sends, [m.world.snd.log.map Accept.serial, m.world.snd.reported, m.taken.map Prod.fst,
        m.world.groups.map List.length])) =
      some ([(0, 0, 8, 100)], [[0], [0], [], [1]]) := by decide
  obtain ⟨m, hrun, hview⟩ := Option.map_eq_some_iff.mp hsome
  have hreach := afterActs_reachable hrun
  obtain ⟨hsends, hlists⟩ := Prod.mk.inj hview
  obtain ⟨hserials, hlists⟩ := List.cons.inj hlists
  obtain ⟨hrep, hlists⟩ := List.cons.inj hlists
  obtain ⟨htaken, hlists⟩ := List.cons.inj hlists
  obtain ⟨hgroups, _⟩ := List.cons.inj hlists
  obtain ⟨a, hlog, hid⟩ := List.map_eq_singleton_iff.mp hsends
  obtain ⟨group, hgroup, hlen⟩ := List.map_eq_singleton_iff.mp hgroups
  obtain ⟨e, rfl⟩ := List.length_eq_one_iff.mp hlen
  have ha : a ∈ m.world.snd.log := by
    rw [hlog]
    exact List.mem_singleton_self a
  have hserial : a.serial = 0 := by
    rw [hlog] at hserials
    exact List.singleton_inj.mp hserials
  have hrep : a.serial ∈ m.world.snd.reported := by
    rw [hrep, hserial]
    exact List.mem_singleton_self 0
  have hid0 : a.id = 0 := congrArg Prod.fst hid
  have hr0 : a.r = 0 := congrArg (fun x => x.2.1) hid
  have hwaits : m.world.Waits a.id a.r e := by
    rw [hid0, hr0]
    obtain ⟨_, _, hgood⟩ := data_reachable hreach
    refine ⟨⟨[e], by rw [hgroup]; rfl, rfl⟩, fun hdone => ?_⟩
    have := (hgood.taken 0).mp hdone
    rw [htaken] at this
    cases this
  exact ⟨m, hreach, a, ha, hrep, e, hwaits, a_reported_send_is_in_its_buffer _ _ m hreach a ha hrep
    (hid0.symm ▸ sendable_first hsends) e hwaits⟩

theorem the_first_write_stays_in_its_buffer : ∃ m t, Reachable (dataSystem Shape.one false) m ∧
    m.next (.place 0 false) = some t ∧ t.dst (2 ^ 20) ≠ m.dst (2 ^ 20) ∧
      ∀ x < addresses, t.dst x ≠ m.dst x → m.MayChange x := by
  have hsome : ((afterActs (sendActs.take 3)).bind (fun m => (m.next (.place 0 false)).map
      (fun t => (t.dst (2 ^ 20), m.dst (2 ^ 20))))) = some (1, 0) := by decide
  obtain ⟨m, hrun, hnext⟩ := Option.bind_eq_some_iff.mp hsome
  obtain ⟨t, hplace, hbytes⟩ := Option.map_eq_some_iff.mp hnext
  have hreach := afterActs_reachable hrun
  refine ⟨m, t, hreach, hplace, ?_, a_write_stays_in_its_buffer _ _ m t 0 false hreach hplace⟩
  rw [(Prod.mk.inj hbytes).1, (Prod.mk.inj hbytes).2]
  decide

end net_ib.p2p
