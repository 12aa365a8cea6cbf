-- Both sides of the handshake together. What each side has sent and received links the
-- two, so both return the comms of the handshake in one piece, however the socket cuts
-- the messages. No side waits for a message that the other will not send.
import MrcPlugin.HandshakeStreams

namespace net_ib.wire

open p2p resiliency lifecycle streams layouts

variable {i : WireInput} {e : CallEnv} {w w' : WireWorld}

/-- Both sides, each with the streams to the other. -/
def Linked (i : WireInput) (w : WireWorld) : Prop :=
  ∃ sent got peerSent peerGot, ConnectAt i w.connect sent got ∧
    AcceptAt i w.accept peerSent peerGot ∧ Flow (toAcceptStream i) sent peerGot w.toAccept ∧
    Flow (toConnectStream i) peerSent got w.toConnect

/-! ## The calls -/

theorem start_linked (h : StartWire w) : Linked i w := by
  refine ⟨0, 0, 0, 0, .idle h.connect.2 h.connect.1, .idle h.accept.2 h.accept.1, ?_, ?_⟩
  · rw [h.toAccept]
    exact Flow.empty _
  · rw [h.toConnect]
    exact Flow.empty _

theorem next_connect (h : w.next i (.connect e) = some w') :
    w.connect.outcome = none ∧
      w' = { w with
        connect := (ncclIbConnectImpl i e ⟨w.connect, w.toAccept, w.toConnect⟩).side
        toAccept := (ncclIbConnectImpl i e ⟨w.connect, w.toAccept, w.toConnect⟩).out
        toConnect := (ncclIbConnectImpl i e ⟨w.connect, w.toAccept, w.toConnect⟩).inp } := by
  obtain ⟨houtcome, h⟩ := Option.ite_none_right_eq_some.mp h
  exact ⟨houtcome, (Option.some.inj h).symm⟩

theorem next_accept (h : w.next i (.accept e) = some w') :
    w.accept.outcome = none ∧
      w' = { w with
        accept := (ncclIbAcceptImpl i e ⟨w.accept, w.toConnect, w.toAccept⟩).side
        toAccept := (ncclIbAcceptImpl i e ⟨w.accept, w.toConnect, w.toAccept⟩).inp
        toConnect := (ncclIbAcceptImpl i e ⟨w.accept, w.toConnect, w.toAccept⟩).out } := by
  obtain ⟨houtcome, h⟩ := Option.ite_none_right_eq_some.mp h
  exact ⟨houtcome, (Option.some.inj h).symm⟩

theorem next_linked {act : WireAct} (h : Linked i w) (hn : w.next i act = some w') :
    Linked i w' := by
  obtain ⟨sent, got, peerSent, peerGot, hconnect, haccept, hto, hfrom⟩ := h
  cases act with
  | connect e =>
    obtain ⟨houtcome, rfl⟩ := next_connect hn
    obtain ⟨⟨sent', got', hat, hout, hin⟩, -⟩ :=
      connect_call (e := e) (v := ⟨w.connect, w.toAccept, w.toConnect⟩) houtcome
        ⟨sent, got, hconnect, hto, hfrom⟩
    exact ⟨sent', got', peerSent, peerGot, hat, haccept, hout, hin⟩
  | accept e =>
    obtain ⟨houtcome, rfl⟩ := next_accept hn
    obtain ⟨⟨sent', got', hat, hout, hin⟩, -⟩ :=
      accept_call (e := e) (v := ⟨w.accept, w.toConnect, w.toAccept⟩) houtcome
        ⟨peerSent, peerGot, haccept, hfrom, hto⟩
    exact ⟨sent, got, sent', got', hconnect, hat, hin, hout⟩

theorem reachable_linked (h : runs.Reachable (wireSystem i) w) : Linked i w :=
  h.invariant (fun _ => start_linked) fun _ _ _ hw ⟨_, hn⟩ => next_linked hw hn

/-! ## What a call returns -/

theorem connectAt_returned {x : Side SenderComm} {sent got : Nat} (h : ConnectAt i x sent got)
    (hx : x.outcome = some true) : connectDone i = some x.comm := by
  cases h with
  | returned _ hcomm => exact hcomm
  | failed houtcome =>
    rw [hx] at houtcome
    cases houtcome
  | _ houtcome =>
    rw [hx] at houtcome
    cases houtcome

theorem acceptAt_returned {x : Side ReceiverComm} {sent got : Nat} (h : AcceptAt i x sent got)
    (hx : x.outcome = some true) :
    got = devListLayout.size + metadataLayout.size + 4 ∧
      ∃ r info, acceptSent i = some (r, info) ∧ x.comm = acceptReady true r := by
  cases h with
  | returned _ hsent hcomm => exact ⟨rfl, _, _, hsent, hcomm⟩
  | failed houtcome | idle houtcome =>
    rw [hx] at houtcome
    cases houtcome
  | _ hopen =>
    rw [hopen.outcome] at hx
    cases hx

/-- The last byte goes out in the call that returns the comm. -/
theorem connectAt_all {x : Side SenderComm} {sent got : Nat} (h : ConnectAt i x sent got)
    (hsent : devListLayout.size + metadataLayout.size + 4 ≤ sent) : x.outcome = some true := by
  cases h with
  | returned houtcome => exact houtcome
  | failed _ hle => omega
  | devListOut _ _ _ _ hsends =>
    have := hsends.lt
    rw [devListLayout.length_encode] at this
    omega
  | metaOut _ _ _ _ hsends =>
    have := hsends.lt
    rw [metadataLayout.length_encode] at this
    omega
  | readyOut _ _ _ _ hsends =>
    have := hsends.lt
    rw [(word 4).length_encode] at this
    change x.offset < 4 at this
    omega
  | _ => omega

theorem Linked.returned (h : Linked i w) :
    (w.connect.outcome = some true → connectDone i = some w.connect.comm) ∧
      (w.accept.outcome = some true → w.connect.outcome = some true ∧
        unfragmented i = some (w.connect.comm, w.accept.comm)) := by
  obtain ⟨sent, got, peerSent, peerGot, hconnect, haccept, hto, hfrom⟩ := h
  refine ⟨connectAt_returned hconnect, fun hx => ?_⟩
  obtain ⟨hgot, r, info, hsent, hcomm⟩ := acceptAt_returned haccept hx
  have hreturned := connectAt_all hconnect (hgot ▸ hto.got_le)
  refine ⟨hreturned, ?_⟩
  unfold unfragmented
  rw [connectAt_returned hconnect hreturned, hsent, hcomm]
  rfl

/-- Whatever the order of the calls and wherever the socket cuts the messages, each call
that returns a comm returns the one of the handshake in one piece. The send comm is
returned before the receive comm. -/
theorem unfragmented_comms (h : runs.Reachable (wireSystem i) w) :
    (w.connect.outcome = some true → connectDone i = some w.connect.comm) ∧
      (w.accept.outcome = some true → w.connect.outcome = some true ∧
        unfragmented i = some (w.connect.comm, w.accept.comm)) :=
  (reachable_linked h).returned

/-! ## The end of a handshake -/

/-- A call of each side that has not returned. -/
def WireWorld.round (i : WireInput) (e : CallEnv) (w : WireWorld) : WireWorld :=
  let w := (w.next i (.connect e)).getD w
  (w.next i (.accept e)).getD w

def WireWorld.threeRounds (i : WireInput) (e : CallEnv) (w : WireWorld) : WireWorld :=
  ((w.round i e).round i e).round i e

/-- No call has returned an error, and the sides have sent `sent` and `peerSent` bytes at
least. -/
structure Along (i : WireInput) (sent peerSent : Nat) (w : WireWorld) : Prop where
  linked : ∃ s got p peerGot, ConnectAt i w.connect s got ∧ AcceptAt i w.accept p peerGot ∧
    Flow (toAcceptStream i) s peerGot w.toAccept ∧ Flow (toConnectStream i) p got w.toConnect ∧
    sent ≤ s ∧ peerSent ≤ p
  connect : w.connect.outcome ≠ some false
  accept : w.accept.outcome ≠ some false

/-- What the connecting side has sent when it waits for more than `peerSent` bytes. -/
def connectSends (peerSent : Nat) : Nat :=
  if devListLayout.size + metadataLayout.size ≤ peerSent then
    devListLayout.size + metadataLayout.size + 4
  else if devListLayout.size ≤ peerSent then devListLayout.size + metadataLayout.size
  else devListLayout.size

/-- What the accepting side has sent when it waits for more than `sent` bytes. -/
def acceptSends (sent : Nat) : Nat :=
  if devListLayout.size + metadataLayout.size ≤ sent then
    devListLayout.size + metadataLayout.size
  else if devListLayout.size ≤ sent then devListLayout.size
  else 0

section
variable {n : Nat}

theorem connectSends_first (n : Nat) : devListLayout.size ≤ connectSends n := by
  unfold connectSends
  by_cases h : devListLayout.size + metadataLayout.size ≤ n
  · rw [if_pos h]
    omega
  · rw [if_neg h]
    split <;> omega

theorem connectSends_devList (hn : devListLayout.size ≤ n) :
    devListLayout.size + metadataLayout.size ≤ connectSends n := by
  unfold connectSends
  rw [if_pos hn]
  split <;> omega

theorem acceptSends_devList (hn : devListLayout.size ≤ n) :
    devListLayout.size ≤ acceptSends n := by
  unfold acceptSends
  rw [if_pos hn]
  split <;> omega

theorem acceptSends_metadata (hn : devListLayout.size + metadataLayout.size ≤ n) :
    devListLayout.size + metadataLayout.size ≤ acceptSends n := by
  unfold acceptSends
  rw [if_pos hn]

end

/-- A side that rests has received all that the peer has sent. -/
theorem rest_got {full : List Byte} {sent got : Nat} {chan : List Byte} (h : Flow full sent got chan)
    (hchan : chan = []) : got = sent := by
  have hlen := h.length
  rw [hchan, List.length_nil] at hlen
  have := h.got_le
  omega

theorem connectAt_rests {x : Side SenderComm} {sent got peerSent n : Nat} {inp : List Byte}
    (h : ConnectAt i x sent got) (hflow : Flow (toConnectStream i) peerSent got inp)
    (hrests : Rests x inp) (hn : n ≤ peerSent) : connectSends n ≤ sent := by
  have hle : connectSends n ≤ devListLayout.size + metadataLayout.size + 4 := by
    unfold connectSends
    split <;> [omega; split] <;> omega
  rcases hrests with hx | ⟨hx, hstate, hinp⟩
  · cases h with
    | returned => exact hle
    | failed houtcome | _ houtcome =>
      rw [hx] at houtcome
      cases houtcome
  · have hgot := rest_got hflow hinp
    cases h with
    | returned houtcome | failed houtcome =>
      rw [hx] at houtcome
      cases houtcome
    | devListIn _ _ _ _ hreceives =>
      have := hreceives.lt
      unfold connectSends
      rw [if_neg (by omega), if_neg (by omega)]
    | metaIn _ _ _ hreceives =>
      have := hreceives.lt
      unfold connectSends
      rw [if_neg (by omega)]
      split <;> omega
    | _ _ hs =>
      rw [hs] at hstate
      cases hstate

theorem acceptAt_rests {x : Side ReceiverComm} {sent got peerSent n : Nat} {inp : List Byte}
    (h : AcceptAt i x sent got) (hflow : Flow (toAcceptStream i) peerSent got inp)
    (hrests : Rests x inp) (hn : n ≤ peerSent) :
    acceptSends n ≤ sent ∧
      (devListLayout.size + metadataLayout.size + 4 ≤ n → x.outcome = some true) := by
  have hle : acceptSends n ≤ devListLayout.size + metadataLayout.size := by
    unfold acceptSends
    split <;> [omega; split] <;> omega
  rcases hrests with hx | ⟨hx, hstate, hinp⟩
  · refine ⟨?_, fun _ => hx⟩
    cases h with
    | returned => exact hle
    | failed houtcome | idle houtcome =>
      rw [hx] at houtcome
      cases houtcome
    | _ hopen =>
      rw [hopen.outcome] at hx
      cases hx
  · have hgot := rest_got hflow hinp
    cases h with
    | returned houtcome | failed houtcome =>
      rw [hx] at houtcome
      cases houtcome
    | idle _ hs =>
      rw [hs] at hstate
      cases hstate
    | devListIn _ _ _ hreceives =>
      have := hreceives.lt
      unfold acceptSends
      rw [if_neg (by omega), if_neg (by omega)]
      omega
    | metaIn _ _ hreceives =>
      have := hreceives.lt
      unfold acceptSends
      rw [if_neg (by omega)]
      split <;> omega
    | readyIn _ _ hreceives =>
      have := hreceives.lt
      exact ⟨hle, fun _ => by omega⟩
    | socket hopen | devListOut hopen | metaOut hopen =>
      rw [hopen.state] at hstate
      cases hstate

section
variable {sent peerSent : Nat} (he : Serves e) (hdone : (unfragmented i).isSome)

theorem unfragmented_isSome (hdone : (unfragmented i).isSome) :
    (connectDone i).isSome ∧ (acceptSent i).isSome := by
  unfold unfragmented at hdone
  cases hs : connectDone i with
  | none =>
    rw [hs] at hdone
    cases hdone
  | some s =>
    cases hr : acceptSent i with
    | none =>
      rw [hs, hr] at hdone
      cases hdone
    | some r => exact ⟨rfl, rfl⟩

include he hdone

/-- A call of the connecting side that waits for nothing but its peer. -/
theorem connect_along (h : Along i sent peerSent w) :
    Along i (connectSends peerSent) peerSent ((w.next i (.connect e)).getD w) := by
  obtain ⟨⟨s, got, p, peerGot, hconnect, haccept, hto, hfrom, hs, hp⟩, hc, ha⟩ := h
  cases hn : w.next i (.connect e) with
  | none =>
    have houtcome : w.connect.outcome = some true := by
      unfold WireWorld.next at hn
      cases hx : w.connect.outcome with
      | none => simp [hx] at hn
      | some b =>
        cases b with
        | true => rfl
        | false => exact absurd hx hc
    have hrests := connectAt_rests hconnect hfrom (Or.inl houtcome) hp
    exact ⟨⟨s, got, p, peerGot, hconnect, haccept, hto, hfrom, hrests, hp⟩, hc, ha⟩
  | some w' =>
    obtain ⟨houtcome, rfl⟩ := next_connect hn
    obtain ⟨⟨s', got', hat, hout, hin⟩, hcalled⟩ :=
      connect_call (e := e) (v := ⟨w.connect, w.toAccept, w.toConnect⟩) houtcome
        ⟨s, got, hconnect, hto, hfrom⟩
    have hrests := hcalled.rests he (unfragmented_isSome hdone).1
    refine ⟨⟨s', got', p, peerGot, hat, haccept, hout, hin,
      connectAt_rests hat hin hrests hp, hp⟩,
      hcalled.noError he.granted (unfragmented_isSome hdone).1, ha⟩

/-- A call of the accepting side that waits for nothing but its peer. -/
theorem accept_along (h : Along i sent peerSent w) :
    Along i sent (acceptSends sent) ((w.next i (.accept e)).getD w) ∧
      (devListLayout.size + metadataLayout.size + 4 ≤ sent →
        ((w.next i (.accept e)).getD w).accept.outcome = some true) := by
  obtain ⟨⟨s, got, p, peerGot, hconnect, haccept, hto, hfrom, hs, hp⟩, hc, ha⟩ := h
  cases hn : w.next i (.accept e) with
  | none =>
    have houtcome : w.accept.outcome = some true := by
      unfold WireWorld.next at hn
      cases hx : w.accept.outcome with
      | none => simp [hx] at hn
      | some b =>
        cases b with
        | true => rfl
        | false => exact absurd hx ha
    obtain ⟨hrests, -⟩ := acceptAt_rests haccept hto (Or.inl houtcome) hs
    exact ⟨⟨⟨s, got, p, peerGot, hconnect, haccept, hto, hfrom, hs, hrests⟩, hc, ha⟩,
      fun _ => houtcome⟩
  | some w' =>
    obtain ⟨houtcome, rfl⟩ := next_accept hn
    obtain ⟨⟨p', peerGot', hat, hout, hin⟩, hcalled⟩ :=
      accept_call (e := e) (v := ⟨w.accept, w.toConnect, w.toAccept⟩) houtcome
        ⟨p, peerGot, haccept, hfrom, hto⟩
    have hrests := hcalled.rests he (unfragmented_isSome hdone).2
    obtain ⟨hsends, hall⟩ := acceptAt_rests hat hin hrests hs
    exact ⟨⟨⟨s, got, p', peerGot', hconnect, hat, hin, hout, hs, hsends⟩, hc,
      hcalled.noError he.granted (unfragmented_isSome hdone).2⟩, hall⟩

theorem round_along (h : Along i sent peerSent w) :
    Along i (connectSends peerSent) (acceptSends (connectSends peerSent)) (w.round i e) ∧
      (devListLayout.size + metadataLayout.size ≤ peerSent →
        (w.round i e).accept.outcome = some true) := by
  obtain ⟨halong, hall⟩ := accept_along he hdone (connect_along he hdone h)
  refine ⟨halong, fun hle => hall ?_⟩
  unfold connectSends
  rw [if_pos hle]

end

theorem round_reachable (h : runs.Reachable (wireSystem i) w) :
    runs.Reachable (wireSystem i) (w.round i e) := by
  have hcall : ∀ (w : WireWorld) (act : WireAct), runs.Reachable (wireSystem i) w →
      runs.Reachable (wireSystem i) ((w.next i act).getD w) := by
    intro w act hw
    cases hn : w.next i act with
    | none => exact hw
    | some w' => exact hw.step ⟨act, hn⟩
  exact hcall _ _ (hcall _ _ h)

theorem threeRounds_reachable (h : runs.Reachable (wireSystem i) w) :
    runs.Reachable (wireSystem i) (w.threeRounds i e) :=
  round_reachable (round_reachable (round_reachable h))

theorem Linked.along (h : Linked i w) (hconnect : w.connect.outcome ≠ some false)
    (haccept : w.accept.outcome ≠ some false) : Along i 0 0 w := by
  obtain ⟨s, got, p, peerGot, hat, hat', hto, hfrom⟩ := h
  exact ⟨⟨s, got, p, peerGot, hat, hat', hto, hfrom, Nat.zero_le _, Nat.zero_le _⟩, hconnect,
    haccept⟩

theorem Along.toLinked {sent peerSent : Nat} (h : Along i sent peerSent w) : Linked i w := by
  obtain ⟨⟨s, got, p, peerGot, hat, hat', hto, hfrom, -, -⟩, -, -⟩ := h
  exact ⟨s, got, p, peerGot, hat, hat', hto, hfrom⟩

theorem along_returns (he : Serves e) (hdone : (unfragmented i).isSome) (h : Along i 0 0 w) :
    (w.threeRounds i e).connect.outcome = some true ∧
      (w.threeRounds i e).accept.outcome = some true ∧
      unfragmented i = some ((w.threeRounds i e).connect.comm, (w.threeRounds i e).accept.comm) := by
  obtain ⟨h1, -⟩ := round_along he hdone h
  obtain ⟨h2, -⟩ := round_along he hdone h1
  obtain ⟨h3, hall⟩ := round_along he hdone h2
  -- After the first round the device lists are there, and after the second the metadata.
  have hfirst := acceptSends_devList (connectSends_first 0)
  have hsecond := acceptSends_metadata (connectSends_devList hfirst)
  have hreturned : (w.threeRounds i e).accept.outcome = some true := hall hsecond
  have hlinked : Linked i (w.threeRounds i e) := h3.toLinked
  obtain ⟨hs, hcomms⟩ := hlinked.returned.2 hreturned
  exact ⟨hs, hreturned, hcomms⟩

/-- The handshake does not hang: wherever it is, with no error so far, three more calls of
each side return both comms, if nothing but the peer keeps a side waiting. -/
theorem three_rounds (he : Serves e) (h : runs.Reachable (wireSystem i) w)
    (hconnect : w.connect.outcome ≠ some false) (haccept : w.accept.outcome ≠ some false)
    (hdone : (unfragmented i).isSome) :
    (w.threeRounds i e).connect.outcome = some true ∧
      (w.threeRounds i e).accept.outcome = some true ∧
      unfragmented i = some ((w.threeRounds i e).connect.comm, (w.threeRounds i e).accept.comm) :=
  along_returns he hdone ((reachable_linked h).along hconnect haccept)

/-! ## Runs without an error -/

/-- No call has returned an error. -/
def NoError (w : WireWorld) : Prop :=
  w.connect.outcome ≠ some false ∧ w.accept.outcome ≠ some false

/-- The provider does all that this call asks. -/
def WireAct.Granted : WireAct → Prop
  | .connect e => wire.Granted e
  | .accept e => wire.Granted e

/-- The runs in which the provider does all that it is asked. The socket may cut the
messages anywhere. -/
def grantedSystem (i : WireInput) : runs.System WireWorld where
  init := StartWire
  step := fun w w' => ∃ act : WireAct, act.Granted ∧ w.next i act = some w'

theorem next_noError {act : WireAct} (hdone : (unfragmented i).isSome) (hgranted : act.Granted)
    (hl : Linked i w) (h : NoError w) (hn : w.next i act = some w') : NoError w' := by
  obtain ⟨sent, got, peerSent, peerGot, hconnect, haccept, hto, hfrom⟩ := hl
  cases act with
  | connect e =>
    obtain ⟨houtcome, rfl⟩ := next_connect hn
    obtain ⟨-, hcalled⟩ := connect_call (e := e) (v := ⟨w.connect, w.toAccept, w.toConnect⟩)
      houtcome ⟨sent, got, hconnect, hto, hfrom⟩
    exact ⟨hcalled.noError hgranted (unfragmented_isSome hdone).1, h.2⟩
  | accept e =>
    obtain ⟨houtcome, rfl⟩ := next_accept hn
    obtain ⟨-, hcalled⟩ := accept_call (e := e) (v := ⟨w.accept, w.toConnect, w.toAccept⟩)
      houtcome ⟨peerSent, peerGot, haccept, hfrom, hto⟩
    exact ⟨h.1, hcalled.noError hgranted (unfragmented_isSome hdone).2⟩

/-- When the handshake in one piece has its comms, an error comes only from the
provider. -/
theorem granted_reachable (hdone : (unfragmented i).isSome)
    (h : runs.Reachable (grantedSystem i) w) :
    runs.Reachable (wireSystem i) w ∧ NoError w := by
  induction h with
  | init hw =>
    refine ⟨.init hw, fun hfalse => ?_, fun hfalse => ?_⟩
    · rw [hw.connect.2] at hfalse
      cases hfalse
    · rw [hw.accept.2] at hfalse
      cases hfalse
  | step _ hstep ih =>
    obtain ⟨act, hgranted, hn⟩ := hstep
    obtain ⟨hw, hopen⟩ := ih
    exact ⟨hw.step ⟨act, hn⟩, next_noError hdone hgranted (reachable_linked hw) hopen hn⟩

/-- The calls that have not been returned, one after the other. -/
def WireWorld.calls (i : WireInput) (acts : List WireAct) (w : WireWorld) : WireWorld :=
  acts.foldl (fun w act => (w.next i act).getD w) w

theorem calls_reachable (h : runs.Reachable (grantedSystem i) w) {acts : List WireAct}
    (hacts : ∀ act ∈ acts, act.Granted) : runs.Reachable (grantedSystem i) (w.calls i acts) := by
  induction acts generalizing w with
  | nil => exact h
  | cons act acts ih =>
    have hnext : runs.Reachable (grantedSystem i) ((w.next i act).getD w) := by
      cases hn : w.next i act with
      | none => exact h
      | some w' => exact h.step ⟨act, hacts act List.mem_cons_self, hn⟩
    exact ih hnext fun act hact => hacts act (List.mem_cons_of_mem _ hact)

end net_ib.wire
