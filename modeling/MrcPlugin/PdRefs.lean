-- The reference counts of the PDs (connect.cc, ncclIbInitCommDevBase, ncclIbDestroyBase),
-- over any connects, accepts and closes of a process. A PD has one reference for each live
-- base of its device while no call loses, repeats or ends a base that it should not.
import MrcPlugin.CommClose

namespace net_ib.lifecycle

open runs calls

/-! ## The comms of a process -/

inductive Side
  | send
  | recv
deriving DecidableEq, Repr

def Side.role : Side → Role
  | .send => connect.role
  | .recv => accept.role

def Side.call (host : Host) : Side → ShakeEnv → CCall (NcclResult × Option Nat)
  | .send => ncclIbConnectImpl host
  | .recv => ncclIbAcceptImpl host

def Side.path (host : Host) (env : ShakeEnv) : Side → Shake → List Site
  | .send => connect.path host env
  | .recv => accept.path host env

def Side.close : Side → CloseEnv → CCall PUnit
  | .send => ncclIbCloseSend
  | .recv => ncclIbCloseRecv

def Side.closePath : Side → Shake → List CloseSite
  | .send => lifecycle.closePath sendFirst sendDevSites
  | .recv => lifecycle.closePath recvFirst recvDevSites

/-- A handshake, a comm that it has returned, one whose close has failed, and one that is
gone. -/
inductive Phase
  | shaking
  | comm
  | broken
  | closed
deriving DecidableEq, Repr

/-- A handle that connects, or a listen comm that accepts, with the comm that it makes. The
PDs of its state are those of its last call. -/
structure Slot where
  side : Side
  phase : Phase
  shake : Shake

/-- The slot with the PDs of now, as the next call finds it. -/
def Slot.at (x : Slot) (pds : Nat → Pd) : Shake := { x.shake with pds }

/-- The PDs of the devices, and all the handles and comms. -/
structure Net where
  pds : Nat → Pd
  slots : List Slot

/-- A call of a handshake that loses no base. If it goes to the label `fail`, it does so
before the first base. If an earlier call has left bases in a state before the QPs, it stops
before it makes them again, at a point that waits or returns. -/
structure CallKeepsBases (host : Host) (x : Slot) (pds : Nat → Pd) (env : ShakeEnv) : Prop where
  fails : ∀ site, (x.side.path host env (x.at pds)).find? (stopsAt host env) = some site →
    x.side.role.kind site = .fail → x.side.role.beforeBases site = true
  again : beforeQps x.shake.stage.state = true → x.shake.base.bases ≠ [] →
    ∃ site, (pathBeforeBases (x.side.path host env (x.at pds))).find? (stopsAt host env) =
      some site ∧ x.side.role.kind site ≠ .fail

/-- A close in which the provider does not refuse a PD, and which ends no base that an
earlier close has ended. -/
structure CloseKeepsBases (x : Slot) (pds : Nat → Pd) (env : CloseEnv) : Prop where
  dealloc : ∀ site, (x.side.closePath (x.at pds)).find? (closeStops env) = some site →
    site.isDealloc = false
  there : ∀ e ∈ x.shake.base.vProps.zipIdx,
    .destroyCq e.2 ∈ passed (closeStops env) (x.side.closePath (x.at pds)) →
      (e.2, e.1) ∈ x.shake.base.bases

/-- A new handle or listen comm, a call of a handshake that returns, and a close. -/
inductive NetStep (host : Host) (mayCall : Slot → (Nat → Pd) → ShakeEnv → Prop)
    (mayClose : Slot → (Nat → Pd) → CloseEnv → Prop) : Net → Net → Prop
  | new {n : Net} (side : Side) (s : Shake) (hnew : NewShake side.role s) :
      NetStep host mayCall mayClose n { n with slots := ⟨side, .shaking, s⟩ :: n.slots }
  | call {pds : Nat → Pd} {before after : List Slot} {x : Slot} (env : ShakeEnv)
      {res : NcclResult} {out : Option Nat} {t : Shake} (hphase : x.phase = .shaking)
      (hmay : mayCall x pds env)
      (hrun : (x.side.call host env).from (x.at pds) = (.ok (res, out), t)) :
      NetStep host mayCall mayClose ⟨pds, before ++ x :: after⟩
        ⟨t.pds, before ++ ⟨x.side, if out = none then .shaking else .comm, t⟩ :: after⟩
  | close {pds : Nat → Pd} {before after : List Slot} {x : Slot} (env : CloseEnv)
      {r : Except Stop PUnit} {t : Shake} (hphase : x.phase = .comm ∨ x.phase = .broken)
      (hmay : mayClose x pds env) (hrun : (x.side.close env).from (x.at pds) = (r, t)) :
      NetStep host mayCall mayClose ⟨pds, before ++ x :: after⟩
        ⟨t.pds, before ++ ⟨x.side, if r = .ok ⟨⟩ then .closed else .broken, t⟩ :: after⟩

def netSystem (host : Host) (mayCall : Slot → (Nat → Pd) → ShakeEnv → Prop)
    (mayClose : Slot → (Nat → Pd) → CloseEnv → Prop) : System Net where
  init n := n = ⟨fun _ => ⟨0, false⟩, []⟩
  step := NetStep host mayCall mayClose

/-- The live bases of a device. -/
def Net.live (n : Net) (d : Nat) : Nat := (n.slots.map (fun x => x.shake.live d)).sum

/-- Each device has a reference for each live base, and its PD is allocated just while it
has references. -/
def RefsFollow (n : Net) : Prop :=
  ∀ d, (n.pds d).pdRefs = n.live d ∧ ((n.pds d).pd = true ↔ 0 < (n.pds d).pdRefs)

section
variable {host : Host} {env : ShakeEnv} {r : Role} {s t u : Shake} {path : List Site}

/-! ## A call -/

/-- What a call of a handshake leaves in a slot. -/
structure CallLeaves (host : Host) (env : ShakeEnv) (r : Role) (path : List Site) (s : Shake)
    (a : NcclResult × Option Nat) (t : Shake) : Prop where
  kept : Kept s t
  shaking : a.2 = none → Fresh r t ∨
    (InShake r t ∧ ∃ x, path.find? (stopsAt host env) = some x ∧ r.kind x ≠ .early)
  comm : a.2 ≠ none → Tidy t.dataQps ∧ Full t

/-- The two labels, for a comm without bases and QPs. -/
theorem labels_fresh {exitLabel : Shake → Shake} (hexit : ExitLabel r exitLabel) (h : Sound u)
    (hbare : Bare u) {d : DataQps} {new : List ProvCall}
    (hd : Sweep env.cleanup (loopQps u.base.nqps) u.dataQps d new) :
    Fresh r (exitLabel (u.withDataQps d).freeComm) where
  base := by
    rw [hexit.base]
    rfl
  blocks := labels_blocks hexit h d
  tidy := by
    have hempty : ∀ q, d.Empty q :=
      hd.empty_iff.mpr fun q k hk => absurd (hbare.empty q k) hk
    have hqps : (exitLabel (u.withDataQps d).freeComm).dataQps = d := by
      unfold Shake.dataQps
      rw [hexit.base, hexit.calls]
      have hnone : d.qps = fun _ _ => none := by
        funext q k
        exact hempty q k
      show DataQps.mk (fun _ _ => none) d.calls = d
      rw [← hnone]
    rw [hqps]
    exact hd.tidy
  stage := hexit.stage _

/-- A call that cannot lose a base. -/
theorem wholeCall_keeps {body : BodyCall PUnit} {exitLabel : Shake → Shake}
    (hexit : ExitLabel r exitLabel)
    (hbody : Follows (points host env r s) body path (fun _ => Ready s) s)
    (hguard : ∀ x, path.find? (stopsAt host env) = some x → r.kind x = .fail →
      r.beforeBases x = true) :
    wp (wholeCall env body exitLabel) (CallLeaves host env r path s) (fun _ _ => True) s := by
  have hkeep : ∀ v, Kept s v → Kept s (exitLabel v) := fun v hv =>
    hv.same (hexit.pds v) (by rw [hexit.base])
  unfold wholeCall
  rw [wp_bind, wp_attempt]
  apply wp.mono hbody
  · rintro _ u ⟨_, hready⟩
    have hqps : (exitLabel u).dataQps = u.dataQps := by
      unfold Shake.dataQps
      rw [hexit.base, hexit.calls]
    refine ⟨hkeep u hready.kept, fun hnone => ?_, fun _ => ⟨hqps ▸ hready.sound.tidy, ?_⟩⟩
    · have hsome := hready.sound.comm
      rw [show u.comm = none from hnone] at hsome
      cases hsome
    · have hfull := hready.full
      unfold Full at hfull ⊢
      rwa [hexit.base]
  · rintro e u ⟨x, ⟨hx, -⟩, hleaves⟩
    cases hleaves with
    | waits hkind hshake _ hkept =>
      exact ⟨hkept, fun _ => .inr ⟨hshake, x, hx, by rw [hkind]; decide⟩, fun h => absurd rfl h⟩
    | ret hres left =>
      cases left with
      | early hkind hfresh hkept => exact ⟨hkept, fun _ => .inl hfresh, fun h => absurd rfl h⟩
      | direct hkind hshake hkept =>
        exact ⟨hkept, fun _ => .inr ⟨hshake, x, hx, by rw [hkind]; decide⟩, fun h => absurd rfl h⟩
    | fail hres left =>
      obtain ⟨hkept, hbare⟩ := left.kept (hguard x hx left.kind)
      rw [wp_bind]
      apply wp.mono (failLabel_sweeps left.sound)
      · rintro _ _ ⟨d, new, hd, rfl⟩
        refine ⟨hkeep _ (hkept.same rfl ?_), fun _ => .inl ?_, fun h => absurd rfl h⟩
        · exact hbare.bases.symm
        · exact labels_fresh hexit left.sound hbare hd
      · exact fun _ _ hfalse => hfalse.elim
    | bad => trivial

/-- A call that stops before it makes again the bases that it has found. -/
theorem wholeCall_again {body : BodyCall PUnit} {exitLabel : Shake → Shake}
    (hbody : wp body (fun _ _ => False) (fun e t => e = .badPointer ∨ LeavesAgain r s e t) s) :
    wp (wholeCall env body exitLabel) (fun a t => a.2 = none ∧ InShake r t ∧ Kept s t)
      (fun _ _ => True) s := by
  unfold wholeCall
  rw [wp_bind, wp_attempt]
  apply wp.mono hbody
  · exact fun _ _ hfalse => hfalse.elim
  · rintro e u (rfl | ⟨⟨res, rfl⟩, hshake, hkept⟩)
    · trivial
    · exact ⟨rfl, hshake, hkept⟩

/-! ## The slots -/

/-- A handshake can be called again, and a comm can be closed. -/
structure SlotGood (host : Host) (x : Slot) : Prop where
  shaking : x.phase = .shaking → Fresh x.side.role x.shake ∨
    (InShake x.side.role x.shake ∧ (x.side = .send → PrefixOk host))
  comm : x.phase = .comm ∨ x.phase = .broken → Tidy x.shake.dataQps ∧ DevBases x.shake

theorem Side.fresh_pds (side : Side) (s : Shake) (pds : Nat → Pd) :
    side.role.fresh { s with pds } = side.role.fresh s := by
  cases side <;> rfl

theorem Side.known_pds (side : Side) (s : Shake) (pds : Nat → Pd) :
    side.role.known { s with pds } = side.role.known s := by
  cases side <;> rfl

variable {x : Slot} {pds : Nat → Pd}

theorem InShake.at_pds (h : InShake x.side.role x.shake) (pds : Nat → Pd) :
    InShake x.side.role (x.at pds) :=
  ⟨h.sound.same rfl rfl rfl rfl, (x.side.known_pds x.shake pds).trans h.known, h.full, h.empty,
    h.buffer, h.reused⟩

theorem SlotGood.mayCall (h : SlotGood host x) (pds : Nat → Pd) (hphase : x.phase = .shaking)
    (hbare : beforeQps x.shake.stage.state = true → x.shake.base.bases = []) :
    MayCall x.side.role (x.at pds) ∧
      (x.side = .send → InShake x.side.role (x.at pds) → PrefixOk host) := by
  obtain hfresh | ⟨hshake, hnames⟩ := h.shaking hphase
  · have hat : Fresh x.side.role (x.at pds) :=
      ⟨hfresh.base, hfresh.blocks, hfresh.tidy, x.side.fresh_pds x.shake pds ▸ hfresh.stage⟩
    refine ⟨.fresh hat, fun hside hshake => ?_⟩
    have hknown := hshake.known
    have hstage := hat.stage
    rw [hside] at hknown hstage
    have hstart : (x.at pds).stage.state = .start := hstage
    have hknown' : connect.known (x.at pds).stage.state = true := hknown
    rw [hstart] at hknown'
    cases hknown'
  · exact ⟨.shake (hshake.at_pds pds) hbare, fun hside _ => hnames hside⟩

/-- A call that finds no bases, or all of them. -/
theorem SlotGood.leaves (h : SlotGood host x) (hphase : x.phase = .shaking)
    (hbare : beforeQps x.shake.stage.state = true → x.shake.base.bases = [])
    (hfails : ∀ site, (x.side.path host env (x.at pds)).find? (stopsAt host env) = some site →
      x.side.role.kind site = .fail → x.side.role.beforeBases site = true) :
    wp (x.side.call host env)
      (CallLeaves host env x.side.role (x.side.path host env (x.at pds)) (x.at pds))
      (fun _ _ => True) (x.at pds) := by
  obtain ⟨hcall, hnames⟩ := h.mayCall pds hphase hbare
  cases hside : x.side with
  | send =>
    rw [hside] at hcall hfails hnames
    exact wholeCall_keeps connect.exit_label
      (connect.body_follows hcall (Kept.refl _) (hnames rfl)) hfails
  | recv =>
    rw [hside] at hcall hfails
    exact wholeCall_keeps accept.exit_label (accept.body_follows hcall (Kept.refl _)) hfails

/-- A call that finds bases in the state in which they are made. -/
theorem SlotGood.call_again (h : SlotGood host x) (hphase : x.phase = .shaking)
    (hearly : beforeQps x.shake.stage.state = true) (hbases : x.shake.base.bases ≠ []) {y : Site}
    (hy : (pathBeforeBases (x.side.path host env (x.at pds))).find? (stopsAt host env) = some y)
    (hkind : x.side.role.kind y ≠ .fail) {res : NcclResult} {out : Option Nat}
    (hrun : (x.side.call host env).from (x.at pds) = (.ok (res, out), t)) :
    Kept (x.at pds) t ∧ SlotGood host ⟨x.side, if out = none then .shaking else .comm, t⟩ := by
  obtain hfresh | ⟨hshake, hnames⟩ := h.shaking hphase
  · rw [hfresh.base] at hbases
    exact absurd rfl hbases
  have hat := hshake.at_pds pds
  have hstate := (hshake.reused hearly).resolve_left hbases
  have hleaves : out = none ∧ InShake x.side.role t ∧ Kept (x.at pds) t := by
    cases hside : x.side with
    | send =>
      rw [hside] at hat hstate hy hrun
      exact (wholeCall_again
        (connect.again_leaves hat (Kept.refl _) (hnames hside) hstate hbases hy)).returns hrun
    | recv =>
      rw [hside] at hat hstate hy hkind hrun
      exact (wholeCall_again
        (accept.again_leaves hat (Kept.refl _) hstate hbases hy hkind)).returns hrun
  obtain ⟨rfl, hshake', hkept⟩ := hleaves
  refine ⟨hkept, fun _ => .inr ⟨hshake', hnames⟩, fun hcomm => ?_⟩
  rcases hcomm with hcomm | hcomm <;> cases hcomm

/-- A call that loses no base leaves a slot that is good. -/
theorem SlotGood.call (h : SlotGood host x) (hphase : x.phase = .shaking)
    (hmay : CallKeepsBases host x pds env) {res : NcclResult} {out : Option Nat}
    (hrun : (x.side.call host env).from (x.at pds) = (.ok (res, out), t)) :
    Kept (x.at pds) t ∧ SlotGood host ⟨x.side, if out = none then .shaking else .comm, t⟩ := by
  by_cases hagain : beforeQps x.shake.stage.state = true ∧ x.shake.base.bases ≠ []
  · obtain ⟨y, hy, hkind⟩ := hmay.again hagain.1 hagain.2
    exact h.call_again hphase hagain.1 hagain.2 hy hkind hrun
  rw [not_and, not_not] at hagain
  have hleaves := (h.leaves hphase hagain hmay.fails).returns hrun
  refine ⟨hleaves.kept, ?_, ?_⟩
  · intro hshaking
    have hout : out = none := by
      by_contra hne
      simp [hne] at hshaking
    refine (hleaves.shaking hout).imp_right ?_
    rintro ⟨hshake, y, hy, hkind⟩
    refine ⟨hshake, fun hside => ?_⟩
    rw [show (Slot.mk x.side _ t).side = x.side from rfl] at hside
    rw [hside] at hy hkind
    refine connect.stops_findDev.mp (?_ : stopsAt host env .findDev = false)
    by_contra hstop
    rw [Bool.not_eq_false] at hstop
    have hy' : (connect.path host env (x.at pds)).find? (stopsAt host env) = some y := hy
    rw [connect.path, List.find?_cons_of_pos hstop] at hy'
    cases hy'
    exact hkind rfl
  · intro hcomm
    have hout : out ≠ none := by
      intro hnone
      simp [hnone] at hcomm
    obtain ⟨htidy, hfull⟩ := hleaves.comm hout
    refine ⟨htidy, ?_⟩
    unfold DevBases
    rw [show t.base.bases = _ from hfull]

/-- A close that ends each base once, and in which the provider does not refuse a PD. -/
theorem SlotGood.close (h : SlotGood host x) (hphase : x.phase = .comm ∨ x.phase = .broken)
    {closeEnv : CloseEnv} (hmay : CloseKeepsBases x pds closeEnv)
    (hrefs : ∀ d, ((x.at pds).live d : Int) ≤ (pds d).pdRefs) {res : Except Stop PUnit}
    (hrun : (x.side.close closeEnv).from (x.at pds) = (res, t)) :
    Kept (x.at pds) t ∧ SlotGood host ⟨x.side, if res = .ok ⟨⟩ then .closed else .broken, t⟩ := by
  obtain ⟨htidy, hbases⟩ := h.comm hphase
  have hthere := hmay.there
  have hfollow : Follows (closePoints closeEnv (x.at pds)) (x.side.close closeEnv)
      (x.side.closePath (x.at pds)) (fun _ t => Kept (x.at pds) t) (x.at pds) := by
    cases hside : x.side with
    | send =>
      rw [hside] at hthere
      exact closeComm_follows sendFirst_asked sendDevSites_asked hrefs htidy hbases hthere
    | recv =>
      rw [hside] at hthere
      exact closeComm_follows recvFirst_asked recvDevSites_asked hrefs htidy hbases hthere
  cases res with
  | ok _ =>
    refine ⟨(wp.returns hfollow hrun).2, fun hnone => ?_, fun hnone => ?_⟩
    · cases hnone
    · rcases hnone with hnone | hnone <;> cases hnone
  | error e =>
    obtain ⟨y, ⟨hy, -⟩, hleft⟩ := wp.leaves hfollow hrun
    have hleft := hleft (hmay.dealloc y hy)
    refine ⟨hleft.kept, fun hnone => ?_, fun _ => ⟨hleft.tidy, hleft.bases⟩⟩
    cases hnone

/-! ## The runs -/

/-- What holds in every state of a run whose calls and closes keep the bases. -/
structure NetGood (host : Host) (n : Net) : Prop where
  refs : ∀ d, (n.pds d).pdRefs = n.live d
  alloc : PdsOk n.pds
  slots : ∀ x ∈ n.slots, SlotGood host x

theorem Net.live_split (pds : Nat → Pd) (before after : List Slot) (x : Slot) (d : Nat) :
    (Net.mk pds (before ++ x :: after)).live d =
      (Net.mk pds before).live d + x.shake.live d + (Net.mk pds after).live d := by
  simp [Net.live, Nat.add_assoc]

/-- A slot changes, and the references with its bases. -/
theorem NetGood.swap {before after : List Slot} {y : Slot}
    (h : NetGood host ⟨pds, before ++ x :: after⟩) (hkept : Kept (x.at pds) y.shake)
    (hy : SlotGood host y) : NetGood host ⟨y.shake.pds, before ++ y :: after⟩ where
  refs d := by
    have hold : (pds d).pdRefs = _ := h.refs d
    have hmoved : (y.shake.pds d).pdRefs - y.shake.live d = (pds d).pdRefs - x.shake.live d :=
      hkept.refs d
    have hsame : (Net.mk y.shake.pds before).live d = (Net.mk pds before).live d := rfl
    have hsame' : (Net.mk y.shake.pds after).live d = (Net.mk pds after).live d := rfl
    show (y.shake.pds d).pdRefs = _
    rw [Net.live_split] at hold ⊢
    omega
  alloc := hkept.alloc h.alloc
  slots z hz := by
    rcases List.mem_append.mp hz with hz | hz
    · exact h.slots z (List.mem_append_left _ hz)
    rcases List.mem_cons.mp hz with rfl | hz
    · exact hy
    · exact h.slots z (List.mem_append_right _ (List.mem_cons_of_mem x hz))

/-- The bases of a comm are among those that have references. -/
theorem NetGood.live_le {before after : List Slot}
    (h : NetGood host ⟨pds, before ++ x :: after⟩) (d : Nat) :
    ((x.at pds).live d : Int) ≤ (pds d).pdRefs := by
  have hrefs : (pds d).pdRefs = _ := h.refs d
  have hsame : (x.at pds).live d = x.shake.live d := rfl
  rw [Net.live_split] at hrefs
  omega

theorem netGood_step {n n' : Net} (h : NetGood host n)
    (hstep : NetStep host (CallKeepsBases host) CloseKeepsBases n n') : NetGood host n' := by
  cases hstep with
  | new side s hnew =>
    refine ⟨fun d => ?_, h.alloc, fun x hx => ?_⟩
    · have hnone : s.live d = 0 := by
        unfold Shake.live
        rw [hnew.base]
        rfl
      have hrefs := h.refs d
      unfold Net.live at hrefs ⊢
      rw [List.map_cons, List.sum_cons, hnone, Nat.zero_add]
      exact hrefs
    · rcases List.mem_cons.mp hx with rfl | hx
      · exact ⟨fun _ => .inl hnew.begins, nofun⟩
      · exact h.slots x hx
  | @call pds before after x env res out t hphase hmay hrun =>
    obtain ⟨hkept, hgood⟩ := (h.slots x (by simp)).call hphase hmay hrun
    exact h.swap hkept hgood
  | @close pds before after x env res t hphase hmay hrun =>
    obtain ⟨hkept, hgood⟩ := (h.slots x (by simp)).close hphase hmay h.live_le hrun
    exact h.swap hkept hgood

/-- While no call goes to the label `fail` with bases, no call makes bases again, no close ends
a base again, and the provider takes the PDs back, the references of each device are its live
bases, and its PD is allocated just while there are any. -/
theorem pd_refs_count_the_live_bases {n : Net}
    (h : Reachable (netSystem host (CallKeepsBases host) CloseKeepsBases) n) : RefsFollow n := by
  have hgood : NetGood host n := by
    apply h.invariant
    · rintro _ rfl
      refine ⟨fun _ => rfl, fun d => ?_, fun x hx => absurd hx List.not_mem_nil⟩
      simp
    · exact fun _ _ _ hn hstep => netGood_step hn hstep
  exact fun d => ⟨hgood.refs d, hgood.alloc d⟩

end

/-! ## Two comms on two devices, and one that is lost -/

/-- A host with one virtual device of two devices. -/
def twoDevHost : Host := plainHost [⟨[0, 1], by decide, by decide⟩] 1 false

/-- Nothing fails. -/
def goodEnv : ShakeEnv := failsAt .findDev

/-- The devices have two link layers. -/
def mixedEnv : ShakeEnv := { goodEnv with linkLayer := fun i => i + 1 }

/-- Nothing comes on the socket. -/
def waitEnv : ShakeEnv := { goodEnv with incomplete := fun _ => true }

/-- The slot of a handle that has not been used. -/
def newSlot : Slot := ⟨.send, .shaking, newHandle⟩

def goodClose : CloseEnv := ⟨fun _ => ncclSuccess, fun _ _ => true⟩

/-- The speed buffer cannot be deregistered. -/
def refusedClose : CloseEnv :=
  ⟨fun x => if x = .remoteSpeedMr then ncclSystemError else ncclSuccess, fun _ _ => true⟩

/-- A comm after its first call. -/
def opened : Shake := ((ncclIbConnectImpl twoDevHost goodEnv).from newHandle).2

def openedSlot : Slot := ⟨.send, .comm, opened⟩

/-- The comm after a close that fails. -/
def halfClosed : Shake := ((ncclIbCloseSend refusedClose).from opened).2

def halfClosedSlot : Slot := ⟨.send, .broken, halfClosed⟩

/-- Another handle after a call that returns behind the bases. -/
def leftBases : Shake :=
  ((ncclIbConnectImpl twoDevHost mixedEnv).from { newHandle with pds := halfClosed.pds }).2

def leftSlot : Slot := ⟨.send, .shaking, leftBases⟩

/-- The other handle after a call that waits. -/
def waitsAgain : Shake := ((ncclIbConnectImpl twoDevHost waitEnv).from leftBases).2

def waitsSlot : Slot := ⟨.send, .shaking, waitsAgain⟩

/-- The comm after its second close. -/
def closedTwice : Shake :=
  ((ncclIbCloseSend goodClose).from { halfClosed with pds := waitsAgain.pds }).2

/-- A close is repeated that had ended no base, and a call that makes no base again. -/
theorem a_second_close_and_call_keep_the_count :
    Reachable (netSystem twoDevHost (CallKeepsBases twoDevHost) CloseKeepsBases)
      ⟨closedTwice.pds, [waitsSlot, ⟨.send, .closed, closedTwice⟩]⟩ ∧
      (opened.pds 0).pdRefs = 1 ∧ (waitsAgain.pds 0).pdRefs = 2 ∧ (closedTwice.pds 0).pdRefs = 1 ∧
      RefsFollow
        ⟨closedTwice.pds, [waitsSlot, ⟨.send, .closed, closedTwice⟩]⟩ := by
  let net := netSystem twoDevHost (CallKeepsBases twoDevHost) CloseKeepsBases
  have hinit : Reachable net ⟨fun _ => ⟨0, false⟩, []⟩ := Reachable.init rfl
  have hnew : Reachable net ⟨fun _ => ⟨0, false⟩, [] ++ newSlot :: []⟩ :=
    hinit.step (NetStep.new .send newHandle newHandle_new)
  have hopened : Reachable net ⟨opened.pds, [] ++ openedSlot :: []⟩ := by
    have hrun : (newSlot.side.call twoDevHost goodEnv).from (newSlot.at fun _ => ⟨0, false⟩) =
        (.ok (ncclSuccess, some 0), opened) := rfl
    have hfind : (connect.path twoDevHost goodEnv newHandle).find? (stopsAt twoDevHost goodEnv) =
        none := by decide
    refine hnew.step (NetStep.call goodEnv rfl ⟨fun site hsite => ?_, fun he => ?_⟩ hrun)
    · cases hfind.symm.trans hsite
    · cases he
  have hhalf : Reachable net ⟨halfClosed.pds, [] ++ halfClosedSlot :: []⟩ := by
    have hrun : (openedSlot.side.close refusedClose).from (openedSlot.at opened.pds) =
        (.error (.ret ncclSystemError), halfClosed) := rfl
    have hfind : (closePath sendFirst sendDevSites opened).find? (closeStops refusedClose) =
        some .remoteSpeedMr := by decide
    have hpassed : passed (closeStops refusedClose) (closePath sendFirst sendDevSites opened) =
        [.socket, .dataQps opened.heldParts, .resiliencyClose] := by decide
    refine hopened.step (NetStep.close refusedClose (.inl rfl) ⟨fun site hsite => ?_, ?_⟩ hrun)
    · cases hfind.symm.trans hsite
      rfl
    · intro e _ hpass
      have hpass : _ ∈ passed (closeStops refusedClose) (closePath sendFirst sendDevSites opened) :=
        hpass
      rw [hpassed] at hpass
      simp at hpass
  have hsecond : Reachable net ⟨halfClosed.pds, [] ++ newSlot :: [halfClosedSlot]⟩ :=
    hhalf.step (NetStep.new .send newHandle newHandle_new)
  have hleft : Reachable net
      ⟨leftBases.pds, [] ++ leftSlot :: [halfClosedSlot]⟩ := by
    have hrun : (newSlot.side.call twoDevHost mixedEnv).from (newSlot.at halfClosed.pds) =
        (.ok (ncclInternalError, none), leftBases) := rfl
    have hfind : (connect.path twoDevHost mixedEnv (newSlot.at halfClosed.pds)).find?
        (stopsAt twoDevHost mixedEnv) = some (.linkLayer 1) := by decide
    refine hsecond.step (NetStep.call mixedEnv rfl ⟨fun site hsite hkind => ?_, fun he => ?_⟩ hrun)
    · cases hfind.symm.trans hsite
      cases hkind
    · cases he
  have hwaits : Reachable net
      ⟨waitsAgain.pds, [] ++ waitsSlot :: [halfClosedSlot]⟩ := by
    have hrun : (leftSlot.side.call twoDevHost waitEnv).from (leftSlot.at leftBases.pds) =
        (.ok (ncclSuccess, none), waitsAgain) := rfl
    have hfind : (connect.path twoDevHost waitEnv leftBases).find? (stopsAt twoDevHost waitEnv) =
        some (.incomplete .devListIn) := by decide
    have hbefore : (pathBeforeBases (connect.path twoDevHost waitEnv leftBases)).find?
        (stopsAt twoDevHost waitEnv) = some (.incomplete .devListIn) := by decide
    refine hleft.step (NetStep.call waitEnv rfl ⟨fun site hsite hkind => ?_, fun _ _ => ?_⟩ hrun)
    · cases hfind.symm.trans hsite
      cases hkind
    · exact ⟨_, hbefore, by decide⟩
  have hclosed : Reachable net ⟨closedTwice.pds,
      [waitsSlot] ++ ⟨.send, .closed, closedTwice⟩ :: []⟩ := by
    have hrun : (halfClosedSlot.side.close goodClose).from (halfClosedSlot.at waitsAgain.pds) =
        (.ok ⟨⟩, closedTwice) := rfl
    have hfind : (closePath sendFirst sendDevSites { halfClosed with pds := waitsAgain.pds }).find?
        (closeStops goodClose) = none := by decide
    have hthere : ∀ e ∈ halfClosed.base.vProps.zipIdx, (e.2, e.1) ∈ halfClosed.base.bases := by
      decide
    have hbefore : Reachable net ⟨waitsAgain.pds, [waitsSlot] ++ halfClosedSlot :: []⟩ := hwaits
    refine hbefore.step (NetStep.close goodClose (.inr rfl) ⟨fun site hsite => ?_, ?_⟩ hrun)
    · cases hfind.symm.trans hsite
    · exact fun e he _ => hthere e he
  exact ⟨hclosed, by decide, by decide, by decide, pd_refs_count_the_live_bases hclosed⟩

/-- The comm of the first call is lost when its CQ is not created. The reference of its base
stays. -/
theorem a_failed_cq_leaves_a_reference :
    ¬ ∀ host n, Reachable (netSystem host (fun _ _ _ => True) (fun _ _ _ => True)) n →
      RefsFollow n := by
  intro hall
  have hinit : Reachable (netSystem oneDevHost (fun _ _ _ => True) (fun _ _ _ => True))
      ⟨fun _ => ⟨0, false⟩, []⟩ := Reachable.init rfl
  have hnew : Reachable (netSystem oneDevHost (fun _ _ _ => True) (fun _ _ _ => True))
      ⟨fun _ => ⟨0, false⟩, [] ++ newSlot :: []⟩ :=
    hinit.step (NetStep.new .send newHandle newHandle_new)
  have hrun : (newSlot.side.call oneDevHost (failsAt (.createCq 0))).from
      (newSlot.at fun _ => ⟨0, false⟩) =
        (.ok (ncclSystemError, none),
          ((ncclIbConnectImpl oneDevHost (failsAt (.createCq 0))).from newHandle).2) := rfl
  have hfailed := hall oneDevHost _
    (hnew.step (NetStep.call (failsAt (.createCq 0)) rfl trivial hrun))
  have hrefs := (hfailed 0).1
  revert hrefs
  decide

end net_ib.lifecycle
