-- ncclIbCloseSend and ncclIbCloseRecv (connect.cc), as far as the bases of the devices and
-- their PDs. The first call that fails ends the close, and the bases that it has not come
-- to stay.
import MrcPlugin.HandshakeClean

namespace net_ib.lifecycle

open calls

/-! ## The functions -/

/-- The points where a close can stop. `i` is a device of the comm. -/
inductive CloseSite
  | socket
  | dataQps (parts : List (Nat × Kind))
  | resiliencyClose
  | remoteSpeedMr
  | flushQp (i : Nat)
  | flushMr (i : Nat)
  | ctsFifoMr (i : Nat)
  | cmplsRecordsMr (i : Nat)
  | putSignalMr (i : Nat)
  | speedUpdateMr (i : Nat)
  | resiliencyDev (i : Nat)
  | destroyMrcCq (i : Nat)
  | destroyCq (i : Nat)
  | deallocPd (i : Nat)
  | resiliencyDestroy
deriving DecidableEq, Repr

/-- What each step of a close gives, and what the provider says to the destroy of a part of
a QP. A step that the comm does not need gives `ncclSuccess`. -/
structure CloseEnv where
  answer : CloseSite → NcclResult
  cleanup : Nat → DestroyEnv

def closeAsk (env : CloseEnv) (x : CloseSite) : CCall PUnit :=
  if env.answer x = ncclSuccess then pure ⟨⟩ else throw (.ret (env.answer x))

namespace Shake

variable (s : Shake)

/-- `--pdRefs`. The base is not live any more. -/
def endBase (i ibDevN : Nat) : Shake :=
  { s with
    pds := Function.update s.pds ibDevN { s.pds ibDevN with pdRefs := (s.pds ibDevN).pdRefs - 1 }
    base := { s.base with bases := s.base.bases.erase (i, ibDevN) } }

end Shake

def ncclIbDestroyBase (env : CloseEnv) (i ibDevN : Nat) : CCall PUnit := do
  closeAsk env (.destroyMrcCq i)
  closeAsk env (.destroyCq i)
  modify (fun s => s.endBase i ibDevN)
  let s ← get
  if (s.pds ibDevN).pdRefs = 0 then do
    closeAsk env (.deallocPd i)
    modify (fun s => s.setPd ibDevN ⟨0, false⟩)
  else pure ⟨⟩

/-- The turn of the loop over the devices. The base of a device has the device that
`vProps` has. -/
def closeDev (env : CloseEnv) (devSites : Nat → List CloseSite) (d : Nat × Nat) : CCall PUnit := do
  forM (devSites d.2) (closeAsk env)
  ncclIbDestroyBase env d.2 d.1

/-- The two functions, with what each of them does before the loop over the devices and
for each device before its base. -/
def closeComm (env : CloseEnv) (first : List CloseSite) (devSites : Nat → List CloseSite) :
    CCall PUnit := do
  closeAsk env .socket
  let s ← get
  onQps (ncclIbDestroyDataQps s.base.nqps env.cleanup)
  forM first (closeAsk env)
  let s ← get
  forM s.base.vProps.zipIdx (closeDev env devSites)
  closeAsk env .resiliencyDestroy
  modify Shake.freeComm

def sendFirst : List CloseSite := [.resiliencyClose, .remoteSpeedMr]

def sendDevSites (i : Nat) : List CloseSite :=
  [.ctsFifoMr i, .cmplsRecordsMr i, .putSignalMr i, .resiliencyDev i]

def ncclIbCloseSend (env : CloseEnv) : CCall PUnit := closeComm env sendFirst sendDevSites

def recvFirst : List CloseSite := [.resiliencyClose]

/-- The result of `ncclIbResiliencyDevDestroy` is not looked at. -/
def recvDevSites (i : Nat) : List CloseSite :=
  [.flushQp i, .flushMr i, .ctsFifoMr i, .cmplsRecordsMr i, .speedUpdateMr i]

def ncclIbCloseRecv (env : CloseEnv) : CCall PUnit := closeComm env recvFirst recvDevSites

/-! ## The path -/

def closeStops (env : CloseEnv) : CloseSite → Bool
  | .dataQps parts => parts.any (fun p => !env.cleanup p.1 p.2)
  | x => decide (env.answer x ≠ ncclSuccess)

/-- A step whose result is checked, and nothing else. -/
def CloseSite.asked : CloseSite → Bool
  | .dataQps _ => false
  | _ => true

def CloseSite.isDealloc : CloseSite → Bool
  | .deallocPd _ => true
  | _ => false

/-- The parts of QPs that the destroy of the data QPs asks for. -/
def Shake.heldParts (s : Shake) : List (Nat × Kind) :=
  (loopQps s.base.nqps).flatMap (fun q => (s.dataQps.heldKinds q).map (Prod.mk q))

/-- The PDs when a base of the device is gone. -/
def dropPd (pds : Nat → Pd) (d : Nat) : Nat → Pd :=
  Function.update pds d ⟨(pds d).pdRefs - 1, decide ((pds d).pdRefs - 1 ≠ 0) && (pds d).pd⟩

def dropPath (pds : Nat → Pd) (d i : Nat) : List CloseSite :=
  if (pds d).pdRefs - 1 = 0 then [.deallocPd i] else []

def destroyBasePath (pds : Nat → Pd) (d i : Nat) : List CloseSite :=
  [.destroyMrcCq i] ++ ([.destroyCq i] ++ dropPath pds d i)

def closeDevsPath (devSites : Nat → List CloseSite) (pds : Nat → Pd) :
    List (Nat × Nat) → List CloseSite
  | [] => []
  | d :: rest =>
    (devSites d.2 ++ destroyBasePath pds d.1 d.2) ++ closeDevsPath devSites (dropPd pds d.1) rest

def closePath (first : List CloseSite) (devSites : Nat → List CloseSite) (s : Shake) :
    List CloseSite :=
  [.socket] ++ ([.dataQps s.heldParts] ++ (first ++
    (closeDevsPath devSites s.pds s.base.vProps.zipIdx ++ [.resiliencyDestroy])))

/-- The bases of a comm are those of its devices, as far as no close has ended them. -/
def DevBases (s : Shake) : Prop :=
  s.base.bases.Sublist (s.base.vProps.zipIdx.map Prod.swap).reverse

/-- What a close leaves when it stops: the references follow the live bases, and the close
can be called again. -/
structure CloseLeft (s0 t : Shake) : Prop where
  kept : Kept s0 t
  tidy : Tidy t.dataQps
  bases : DevBases t

/-- The points of a close. A dealloc of a PD that the provider refuses leaves nothing in
order. -/
def closePoints (env : CloseEnv) (s0 : Shake) : Points CloseSite Stop Shake PUnit where
  stops := closeStops env
  has := fun _ _ => False
  gives := fun _ => []
  leaves := fun _ => []
  ends := fun x _ t => x.isDealloc = false → CloseLeft s0 t

/-- The state when a base of the device is gone. -/
def Shake.dropBase (s : Shake) (i d : Nat) : Shake :=
  { s with
    pds := dropPd s.pds d
    base := { s.base with bases := s.base.bases.erase (i, d) } }

section
variable {env : CloseEnv} {s0 s t : Shake} {x : CloseSite} {d i : Nat}

/-! ## One step -/

theorem closeAsk_follows {Q : PUnit → Shake → Prop} (hx : x.asked = true)
    (hleft : x.isDealloc = false → CloseLeft s0 s) (hQ : Q ⟨⟩ s) :
    Follows (closePoints env s0) (closeAsk env x) [x] Q s := by
  have hstops : closeStops env x = decide (env.answer x ≠ ncclSuccess) := by
    cases x <;> first | rfl | cases hx
  unfold closeAsk
  split
  next h =>
    apply Follows.pass _ rfl hQ
    simp [closePoints, hstops, h]
  next h =>
    apply Follows.stop _ rfl hleft
    simp [closePoints, hstops, h]

theorem closeAsks_follow (l : List CloseSite) (hl : ∀ x ∈ l, x.asked = true)
    (h : CloseLeft s0 s) :
    Follows (closePoints env s0) (forM l (closeAsk env)) l (fun _ t => t = s) s := by
  have hloop : Follows (closePoints env s0) (forM l (closeAsk env)) (l.flatMap fun x => [x])
      (fun _ t => t = s ∧ ∀ x ∈ ([] : List CloseSite), x.asked = true) s := by
    refine Follows.forM (I := fun rest t => t = s ∧ ∀ x ∈ rest, x.asked = true) l ⟨rfl, hl⟩ ?_
    rintro x rest _ ⟨rfl, hrest⟩
    exact closeAsk_follows (hrest x List.mem_cons_self) (fun _ => h)
      ⟨rfl, fun y hy => hrest y (List.mem_cons_of_mem x hy)⟩
  rw [List.flatMap_singleton' l] at hloop
  exact hloop.mono fun _ t ht => ht.1

/-! ## The base of a device -/

/-- A live base goes, and a reference with it. -/
theorem Kept.dropBase (h : Kept s0 s) (hbase : (i, d) ∈ s.base.bases)
    (hrefs : 0 < (s.pds d).pdRefs) : Kept s0 (s.dropBase i d) where
  refs d' := by
    have hlive : (s.dropBase i d).live d' = s.live d' - if d = d' then 1 else 0 := by
      unfold Shake.live Shake.dropBase
      rw [List.countP_erase]
      simp [hbase]
    rw [← h.refs d']
    by_cases hd : d = d'
    · subst hd
      have hpos : 0 < s.live d := List.countP_pos_iff.mpr ⟨(i, d), hbase, by simp⟩
      rw [hlive, if_pos rfl]
      simp only [Shake.dropBase, dropPd, Function.update_self]
      omega
    · rw [hlive, if_neg hd]
      simp [Shake.dropBase, dropPd, Function.update_of_ne (Ne.symm hd)]
  alloc h0 d' := by
    have hs := h.alloc h0
    by_cases hd : d' = d
    · subst hd
      have hd' := (hs d').mpr hrefs
      simp only [Shake.dropBase, dropPd, Function.update_self, hd']
      simp only [Bool.and_true, decide_eq_true_eq]
      omega
    · simp only [Shake.dropBase, dropPd, Function.update_of_ne hd]
      exact hs d'

theorem ncclIbDestroyBase_follows (h : CloseLeft s0 s) :
    Follows (closePoints env s0) (ncclIbDestroyBase env i d) (destroyBasePath s.pds d i)
      (fun _ t => t = s.dropBase i d) s := by
  unfold ncclIbDestroyBase destroyBasePath dropPath
  apply (closeAsk_follows (x := .destroyMrcCq i) rfl (fun _ => h) rfl).seq
  apply (closeAsk_follows (x := .destroyCq i) rfl (fun _ => h) rfl).seq
  apply Follows.write (fun _ => Iff.rfl)
  apply Follows.read
  have hpds : ((s.endBase i d).pds d).pdRefs = (s.pds d).pdRefs - 1 := by
    simp [Shake.endBase]
  rw [hpds]
  split
  next hlast =>
    have hdealloc : Follows (closePoints env s0) (closeAsk env (.deallocPd i)) [.deallocPd i]
        (fun _ t => t = s.endBase i d) (s.endBase i d) :=
      closeAsk_follows (x := .deallocPd i) rfl (fun he => by cases he) rfl
    apply hdealloc.finish (fun _ => Iff.rfl)
    simp [Shake.endBase, Shake.setPd, Shake.dropBase, dropPd, hlast]
  next hmore =>
    apply Follows.pure
    simp [Shake.endBase, Shake.dropBase, dropPd, hmore]

/-- A live base has a reference, when those of the start had. -/
theorem Kept.refs_pos (h : Kept s0 s) (hs0 : ∀ d, (s0.live d : Int) ≤ (s0.pds d).pdRefs)
    (hbase : (i, d) ∈ s.base.bases) : 0 < (s.pds d).pdRefs := by
  have hpos : 0 < s.live d := List.countP_pos_iff.mpr ⟨(i, d), hbase, by simp⟩
  have hrefs := h.refs d
  have hle := hs0 d
  omega

/-- The oldest base goes. -/
theorem erase_oldest {bases : List (Nat × Nat)} {rest : List (Nat × Nat)}
    (hnew : i ∉ rest.map Prod.snd)
    (h : bases.Sublist (((d, i) :: rest).map Prod.swap).reverse) :
    (bases.erase (i, d)).Sublist (rest.map Prod.swap).reverse := by
  have hnot : (i, d) ∉ (rest.map Prod.swap).reverse := by
    rw [List.mem_reverse, List.mem_map]
    rintro ⟨e, he, hswap⟩
    exact hnew (List.mem_map.mpr ⟨e, he, congrArg Prod.fst hswap⟩)
  have herase := h.erase (i, d)
  rw [List.map_cons, List.reverse_cons, Prod.swap_prod_mk, List.erase_append_right _ hnot] at herase
  simpa using herase

/-! ## The close -/

theorem CloseLeft.dropBase (h : CloseLeft s0 s) (hs0 : ∀ d, (s0.live d : Int) ≤ (s0.pds d).pdRefs)
    (hbase : (i, d) ∈ s.base.bases) : CloseLeft s0 (s.dropBase i d) where
  kept := h.kept.dropBase hbase (h.kept.refs_pos hs0 hbase)
  tidy := h.tidy
  bases := List.erase_sublist.trans h.bases

/-- The loop over the devices takes the bases one after the other. Each base that it comes to
has to be there. -/
theorem closeDevs_follow {devSites : Nat → List CloseSite}
    (hsites : ∀ i, ∀ x ∈ devSites i, x.asked = true)
    (hs0 : ∀ d, (s0.live d : Int) ≤ (s0.pds d).pdRefs) (devs : List (Nat × Nat))
    (hnodup : (devs.map Prod.snd).Nodup) (h : CloseLeft s0 s)
    (hbases : s.base.bases.Sublist (devs.map Prod.swap).reverse)
    (hthere : ∀ e ∈ devs, .destroyCq e.2 ∈ passed (closeStops env) (closeDevsPath devSites s.pds devs) →
      (e.2, e.1) ∈ s.base.bases) :
    Follows (closePoints env s0) (forM devs (closeDev env devSites))
      (closeDevsPath devSites s.pds devs) (fun _ t => CloseLeft s0 t ∧ t.base.bases = []) s := by
  induction devs generalizing s with
  | nil => exact Follows.pure ⟨h, List.sublist_nil.mp hbases⟩
  | cons e rest ih =>
    obtain ⟨d, i⟩ := e
    obtain ⟨hnew, hrest⟩ := List.nodup_cons.mp hnodup
    have hturn : Follows (closePoints env s0) (closeDev env devSites (d, i))
        (devSites i ++ destroyBasePath s.pds d i) (fun _ t => t = s.dropBase i d) s :=
      (closeAsks_follow (devSites i) (hsites i) h).seq (ncclIbDestroyBase_follows h)
    rw [List.forM_cons]
    apply hturn.bind_passed
    rintro hpassed _ _ rfl
    have hsplit : passed (closeStops env) (closeDevsPath devSites s.pds ((d, i) :: rest)) =
        (devSites i ++ destroyBasePath s.pds d i) ++
          passed (closeStops env) (closeDevsPath devSites (dropPd s.pds d) rest) :=
      passed_append hpassed
    rw [hsplit] at hthere
    have hbase : (i, d) ∈ s.base.bases := by
      apply hthere (d, i) (List.mem_cons_self ..)
      simp [destroyBasePath]
    apply ih hrest (h.dropBase hs0 hbase) (erase_oldest hnew hbases)
    intro e he hpass
    have hne : (e.2, e.1) ≠ (i, d) := fun heq =>
      hnew (List.mem_map.mpr ⟨e, he, congrArg Prod.fst heq⟩)
    exact (List.mem_erase_of_ne hne).mpr
      (hthere e (List.mem_cons_of_mem _ he) (List.mem_append_right _ hpass))

theorem dataQps_pass_iff :
    closeStops env (.dataQps s.heldParts) = false ↔
      ∀ q ∈ loopQps s.base.nqps, ∀ k, s.dataQps.qps q k ≠ none → env.cleanup q k = true := by
  unfold closeStops Shake.heldParts
  simp only [List.any_eq_false, List.mem_flatMap, List.mem_map, DataQps.mem_heldKinds,
    Bool.not_eq_true', Bool.not_eq_false]
  constructor
  · intro hall q hq k hk
    exact hall (q, k) ⟨q, hq, k, hk, rfl⟩
  · rintro hall _ ⟨q, hq, k, hk, rfl⟩
    exact hall q hq k hk

/-- The destroy of the data QPs fails just when a part that the comm has is refused. -/
theorem destroyDataQps_follows (h : CloseLeft s0 s) :
    Follows (closePoints env s0) (onQps (ncclIbDestroyDataQps s.base.nqps env.cleanup))
      [.dataQps s.heldParts] (fun _ t => CloseLeft s0 t ∧ ∃ d, t = s.withDataQps d) s := by
  have hleft : ∀ t new, Sweep env.cleanup (loopQps s.base.nqps) s.dataQps t new →
      CloseLeft s0 (s.withDataQps t) :=
    fun t new hsweep => ⟨h.kept.same rfl rfl, hsweep.tidy, h.bases⟩
  unfold Follows onQps
  rw [wp_zoom]
  apply (ncclIbDestroyDataQps_spec env.cleanup h.tidy).mono
  · rintro _ t ⟨new, hsweep, hall⟩
    have hpass : closeStops env (.dataQps s.heldParts) = false :=
      dataQps_pass_iff.mpr fun q hq => (hsweep.emptied q hq).mp (hall q hq)
    refine ⟨⟨?_, fun p => ?_⟩, hleft t new hsweep, t, rfl⟩
    · simp [closePoints, hpass]
    · simp [closePoints, Way.got, hpass]
  · rintro e t ⟨new, hsweep, hrefused⟩
    have hstop : closeStops env (.dataQps s.heldParts) = true := by
      by_contra hpass
      rw [Bool.not_eq_true] at hpass
      exact hrefused fun q hq => (hsweep.emptied q hq).mpr (dataQps_pass_iff.mp hpass q hq)
    refine ⟨.dataQps s.heldParts, ⟨?_, fun p => ?_⟩, fun _ => hleft t new hsweep⟩
    · simp [closePoints, hstop]
    · simp [closePoints, Way.got, hstop]

/-- A close of a comm. Each base that it comes to has to be there. -/
theorem closeComm_follows {first : List CloseSite} {devSites : Nat → List CloseSite}
    (hfirst : ∀ x ∈ first, x.asked = true) (hsites : ∀ i, ∀ x ∈ devSites i, x.asked = true)
    (hs : ∀ d, (s.live d : Int) ≤ (s.pds d).pdRefs) (htidy : Tidy s.dataQps) (hbases : DevBases s)
    (hthere : ∀ e ∈ s.base.vProps.zipIdx,
      .destroyCq e.2 ∈ passed (closeStops env) (closePath first devSites s) → (e.2, e.1) ∈ s.base.bases) :
    Follows (closePoints env s) (closeComm env first devSites) (closePath first devSites s)
      (fun _ t => Kept s t) s := by
  have hleft : CloseLeft s s := ⟨Kept.refl s, htidy, hbases⟩
  unfold closeComm
  unfold closePath at hthere ⊢
  apply (closeAsk_follows (x := .socket) (Q := fun _ t => s = t) rfl (fun _ => hleft) rfl).bind_passed
  rintro hsocket _ _ rfl
  apply Follows.read
  apply (destroyDataQps_follows hleft).bind_passed
  rintro hqps _ u ⟨hu, q, rfl⟩
  apply (closeAsks_follow first hfirst hu).bind_passed
  rintro hpassed _ _ rfl
  apply Follows.read
  have hnodup : (s.base.vProps.zipIdx.map Prod.snd).Nodup := by
    rw [List.zipIdx_map_snd]
    exact List.nodup_range'
  apply Follows.bind (R := fun _ t => CloseLeft s t ∧ t.base.bases = [])
  · apply closeDevs_follow hsites hs _ hnodup hu hbases
    intro e he hpass
    apply hthere e he
    show _ ∈ passed (closePoints env s).stops _
    rw [passed_append hsocket, passed_append hqps, passed_append hpassed]
    exact List.mem_append_right _ (List.mem_append_right _ (List.mem_append_right _
      (mem_passed_append hpass)))
  rintro _ v ⟨hv, hnone⟩
  have hend : Kept s v.freeComm := hv.kept.same rfl hnone.symm
  exact (closeAsk_follows (x := .resiliencyDestroy) rfl (fun _ => hv) rfl).finish
    (fun _ => Iff.rfl) hend

theorem sendFirst_asked : ∀ x ∈ sendFirst, x.asked = true := by
  decide

theorem sendDevSites_asked (i : Nat) : ∀ x ∈ sendDevSites i, x.asked = true := by
  simp [sendDevSites, CloseSite.asked]

theorem recvFirst_asked : ∀ x ∈ recvFirst, x.asked = true := by
  decide

theorem recvDevSites_asked (i : Nat) : ∀ x ∈ recvDevSites i, x.asked = true := by
  simp [recvDevSites, CloseSite.asked]

end

end net_ib.lifecycle
