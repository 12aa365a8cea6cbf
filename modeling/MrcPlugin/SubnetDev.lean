-- The choice of a device on the subnet of the peer (connect.cc). A merged device is
-- taken when its Ethernet PFs match. A PF whose GID cannot be read is passed over.
import MrcPlugin.GidIndex

namespace net_ib.subnet

/-! ## The search -/

/-- The devices, with the answers of their ports: a port answers anew for each place of
a merged device. -/
structure SubnetHost where
  mergedDevs : List (List Nat)
  portAttr : Nat → IbvPortAttr
  user : GidFilter
  port : Nat → Nat → GidPort

/-- A PF is looked at. -/
def SubnetHost.ethernet (host : SubnetHost) (ibDevN : Nat) : Bool :=
  (host.portAttr ibDevN).link_layer = IBV_LINK_LAYER_ETHERNET

/-- The GID of the PF in place `i` of a merged device, if it can be read. -/
def SubnetHost.localGid (host : SubnetHost) (devIdx i ibDevN : Nat) : Option IbvGid :=
  let port := host.port devIdx i
  let (gidIndex, res) := ncclIbGetGidIndex port host.user (host.portAttr ibDevN) 0
  if res ≠ ncclSuccess then none
  else
    match port.queryGid (host.portAttr ibDevN).gid_tbl_len gidIndex with
    | .error _ => none
    | .ok localGid => some localGid

/-- The loop over the PFs of a merged device, from place `i` on: `checked` and
`matched`. -/
def countPfs (host : SubnetHost) (remoteGids : List IbvGid) (prefixLen : Nat) (devIdx : Nat) :
    List Nat → Nat → Nat × Nat → Nat × Nat
  | [], _, counts => counts
  | ibDevN :: devs, i, (checked, matched) =>
    let counts :=
      if !host.ethernet ibDevN then (checked, matched)
      else
        match host.localGid devIdx i ibDevN with
        | none => (checked, matched)
        | some localGid =>
          if validGid localGid && subnetMatchesAny localGid remoteGids prefixLen then
            (checked + 1, matched + 1)
          else (checked + 1, matched)
    countPfs host remoteGids prefixLen devIdx devs (i + 1) counts

/-- Whether the PFs of a merged device that were checked all match. -/
def allPfsMatch (host : SubnetHost) (remoteGids : List IbvGid) (prefixLen : Nat) (devIdx : Nat) :
    Bool :=
  let (checked, matched) :=
    countPfs host remoteGids prefixLen devIdx (host.mergedDevs.getD devIdx []) 0 (0, 0)
  checked > 0 && matched = checked

/-- `ncclIbFindDevBySubnet`: what is stored in `*foundDev`, and the result. -/
def ncclIbFindDevBySubnet (host : SubnetHost) (remoteGids : List IbvGid) (prefixLen defaultDev : Int) :
    Int × NcclResult :=
  if prefixLen < 1 ∨ prefixLen > 32 then (defaultDev, ncclInvalidArgument)
  else if !remoteGids.any validGid then (defaultDev, ncclSuccess)
  else if 0 ≤ defaultDev ∧ defaultDev < host.mergedDevs.length ∧
      allPfsMatch host remoteGids prefixLen.toNat defaultDev.toNat then (defaultDev, ncclSuccess)
  else
    match (List.range host.mergedDevs.length).find? (fun devIdx =>
      !decide (Int.ofNat devIdx = defaultDev) && allPfsMatch host remoteGids prefixLen.toNat devIdx) with
    | some devIdx => (devIdx, ncclSuccess)
    | none => (defaultDev, ncclSuccess)

/-! ## What the search is for -/

/-- A GID is valid and on the subnet of a valid remote one. -/
def OnSubnet (remoteGids : List IbvGid) (prefixLen : Nat) (localGid : IbvGid) : Prop :=
  validGid localGid = true ∧
    ∃ remoteGid ∈ remoteGids, validGid remoteGid = true ∧ gidSameSubnet localGid remoteGid prefixLen = true

/-- Place `i` of a merged device holds an Ethernet PF. -/
def SubnetHost.EthernetPf (host : SubnetHost) (devIdx i ibDevN : Nat) : Prop :=
  (host.mergedDevs.getD devIdx [])[i]? = some ibDevN ∧ host.ethernet ibDevN = true

/-- A merged device is fully reachable: it has an Ethernet PF, and each of them has a GID
on the subnet. -/
def Reaches (host : SubnetHost) (remoteGids : List IbvGid) (prefixLen : Nat) (devIdx : Nat) : Prop :=
  (∃ i ibDevN, host.EthernetPf devIdx i ibDevN) ∧
    ∀ i ibDevN, host.EthernetPf devIdx i ibDevN →
      ∃ localGid, host.localGid devIdx i ibDevN = some localGid ∧
        OnSubnet remoteGids prefixLen localGid

/-- The Ethernet PFs of a merged device whose GID can be read have it on the subnet, and
there is one. -/
def Matches (host : SubnetHost) (remoteGids : List IbvGid) (prefixLen : Nat) (devIdx : Nat) : Prop :=
  (∃ i ibDevN localGid, host.EthernetPf devIdx i ibDevN ∧
    host.localGid devIdx i ibDevN = some localGid) ∧
    ∀ i ibDevN localGid, host.EthernetPf devIdx i ibDevN →
      host.localGid devIdx i ibDevN = some localGid → OnSubnet remoteGids prefixLen localGid

/-- The GID of every Ethernet PF of a merged device can be read. -/
def Answers (host : SubnetHost) (devIdx : Nat) : Prop :=
  ∀ i ibDevN, host.EthernetPf devIdx i ibDevN →
    ∃ localGid, host.localGid devIdx i ibDevN = some localGid

/-- The choice among `n` devices by which of them are good: the default one if it is
good, else the first good one, else the default one. -/
def Chosen (good : Nat → Prop) (n : Nat) (defaultDev found : Int) : Prop :=
  found = defaultDev ∧ ((∃ d < n, (d : Int) = defaultDev ∧ good d) ∨ ∀ d < n, ¬good d) ∨
    (∀ d < n, (d : Int) = defaultDev → ¬good d) ∧
      ∃ d < n, found = d ∧ good d ∧ ∀ d' < d, ¬good d'

/-- The first good device, where the default one comes before all others. -/
def First (good : Nat → Prop) (n : Nat) (defaultDev : Int) (d : Nat) : Prop :=
  d < n ∧ good d ∧
    ((d : Int) = defaultDev ∨
      (∀ d' < n, (d' : Int) = defaultDev → ¬good d') ∧ ∀ d' < d, ¬good d')

/-- The search succeeds. When a remote GID is valid, it chooses by which devices are
fully reachable, and else it takes the default one. -/
def FindsReachable (host : SubnetHost) (remoteGids : List IbvGid) (prefixLen defaultDev : Int) : Prop :=
  (ncclIbFindDevBySubnet host remoteGids prefixLen defaultDev).2 = ncclSuccess ∧
    (remoteGids.any validGid = false →
      (ncclIbFindDevBySubnet host remoteGids prefixLen defaultDev).1 = defaultDev) ∧
    (remoteGids.any validGid = true →
      Chosen (Reaches host remoteGids prefixLen.toNat) host.mergedDevs.length defaultDev
        (ncclIbFindDevBySubnet host remoteGids prefixLen defaultDev).1)

/-! ## The choice -/

section
variable {good : Nat → Prop} {n d : Nat} {defaultDev found : Int}

/-- The first good device is the one that is chosen. -/
theorem Chosen.eq_first (h : Chosen good n defaultDev found) (hfirst : First good n defaultDev d) :
    found = d := by
  obtain ⟨hlt, hgood, hplace⟩ := hfirst
  obtain ⟨rfl, ⟨d', hd', heq, hgood'⟩ | hnone⟩ | ⟨hdefault, d', hd', rfl, hgood', hlower⟩ := h
  · obtain heq' | ⟨hno, -⟩ := hplace
    · exact heq'.symm
    · exact absurd hgood' (hno d' hd' heq)
  · exact absurd hgood (hnone d hlt)
  · obtain heq | ⟨-, hlower'⟩ := hplace
    · exact absurd hgood (hdefault d hlt heq)
    have h1 : ¬d < d' := fun hlt' => hlower d hlt' hgood
    have h2 : ¬d' < d := fun hlt' => hlower' d' hlt' hgood'
    omega

/-- Fewer good devices lead to the same choice exactly when the first one is still good,
or it is the default one and no device is good any more. -/
theorem Chosen.fewer_iff {better : Nat → Prop} (h : Chosen good n defaultDev found)
    (hsub : ∀ d, better d → good d) :
    Chosen better n defaultDev found ↔
      ∀ d, First good n defaultDev d →
        better d ∨ (d : Int) = defaultDev ∧ ∀ d' < n, ¬better d' := by
  constructor
  · intro hbetter d hfirst
    have hd := h.eq_first hfirst
    obtain ⟨heq, ⟨d', hd', heq', hb⟩ | hnone⟩ | ⟨-, d', hd', heq, hb, -⟩ := hbetter
    · left
      have : d' = d := by omega
      rw [← this]
      exact hb
    · exact .inr ⟨hd.symm.trans heq, hnone⟩
    · left
      have : d' = d := by omega
      rw [← this]
      exact hb
  · intro hcond
    obtain ⟨rfl, ⟨d, hd, heq, hgood⟩ | hnone⟩ | ⟨hdefault, d, hd, rfl, hgood, hlower⟩ := h
    · left
      obtain hb | ⟨-, hnone⟩ := hcond d ⟨hd, hgood, .inl heq⟩
      · exact ⟨rfl, .inl ⟨d, hd, heq, hb⟩⟩
      · exact ⟨rfl, .inr hnone⟩
    · exact .inl ⟨rfl, .inr fun d hd hb => hnone d hd (hsub d hb)⟩
    · right
      obtain hb | ⟨heq, -⟩ := hcond d ⟨hd, hgood, .inr ⟨hdefault, hlower⟩⟩
      · exact ⟨fun d hd heq hb => hdefault d hd heq (hsub d hb), d, hd, rfl, hb,
          fun d' hd' hb' => hlower d' hd' (hsub d' hb')⟩
      · exact absurd hgood (hdefault d hd heq)

end

/-! ## The counts -/

/-- The GIDs that the loop sees, from place `i` on. -/
def seenGids (host : SubnetHost) (devIdx : Nat) (devs : List Nat) (i : Nat) : List IbvGid :=
  (devs.zipIdx i).filterMap (fun (ibDevN, i) =>
    if host.ethernet ibDevN then host.localGid devIdx i ibDevN else none)

section
variable {host : SubnetHost} {remoteGids : List IbvGid} {prefixLen devIdx : Nat}

theorem onSubnet_iff (localGid : IbvGid) :
    (validGid localGid && subnetMatchesAny localGid remoteGids prefixLen) = true ↔
      OnSubnet remoteGids prefixLen localGid := by
  unfold OnSubnet subnetMatchesAny
  simp only [Bool.and_eq_true, List.any_eq_true]

/-- The loop counts the GIDs that it sees, and those on the subnet. -/
theorem countPfs_eq (devs : List Nat) (i checked matched : Nat) :
    countPfs host remoteGids prefixLen devIdx devs i (checked, matched) =
      (checked + (seenGids host devIdx devs i).length,
        matched + (seenGids host devIdx devs i).countP (fun localGid =>
          validGid localGid && subnetMatchesAny localGid remoteGids prefixLen)) := by
  induction devs generalizing i checked matched with
  | nil => rfl
  | cons ibDevN devs ih =>
    have hseen : seenGids host devIdx (ibDevN :: devs) i =
        (if host.ethernet ibDevN then host.localGid devIdx i ibDevN else none).toList ++
          seenGids host devIdx devs (i + 1) := by
      unfold seenGids
      rw [List.zipIdx_cons, List.filterMap_cons]
      cases hgid : (if host.ethernet ibDevN then host.localGid devIdx i ibDevN else none) with
      | none => simp [hgid]
      | some localGid => simp [hgid]
    rw [hseen, countPfs]
    cases hether : host.ethernet ibDevN with
    | false => simp [ih]
    | true =>
      simp only [Bool.not_true, Bool.false_eq_true, if_false, if_true]
      cases hgid : host.localGid devIdx i ibDevN with
      | none => simp [ih]
      | some localGid =>
        simp only [Option.toList_some, List.cons_append, List.nil_append, List.length_cons,
          List.countP_cons]
        split
        · rw [ih]
          simp only [Prod.mk.injEq]
          omega
        · rw [ih]
          simp only [Prod.mk.injEq]
          omega

theorem mem_seenGids (localGid : IbvGid) :
    localGid ∈ seenGids host devIdx (host.mergedDevs.getD devIdx []) 0 ↔
      ∃ i ibDevN, host.EthernetPf devIdx i ibDevN ∧
        host.localGid devIdx i ibDevN = some localGid := by
  unfold seenGids SubnetHost.EthernetPf
  rw [List.mem_filterMap]
  constructor
  · rintro ⟨⟨ibDevN, i⟩, hmem, hgid⟩
    rw [List.mem_zipIdx_iff_getElem?] at hmem
    simp only at hgid
    split at hgid
    · rename_i hether
      exact ⟨i, ibDevN, ⟨hmem, hether⟩, hgid⟩
    · cases hgid
  · rintro ⟨i, ibDevN, ⟨hmem, hether⟩, hgid⟩
    refine ⟨(ibDevN, i), List.mem_zipIdx_iff_getElem?.mpr hmem, ?_⟩
    simp only
    rw [if_pos hether, hgid]

/-- A device passes when the PFs whose GID can be read match. -/
theorem allPfsMatch_iff :
    allPfsMatch host remoteGids prefixLen devIdx = true ↔
      Matches host remoteGids prefixLen devIdx := by
  unfold allPfsMatch Matches
  rw [countPfs_eq]
  simp only [Nat.zero_add, Bool.and_eq_true, decide_eq_true_eq]
  rw [List.countP_eq_length, gt_iff_lt, List.length_pos_iff_exists_mem]
  simp only [onSubnet_iff, mem_seenGids]
  constructor
  · rintro ⟨⟨localGid, i, ibDevN, hpf, hgid⟩, hall⟩
    exact ⟨⟨i, ibDevN, localGid, hpf, hgid⟩, fun i ibDevN g hpf hgid => hall g ⟨i, ibDevN, hpf, hgid⟩⟩
  · rintro ⟨⟨i, ibDevN, localGid, hpf, hgid⟩, hall⟩
    exact ⟨⟨localGid, i, ibDevN, hpf, hgid⟩, fun g ⟨i, ibDevN, hpf, hgid⟩ => hall i ibDevN g hpf hgid⟩

/-- A fully reachable device is one that matches and whose PFs all have a GID. -/
theorem reaches_iff :
    Reaches host remoteGids prefixLen devIdx ↔
      Matches host remoteGids prefixLen devIdx ∧ Answers host devIdx := by
  constructor
  · rintro ⟨⟨i, ibDevN, hpf⟩, hall⟩
    refine ⟨⟨?_, ?_⟩, ?_⟩
    · obtain ⟨localGid, hgid, -⟩ := hall i ibDevN hpf
      exact ⟨i, ibDevN, localGid, hpf, hgid⟩
    · intro i ibDevN localGid hpf hgid
      obtain ⟨localGid', hgid', hon⟩ := hall i ibDevN hpf
      rw [hgid] at hgid'
      cases hgid'
      exact hon
    · intro i ibDevN hpf
      obtain ⟨localGid, hgid, -⟩ := hall i ibDevN hpf
      exact ⟨localGid, hgid⟩
  · rintro ⟨⟨⟨i, ibDevN, -, hpf, -⟩, hall⟩, hanswers⟩
    refine ⟨⟨i, ibDevN, hpf⟩, ?_⟩
    intro i ibDevN hpf
    obtain ⟨localGid, hgid⟩ := hanswers i ibDevN hpf
    exact ⟨localGid, hgid, hall i ibDevN localGid hpf hgid⟩

end

/-! ## The law -/

/-- With a valid remote GID, the search chooses by which devices match. -/
theorem find_chosen (host : SubnetHost) (remoteGids : List IbvGid) (prefixLen defaultDev : Int)
    (hlen : 1 ≤ prefixLen ∧ prefixLen ≤ 32) (hvalid : remoteGids.any validGid = true) :
    (ncclIbFindDevBySubnet host remoteGids prefixLen defaultDev).2 = ncclSuccess ∧
      Chosen (Matches host remoteGids prefixLen.toNat) host.mergedDevs.length defaultDev
        (ncclIbFindDevBySubnet host remoteGids prefixLen defaultDev).1 := by
  unfold ncclIbFindDevBySubnet
  rw [if_neg (by omega), hvalid]
  simp only [Bool.not_true, Bool.false_eq_true, if_false]
  split
  · rename_i hdefault
    obtain ⟨h0, hlt, hmatch⟩ := hdefault
    refine ⟨rfl, .inl ⟨rfl, .inl ⟨defaultDev.toNat, by omega, by omega, ?_⟩⟩⟩
    exact allPfsMatch_iff.mp hmatch
  rename_i hdefault
  have hno : ∀ d < host.mergedDevs.length, (d : Int) = defaultDev →
      ¬Matches host remoteGids prefixLen.toNat d := by
    intro d hd heq hmatch
    refine hdefault ⟨by omega, by omega, ?_⟩
    rw [← heq, Int.toNat_natCast]
    exact allPfsMatch_iff.mpr hmatch
  split
  · rename_i d hfind
    rw [List.find?_range_eq_some] at hfind
    obtain ⟨hd, hmem, hlower⟩ := hfind
    rw [Bool.and_eq_true] at hd
    refine ⟨rfl, .inr ⟨hno, d, List.mem_range.mp hmem, rfl, allPfsMatch_iff.mp hd.2, ?_⟩⟩
    intro d' hd' hmatch
    have hskip := hlower d' hd'
    rw [allPfsMatch_iff.mpr hmatch] at hskip
    simp only [Bool.and_true, Bool.not_not, decide_eq_true_eq] at hskip
    exact hno d' (Nat.lt_trans hd' (List.mem_range.mp hmem)) hskip hmatch
  · rename_i hfind
    rw [List.find?_eq_none] at hfind
    refine ⟨rfl, .inl ⟨rfl, .inr ?_⟩⟩
    intro d hd hmatch
    have hskip := hfind d (List.mem_range.mpr hd)
    rw [allPfsMatch_iff.mpr hmatch] at hskip
    simp only [Bool.and_true, Bool.not_eq_true', decide_eq_false_iff_not, not_not] at hskip
    exact hno d hd hskip hmatch

/-- The search chooses by which devices are fully reachable exactly when no remote GID is
valid, or the first device that matches has a GID on all its PFs, or that device is the
default one and no device is fully reachable. -/
theorem the_search_finds_reachable_devices_iff (host : SubnetHost) (remoteGids : List IbvGid)
    (prefixLen defaultDev : Int) (hlen : 1 ≤ prefixLen ∧ prefixLen ≤ 32) :
    FindsReachable host remoteGids prefixLen defaultDev ↔
      remoteGids.any validGid = false ∨
        ∀ d, First (Matches host remoteGids prefixLen.toNat) host.mergedDevs.length defaultDev d →
          Answers host d ∨ (d : Int) = defaultDev ∧
            ∀ d' < host.mergedDevs.length, ¬Reaches host remoteGids prefixLen.toNat d' := by
  unfold FindsReachable
  cases hvalid : remoteGids.any validGid with
  | false =>
    have hfind : ncclIbFindDevBySubnet host remoteGids prefixLen defaultDev =
        (defaultDev, ncclSuccess) := by
      unfold ncclIbFindDevBySubnet
      rw [if_neg (by omega), hvalid]
      rfl
    rw [hfind]
    simp
  | true =>
    obtain ⟨hres, hchosen⟩ := find_chosen host remoteGids prefixLen defaultDev hlen hvalid
    have hiff := hchosen.fewer_iff (fun d h => (reaches_iff.mp h).1)
    simp only [hres, Bool.true_eq_false, false_or, true_and, false_implies, true_implies]
    rw [hiff]
    constructor
    · intro h d hfirst
      exact (h d hfirst).imp_left (fun hr => (reaches_iff.mp hr).2)
    · intro h d hfirst
      exact (h d hfirst).imp_left (fun ha => reaches_iff.mpr ⟨hfirst.2.1, ha⟩)

/-! ## The search of a handshake -/

section
variable {host : SubnetHost} {h : Host} {gids : Nat → Option IbvGid} {remoteGids : List IbvGid}

/-- The devices of a side, whose GIDs stay the same during a search. -/
structure SameDevs (host : SubnetHost) (h : Host) (gids : Nat → Option IbvGid) : Prop where
  devs : host.mergedDevs = h.mergedDevs.map NcclIbMergedDev.devs
  ethernet : ∀ d, host.ethernet d = h.ethernet d
  gids : ∀ devIdx i d, host.localGid devIdx i d = gids d

theorem SameDevs.seenGids_eq (hs : SameDevs host h gids) (devIdx : Nat) (devs : List Nat) (i : Nat) :
    seenGids host devIdx devs i =
      devs.filterMap (fun d => if h.ethernet d then gids d else none) := by
  unfold seenGids
  simp only [hs.ethernet, hs.gids]
  induction devs generalizing i with
  | nil => rfl
  | cons d devs ih => rw [List.zipIdx_cons, List.filterMap_cons, List.filterMap_cons, ih]

theorem SameDevs.allPfsMatch_eq (hs : SameDevs host h gids) (devIdx : Nat) :
    (h.mergedDevs[devIdx]?.any (net_ib.allPfsMatch h gids remoteGids)) =
      allPfsMatch host remoteGids h.subnetPrefixLen.toNat devIdx := by
  have hdevs : host.mergedDevs.getD devIdx [] =
      (h.mergedDevs[devIdx]?.map NcclIbMergedDev.devs).getD [] := by
    rw [hs.devs, List.getD_eq_getElem?_getD, List.getElem?_map]
  unfold allPfsMatch
  rw [hdevs, countPfs_eq, hs.seenGids_eq, Bool.eq_iff_iff]
  cases h.mergedDevs[devIdx]? with
  | none => simp
  | some mDev =>
    unfold net_ib.allPfsMatch
    simp only [Option.any_some, Option.map_some, Option.getD_some, Nat.zero_add,
      Bool.and_eq_true, decide_eq_true_eq, List.countP_eq_length, gt_iff_lt, List.length_pos_iff,
      List.all_eq_true, Bool.not_eq_true', List.isEmpty_eq_false_iff]

/-- The search of a handshake is this one. -/
theorem SameDevs.find_eq (hs : SameDevs host h gids) (defaultDev : Nat) :
    net_ib.ncclIbFindDevBySubnet h gids remoteGids defaultDev =
      if (ncclIbFindDevBySubnet host remoteGids h.subnetPrefixLen defaultDev).2 = ncclSuccess then
        .ok (ncclIbFindDevBySubnet host remoteGids h.subnetPrefixLen defaultDev).1.toNat
      else
        .error (.ret (ncclIbFindDevBySubnet host remoteGids h.subnetPrefixLen defaultDev).2) := by
  have hlen : host.mergedDevs.length = h.mergedDevs.length := by rw [hs.devs, List.length_map]
  have hrange : ∀ d, allPfsMatch host remoteGids h.subnetPrefixLen.toNat d = true →
      d < host.mergedDevs.length := by
    intro d hd
    rw [← hs.allPfsMatch_eq] at hd
    rw [hlen]
    by_contra hge
    rw [List.getElem?_eq_none (by omega)] at hd
    cases hd
  unfold net_ib.ncclIbFindDevBySubnet ncclIbFindDevBySubnet
  simp only [hs.allPfsMatch_eq, hlen]
  split
  · rfl
  split
  · rfl
  have hdefault : allPfsMatch host remoteGids h.subnetPrefixLen.toNat defaultDev = true ↔
      0 ≤ (defaultDev : Int) ∧ (defaultDev : Int) < h.mergedDevs.length ∧
        allPfsMatch host remoteGids h.subnetPrefixLen.toNat (defaultDev : Int).toNat = true := by
    rw [Int.toNat_natCast]
    constructor
    · intro hmatch
      have := hrange _ hmatch
      exact ⟨by omega, by omega, hmatch⟩
    · exact fun hmatch => hmatch.2.2
  split
  · rename_i hmatch
    rw [if_pos (hdefault.mp hmatch)]
    rfl
  · rename_i hmatch
    rw [if_neg (fun hcon => hmatch (hdefault.mpr hcon))]
    have hsame : (fun devIdx : Nat => decide (devIdx ≠ defaultDev) &&
          allPfsMatch host remoteGids h.subnetPrefixLen.toNat devIdx) =
        fun devIdx : Nat => !decide (Int.ofNat devIdx = (defaultDev : Int)) &&
          allPfsMatch host remoteGids h.subnetPrefixLen.toNat devIdx := by
      funext devIdx
      have hcast : Int.ofNat devIdx = (defaultDev : Int) ↔ devIdx = defaultDev := by
        rw [Int.ofNat_eq_natCast, Int.natCast_inj]
      rw [decide_not, decide_eq_decide.mpr hcast]
    rw [hsame]
    cases (List.range h.mergedDevs.length).find? (fun devIdx : Nat =>
      !decide (Int.ofNat devIdx = (defaultDev : Int)) &&
        allPfsMatch host remoteGids h.subnetPrefixLen.toNat devIdx) with
    | none => rfl
    | some devIdx => rfl

end

/-- Devices on Ethernet with one GID each, 10.1.x.1 in subnet x. Those that `refused`
tells do not tell their GID. -/
def oneGidHost (mergedDevs : List (List Nat)) (subnetOf : Nat → Nat) (refused : Nat → Bool) :
    SubnetHost where
  mergedDevs
  portAttr := fun _ => { roceAttr with gid_tbl_len := 1 }
  user := wantsV2
  port := fun devIdx i =>
    let d := (mergedDevs.getD devIdx []).getD i 0
    { GidPort.ofTable [⟨0, 0, 0xffff, 0x0a010001 + 256 * subnetOf d⟩] "RoCE v2" with
      refuses := fun _ _ => refused d }

/-- The default device is on subnet 0, and the other one on subnet 1 with the peer. -/
theorem the_other_device_is_found :
    FindsReachable (oneGidHost [[0], [1]] id (fun _ => false)) [⟨0, 0, 0xffff, 0x0a010109⟩] 24 0 := by
  refine (the_search_finds_reachable_devices_iff _ _ _ _ (by decide)).mpr (.inr ?_)
  rintro d -
  exact .inl fun _ _ _ => ⟨_, rfl⟩

/-- Two PFs and one of them alone. The first does not tell its GID, and the second is on
the subnet of the peer. -/
def silentPf : SubnetHost := oneGidHost [[0, 1], [1]] id (fun d => d = 0)

/-- The default device is kept although the other one is fully reachable. -/
theorem a_device_with_a_silent_pf_is_kept :
    ¬FindsReachable silentPf [⟨0, 0, 0xffff, 0x0a010109⟩] 24 0 := by
  intro h
  have hfound : (ncclIbFindDevBySubnet silentPf [⟨0, 0, 0xffff, 0x0a010109⟩] 24 0).1 = 0 := by
    decide
  have h0 : ¬Reaches silentPf [⟨0, 0, 0xffff, 0x0a010109⟩] 24 0 := by
    intro hr
    obtain ⟨localGid, hgid, -⟩ := hr.2 0 0 ⟨rfl, rfl⟩
    cases hgid
  have h1 : Reaches silentPf [⟨0, 0, 0xffff, 0x0a010109⟩] 24 1 := by
    refine reaches_iff.mpr ⟨allPfsMatch_iff.mp (by decide), ?_⟩
    rintro (_ | i) ibDevN ⟨hmem, -⟩
    · cases hmem
      exact ⟨_, rfl⟩
    · cases hmem
  have hchosen := h.2.2 (by decide)
  rw [hfound] at hchosen
  obtain ⟨-, ⟨d, -, hd, hr⟩ | hnone⟩ | ⟨-, d, -, hd, hr, -⟩ := hchosen
  · have : d = 0 := by omega
    rw [this] at hr
    exact h0 hr
  · exact hnone 1 (by decide) h1
  · have : d = 0 := by omega
    rw [this] at hr
    exact h0 hr

end net_ib.subnet
