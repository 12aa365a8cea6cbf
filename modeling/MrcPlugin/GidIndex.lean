-- The choice of a GID (connect.cc). On Ethernet the entries of the GID table are
-- looked at one after the other, and each one is compared with the choice so far.
-- The user asks for a family, a range of addresses and a RoCE version.
import MrcPlugin.IbDevs
import MrcPlugin.ConnectQps

namespace net_ib

/-! ## The family and the range of an address -/

/-- `sa_family_t`. -/
inductive SaFamily
  | AF_INET
  | AF_INET6
deriving DecidableEq, Repr

def getGidAddrFamily (gid : IbvGid) : SaFamily := if isInetGid gid then .AF_INET else .AF_INET6

/-- The words of `s6_addr32`. -/
def IbvGid.words (gid : IbvGid) : List Nat := [gid.w0, gid.w1, gid.w2, gid.w3]

/-- The 128 bits of a GID. -/
def IbvGid.number (gid : IbvGid) : Nat :=
  ((gid.w0 * 2 ^ 32 + gid.w1) * 2 ^ 32 + gid.w2) * 2 ^ 32 + gid.w3

/-- The GID of 128 bits. -/
def IbvGid.ofNumber (number : Nat) : IbvGid :=
  ⟨number / 2 ^ 96 % 2 ^ 32, number / 2 ^ 64 % 2 ^ 32, number / 2 ^ 32 % 2 ^ 32, number % 2 ^ 32⟩

theorem IbvGid.ofNumber_number {gid : IbvGid} (h : ∀ w ∈ gid.words, w < 2 ^ 32) :
    IbvGid.ofNumber gid.number = gid := by
  obtain ⟨w0, w1, w2, w3⟩ := gid
  have h0 : w0 < 2 ^ 32 := h w0 (by simp [IbvGid.words])
  have h1 : w1 < 2 ^ 32 := h w1 (by simp [IbvGid.words])
  have h2 : w2 < 2 ^ 32 := h w2 (by simp [IbvGid.words])
  have h3 : w3 < 2 ^ 32 := h w3 (by simp [IbvGid.words])
  simp only [IbvGid.ofNumber, IbvGid.number, IbvGid.mk.injEq]
  refine ⟨?_, ?_, ?_, ?_⟩ <;> omega

/-- `NETMASK`, in the byte order of the host, for 1 to 32 bits. -/
def NETMASK (bits : Nat) : Nat := 0xffffffff ^^^ ((1 <<< (32 - bits)) - 1)

/-- The loop of `matchGidAddrPrefix` over the words of two addresses of six parts, and
the length that is left. -/
def matchWords : List (Nat × Nat) → Int → Int
  | [], prefixlen => prefixlen
  | (base6, addr6) :: words, prefixlen =>
    if prefixlen ≤ 0 then prefixlen
    else if 32 ≤ prefixlen then
      if base6 ≠ addr6 then prefixlen else matchWords words (prefixlen - 32)
    else if base6 &&& NETMASK prefixlen.toNat ≠ addr6 &&& NETMASK prefixlen.toNat then prefixlen
    else 0

/-- `matchGidAddrPrefix`. `base` are the words of an `in_addr` or of an `in6_addr`. -/
def matchGidAddrPrefix (af : SaFamily) (base : List Nat) (prefixlen : Int) (gid : IbvGid) : Bool :=
  match af with
  | .AF_INET =>
    if prefixlen ≤ 0 then prefixlen = 0
    else base.headD 0 &&& NETMASK prefixlen.toNat = gid.w3 &&& NETMASK prefixlen.toNat
  | .AF_INET6 => matchWords (base.zip gid.words) prefixlen = 0

/-! ## The entries of a GID table -/

/-- An entry of a GID table, with the text of its type file under `/sys`. -/
structure GidEntry where
  gid : IbvGid
  type : List Char
deriving DecidableEq, Repr

/-- How a type file can fail: it cannot be opened, it cannot be read, or it is not
mapped into the container, which `read` tells with `EINVAL`. -/
inductive TypeFault
  | closed
  | unreadable
  | unmapped
deriving DecidableEq, Repr

/-- What a port answers while an index is selected. Each question is about an entry,
and comes while a candidate is looked at: 0 before the first one and `gid_tbl_len` after
the last one. `uninit` is what `gidRoceVerNum` holds before it is written. -/
structure GidPort where
  entry : Int → GidEntry
  refuses : Int → Int → Bool
  typeFault : Int → Int → Option TypeFault
  uninit : Int → Int

/-- `wrap_ibv_query_gid`. -/
def GidPort.queryGid (port : GidPort) (candidate index : Int) : Except NcclResult IbvGid :=
  if port.refuses candidate index then .error ncclSystemError else .ok (port.entry index).gid

/-- The version that the text of a type file names. -/
def roceVersion (type : List Char) : Option Int :=
  let gidRoceVerStr := type.take 15
  if "IB/RoCE v1".toList.isPrefixOf gidRoceVerStr || "RoCE v1".toList.isPrefixOf gidRoceVerStr then
    some 1
  else if "RoCE v2".toList.isPrefixOf gidRoceVerStr then some 2
  else none

/-- `ncclIbRoceGetVersionNum`: the version, which stays as it was when the file names
none. -/
def ncclIbRoceGetVersionNum (port : GidPort) (candidate index version : Int) :
    Except NcclResult Int :=
  match port.typeFault candidate index with
  | some .closed => .error ncclSystemError
  | some .unreadable => .error ncclSystemError
  | some .unmapped => .ok version
  | none => .ok ((roceVersion (port.entry index).type).getD version)

/-! ## The choice -/

/-- The parameters of the user. `addr` and `prefixlen` are what `envIbAddrRange` returns
for the family. -/
structure GidFilter where
  gidIndex : Int
  routableFlidGidIndex : Int
  af : SaFamily
  addr : List Nat
  prefixlen : Int
  roceVer : Int

/-- Whether an address is in the range of the user. -/
def GidFilter.inRange (user : GidFilter) (gid : IbvGid) : Bool :=
  matchGidAddrPrefix user.af user.addr user.prefixlen gid

/-- `ncclUpdateGidIndex`: the choice after a candidate. -/
def ncclUpdateGidIndex (port : GidPort) (user : GidFilter) (gidIndexCandidate gidIndex : Int) :
    Except NcclResult Int := do
  let gid ← port.queryGid gidIndexCandidate gidIndex
  let gidCandidate ← port.queryGid gidIndexCandidate gidIndexCandidate
  let gidFam := getGidAddrFamily gid
  let gidCandidateFam := getGidAddrFamily gidCandidate
  let gidCandidateMatchSubnet := user.inRange gidCandidate
  if gidCandidateFam ≠ gidFam ∧ gidCandidateFam = user.af ∧ gidCandidateMatchSubnet then
    return gidIndexCandidate
  else if gidCandidateFam ≠ user.af ∨ !validGid gidCandidate ∨ !gidCandidateMatchSubnet then
    return gidIndex
  else
    let gidRoceVerNum ←
      ncclIbRoceGetVersionNum port gidIndexCandidate gidIndex (port.uninit gidIndexCandidate)
    let gidRoceVerNumCandidate ←
      ncclIbRoceGetVersionNum port gidIndexCandidate gidIndexCandidate (-1)
    if (gidRoceVerNum ≠ gidRoceVerNumCandidate ∨ !validGid gid) ∧
        gidRoceVerNumCandidate = user.roceVer then
      return gidIndexCandidate
    else
      return gidIndex

/-- The loop of `ncclIbGetGidIndex` over the candidates. The index is in the memory of
the caller, and a call that fails leaves it as it is by then. -/
def updateLoop (port : GidPort) (user : GidFilter) : List Int → Int → Int × NcclResult
  | [], gidIndex => (gidIndex, ncclSuccess)
  | gidIndexNext :: rest, gidIndex =>
    match ncclUpdateGidIndex port user gidIndexNext gidIndex with
    | .error res => (gidIndex, res)
    | .ok gidIndex => updateLoop port user rest gidIndex

/-- The candidates: the indexes from 1 to `gidTblLen - 1`. -/
def candidates (gidTblLen : Int) : List Int :=
  (List.range' 1 (gidTblLen.toNat - 1)).map Nat.cast

/-- `ncclIbGetGidIndex`: what is stored in `*gidIndex`, and the result. -/
def ncclIbGetGidIndex (port : GidPort) (user : GidFilter) (portAttr : IbvPortAttr) (gidIndex : Int) :
    Int × NcclResult :=
  let gidTblLen := portAttr.gid_tbl_len
  if portAttr.link_layer = IBV_LINK_LAYER_INFINIBAND then
    let routableGidIndex := user.routableFlidGidIndex
    if routableGidIndex < gidTblLen then
      match port.queryGid 0 routableGidIndex with
      | .error res => (gidIndex, res)
      | .ok gid =>
        if ncclIbExtractFlid gid.number ≠ 0 then (routableGidIndex, ncclSuccess) else (0, ncclSuccess)
    else (0, ncclSuccess)
  else if user.gidIndex ≥ 0 then (user.gidIndex, ncclSuccess)
  else updateLoop port user (candidates gidTblLen) 0

/-! ## What the user asks for -/

/-- An entry with the family, the range and the version of the user, and a valid GID. -/
structure GidFilter.Wants (user : GidFilter) (e : GidEntry) : Prop where
  family : getGidAddrFamily e.gid = user.af
  range : user.inRange e.gid = true
  valid : validGid e.gid = true
  version : roceVersion e.type = some user.roceVer

instance (user : GidFilter) (e : GidEntry) : Decidable (user.Wants e) :=
  decidable_of_iff (getGidAddrFamily e.gid = user.af ∧ user.inRange e.gid = true ∧
    validGid e.gid = true ∧ roceVersion e.type = some user.roceVer)
    ⟨fun ⟨h1, h2, h3, h4⟩ => ⟨h1, h2, h3, h4⟩, fun ⟨h1, h2, h3, h4⟩ => ⟨h1, h2, h3, h4⟩⟩

/-- An entry that no later one replaces: its GID is valid, and its version is the one of
the user although it is out of the range, or its file names none. -/
def GidFilter.Keeps (user : GidFilter) (e : GidEntry) : Prop :=
  validGid e.gid = true ∧
    (roceVersion e.type = none ∨ roceVersion e.type = some user.roceVer ∧ user.inRange e.gid = false)

instance (user : GidFilter) (e : GidEntry) : Decidable (user.Keeps e) :=
  inferInstanceAs (Decidable (_ ∧ _))

/-- The entry that the choice has to start from: entry 0 when it has the family of the
user, and else the first one with the family in the range. -/
def GidFilter.firstOfFamily (user : GidFilter) (entry : Int → GidEntry) (gidTblLen : Int) :
    Option Int :=
  if getGidAddrFamily (entry 0).gid = user.af then some 0
  else
    (candidates gidTblLen).find? (fun i =>
      getGidAddrFamily (entry i).gid = user.af && user.inRange (entry i).gid)

/-- When an entry is wanted, a wanted entry is chosen. -/
def HonoursFilter (user : GidFilter) (port : GidPort) (portAttr : IbvPortAttr) (gidIndex : Int) :
    Prop :=
  (∃ i, 0 ≤ i ∧ i < portAttr.gid_tbl_len ∧ user.Wants (port.entry i)) →
    (ncclIbGetGidIndex port user portAttr gidIndex).2 = ncclSuccess ∧
      user.Wants (port.entry (ncclIbGetGidIndex port user portAttr gidIndex).1)

/-- Every GID and every type file of the table can be read. -/
structure GidPort.Readable (port : GidPort) (gidTblLen : Int) : Prop where
  gids : ∀ k i, 0 ≤ i → i < gidTblLen → port.refuses k i = false
  types : ∀ k i, 0 ≤ i → i < gidTblLen → port.typeFault k i = none

/-! ## One candidate -/

/-- The version that the code has for an entry. -/
def GidPort.version (port : GidPort) (candidate index uninit : Int) : Int :=
  match port.typeFault candidate index with
  | none => (roceVersion (port.entry index).type).getD uninit
  | some _ => uninit

/-- The type file of an entry makes the call fail. -/
def GidPort.typeRefused (port : GidPort) (candidate index : Int) : Bool :=
  port.typeFault candidate index = some .closed || port.typeFault candidate index = some .unreadable

/-- The versions of the choice and of a candidate are compared. -/
def GidFilter.Compares (user : GidFilter) (gid candidate : IbvGid) : Prop :=
  getGidAddrFamily candidate = user.af ∧ user.inRange candidate = true ∧
    getGidAddrFamily gid = user.af ∧ validGid candidate = true

/-- A question about a candidate is refused, where `i` is the choice. -/
def GidPort.Refused (port : GidPort) (user : GidFilter) (k i : Int) : Prop :=
  port.refuses k i = true ∨ port.refuses k k = true ∨
    user.Compares (port.entry i).gid (port.entry k).gid ∧
      (port.typeRefused k i = true ∨ port.typeRefused k k = true)

/-- A candidate replaces the choice, with these versions. -/
def GidFilter.TakesWith (user : GidFilter) (gid candidate : IbvGid)
    (gidRoceVerNum gidRoceVerNumCandidate : Int) : Prop :=
  getGidAddrFamily candidate = user.af ∧ user.inRange candidate = true ∧
    (getGidAddrFamily gid ≠ user.af ∨
      validGid candidate = true ∧ gidRoceVerNumCandidate = user.roceVer ∧
        (gidRoceVerNum ≠ user.roceVer ∨ validGid gid = false))

/-- The candidate `k` replaces the choice `i`. -/
def GidPort.Replaces (port : GidPort) (user : GidFilter) (k i : Int) : Prop :=
  user.TakesWith (port.entry i).gid (port.entry k).gid (port.version k i (port.uninit k))
    (port.version k k (-1))

instance (user : GidFilter) (gid candidate : IbvGid) : Decidable (user.Compares gid candidate) :=
  inferInstanceAs (Decidable (_ ∧ _))

instance (port : GidPort) (user : GidFilter) (k i : Int) : Decidable (port.Refused user k i) :=
  inferInstanceAs (Decidable (_ ∨ _))

instance (user : GidFilter) (gid candidate : IbvGid) (v w : Int) :
    Decidable (user.TakesWith gid candidate v w) :=
  inferInstanceAs (Decidable (_ ∧ _))

instance (port : GidPort) (user : GidFilter) (k i : Int) : Decidable (port.Replaces user k i) :=
  inferInstanceAs (Decidable (user.TakesWith ..))

section
variable {port : GidPort} {user : GidFilter} {len i k : Int} {e c : GidEntry} {ks : List Int}

theorem queryGid_eq (port : GidPort) (k i : Int) :
    port.refuses k i = true ∧ port.queryGid k i = .error ncclSystemError ∨
      port.refuses k i = false ∧ port.queryGid k i = .ok (port.entry i).gid := by
  unfold GidPort.queryGid
  cases port.refuses k i with
  | true => exact .inl ⟨rfl, rfl⟩
  | false => exact .inr ⟨rfl, rfl⟩

theorem getVersion_eq (port : GidPort) (k i uninit : Int) :
    port.typeRefused k i = true ∧
        ncclIbRoceGetVersionNum port k i uninit = .error ncclSystemError ∨
      port.typeRefused k i = false ∧
        ncclIbRoceGetVersionNum port k i uninit = .ok (port.version k i uninit) := by
  unfold GidPort.typeRefused ncclIbRoceGetVersionNum GidPort.version
  cases port.typeFault k i with
  | none => exact .inr ⟨rfl, rfl⟩
  | some fault =>
    cases fault with
    | closed => exact .inl ⟨rfl, rfl⟩
    | unreadable => exact .inl ⟨rfl, rfl⟩
    | unmapped => exact .inr ⟨rfl, rfl⟩

/-- What one candidate does. -/
theorem update_cases (port : GidPort) (user : GidFilter) (k i : Int) :
    port.Refused user k i ∧ ncclUpdateGidIndex port user k i = .error ncclSystemError ∨
    ¬port.Refused user k i ∧ port.Replaces user k i ∧ ncclUpdateGidIndex port user k i = .ok k ∨
    ¬port.Refused user k i ∧ ¬port.Replaces user k i ∧
      ncclUpdateGidIndex port user k i = .ok i := by
  unfold ncclUpdateGidIndex GidPort.Replaces GidFilter.TakesWith GidPort.Refused GidFilter.Compares
  obtain ⟨h1, hq1⟩ | ⟨h1, hq1⟩ := queryGid_eq port k i
  · exact .inl ⟨.inl h1, by rw [hq1]; rfl⟩
  obtain ⟨h2, hq2⟩ | ⟨h2, hq2⟩ := queryGid_eq port k k
  · exact .inl ⟨.inr (.inl h2), by rw [hq1, hq2]; rfl⟩
  rw [hq1, hq2, h1, h2]
  simp only [bind, Except.bind, pure, Except.pure, Bool.false_eq_true, false_or]
  split
  · rename_i hfam
    obtain ⟨hne, hof, hrange⟩ := hfam
    have hother : getGidAddrFamily (port.entry i).gid ≠ user.af := fun h => hne (hof.trans h.symm)
    exact .inr (.inl ⟨fun h => hother h.1.2.2.1, ⟨hof, hrange, .inl hother⟩, rfl⟩)
  rename_i hfam
  split
  · rename_i hskip
    have hno : ¬(getGidAddrFamily (port.entry k).gid = user.af ∧
        user.inRange (port.entry k).gid = true ∧ validGid (port.entry k).gid = true) := by
      rintro ⟨hof, hrange, hvalid⟩
      simp [hof, hrange, hvalid] at hskip
    right
    right
    refine ⟨fun h => hno ⟨h.1.1, h.1.2.1, h.1.2.2.2⟩, ?_, rfl⟩
    rintro ⟨hof, hrange, hother | ⟨hvalid, -, -⟩⟩
    · exact hfam ⟨fun h => hother (h.symm.trans hof), hof, hrange⟩
    · exact hno ⟨hof, hrange, hvalid⟩
  rename_i hskip
  simp only [not_or, Bool.not_eq_true', Bool.not_eq_false, not_not] at hskip
  obtain ⟨hof, hvalid, hrange⟩ := hskip
  have hsame : getGidAddrFamily (port.entry i).gid = user.af := by
    by_contra hother
    exact hfam ⟨fun h => hother (h.symm.trans hof), hof, hrange⟩
  have hcompares : user.Compares (port.entry i).gid (port.entry k).gid :=
    ⟨hof, hrange, hsame, hvalid⟩
  obtain ⟨h1, hv1⟩ | ⟨h1, hv1⟩ := getVersion_eq port k i (port.uninit k)
  · exact .inl ⟨⟨hcompares, .inl h1⟩, by rw [hv1]⟩
  obtain ⟨h2, hv2⟩ | ⟨h2, hv2⟩ := getVersion_eq port k k (-1)
  · exact .inl ⟨⟨hcompares, .inr h2⟩, by rw [hv1, hv2]⟩
  right
  rw [hv1, hv2, h1, h2]
  simp only [Bool.false_eq_true, or_self, and_false, not_false_eq_true, true_and]
  split
  · rename_i hversion
    obtain ⟨hold, hnew⟩ := hversion
    refine .inl ⟨⟨hof, hrange, .inr ⟨hvalid, hnew, ?_⟩⟩, rfl⟩
    rw [hnew] at hold
    simpa using hold
  · rename_i hversion
    refine .inr ⟨?_, rfl⟩
    rintro ⟨-, -, hother | ⟨-, hnew, hold⟩⟩
    · exact hother hsame
    · apply hversion
      rw [hnew]
      simpa using hold

end

/-! ## A table that can be read -/

/-- The version of an entry whose type file can be read. -/
def GidEntry.version (e : GidEntry) (uninit : Int) : Int := (roceVersion e.type).getD uninit

/-- A candidate replaces the choice. -/
def GidFilter.Takes (user : GidFilter) (uninit : Int) (e candidate : GidEntry) : Prop :=
  user.TakesWith e.gid candidate.gid (e.version uninit) (candidate.version (-1))

section
variable {port : GidPort} {user : GidFilter} {len i k : Int} {e c : GidEntry} {ks : List Int}

theorem GidPort.Readable.version_eq (h : port.Readable len) (hi : 0 ≤ i ∧ i < len) (uninit : Int) :
    port.version k i uninit = (port.entry i).version uninit := by
  unfold GidPort.version
  rw [h.types k i hi.1 hi.2]
  rfl

theorem GidPort.Readable.not_refused (h : port.Readable len) (hi : 0 ≤ i ∧ i < len)
    (hk : 0 ≤ k ∧ k < len) : ¬port.Refused user k i := by
  have htype : ∀ j, 0 ≤ j ∧ j < len → port.typeRefused k j = false := by
    intro j hj
    unfold GidPort.typeRefused
    rw [h.types k j hj.1 hj.2]
    rfl
  rintro (hgid | hgid | ⟨-, hgid | hgid⟩)
  · rw [h.gids k i hi.1 hi.2] at hgid
    cases hgid
  · rw [h.gids k k hk.1 hk.2] at hgid
    cases hgid
  · rw [htype i hi] at hgid
    cases hgid
  · rw [htype k hk] at hgid
    cases hgid

theorem GidPort.Readable.replaces_iff (h : port.Readable len) (hi : 0 ≤ i ∧ i < len)
    (hk : 0 ≤ k ∧ k < len) :
    port.Replaces user k i ↔ user.Takes (port.uninit k) (port.entry i) (port.entry k) := by
  unfold GidPort.Replaces GidFilter.Takes
  rw [h.version_eq hi, h.version_eq hk]

/-! ## All candidates -/

/-- The candidates are entries of the table. -/
def InTable (len : Int) (ks : List Int) : Prop := ∀ k ∈ ks, 0 ≤ k ∧ k < len

theorem candidates_inTable (len : Int) : InTable len (candidates len) := by
  intro k hk
  obtain ⟨n, hn, rfl⟩ := List.mem_map.mp hk
  rw [List.mem_range'_1] at hn
  omega

theorem mem_candidates {len i : Int} (h0 : 0 < i) (hi : i < len) : i ∈ candidates len := by
  refine List.mem_map.mpr ⟨i.toNat, ?_, by omega⟩
  rw [List.mem_range'_1]
  omega

/-- The loop takes the candidates one after the other. -/
theorem updateLoop_cons (user : GidFilter) (ks : List Int) (h : port.Readable len)
    (hi : 0 ≤ i ∧ i < len) (hk : 0 ≤ k ∧ k < len) :
    (user.Takes (port.uninit k) (port.entry i) (port.entry k) ∧
      updateLoop port user (k :: ks) i = updateLoop port user ks k) ∨
    (¬user.Takes (port.uninit k) (port.entry i) (port.entry k) ∧
      updateLoop port user (k :: ks) i = updateLoop port user ks i) := by
  rw [← h.replaces_iff hi hk]
  obtain ⟨hrefused, -⟩ | ⟨-, htakes, heq⟩ | ⟨-, htakes, heq⟩ := update_cases port user k i
  · exact absurd hrefused (h.not_refused hi hk)
  · left
    rw [updateLoop, heq]
    exact ⟨htakes, rfl⟩
  · right
    rw [updateLoop, heq]
    exact ⟨htakes, rfl⟩

/-- The loop never fails. -/
theorem updateLoop_succeeds (h : port.Readable len) (hks : InTable len ks) (hi : 0 ≤ i ∧ i < len) :
    (updateLoop port user ks i).2 = ncclSuccess := by
  induction ks generalizing i with
  | nil => rfl
  | cons k ks ih =>
    obtain ⟨hk, hks⟩ := List.forall_mem_cons.mp hks
    obtain ⟨-, heq⟩ | ⟨-, heq⟩ := updateLoop_cons user ks h hi hk
    · rw [heq]
      exact ih hks hk
    · rw [heq]
      exact ih hks hi

/-- A choice that no candidate replaces stays. -/
theorem updateLoop_stays (h : port.Readable len) (hks : InTable len ks) (hi : 0 ≤ i ∧ i < len)
    (hno : ∀ k ∈ ks, ¬user.Takes (port.uninit k) (port.entry i) (port.entry k)) :
    updateLoop port user ks i = (i, ncclSuccess) := by
  induction ks with
  | nil => rfl
  | cons k ks ih =>
    obtain ⟨hk, hks⟩ := List.forall_mem_cons.mp hks
    obtain ⟨hnok, hno⟩ := List.forall_mem_cons.mp hno
    obtain ⟨htakes, -⟩ | ⟨-, heq⟩ := updateLoop_cons user ks h hi hk
    · exact absurd htakes hnok
    · rw [heq]
      exact ih hks hno

/-! ## The choice from an entry of the family -/

theorem GidEntry.version_some {e : GidEntry} {v : Int} (h : roceVersion e.type = some v) (x : Int) :
    e.version x = v := by
  unfold GidEntry.version
  rw [h]
  rfl

/-- An entry with a version has one that can be asked for. -/
theorem roceVersion_pos {type : List Char} {v : Int} (h : roceVersion type = some v) : 0 < v := by
  unfold roceVersion at h
  simp only at h
  split at h
  · cases h
    decide
  split at h
  · cases h
    decide
  · cases h

theorem GidFilter.Wants.not_keeps (h : user.Wants e) : ¬user.Keeps e := by
  rintro ⟨-, hnone | ⟨-, hrange⟩⟩
  · rw [h.version] at hnone
    cases hnone
  · rw [h.range] at hrange
    cases hrange

/-- From the family, a candidate that replaces the choice is wanted. -/
theorem GidFilter.Takes.wants {uninit : Int} (h : user.Takes uninit e c)
    (hfam : getGidAddrFamily e.gid = user.af) (hver : 0 < user.roceVer) : user.Wants c := by
  obtain ⟨hof, hrange, hother | ⟨hvalid, hversion, -⟩⟩ := h
  · exact absurd hfam hother
  refine ⟨hof, hrange, hvalid, ?_⟩
  unfold GidEntry.version at hversion
  cases hnamed : roceVersion c.type with
  | none =>
    rw [hnamed, Option.getD_none] at hversion
    omega
  | some v =>
    rw [hnamed, Option.getD_some] at hversion
    rw [hversion]

/-- A wanted candidate is only refused by a choice that stays or that is wanted itself. -/
theorem GidFilter.Wants.taken {uninit : Int} (h : user.Wants c)
    (hfam : getGidAddrFamily e.gid = user.af) (hopen : ¬user.Keeps e) :
    user.Takes uninit e c ∨ user.Wants e := by
  by_cases hvalid : validGid e.gid = true
  · cases hnamed : roceVersion e.type with
    | none => exact absurd ⟨hvalid, .inl hnamed⟩ hopen
    | some v =>
      by_cases hv : v = user.roceVer
      · right
        rw [hv] at hnamed
        refine ⟨hfam, ?_, hvalid, hnamed⟩
        by_contra hrange
        exact hopen ⟨hvalid, .inr ⟨hnamed, Bool.eq_false_iff.mpr hrange⟩⟩
      · left
        refine ⟨h.family, h.range, .inr ⟨h.valid, GidEntry.version_some h.version _, .inl ?_⟩⟩
        rw [GidEntry.version_some hnamed]
        exact hv
  · left
    exact ⟨h.family, h.range,
      .inr ⟨h.valid, GidEntry.version_some h.version _, .inr (Bool.eq_false_iff.mpr hvalid)⟩⟩

/-- A wanted choice is only replaced by a wanted one. -/
theorem updateLoop_wants (h : port.Readable len) (hks : InTable len ks) (hi : 0 ≤ i ∧ i < len)
    (hwant : user.Wants (port.entry i)) :
    user.Wants (port.entry (updateLoop port user ks i).1) := by
  induction ks generalizing i with
  | nil => exact hwant
  | cons k ks ih =>
    obtain ⟨hk, hks⟩ := List.forall_mem_cons.mp hks
    obtain ⟨htakes, heq⟩ | ⟨-, heq⟩ := updateLoop_cons user ks h hi hk
    · rw [heq]
      exact ih hks hk (htakes.wants hwant.family (roceVersion_pos hwant.version))
    · rw [heq]
      exact ih hks hi hwant

/-- From an entry of the family that can be replaced, a wanted entry is found. -/
theorem updateLoop_finds (h : port.Readable len) (hks : InTable len ks) (hi : 0 ≤ i ∧ i < len)
    (hfam : getGidAddrFamily (port.entry i).gid = user.af) (hopen : ¬user.Keeps (port.entry i))
    (hwant : user.Wants (port.entry i) ∨ ∃ k ∈ ks, user.Wants (port.entry k)) :
    user.Wants (port.entry (updateLoop port user ks i).1) := by
  induction ks with
  | nil =>
    obtain hwant | ⟨k, hk, -⟩ := hwant
    · exact hwant
    · cases hk
  | cons k ks ih =>
    obtain ⟨hk, hks'⟩ := List.forall_mem_cons.mp hks
    obtain hwant | ⟨j, hj, hwant⟩ := hwant
    · exact updateLoop_wants h hks hi hwant
    obtain ⟨htakes, heq⟩ | ⟨hleft, heq⟩ := updateLoop_cons user ks h hi hk
    · rw [heq]
      exact updateLoop_wants h hks' hk (htakes.wants hfam (roceVersion_pos hwant.version))
    · rw [heq]
      apply ih hks'
      obtain rfl | hj := List.mem_cons.mp hj
      · exact .inl ((hwant.taken hfam hopen).resolve_left hleft)
      · exact .inr ⟨j, hj, hwant⟩

/-! ## The choice from an entry of the other family -/

/-- The first entry of the family in the range becomes the choice. -/
theorem updateLoop_first (h : port.Readable len) (hks : InTable len ks) (hi : 0 ≤ i ∧ i < len)
    (hfam : getGidAddrFamily (port.entry i).gid ≠ user.af) {j : Int}
    (hfirst : ks.find? (fun k =>
      getGidAddrFamily (port.entry k).gid = user.af && user.inRange (port.entry k).gid) = some j) :
    ∃ rest, updateLoop port user ks i = updateLoop port user rest j ∧ (∀ k ∈ rest, k ∈ ks) ∧
      ∀ k ∈ ks, user.Wants (port.entry k) → k = j ∨ k ∈ rest := by
  induction ks with
  | nil => cases hfirst
  | cons k ks ih =>
    obtain ⟨hk, hks⟩ := List.forall_mem_cons.mp hks
    rw [List.find?_cons] at hfirst
    split at hfirst
    · rename_i hmatch
      cases hfirst
      rw [Bool.and_eq_true, decide_eq_true_eq] at hmatch
      obtain ⟨-, heq⟩ | ⟨hleft, -⟩ := updateLoop_cons user ks h hi hk
      · exact ⟨ks, heq, fun k hk => List.mem_cons_of_mem _ hk, fun k hk _ => List.mem_cons.mp hk⟩
      · exact absurd ⟨hmatch.1, hmatch.2, .inl hfam⟩ hleft
    · rename_i hmatch
      have hskip : ¬(getGidAddrFamily (port.entry k).gid = user.af ∧
          user.inRange (port.entry k).gid = true) := by
        rintro ⟨h1, h2⟩
        rw [h1, h2] at hmatch
        simp at hmatch
      obtain ⟨htakes, -⟩ | ⟨-, heq⟩ := updateLoop_cons user ks h hi hk
      · exact absurd ⟨htakes.1, htakes.2.1⟩ hskip
      obtain ⟨rest, hrest, hsub, hwants⟩ := ih hks hfirst
      refine ⟨rest, heq.trans hrest, fun k hk => List.mem_cons_of_mem _ (hsub k hk), ?_⟩
      intro j' hj' hwant
      obtain rfl | hj' := List.mem_cons.mp hj'
      · exact absurd ⟨hwant.family, hwant.range⟩ hskip
      · exact hwants j' hj' hwant

/-! ## The law -/

/-- With the value of the user left in the memory of `gidRoceVerNum`, an entry that
`Keeps` describes is never replaced. -/
theorem GidFilter.Keeps.refuses (h : user.Keeps e) (hfam : getGidAddrFamily e.gid = user.af) :
    ¬user.Takes user.roceVer e c := by
  rintro ⟨-, -, hother | ⟨-, -, hversion | hvalid⟩⟩
  · exact hother hfam
  · apply hversion
    obtain hnone | ⟨hsome, -⟩ := h.2
    · unfold GidEntry.version
      rw [hnone]
      rfl
    · exact GidEntry.version_some hsome _
  · rw [h.1] at hvalid
    cases hvalid

theorem firstOfFamily_eq {i : Int} (h : user.firstOfFamily port.entry len = some i) :
    getGidAddrFamily (port.entry i).gid = user.af := by
  unfold GidFilter.firstOfFamily at h
  split at h
  · rename_i hfam
    cases h
    exact hfam
  · have hmatch := List.find?_some h
    rw [Bool.and_eq_true, decide_eq_true_eq] at hmatch
    exact hmatch.1

/-- The loop comes to the first entry of the family, and the wanted entries are there or
still to come. -/
theorem updateLoop_reaches (h : port.Readable len) (hlen : 0 < len) {j : Int}
    (hfirst : user.firstOfFamily port.entry len = some j) :
    ∃ rest, updateLoop port user (candidates len) 0 = updateLoop port user rest j ∧
      InTable len rest ∧ (0 ≤ j ∧ j < len) ∧
      ∀ i, 0 ≤ i → i < len → user.Wants (port.entry i) → i = j ∨ i ∈ rest := by
  have hin := candidates_inTable len
  unfold GidFilter.firstOfFamily at hfirst
  split at hfirst
  · cases hfirst
    refine ⟨_, rfl, hin, ⟨Int.le_refl 0, hlen⟩, ?_⟩
    intro i h0 hi _
    obtain rfl | hpos := Int.le_iff_eq_or_lt.mp h0
    · exact .inl rfl
    · exact .inr (mem_candidates hpos hi)
  · rename_i hfam
    obtain ⟨rest, heq, hsub, hwants⟩ :=
      updateLoop_first h hin ⟨Int.le_refl 0, hlen⟩ hfam hfirst
    refine ⟨rest, heq, fun k hk => hin k (hsub k hk), hin j (List.mem_of_find?_eq_some hfirst), ?_⟩
    intro i h0 hi hwant
    obtain rfl | hpos := Int.le_iff_eq_or_lt.mp h0
    · exact absurd hwant.family hfam
    · exact hwants i (mem_candidates hpos hi) hwant

/-- A wanted entry is of the family, so that there is a first one. -/
theorem firstOfFamily_some (port : GidPort) {i : Int} (h0 : 0 ≤ i) (hi : i < len)
    (h : user.Wants (port.entry i)) :
    ∃ j, user.firstOfFamily port.entry len = some j := by
  unfold GidFilter.firstOfFamily
  split
  · exact ⟨0, rfl⟩
  · rename_i hfam
    obtain rfl | hpos := Int.le_iff_eq_or_lt.mp h0
    · exact absurd h.family hfam
    apply Option.isSome_iff_exists.mp
    rw [List.find?_isSome]
    refine ⟨i, mem_candidates hpos hi, ?_⟩
    rw [h.family, h.range]
    simp

/-- On Ethernet and without an index of the user, the choice has all that the user asks
for whenever an entry has, whatever the memory held, exactly when no entry has or the
first entry of the family can be replaced. -/
theorem filters_are_honoured_iff (user : GidFilter) (port : GidPort) (portAttr : IbvPortAttr)
    (gidIndex : Int) (hlink : portAttr.link_layer = IBV_LINK_LAYER_ETHERNET)
    (hauto : user.gidIndex < 0) (hread : port.Readable portAttr.gid_tbl_len) :
    (∀ uninit, HonoursFilter user { port with uninit } portAttr gidIndex) ↔
      (∀ i, 0 ≤ i → i < portAttr.gid_tbl_len → ¬user.Wants (port.entry i)) ∨
        ∀ i, user.firstOfFamily port.entry portAttr.gid_tbl_len = some i →
          ¬user.Keeps (port.entry i) := by
  have hchoice : ∀ uninit, ncclIbGetGidIndex { port with uninit } user portAttr gidIndex =
      updateLoop { port with uninit } user (candidates portAttr.gid_tbl_len) 0 := by
    intro uninit
    unfold ncclIbGetGidIndex
    simp only
    rw [hlink, if_neg (by decide), if_neg (by omega)]
  have hread' : ∀ uninit, ({ port with uninit } : GidPort).Readable portAttr.gid_tbl_len :=
    fun _ => ⟨hread.gids, hread.types⟩
  constructor
  · intro h
    by_contra hcon
    rw [not_or] at hcon
    obtain ⟨hsome, hkept⟩ := hcon
    push Not at hsome hkept
    obtain ⟨i, h0, hi, hwant⟩ := hsome
    obtain ⟨j, hfirst, hkeeps⟩ := hkept
    have hhonours := h (fun _ => user.roceVer) ⟨i, h0, hi, hwant⟩
    obtain ⟨rest, heq, hrest, hj, -⟩ :=
      updateLoop_reaches (hread' (fun _ => user.roceVer)) (by omega) hfirst
    rw [hchoice, heq, updateLoop_stays (hread' _) hrest hj
      (fun k _ => hkeeps.refuses (firstOfFamily_eq hfirst))] at hhonours
    exact hhonours.2.not_keeps hkeeps
  · rintro h uninit ⟨i, h0, hi, hwant⟩
    have hopen := h.resolve_left (fun hno => hno i h0 hi hwant)
    obtain ⟨j, hfirst⟩ := firstOfFamily_some port h0 hi hwant
    obtain ⟨rest, heq, hrest, hj, hwants⟩ :=
      updateLoop_reaches (hread' uninit) (by omega) hfirst
    rw [hchoice, heq]
    refine ⟨updateLoop_succeeds (hread' _) hrest hj, ?_⟩
    refine updateLoop_finds (hread' uninit) hrest hj (firstOfFamily_eq hfirst) (hopen j hfirst) ?_
    obtain rfl | hmem := hwants i h0 hi hwant
    · exact .inl hwant
    · exact .inr ⟨i, hmem, hwant⟩

end

/-- A user who asks for RoCE v2 in 192.168.0.0/16. -/
def wantsV2 : GidFilter := ⟨-1, 1, .AF_INET, [0xc0a80000], 16, 2⟩

/-- A table of entries with this type each, which can be read. -/
def GidPort.ofTable (gids : List IbvGid) (type : String) : GidPort where
  entry := fun i => ⟨gids.getD i.toNat ⟨0, 0, 0, 0⟩, type.toList⟩
  refuses := fun _ _ => false
  typeFault := fun _ _ => none
  uninit := fun _ => 0

/-- A link-local GID and 192.168.1.1. -/
def oneAddress : GidPort := .ofTable [⟨0xfe800000, 0, 1, 1⟩, ⟨0, 0, 0xffff, 0xc0a80101⟩] "RoCE v2"

/-- The same with 10.0.0.1 before it. -/
def twoAddresses : GidPort :=
  .ofTable [⟨0, 0, 0xffff, 0x0a000001⟩, ⟨0, 0, 0xffff, 0xc0a80101⟩] "RoCE v2"

def roceAttr : IbvPortAttr := ⟨0, 5, IBV_LINK_LAYER_ETHERNET, 0, 2⟩

theorem an_address_of_the_range_is_chosen : HonoursFilter wantsV2 oneAddress roceAttr 0 :=
  (filters_are_honoured_iff wantsV2 oneAddress roceAttr 0 rfl (by decide)
    ⟨fun _ _ _ _ => rfl, fun _ _ _ _ => rfl⟩).mpr (.inr (by decide)) (fun _ => 0)

/-- Entry 0 is out of the range, and it stays since its version is the one asked for. -/
theorem an_address_out_of_the_range_stays : ¬HonoursFilter wantsV2 twoAddresses roceAttr 0 := by
  intro h
  have hwants := (h ⟨1, by decide, by decide, by decide⟩).2.range
  exact absurd hwants (by decide)

end net_ib
