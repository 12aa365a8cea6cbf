-- The checks of a GID (connect.cc) on its 16 bytes in memory. The words are loaded in the
-- byte order of the host, and the masks are built in it and turned into network order.
-- They decide what the checks on words in network order decide.
import MrcPlugin.GidIndex
import MrcPlugin.Lib.Bytes

namespace net_ib.gid

open bytes

/-! ## The checks -/

/-- `s6_addr32[i]` of the address at a pointer. -/
def s6_addr32 (o : ByteOrder) (a : Bytes) (i : Nat) : BitVec 32 := load32 o a (4 * i)

def getGidAddrFamily (o : ByteOrder) (gid : Bytes) : SaFamily :=
  let a := s6_addr32 o gid
  let isIpV4Mapped := ((a 0 ||| a 1) ||| (a 2 ^^^ htonl o 0x0000ffff#32)) == 0#32
  let isIpV4MappedMulticast :=
    a 0 == htonl o 0xff0e0000#32 && ((a 1 ||| (a 2 ^^^ htonl o 0x0000ffff#32)) == 0#32)
  if isIpV4Mapped || isIpV4MappedMulticast then .AF_INET else .AF_INET6

/-- `NETMASK`. The subtraction wraps around for one bit, where the shift gives the smallest
`int`. -/
def NETMASK (o : ByteOrder) (bits : Int) : BitVec 32 :=
  htonl o (0xffffffff#32 ^^^ ((1#32 <<< (32 - bits).toNat) - 1#32))

/-- The loop of `matchGidAddrPrefix` with `n` words left, which starts at word `i`, and the
length that it leaves. -/
def matchLoop (o : ByteOrder) (af : SaFamily) (base gid : Bytes) : Nat → Nat → Int → Int
  | 0, _, prefixlen => prefixlen
  | n + 1, i, prefixlen =>
    if prefixlen ≤ 0 then prefixlen
    else
      match af with
      | .AF_INET =>
        let mask := NETMASK o prefixlen
        if (s6_addr32 o base 0 &&& mask) ^^^ (s6_addr32 o gid 3 &&& mask) ≠ 0#32 then prefixlen
        else 0
      | .AF_INET6 =>
        if prefixlen ≥ 32 then
          if s6_addr32 o base i ^^^ s6_addr32 o gid i ≠ 0#32 then prefixlen
          else matchLoop o af base gid n (i + 1) (prefixlen - 32)
        else
          let mask := NETMASK o prefixlen
          if (s6_addr32 o base i &&& mask) ^^^ (s6_addr32 o gid i &&& mask) ≠ 0#32 then prefixlen
          -- The length is 0, which ends the loop.
          else 0

/-- `matchGidAddrPrefix`. `base` is the address that `prefix` points to. -/
def matchGidAddrPrefix (o : ByteOrder) (af : SaFamily) (base : Bytes) (prefixlen : Int)
    (gid : Bytes) : Bool :=
  matchLoop o af base gid 4 0 prefixlen == 0

def configuredGid (o : ByteOrder) (gid : Bytes) : Bool :=
  let a := s6_addr32 o gid
  let trailer := a 1 ||| a 2 ||| a 3
  if ((a 0 ||| trailer) == 0#32) || (a 0 == htonl o 0xfe800000#32 && trailer == 0#32) then false
  else true

def linkLocalGid (o : ByteOrder) (gid : Bytes) : Bool :=
  let a := s6_addr32 o gid
  a 0 == htonl o 0xfe800000#32 && a 1 == 0#32

def validGid (o : ByteOrder) (gid : Bytes) : Bool := configuredGid o gid && !linkLocalGid o gid

/-- `gidSameSubnet`. `subnet_prefix` is the first half of a GID. -/
def gidSameSubnet (o : ByteOrder) (localGid remoteGid : Bytes) (prefixLen : Int) : Bool :=
  let localFam := getGidAddrFamily o localGid
  let remoteFam := getGidAddrFamily o remoteGid
  if localFam ≠ remoteFam then false
  else if localFam = .AF_INET then
    let localIp := load32 o localGid 12
    let remoteIp := load32 o remoteGid 12
    let mask := htonl o (~~~((1#32 <<< (32 - prefixLen).toNat) - 1#32))
    (localIp &&& mask) == (remoteIp &&& mask)
  else load64 o localGid 0 == load64 o remoteGid 0

/-! ## What they are for -/

/-- The bits of an address of the family. -/
def addrBits : SaFamily → Nat
  | .AF_INET => 32
  | .AF_INET6 => 128

/-- The first bit of the address in a GID, whose last 32 bits are an IPv4 address. -/
def addrStart (af : SaFamily) : Nat := 128 - addrBits af

/-- `::ffff:a.b.c.d`. -/
structure IpV4Mapped (gid : Bytes) : Prop where
  zeros : ∀ k < 10, gid k = 0
  ones : gid 10 = 0xff ∧ gid 11 = 0xff

/-- The words of a GID in network order. -/
def words (gid : Bytes) : IbvGid :=
  ⟨(netWord gid 0).toNat, (netWord gid 4).toNat, (netWord gid 8).toNat, (netWord gid 12).toNat⟩

/-- The words of an `in_addr` or of an `in6_addr` in network order. -/
def addrWords (af : SaFamily) (base : Bytes) : List Nat :=
  match af with
  | .AF_INET => [(netWord base 0).toNat]
  | .AF_INET6 => (words base).words

section
variable {o : ByteOrder} {af : SaFamily} {base gid localGid remoteGid : Bytes}

/-! ## The masks -/

theorem netmask_eq (o : ByteOrder) {bits : Nat} :
    NETMASK o bits = htonl o (firstBits bits) := by
  unfold NETMASK firstBits
  rw [show ((32 : Int) - bits).toNat = 32 - bits by omega, BitVec.not_def]
  rfl

/-- The mask of `gidSameSubnet` is built without the exclusive or. -/
theorem subnetMask_eq (o : ByteOrder) (len : Nat) :
    htonl o (~~~((1#32 <<< ((32 : Int) - len).toNat) - 1#32)) = htonl o (firstBits len) := by
  rw [show ((32 : Int) - len).toNat = 32 - len by omega]
  rfl

/-- The test of the loop under a mask. -/
theorem masked_same_iff {n : Nat} (hn : n ≤ 32) (i j : Nat) :
    (s6_addr32 o base i &&& NETMASK o n) ^^^ (s6_addr32 o gid j &&& NETMASK o n) = 0#32 ↔
      SameBits base gid (32 * i) (32 * j) n := by
  unfold s6_addr32
  rw [BitVec.xor_eq_zero_iff, netmask_eq, masked_eq_iff hn]
  rw [← Nat.mul_assoc, ← Nat.mul_assoc]

/-- The test of the loop for a word. -/
theorem word_same_iff (i : Nat) :
    s6_addr32 o base i ^^^ s6_addr32 o gid i = 0#32 ↔
      SameBits base gid (32 * i) (32 * i) 32 := by
  unfold s6_addr32
  rw [BitVec.xor_eq_zero_iff, load32_eq_iff, ← Nat.mul_assoc]

/-! ## The first bits of an address -/

/-- The loop over the words of an IPv6 address leaves nothing just when the bits that it
has not seen are the same. -/
theorem matchLoop_iff (n : Nat) {i len : Nat} (hlen : len ≤ 32 * n) :
    matchLoop o .AF_INET6 base gid n i len = 0 ↔ SameBits base gid (32 * i) (32 * i) len := by
  induction n generalizing i len with
  | zero =>
    obtain rfl : len = 0 := by omega
    exact ⟨fun _ => sameBits_zero _ _, fun _ => rfl⟩
  | succ n ih =>
    rw [matchLoop]
    by_cases hzero : len = 0
    · subst hzero
      exact ⟨fun _ => sameBits_zero _ _, fun _ => rfl⟩
    rw [if_neg (by omega)]
    dsimp only
    by_cases hword : 32 ≤ len
    · rw [if_pos (by omega)]
      have hrest : matchLoop o .AF_INET6 base gid n (i + 1) (len - 32 : Nat) = 0 ↔
          SameBits base gid (32 * (i + 1)) (32 * (i + 1)) (len - 32) := ih (by omega)
      have hsplit : SameBits base gid (32 * i) (32 * i) (32 + (len - 32)) ↔ _ := sameBits_add
      rw [Nat.mul_add_one, Int.natCast_sub hword] at hrest
      rw [Nat.add_sub_cancel' hword] at hsplit
      rw [hsplit, ← hrest, ← word_same_iff (o := o), ite_not]
      by_cases hsame : s6_addr32 o base i ^^^ s6_addr32 o gid i = 0#32
      · simp only [hsame, if_true, true_and]
        rfl
      · simp only [hsame, if_false, false_and, iff_false]
        omega
    · rw [if_neg (by omega), ← masked_same_iff (o := o) (by omega), ite_not]
      split
      next hsame => exact ⟨fun _ => hsame, fun _ => rfl⟩
      next hsame => exact ⟨fun h => by omega, fun h => absurd h hsame⟩

theorem matchGidAddrPrefix_inet6 {len : Nat} (hlen : len ≤ 128) :
    matchGidAddrPrefix o .AF_INET6 base len gid = true ↔ SameBits base gid 0 0 len := by
  unfold matchGidAddrPrefix
  rw [beq_iff_eq]
  exact matchLoop_iff 4 hlen

theorem matchGidAddrPrefix_inet {len : Nat} (hlen : len ≤ 32) :
    matchGidAddrPrefix o .AF_INET base len gid = true ↔ SameBits base gid 0 96 len := by
  unfold matchGidAddrPrefix
  rw [beq_iff_eq, matchLoop]
  by_cases hzero : len = 0
  · subst hzero
    exact ⟨fun _ => sameBits_zero _ _, fun _ => rfl⟩
  have hmasked : _ ↔ SameBits base gid 0 96 len := masked_same_iff (o := o) hlen 0 3
  rw [if_neg (by omega)]
  dsimp only
  rw [ite_not]
  split
  next hsame => exact ⟨fun _ => hmasked.mp hsame, fun _ => rfl⟩
  next hsame => exact ⟨fun h => by omega, fun h => absurd (hmasked.mpr h) hsame⟩

/-! ## The subnet -/

theorem IpV4Mapped.words (h : IpV4Mapped gid) :
    netWord gid 0 = 0#32 ∧ netWord gid 4 = 0#32 ∧ netWord gid 8 = 0x0000ffff#32 := by
  obtain ⟨hten, heleven⟩ := h.ones
  unfold netWord
  refine ⟨?_, ?_, ?_⟩
  · rw [h.zeros 0 (by decide), h.zeros 1 (by decide), h.zeros 2 (by decide), h.zeros 3 (by decide)]
    rfl
  · rw [h.zeros 4 (by decide), h.zeros 5 (by decide), h.zeros 6 (by decide), h.zeros 7 (by decide)]
    rfl
  · rw [h.zeros 8 (by decide), h.zeros 9 (by decide), hten, heleven]
    rfl

/-- The comparison of a word with a number in network order. -/
theorem s6_addr32_eq_iff (i : Nat) (c : BitVec 32) :
    s6_addr32 o gid i = htonl o c ↔ netWord gid (4 * i) = c := by
  unfold s6_addr32
  rw [load32_eq, htonl_inj]

theorem s6_addr32_eq_zero_iff (i : Nat) :
    s6_addr32 o gid i = 0#32 ↔ netWord gid (4 * i) = 0#32 := by
  rw [← s6_addr32_eq_iff (o := o), show htonl o 0#32 = 0#32 from htonl_zero]

theorem IpV4Mapped.family (h : IpV4Mapped gid) : getGidAddrFamily o gid = .AF_INET := by
  obtain ⟨h0, h1, h2⟩ := h.words
  have hmapped : (s6_addr32 o gid 0 ||| s6_addr32 o gid 1) |||
      (s6_addr32 o gid 2 ^^^ htonl o 0x0000ffff#32) = 0#32 := by
    rw [BitVec.or_eq_zero_iff, BitVec.or_eq_zero_iff, BitVec.xor_eq_zero_iff,
      s6_addr32_eq_zero_iff, s6_addr32_eq_zero_iff, s6_addr32_eq_iff]
    exact ⟨⟨h0, h1⟩, h2⟩
  unfold getGidAddrFamily
  simp [hmapped]

/-- Two mapped GIDs are in one subnet just when the one is in the range of the address of
the other. -/
theorem gidSameSubnet_mapped (hlocal : IpV4Mapped localGid) (hremote : IpV4Mapped remoteGid)
    {len : Nat} (hlen : len ≤ 32) :
    gidSameSubnet o localGid remoteGid len =
      matchGidAddrPrefix o .AF_INET (fun k => localGid (12 + k)) len remoteGid := by
  have hshift : SameBits (fun k => localGid (12 + k)) remoteGid 0 96 len ↔
      SameBits localGid remoteGid (8 * 12) (8 * 12) len := by
    refine forall₂_congr fun k _ => ?_
    have hbyte : (8 * 12 + k) / 8 = 12 + k / 8 := by omega
    have hbit : (8 * 12 + k) % 8 = k % 8 := by omega
    unfold bit
    rw [hbyte, hbit, Nat.zero_add]
  rw [Bool.eq_iff_iff, matchGidAddrPrefix_inet hlen, hshift, ← masked_eq_iff (o := o) hlen]
  unfold gidSameSubnet
  rw [hlocal.family, hremote.family]
  simp only [ne_eq, not_true_eq_false, if_false, if_true, beq_iff_eq,
    subnetMask_eq]

/-! ## The words in network order -/

theorem word_eq_iff (i c : Nat) (hc : c < 2 ^ 32) :
    (netWord gid (4 * i)).toNat = c ↔ s6_addr32 o gid i = htonl o (BitVec.ofNat 32 c) := by
  rw [s6_addr32_eq_iff, ← BitVec.toNat_inj, BitVec.toNat_ofNat, Nat.mod_eq_of_lt hc]

theorem word_eq_zero_iff (i : Nat) :
    (netWord gid (4 * i)).toNat = 0 ↔ s6_addr32 o gid i = 0#32 := by
  rw [word_eq_iff (o := o) i 0 (by decide), show htonl o (BitVec.ofNat 32 0) = 0#32 from htonl_zero]

theorem getGidAddrFamily_words : getGidAddrFamily o gid = net_ib.getGidAddrFamily (words gid) := by
  have hinet : (((s6_addr32 o gid 0 ||| s6_addr32 o gid 1) |||
        (s6_addr32 o gid 2 ^^^ htonl o 0x0000ffff#32)) == 0#32 ||
      s6_addr32 o gid 0 == htonl o 0xff0e0000#32 &&
        ((s6_addr32 o gid 1 ||| (s6_addr32 o gid 2 ^^^ htonl o 0x0000ffff#32)) == 0#32)) =
      isInetGid (words gid) := by
    have h0 : (netWord gid 0).toNat = 0 ↔ s6_addr32 o gid 0 = 0#32 := word_eq_zero_iff 0
    have h0' : (netWord gid 0).toNat = 0xff0e0000 ↔ s6_addr32 o gid 0 = htonl o 0xff0e0000#32 :=
      word_eq_iff 0 0xff0e0000 (by decide)
    have h1 : (netWord gid 4).toNat = 0 ↔ s6_addr32 o gid 1 = 0#32 := word_eq_zero_iff 1
    have h2 : (netWord gid 8).toNat = 0xffff ↔ s6_addr32 o gid 2 = htonl o 0x0000ffff#32 :=
      word_eq_iff 2 0xffff (by decide)
    rw [Bool.eq_iff_iff]
    unfold isInetGid words
    simp only [Bool.or_eq_true, Bool.and_eq_true, decide_eq_true_eq, beq_iff_eq,
      BitVec.or_eq_zero_iff, BitVec.xor_eq_zero_iff, h0, h0', h1, h2]
    rw [and_assoc, ← or_and_right, and_assoc]
  exact congrArg (fun inet : Bool => if inet then SaFamily.AF_INET else .AF_INET6) hinet

theorem validGid_words : validGid o gid = net_ib.validGid (words gid) := by
  have h0 : (netWord gid 0).toNat = 0 ↔ s6_addr32 o gid 0 = 0#32 := word_eq_zero_iff 0
  have h0' : (netWord gid 0).toNat = 0xfe800000 ↔ s6_addr32 o gid 0 = htonl o 0xfe800000#32 :=
    word_eq_iff 0 0xfe800000 (by decide)
  have h1 : (netWord gid 4).toNat = 0 ↔ s6_addr32 o gid 1 = 0#32 := word_eq_zero_iff 1
  have h2 : (netWord gid 8).toNat = 0 ↔ s6_addr32 o gid 2 = 0#32 := word_eq_zero_iff 2
  have h3 : (netWord gid 12).toNat = 0 ↔ s6_addr32 o gid 3 = 0#32 := word_eq_zero_iff 3
  have hconfigured : configuredGid o gid = net_ib.configuredGid (words gid) := by
    rw [Bool.eq_iff_iff]
    unfold configuredGid net_ib.configuredGid words
    simp only [Bool.if_false_left, Bool.not_eq_true', Bool.and_true, Bool.or_eq_true,
      Bool.and_eq_true, decide_eq_true_eq, beq_iff_eq, BitVec.or_eq_zero_iff, ← Bool.not_eq_true,
      h0, h0', h1, h2, h3]
    rw [← or_and_right, and_assoc, and_assoc, and_assoc]
  have hlocal : linkLocalGid o gid = net_ib.linkLocalGid (words gid) := by
    rw [Bool.eq_iff_iff]
    unfold linkLocalGid net_ib.linkLocalGid words
    simp only [Bool.and_eq_true, decide_eq_true_eq, beq_iff_eq, h0', h1]
  unfold validGid net_ib.validGid
  rw [hconfigured, hlocal]

/-- The masks in network order, as numbers. -/
theorem netmask_toNat {bits : Nat} (hpos : 1 ≤ bits) (hle : bits ≤ 32) :
    (firstBits bits).toNat = net_ib.NETMASK bits := by
  interval_cases bits <;> rfl

/-- The test under a mask, in network order. -/
theorem masked_words {n : Nat} (hpos : 1 ≤ n) (hle : n ≤ 32) (i j : Nat) :
    (s6_addr32 o base i &&& NETMASK o n) ^^^ (s6_addr32 o gid j &&& NETMASK o n) = 0#32 ↔
      (netWord base (4 * i)).toNat &&& net_ib.NETMASK n =
        (netWord gid (4 * j)).toNat &&& net_ib.NETMASK n := by
  unfold s6_addr32
  rw [BitVec.xor_eq_zero_iff, netmask_eq, load32_eq, load32_eq, ← htonl_and, ← htonl_and,
    htonl_inj, ← BitVec.toNat_inj, BitVec.toNat_and, BitVec.toNat_and, netmask_toNat hpos hle]

theorem matchLoop_words (n : Nat) (i len : Nat) :
    matchLoop o .AF_INET6 base gid n i len =
      matchWords ((List.range' i n).map
        (fun i => ((netWord base (4 * i)).toNat, (netWord gid (4 * i)).toNat))) len := by
  induction n generalizing i len with
  | zero => rfl
  | succ n ih =>
    rw [matchLoop, List.range'_succ, List.map_cons, matchWords]
    split
    · rfl
    rename_i hpos
    dsimp only
    by_cases hword : 32 ≤ len
    · have hsame : s6_addr32 o base i ^^^ s6_addr32 o gid i = 0#32 ↔
          (netWord base (4 * i)).toNat = (netWord gid (4 * i)).toNat := by
        unfold s6_addr32
        rw [BitVec.xor_eq_zero_iff, load32_eq, load32_eq, htonl_inj, BitVec.toNat_inj]
      have hge : (len : Int) ≥ 32 := by omega
      rw [if_pos hge, if_pos hge, ite_not, ite_not]
      simp only [hsame]
      split
      · exact Int.natCast_sub hword ▸ ih (i + 1) (len - 32)
      · rfl
    · have hmask : (s6_addr32 o base i &&& NETMASK o len) ^^^
          (s6_addr32 o gid i &&& NETMASK o len) = 0#32 ↔ _ := masked_words (by omega) (by omega) i i
      rw [if_neg (show ¬(len : Int) ≥ 32 by omega), if_neg (show ¬(32 : Int) ≤ len by omega),
        Int.toNat_natCast]
      simp only [ne_eq, hmask]

/-- In the range of lengths, the bytes match just when the words do. -/
theorem matchGidAddrPrefix_words {len : Nat} (hlen : len ≤ addrBits af) :
    matchGidAddrPrefix o af base len gid =
      net_ib.matchGidAddrPrefix af (addrWords af base) len (words gid) := by
  cases af with
  | AF_INET6 =>
    unfold matchGidAddrPrefix net_ib.matchGidAddrPrefix
    rw [matchLoop_words]
    exact Bool.beq_eq_decide_eq ..
  | AF_INET =>
    unfold matchGidAddrPrefix net_ib.matchGidAddrPrefix
    rw [matchLoop]
    split
    · exact Bool.beq_eq_decide_eq ..
    · have hmask : (s6_addr32 o base 0 &&& NETMASK o len) ^^^
          (s6_addr32 o gid 3 &&& NETMASK o len) = 0#32 ↔ _ := masked_words (by omega) hlen 0 3
      dsimp only
      rw [Bool.eq_iff_iff, beq_iff_eq, decide_eq_true_iff, Int.toNat_natCast, ite_not]
      refine Iff.trans ?_ hmask
      split
      next hsame => exact ⟨fun _ => hsame, fun _ => rfl⟩
      next hsame => exact ⟨fun h => by omega, fun h => absurd h hsame⟩

/-- In the range of lengths, the subnets of the bytes are those of the words. -/
theorem gidSameSubnet_words {len : Nat} (hlen : len ≤ 32) :
    gidSameSubnet o localGid remoteGid len =
      net_ib.gidSameSubnet (words localGid) (words remoteGid) len := by
  have hinet : load32 o localGid 12 &&& htonl o (firstBits len) =
        load32 o remoteGid 12 &&& htonl o (firstBits len) ↔
      (words localGid).w3 / 2 ^ (32 - len) = (words remoteGid).w3 / 2 ^ (32 - len) := by
    unfold words
    rw [load32_eq, load32_eq, ← htonl_and, ← htonl_and, htonl_inj, and_firstBits_eq_iff hlen,
      div_eq_iff hlen]
  have hinet6 : load64 o localGid 0 = load64 o remoteGid 0 ↔
      (words localGid).w0 = (words remoteGid).w0 ∧ (words localGid).w1 = (words remoteGid).w1 := by
    unfold words
    rw [load64_eq_iff, load32_eq, load32_eq, load32_eq, load32_eq, htonl_inj, htonl_inj,
      BitVec.toNat_inj, BitVec.toNat_inj]
  rw [Bool.eq_iff_iff]
  unfold gidSameSubnet net_ib.gidSameSubnet
  rw [getGidAddrFamily_words, getGidAddrFamily_words]
  unfold net_ib.getGidAddrFamily
  cases isInetGid (words localGid) <;> cases isInetGid (words remoteGid)
  · simpa using hinet6
  · simp
  · simp
  · simp only [subnetMask_eq]
    simpa using hinet

end

/-! ## The law -/

/-- A GID is in the range of a prefix just when the first bits of the prefix are those of
the address in the GID, for each length that the family has. Two mapped GIDs are in one
subnet just when this says so. -/
theorem prefixes_match_by_their_first_bits (o : ByteOrder) :
    (∀ (af : SaFamily) (base gid : Bytes) (len : Nat), len ≤ addrBits af →
      (matchGidAddrPrefix o af base len gid = true ↔ SameBits base gid 0 (addrStart af) len)) ∧
    ∀ (localGid remoteGid : Bytes) (len : Nat), IpV4Mapped localGid → IpV4Mapped remoteGid →
      1 ≤ len → len ≤ 32 →
        gidSameSubnet o localGid remoteGid len =
          matchGidAddrPrefix o .AF_INET (fun k => localGid (12 + k)) len remoteGid := by
  refine ⟨fun af base gid len hlen => ?_, fun _ _ _ hlocal hremote _ hlen =>
    gidSameSubnet_mapped hlocal hremote hlen⟩
  cases af with
  | AF_INET => exact matchGidAddrPrefix_inet hlen
  | AF_INET6 => exact matchGidAddrPrefix_inet6 hlen

/-- `::ffff:a.b.c.d` in memory. -/
def mappedGid (a b c d : BitVec 8) : Bytes :=
  ofList [0, 0, 0, 0, 0, 0, 0, 0, 0, 0, 0xff, 0xff, a, b, c, d]

/-- 10.1.2.3 and 10.1.200.7 are in one subnet of 16 bits, and the second one is in the range
10.1.0.0/16. -/
theorem a_subnet_has_its_prefix :
    gidSameSubnet .little (mappedGid 10 1 2 3) (mappedGid 10 1 200 7) 16 = true ∧
      matchGidAddrPrefix .little .AF_INET (ofList [10, 1]) 16 (mappedGid 10 1 200 7) = true := by
  obtain ⟨hmatch, hsubnet⟩ := prefixes_match_by_their_first_bits .little
  have hagree := hsubnet (mappedGid 10 1 2 3) (mappedGid 10 1 200 7) 16
    ⟨by decide, by decide⟩ ⟨by decide, by decide⟩ (by decide) (by decide)
  constructor
  · exact hagree.trans ((hmatch .AF_INET _ _ 16 (by decide)).mpr (by decide))
  · exact (hmatch .AF_INET _ _ 16 (by decide)).mpr (by decide)

end net_ib.gid
