-- The load balancing weights (common.h, ncclIbComputeDevSpeeds and
-- ncclIbComputeLbWeights). A device gets its share of the total speed in percent,
-- rounded down, and the last device gets what the others leave. A device with
-- less than one percent of the total gets nothing, and then a send loses bytes.
import MrcPlugin.Tiling

namespace net_ib

open p2p

/-! ## The shares -/

/-- The speed of device `d` towards its remote device: that of the slower side. -/
def pairSpeed (env : NetEnv) (ibDevN : Nat → Nat) (base : NcclIbNetCommBase) (d : Nat) : Nat :=
  min (env.currSpeed (ibDevN d))
    (if (base.remDevs (base.qps d).remDevIdx).currSpeed > 0 then
      (base.remDevs (base.qps d).remDevIdx).currSpeed
    else env.currSpeed (ibDevN d))

/-- The sum of the speeds of the first `n` devices. -/
def speedSum (env : NetEnv) (ibDevN : Nat → Nat) (base : NcclIbNetCommBase) (n : Nat) : Nat :=
  ((List.range n).map (pairSpeed env ibDevN base)).sum

/-- The comm after a change of the speeds. -/
def withNewWeights (env : NetEnv) (ibDevN : Nat → Nat) (base : NcclIbNetCommBase) :
    NcclIbNetCommBase :=
  ncclIbComputeLbWeights env (ncclIbComputeDevSpeeds env ibDevN base)

/-- The weight of a device before the last one is corrected. -/
def lbShare (env : NetEnv) (base : NcclIbNetCommBase) (d : Nat) : Nat :=
  if env.eventBasedLb then base.devSpeeds d * 100 / base.totalSpeed else 100 / base.ndevs

/-- Shares that are rounded down add up to no more than the part that is shared. -/
theorem sum_shares_mul_le (part total : Nat) (speed : Nat → Nat) (l : List Nat) :
    (l.map (fun d => speed d * part / total)).sum * total ≤ (l.map speed).sum * part := by
  induction l with
  | nil => simp
  | cons d ds ih =>
    rw [List.map_cons, List.map_cons, List.sum_cons, List.sum_cons, Nat.add_mul, Nat.add_mul]
    exact Nat.add_le_add (Nat.div_mul_le_self _ _) ih

theorem sum_map_le_mul (f : Nat → Nat) (bound : Nat) (l : List Nat) (h : ∀ x ∈ l, f x ≤ bound) :
    (l.map f).sum ≤ l.length * bound := by
  have := List.sum_le_card_nsmul (l.map f) bound (by
    intro x hx
    obtain ⟨y, hy, rfl⟩ := List.mem_map.mp hx
    exact h y hy)
  simpa using this

/-- When the shares make 100 or less, each device gets its share, and the last one
gets what is left of 100. -/
theorem lbWeights_eq {env : NetEnv} {base : NcclIbNetCommBase} {last : Nat}
    (hndevs : base.ndevs = last + 1) (hfit : ∀ d ≤ last, base.devSpeeds d * 100 < 2 ^ 64)
    (hsum : ((List.range (last + 1)).map (lbShare env base)).sum ≤ 100) :
    (∀ d < last, (ncclIbComputeLbWeights env base).weights d = lbShare env base d) ∧
      (ncclIbComputeLbWeights env base).weights last =
        100 - ((List.range last).map (lbShare env base)).sum := by
  have hle : ∀ d ≤ last, lbShare env base d ≤ 100 := fun d hd =>
    (List.single_le_sum (by simp) _ (List.mem_map_of_mem (List.mem_range.mpr (by omega)))).trans hsum
  have hweight : ∀ d ≤ last, (if env.eventBasedLb then
      base.devSpeeds d * 100 % 2 ^ 64 / base.totalSpeed else 100 / base.ndevs) % 2 ^ 8 =
      lbShare env base d := by
    intro d hd
    rw [Nat.mod_eq_of_lt (hfit d hd)]
    exact Nat.mod_eq_of_lt (lt_of_le_of_lt (hle d hd) (by decide))
  have hmap : (List.range (last + 1)).map (fun d => (if env.eventBasedLb then
      base.devSpeeds d * 100 % 2 ^ 64 / base.totalSpeed else 100 / base.ndevs) % 2 ^ 8) =
      (List.range (last + 1)).map (lbShare env base) :=
    List.map_congr_left (fun d hd => hweight d (by have := List.mem_range.mp hd; omega))
  have hsplit : ((List.range (last + 1)).map (lbShare env base)).sum =
      ((List.range last).map (lbShare env base)).sum + lbShare env base last := by
    rw [List.range_succ, List.map_append, List.sum_append]
    simp
  unfold ncclIbComputeLbWeights
  simp only [hndevs] at hmap hweight ⊢
  rw [hmap, Nat.mod_eq_of_lt (by omega), Nat.add_sub_cancel]
  constructor
  · intro d hd
    rw [← hweight d hd.le]
    split
    · rw [Function.update_of_ne hd.ne]
      exact if_pos (by omega)
    · exact if_pos (by omega)
  · have hlast := hweight last le_rfl
    split
    · rw [Function.update_self, if_pos (Nat.lt_succ_self last), hlast]
      omega
    · beta_reduce
      rw [if_pos (Nat.lt_succ_self last), hlast]
      omega

/-! ## What the weights are for -/

/-- The weights are percentages of at least one, and they make exactly 100. -/
structure SplitOf100 (ndevs : Nat) (weights : Nat → Nat) : Prop where
  each : ∀ d < ndevs, 1 ≤ weights d ∧ weights d ≤ 100
  total : ((List.range ndevs).map weights).sum = 100

/-- A send with these weights never gets an empty chunk while data is left. The
QPs `before` have had their turns when `q` gets its own. -/
def NoEmptyChunk (ndevs : Nat) (weights : Nat → Nat) : Prop :=
  ∀ (env : NetEnv) (sh : Shape) (comm : NcclIbSendComm) (slot : Nat),
    Striped sh comm.base → sh.ndevs = ndevs → ReadyGroup comm slot →
    (∀ d < ndevs, (reqAt comm slot 0).send.weights d = weights d) →
    ∀ r < (comm.ctsFifo slot 0).nreqs, ∀ before q after,
      qpsOf sh comm.base (reqAt comm slot 0).id = before ++ q :: after →
      let call := multiSendCall env comm slot (qpsOf sh comm.base (reqAt comm slot 0).id)
      let s := before.foldl (postOnQp call) (multiSendInit call
        (immDataOf comm.base (comm.base.reqs (call.reqs 0))))
      (chunkWr call s (comm.base.qps q.1) (comm.base.qps q.2).devIndex r).sge.length = 0 →
        (s.sendOffsets r : Int) = (reqAt comm slot r).send.size

/-- What the weights of a comm have to be after a change of the speeds. -/
structure WeightsServe (env : NetEnv) (ibDevN : Nat → Nat) (base : NcclIbNetCommBase) : Prop where
  split : SplitOf100 base.ndevs (withNewWeights env ibDevN base).weights
  chunks : NoEmptyChunk base.ndevs (withNewWeights env ibDevN base).weights

/-- Where a send stands after some QPs have had their turns. -/
theorem track_foldl {call : MultiSendCall} {r : Nat} (hr : r < call.nreqs)
    (before : List (Nat × Nat)) : ∀ s off, Track call r off s → off ≤ call.bytes r →
      ∃ off', off' ≤ call.bytes r ∧ Track call r off' (before.foldl (postOnQp call) s) := by
  induction before with
  | nil => intro s off h hoff; exact ⟨off, hoff, h⟩
  | cons q rest ih =>
    intro s off h hoff
    exact ih _ _ (track_postOnQp hr h hoff q) (by omega)

theorem SplitOf100.no_empty_chunk {ndevs : Nat} {weights : Nat → Nat}
    (h : SplitOf100 ndevs weights) : NoEmptyChunk ndevs weights := by
  intro env sh comm slot hs hndevs hg hsame r hr before q after hqps call s hzero
  have hmem : q ∈ qpsOf sh comm.base (reqAt comm slot 0).id := by
    rw [hqps]
    exact List.mem_append_right _ (List.mem_cons_self ..)
  have hbytes : call.bytes r = (reqAt comm slot r).send.size.toNat :=
    u32_of_nonneg (hg.size_nonneg r hr) (lt_trans (hg.size_lt r hr) (by decide))
  obtain ⟨off, hoff, htrack⟩ := track_foldl (show r < call.nreqs from hr) before _ 0
    (track_init env _ hr (immDataOf comm.base (comm.base.reqs (call.reqs 0)))) (Nat.zero_le _)
  have hlen : 0 = min (call.bytes r - off) (shareOn call r (q.1, q.2)) :=
    hzero.symm.trans (chunkWr_length htrack hoff q.1 q.2)
  have hoffset : s.sendOffsets r = off := htrack.offset
  have hnonneg := hg.size_nonneg r hr
  rw [hoffset]
  by_contra hleft
  -- Bytes are left, so the share of the QP is positive.
  have hd : (comm.base.qps q.2).devIndex < ndevs := by
    rw [hs.devIndex _ (qpsOf_lt hmem), ← hndevs]
    exact Nat.mod_lt _ sh.ndevs_pos
  have hw := h.each _ hd
  rw [← hsame _ hd] at hw
  have hpos : 0 < shareOn call r q := by
    refine chunkShare_pos (by show 0 < (reqAt comm slot r).send.size; omega) (hg.size_lt r hr)
      hw.1 (hw.2.trans (by decide)) ?_ ?_
    · exact List.countP_pos_iff.mpr ⟨q, hmem, decide_eq_true rfl⟩
    · exact List.countP_le_length.trans (qpsOf_length_le sh comm.base _)
  have heta : shareOn call r (q.1, q.2) = shareOn call r q := rfl
  omega

/-- A data write without its scatter element never gets it back: the QPs after an
empty chunk carry nothing of the send. -/
theorem foldl_num_sge_zero {call : MultiSendCall} {r : Nat} (hr : r < call.nreqs)
    (later : List (Nat × Nat)) : ∀ s, (s.wrs r).num_sge = 0 →
      ((later.foldl (postOnQp call) s).wrs r).num_sge = 0 := by
  induction later with
  | nil => intro s h; exact h
  | cons q rest ih =>
    intro s h
    refine ih _ ?_
    rw [postOnQp_wrs hr s q.1 q.2]
    show (chunkWr call s (call.comm.base.qps q.1) (call.comm.base.qps q.2).devIndex r).num_sge = 0
    rw [chunkWr_num_sge, h, ite_self]

/-! ## When the weights serve -/

section
variable {env : NetEnv} {ibDevN : Nat → Nat} {base : NcclIbNetCommBase}

variable (base) in
theorem pairSpeed_pos {d : Nat} (h : 0 < env.currSpeed (ibDevN d)) :
    0 < pairSpeed env ibDevN base d := by
  unfold pairSpeed
  split <;> omega

variable (env ibDevN base) in
theorem pairSpeed_le (d : Nat) : pairSpeed env ibDevN base d ≤ env.currSpeed (ibDevN d) :=
  Nat.min_le_left _ _

theorem devSpeeds_eq {d : Nat} (h : d < base.ndevs) :
    (ncclIbComputeDevSpeeds env ibDevN base).devSpeeds d = pairSpeed env ibDevN base d :=
  if_pos h

/-- The speeds of up to 8 devices fit in the 64 bits of `totalSpeed`. -/
theorem totalSpeed_eq (hndevs : base.ndevs ≤ 8)
    (hspeed : ∀ d < base.ndevs, env.currSpeed (ibDevN d) < 2 ^ 31) :
    (ncclIbComputeDevSpeeds env ibDevN base).totalSpeed = speedSum env ibDevN base base.ndevs := by
  refine Nat.mod_eq_of_lt ?_
  have hle := sum_map_le_mul (pairSpeed env ibDevN base) (2 ^ 31)
    (List.range base.ndevs) (fun d hd =>
      (pairSpeed_le env ibDevN base d).trans (hspeed d (List.mem_range.mp hd)).le)
  rw [List.length_range] at hle
  have : base.ndevs * 2 ^ 31 ≤ 8 * 2 ^ 31 := Nat.mul_le_mul_right _ hndevs
  exact lt_of_le_of_lt (hle.trans this) (by decide)

/-- The share of a device in the total speed, or the even share. -/
theorem lbShare_eq (hndevs : base.ndevs ≤ 8)
    (hspeed : ∀ d < base.ndevs, env.currSpeed (ibDevN d) < 2 ^ 31) {d : Nat} (hd : d < base.ndevs) :
    lbShare env (ncclIbComputeDevSpeeds env ibDevN base) d =
      if env.eventBasedLb then
        pairSpeed env ibDevN base d * 100 / speedSum env ibDevN base base.ndevs
      else 100 / base.ndevs := by
  unfold lbShare
  rw [devSpeeds_eq hd, totalSpeed_eq hndevs hspeed]
  rfl

variable (env ibDevN base) in
theorem speedSum_succ (n : Nat) : speedSum env ibDevN base (n + 1) =
    speedSum env ibDevN base n + pairSpeed env ibDevN base n := by
  unfold speedSum
  rw [List.range_succ, List.map_append, List.sum_append]
  simp

/-- The devices before the last one leave something of 100. -/
theorem shares_leave_some {last : Nat} (hndevs : base.ndevs = last + 1) (h8 : last < 8)
    (hspeed : ∀ d ≤ last, 0 < env.currSpeed (ibDevN d) ∧ env.currSpeed (ibDevN d) < 2 ^ 31) :
    ((List.range last).map (lbShare env (ncclIbComputeDevSpeeds env ibDevN base))).sum < 100 ∧
      ((List.range (last + 1)).map
        (lbShare env (ncclIbComputeDevSpeeds env ibDevN base))).sum ≤ 100 := by
  have hmap : ∀ n ≤ last + 1, (List.range n).map
      (lbShare env (ncclIbComputeDevSpeeds env ibDevN base)) = (List.range n).map (fun d =>
        if env.eventBasedLb then
          pairSpeed env ibDevN base d * 100 / speedSum env ibDevN base (last + 1)
        else 100 / (last + 1)) := by
    intro n hn
    refine List.map_congr_left (fun d hd => ?_)
    have := List.mem_range.mp hd
    rw [lbShare_eq (by omega) (fun e he => (hspeed e (by omega)).2) (by omega), hndevs]
  rw [hmap _ (Nat.le_succ last), hmap _ le_rfl]
  by_cases hlb : env.eventBasedLb = true
  · simp only [hlb, if_true]
    have hpos := pairSpeed_pos base (hspeed last le_rfl).1
    have hlast := sum_shares_mul_le 100 (speedSum env ibDevN base (last + 1))
      (pairSpeed env ibDevN base) (List.range last)
    have hall := sum_shares_mul_le 100 (speedSum env ibDevN base (last + 1))
      (pairSpeed env ibDevN base) (List.range (last + 1))
    have hsucc := speedSum_succ env ibDevN base last
    have hsum : ((List.range (last + 1)).map (pairSpeed env ibDevN base)).sum =
        speedSum env ibDevN base (last + 1) := rfl
    have hsum' : ((List.range last).map (pairSpeed env ibDevN base)).sum =
        speedSum env ibDevN base last := rfl
    rw [hsum', Nat.mul_comm _ 100] at hlast
    rw [hsum, Nat.mul_comm _ 100] at hall
    constructor
    · refine Nat.lt_of_mul_lt_mul_right (a := speedSum env ibDevN base (last + 1)) ?_
      omega
    · exact Nat.le_of_mul_le_mul_right hall (by omega)
  · simp only [hlb, if_false, Bool.false_eq_true]
    have heven : ∀ n, ((List.range n).map (fun _ => 100 / (last + 1))).sum ≤
        n * (100 / (last + 1)) := by
      intro n
      have := sum_map_le_mul (fun _ => 100 / (last + 1)) _ (List.range n) (fun _ _ => le_rfl)
      rwa [List.length_range] at this
    have hmul := Nat.div_mul_le_self 100 (last + 1)
    have hone : 1 ≤ 100 / (last + 1) := (Nat.one_le_div_iff (by omega)).mpr (by omega)
    have hfirst := heven last
    have hall := heven (last + 1)
    rw [Nat.mul_comm, Nat.add_mul] at hmul
    rw [Nat.add_mul] at hall
    omega

end

/-! ## The laws -/

/-- After a change of the speeds, the weights serve when event based load
balancing is off, and otherwise when each device before the last one has one
percent of the total speed or more. -/
theorem the_weights_serve_iff_no_device_is_below_one_percent (env : NetEnv)
    (ibDevN : Nat → Nat) (base : NcclIbNetCommBase) (hpos : 1 ≤ base.ndevs)
    (h8 : base.ndevs ≤ 8) (hspeed : ∀ d < base.ndevs,
      0 < env.currSpeed (ibDevN d) ∧ env.currSpeed (ibDevN d) < 2 ^ 31) :
    WeightsServe env ibDevN base ↔ (env.eventBasedLb = true → ∀ d, d + 1 < base.ndevs →
      speedSum env ibDevN base base.ndevs ≤ 100 * pairSpeed env ibDevN base d) := by
  obtain ⟨last, hndevs⟩ : ∃ last, base.ndevs = last + 1 := ⟨base.ndevs - 1, by omega⟩
  have hspeed' : ∀ d ≤ last, 0 < env.currSpeed (ibDevN d) ∧ env.currSpeed (ibDevN d) < 2 ^ 31 :=
    fun d hd => hspeed d (by omega)
  obtain ⟨hleft, hall⟩ := shares_leave_some hndevs (by omega) hspeed'
  obtain ⟨hfirst, hlast⟩ := lbWeights_eq
    (show (ncclIbComputeDevSpeeds env ibDevN base).ndevs = last + 1 from hndevs) (fun d hd => by
      rw [devSpeeds_eq (by omega)]
      have := pairSpeed_le env ibDevN base d
      have := (hspeed' d hd).2
      omega) hall
  have hshare : ∀ d < last, lbShare env (ncclIbComputeDevSpeeds env ibDevN base) d =
      if env.eventBasedLb then
        pairSpeed env ibDevN base d * 100 / speedSum env ibDevN base base.ndevs
      else 100 / base.ndevs :=
    fun d hd => lbShare_eq h8 (fun e he => (hspeed e he).2) (by omega)
  have htotal : 0 < speedSum env ibDevN base base.ndevs := by
    rw [hndevs, speedSum_succ]
    have := pairSpeed_pos base (hspeed' last le_rfl).1
    omega
  constructor
  · rintro ⟨hsplit, -⟩ hlb d hd
    have hone := (hsplit.each d (by omega)).1
    unfold withNewWeights at hone
    rw [hfirst d (by omega), hshare d (by omega), if_pos hlb] at hone
    rw [Nat.mul_comm]
    exact (Nat.one_le_div_iff htotal).mp hone
  · intro h
    have hone : ∀ d < last, 1 ≤ lbShare env (ncclIbComputeDevSpeeds env ibDevN base) d := by
      intro d hd
      rw [hshare d hd]
      split
      · rename_i hlb
        rw [Nat.one_le_div_iff htotal, Nat.mul_comm]
        exact h hlb d (by omega)
      · exact (Nat.one_le_div_iff (by omega)).mpr (by omega)
    have hle : ∀ d < last, lbShare env (ncclIbComputeDevSpeeds env ibDevN base) d ≤ 100 :=
      fun d hd => (List.single_le_sum (by simp) _
        (List.mem_map_of_mem (List.mem_range.mpr hd))).trans hleft.le
    have hsplit : SplitOf100 base.ndevs (withNewWeights env ibDevN base).weights := by
      unfold withNewWeights
      refine ⟨fun d hd => ?_, ?_⟩
      · rcases Nat.lt_succ_iff_lt_or_eq.mp (hndevs ▸ hd) with hlt | rfl
        · rw [hfirst d hlt]
          exact ⟨hone d hlt, hle d hlt⟩
        · rw [hlast]
          omega
      · rw [hndevs, List.range_succ, List.map_append, List.sum_append,
          List.map_congr_left (fun d hd => hfirst d (List.mem_range.mp hd))]
        simp only [List.map_cons, List.map_nil, List.sum_cons, List.sum_nil, hlast]
        omega
    exact ⟨hsplit, hsplit.no_empty_chunk⟩

/-- Two devices of the given speeds, with event based load balancing. -/
def speedEnv (speed0 speed1 : Nat) : NetEnv :=
  { plainEnv with
    eventBasedLb := true
    currSpeed := fun d => if d = 0 then speed0 else speed1 }

/-- The base of a comm whose peer has devices of 400 Gb/s. -/
def fastPeer : NcclIbNetCommBase :=
  { freshBase Shape.two true with
    remDevs := fun _ => ⟨0, 1, 5, 2, 0, 0, 0, 400000, 0⟩ }

theorem devices_of_200_and_400_serve : WeightsServe (speedEnv 200000 400000) (fun d => d) fastPeer :=
  (the_weights_serve_iff_no_device_is_below_one_percent (speedEnv 200000 400000) (fun d => d)
    fastPeer (by decide) (by decide) (by decide)).mpr (fun _ d hd => by
      obtain rfl : d = 0 := by
        have : d + 1 < 2 := hd
        omega
      decide)

/-- A device of 2.5 Gb/s next to one of 400 Gb/s gets the weight 0. -/
theorem a_slow_device_gets_no_weight :
    ¬ ∀ (env : NetEnv) (ibDevN : Nat → Nat) (base : NcclIbNetCommBase),
      1 ≤ base.ndevs → base.ndevs ≤ 8 →
      (∀ d < base.ndevs, 0 < env.currSpeed (ibDevN d)) →
      (∀ d < base.ndevs, 0 < (base.remDevs (base.qps d).remDevIdx).currSpeed) →
      WeightsServe env ibDevN base := by
  intro h
  have hserve := h (speedEnv 2500 400000) (fun d => d) fastPeer (by decide) (by decide)
    (by decide) (by decide)
  have hone := (hserve.split.each 0 (by decide)).1
  revert hone
  decide

end net_ib
