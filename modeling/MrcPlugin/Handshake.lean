-- What the two sides of a connection tell each other (connect.cc,
-- p2p_resiliency.cc): the device of each QP, and the addresses and the rkeys of the
-- memory that the peer writes and reads. The counts of the QPs are fixed before.
import MrcPlugin.Resiliency

namespace net_ib

open p2p resiliency

/-! ## The data -/

/-- `ncclIbQp` as `calloc` leaves it. -/
def NcclIbQp.zero : NcclIbQp := ⟨0, 0, 0, 0⟩

/-- `ncclIbDevInfo` as `memset` leaves it. -/
def NcclIbDevInfo.zero : NcclIbDevInfo := ⟨0, 0, 0, 0, 0, 0, 0, 0, 0⟩

/-- `ncclIbQpInfo`, without the fields of ECE. -/
structure NcclIbQpInfo where
  qpn : Nat
  devIndex : Nat
deriving DecidableEq, Repr

/-- `ncclIbConnectionMetadata`. `probingQpsInfo` is a field of its `resiliencyInfo`. -/
structure NcclIbConnectionMetadata where
  qpInfo : Nat → NcclIbQpInfo
  probingQpsInfo : Nat → NcclIbQpInfo
  devs : Nat → NcclIbDevInfo
  ndevs : Nat
  addr : Nat
  remSpeedBufAddr : Nat
  remSpeedBufRkey : Nat

/-- The metadata after `memset`. -/
def NcclIbConnectionMetadata.zero : NcclIbConnectionMetadata :=
  { qpInfo := fun _ => ⟨0, 0⟩
    probingQpsInfo := fun _ => ⟨0, 0⟩
    devs := fun _ => NcclIbDevInfo.zero
    ndevs := 0
    addr := 0
    remSpeedBufAddr := 0
    remSpeedBufRkey := 0 }

/-- What the provider gives for the QPs of a side. -/
structure NewQps where
  qpn : Nat → Nat
  maxInlineData : Nat → Nat
  probingQpn : Nat → Nat

/-- The memory that the connecting side registers for its peer: the CTS FIFO on
each of its devices, and the speed buffer on its first device, if at all. -/
structure SendMem where
  ctsFifoAddr : Nat
  ctsFifoRkey : Nat → Nat
  remoteSpeed : Option (Nat × Nat)

/-- The memory that the accepting side registers for its peer: the completion
records, on each of its devices. -/
structure RecvMem where
  cmplsRecordsAddr : Nat
  cmplsRecordsRkey : Nat → Nat

/-- The array with the first `n` entries from `new`. -/
def fillTo {α : Type} (n : Nat) (new old : Nat → α) (i : Nat) : α := if i < n then new i else old i

/-! ## The QPs -/

/-- `ncclIbResiliencySenderCreateQps`: one probing QP for each device. The context of
a send comm has as many probing QPs as devices. -/
def ncclIbResiliencySenderCreateQps (new : NewQps) (res : NcclIbResiliency)
    (info : NcclIbConnectionMetadata) : NcclIbResiliency × NcclIbConnectionMetadata :=
  let probingQps := fillTo res.ndevs
    (fun i => { res.probingQps i with qpn := new.probingQpn i, devIndex := i }) res.probingQps
  let probingQpsInfo := fillTo res.ndevs (fun i => ⟨new.probingQpn i, i⟩) info.probingQpsInfo
  ({ res with probingQps }, { info with probingQpsInfo })

/-- `ncclIbSenderQpsCreate`. -/
def ncclIbSenderQpsCreate (new : NewQps) (s : ResSendComm) (info : NcclIbConnectionMetadata) :
    ResSendComm × NcclIbConnectionMetadata :=
  let base := s.comm.base
  let nqps := base.nqps.getD 0
  let qps := fillTo nqps
    (fun q => { base.qps q with
      qpn := new.qpn q, devIndex := q % base.ndevs, maxInlineData := new.maxInlineData q }) base.qps
  let qpInfo := fillTo nqps (fun q => ⟨new.qpn q, q % base.ndevs⟩) info.qpInfo
  let comm := { s.comm with base := { base with qps } }
  let info := { info with qpInfo }
  if base.resiliency then
    let (resBase, info) := ncclIbResiliencySenderCreateQps new s.res.base info
    (⟨comm, { s.res with base := resBase }⟩, info)
  else (⟨comm, s.res⟩, info)

/-- `ncclIbResiliencyReceiverQpsCreateToRts`. The devices of the probing QPs are
striped, and `nProbingQps` is the number of devices of the peer. -/
def ncclIbResiliencyReceiverQpsCreateToRts (new : NewQps) (ndevs nProbingQps : Nat)
    (res : NcclIbResiliency) (info : NcclIbConnectionMetadata) :
    NcclIbResiliency × NcclIbConnectionMetadata :=
  let probingQps := fillTo nProbingQps
    (fun i => { res.probingQps i with qpn := new.probingQpn i, devIndex := i % ndevs })
    res.probingQps
  let probingQpsInfo := fillTo nProbingQps (fun i => ⟨new.probingQpn i, i % ndevs⟩)
    info.probingQpsInfo
  ({ res with probingQps }, { info with probingQpsInfo })

/-- `ncclIbReceiverQpsCreateToRts`. -/
def ncclIbReceiverQpsCreateToRts (new : NewQps) (r : ResRecvComm) (nProbingQps : Nat)
    (remMeta info : NcclIbConnectionMetadata) : ResRecvComm × NcclIbConnectionMetadata :=
  let base := r.comm.base
  let nqps := base.nqps.getD 0
  let qps := fillTo nqps
    (fun q =>
      { qpn := new.qpn q
        devIndex := q % base.ndevs
        remDevIdx := (remMeta.qpInfo q).devIndex
        maxInlineData := new.maxInlineData q }) base.qps
  let qpInfo := fillTo nqps (fun q => ⟨new.qpn q, q % base.ndevs⟩) info.qpInfo
  let comm := { r.comm with base := { base with qps } }
  let info := { info with qpInfo }
  if base.resiliency then
    let (res, info) :=
      ncclIbResiliencyReceiverQpsCreateToRts new base.ndevs nProbingQps r.res info
    (⟨comm, res⟩, info)
  else (⟨comm, r.res⟩, info)

/-- `ncclIbResiliencySenderQpsToRts`. -/
def ncclIbResiliencySenderQpsToRts (res : NcclIbResiliency) (remInfo : NcclIbConnectionMetadata) :
    NcclIbResiliency :=
  let probingQps := fillTo res.ndevs
    (fun i => { res.probingQps i with remDevIdx := (remInfo.probingQpsInfo i).devIndex })
    res.probingQps
  { res with probingQps }

/-- `ncclIbSenderQpsToRts`. -/
def ncclIbSenderQpsToRts (s : ResSendComm) (remMeta : NcclIbConnectionMetadata) : ResSendComm :=
  let base := s.comm.base
  let qps := fillTo (base.nqps.getD 0)
    (fun q => { base.qps q with remDevIdx := (remMeta.qpInfo q).devIndex }) base.qps
  let comm := { s.comm with base := { base with qps } }
  if base.resiliency then
    ⟨comm, { s.res with base := ncclIbResiliencySenderQpsToRts s.res.base remMeta }⟩
  else ⟨comm, s.res⟩

/-! ## The tables of rkeys -/

/-- `ncclIbResiliencyRemoteCompletionRecordsSet`. -/
def ncclIbResiliencyRemoteCompletionRecordsSet (res : NcclIbResiliencySend)
    (cmplsRecordsRkey cmplsRecordsAddr devIndex : Nat) : Except Stop NcclIbResiliencySend :=
  if devIndex > res.base.ndevs then .error (.ret ncclInternalError)
  else
    let remCmplRecordsInfo :=
      Function.update res.remCmplRecordsInfo devIndex ⟨cmplsRecordsAddr, cmplsRecordsRkey⟩
    .ok { res with remCmplRecordsInfo }

/-- What `base->remDevs[i]` gets from the metadata. -/
def remDevOf (remMeta : NcclIbConnectionMetadata) (i : Nat) : NcclIbDevInfo :=
  { remMeta.devs i with remoteGid := (remMeta.devs i).gid }

/-- The last part of the loop of `ncclIbConnectImpl` that stores the completion
records, which also tells a resiliency context. -/
def recordsToContext (remMeta : NcclIbConnectionMetadata) :
    List Nat → NcclIbResiliencySend → Except Stop NcclIbResiliencySend
  | [], res => .ok res
  | i :: rest, res =>
    match ncclIbResiliencyRemoteCompletionRecordsSet res (remMeta.devs i).rkey remMeta.addr i with
    | .error e => .error e
    | .ok res => recordsToContext remMeta rest res

/-! ## The handshake -/

/-- The metadata of the connecting side, and its comm when it sends it. `devInfo` is
what it tells of each device. -/
def connectSend (new : NewQps) (mem : SendMem) (devInfo : Nat → NcclIbDevInfo) (s : ResSendComm) :
    ResSendComm × NcclIbConnectionMetadata :=
  let ndevs := s.comm.base.ndevs
  let (s, info) := ncclIbSenderQpsCreate new s { NcclIbConnectionMetadata.zero with ndevs }
  (s, { info with
    devs := fillTo ndevs (fun i => { devInfo i with rkey := mem.ctsFifoRkey i }) info.devs
    addr := mem.ctsFifoAddr
    remSpeedBufAddr := (mem.remoteSpeed.map Prod.fst).getD 0
    remSpeedBufRkey := (mem.remoteSpeed.map Prod.snd).getD 0 })

/-- The accepting side has the metadata of its peer: its comm, and the metadata
that it sends. -/
def acceptSend (new : NewQps) (mem : RecvMem) (devInfo : Nat → NcclIbDevInfo) (nProbingQps : Nat)
    (r : ResRecvComm) (remMeta : NcclIbConnectionMetadata) :
    ResRecvComm × NcclIbConnectionMetadata :=
  let ndevs := r.comm.base.ndevs
  let base := { r.comm.base with
    nRemDevs := remMeta.ndevs
    remDevs := fillTo remMeta.ndevs
      (fun i => { remDevOf remMeta i with remSpeedBufRkey := remMeta.remSpeedBufRkey })
      r.comm.base.remDevs }
  let comm := { r.comm with base, remSpeedBufAddr := remMeta.remSpeedBufAddr }
  let (r, info) :=
    ncclIbReceiverQpsCreateToRts new ⟨comm, r.res⟩ nProbingQps remMeta NcclIbConnectionMetadata.zero
  let remCtsFifo := { r.comm.remCtsFifo with addr := remMeta.addr }
  (⟨{ r.comm with remCtsFifo }, r.res⟩, { info with
    devs := fillTo ndevs (fun i => { devInfo i with rkey := mem.cmplsRecordsRkey i }) info.devs
    addr := mem.cmplsRecordsAddr
    ndevs })

/-- The connecting side has the metadata of its peer. -/
def connectFinish (s : ResSendComm) (remMeta : NcclIbConnectionMetadata) :
    Except Stop ResSendComm := do
  let base := { s.comm.base with
    nRemDevs := remMeta.ndevs
    remDevs := fillTo remMeta.ndevs (remDevOf remMeta) s.comm.base.remDevs }
  let remCmplsRecords := { s.comm.remCmplsRecords with
    addr := remMeta.addr
    rkeys := fillTo remMeta.ndevs (fun i => (remMeta.devs i).rkey) s.comm.remCmplsRecords.rkeys }
  let res ←
    if base.resiliency then recordsToContext remMeta (List.range remMeta.ndevs) s.res
    else .ok s.res
  return ncclIbSenderQpsToRts ⟨{ s.comm with base, remCmplsRecords }, res⟩ remMeta

/-- What both sides get from their providers and their devices. -/
structure HandshakeInput where
  sendQps : NewQps
  recvQps : NewQps
  sendMem : SendMem
  recvMem : RecvMem
  sendDevs : Nat → NcclIbDevInfo
  recvDevs : Nat → NcclIbDevInfo
  /-- The devices that the connecting side had in the exchange of the lists. -/
  nProbingQps : Nat

/-- The exchange of the metadata. -/
def handshake (i : HandshakeInput) (s : ResSendComm) (r : ResRecvComm) :
    Except Stop (ResSendComm × ResRecvComm) := do
  let (s, info) := connectSend i.sendQps i.sendMem i.sendDevs s
  let (r, info) := acceptSend i.recvQps i.recvMem i.recvDevs i.nProbingQps r info
  let s ← connectFinish s info
  return (s, r)

end net_ib
