-- ncclIbIsend (p2p.cc). A send is matched with an entry of the CTS message of
-- the current group. The last send that the group waits for posts the group.
import MrcPlugin.MultiSend
import MrcPlugin.Striping

namespace net_ib.p2p

/-- The arguments of `ncclIbIsend`. The memory handle gives one lkey for each device. -/
structure IsendArgs where
  data : Nat
  size : Nat
  tag : Int
  lkeys : Nat → Nat

/-- What a call of `ncclIbIsend` does: the comm after it, its posts, and what it
returns. A call that returns no request is `some none`. -/
structure IsendOut where
  comm : NcclIbSendComm
  posts : List SendPost
  ret : Except Stop (Option Nat)

/-- The slot of a group. -/
def slotOf (id : Nat) : Nat := id % NET_IB_MAX_REQUESTS

/-- The request of a send that is matched with entry `r`. -/
def sendRequest (comm : NcclIbSendComm) (old : NcclIbRequest) (a : IsendArgs) (nreqs r size : Nat)
    (devIndexes : List Nat) : NcclIbRequest :=
  let base := comm.base
  let req := { old with
    id := base.fifoHead
    type := NCCL_NET_IB_REQ_SEND
    nreqs
    send :=
      { size := i32 size
        data := a.data
        lkeys := fun d => if d < base.ndevs then a.lkeys d else old.send.lkeys d
        sentData := if base.resiliency then fun _ => false else old.send.sentData
        weights := if r = 0 then base.weights else old.send.weights } }
  devIndexes.foldl ncclIbAddEvent req

/-- The send takes entry `r` of the slot. -/
def bindEntry (comm : NcclIbSendComm) (slot r i : Nat) (req : NcclIbRequest) : NcclIbSendComm :=
  { comm with
    base := { comm.base with reqs := Function.update comm.base.reqs i req }
    remCmplsRecords := { comm.remCmplsRecords with
      elems := Function.update comm.remCmplsRecords.elems slot
        (Function.update (comm.remCmplsRecords.elems slot) r req.send.size) }
    sendReqs := Function.update comm.sendReqs slot
      (Function.update (comm.sendReqs slot) r (some i))
    sendReqsCnt := Function.update comm.sendReqsCnt slot (comm.sendReqsCnt slot + 1) }

/-- The body of the matching loop, for the entry `r` that matches. -/
def isendEntry (env : NetEnv) (comm : NcclIbSendComm) (a : IsendArgs) (slot nreqs r : Nat) :
    IsendOut :=
  let elem := comm.ctsFifo slot r
  let size := if a.size > elem.size then elem.size else a.size
  if elem.addr = 0 ∨ elem.rkeys 0 = 0 then ⟨comm, [], .error (.ret ncclInternalError)⟩
  else
    match requestQps comm.base comm.base.fifoHead with
    | .error e => ⟨comm, [], .error e⟩
    | .ok qps =>
      match ncclIbGetRequest comm.base with
      | .error e => ⟨comm, [], .error e⟩
      | .ok (base, i) =>
        let req := sendRequest comm (base.reqs i) a nreqs r size
          (qps.map (fun q => (comm.base.qps q.1).devIndex))
        let comm := bindEntry { comm with base } slot r i req
        -- A multi-receive is sent only when all its entries are matched.
        if comm.sendReqsCnt slot < nreqs then ⟨comm, [], .ok (some i)⟩
        else
          match ncclIbMultiSend env comm slot with
          | .error e => ⟨comm, [], .error e⟩
          | .ok (comm, posts) =>
            ⟨{ comm with base := { comm.base with fifoHead := comm.base.fifoHead + 1 } },
              posts, .ok (some i)⟩

/-- The first entry that is free and has the tag. -/
def matchEntry (comm : NcclIbSendComm) (slot nreqs : Nat) (tag : Int) : Option Nat :=
  (List.range nreqs).find? (fun r =>
    (comm.sendReqs slot r).isNone ∧ (comm.ctsFifo slot r).tag = u32 tag)

/-- `ncclIbIsend`. The first element of the CTS message may arrive before the
others; the call then spins until they are there. -/
def ncclIbIsend (env : NetEnv) (comm : NcclIbSendComm) (a : IsendArgs) : IsendOut :=
  if !comm.base.ready then ⟨comm, [], .error (.ret ncclInternalError)⟩
  else
    match ncclIbStatsCheckFatalCount env comm.base.fatalErrorCount with
    | .error e => ⟨comm, [], .error e⟩
    | .ok () =>
      let slot := slotOf comm.base.fifoHead
      let slots := comm.ctsFifo slot
      let idx := comm.base.fifoHead + 1
      if (slots 0).idx ≠ idx then ⟨comm, [], .ok none⟩
      else
        let nreqs := (slots 0).nreqs
        if (List.range nreqs).any (fun r => (slots r).idx ≠ idx) then ⟨comm, [], .error .spin⟩
        else
          match matchEntry comm slot nreqs a.tag with
          | none => ⟨comm, [], .ok none⟩
          | some r => isendEntry env comm a slot nreqs r

/-! ## A comm as the handshake leaves it -/

/-- A CTS element that `calloc` has cleared. -/
def blankElem : NcclIbSendFifo :=
  { addr := 0, size := 0, rkeys := fun _ => 0, nreqs := 0, tag := 0, idx := 0 }

/-- A send comm of shape `sh` before its first call. -/
def freshSend (sh : Shape) : NcclIbSendComm :=
  { base := freshBase sh true
    ibDevN := fun d => d
    sgeLkey := fun _ => 0
    ctsFifo := fun _ _ => blankElem
    sendReqs := fun _ _ => none
    sendReqsCnt := fun _ => 0
    remCmplsRecords := { elems := fun _ _ => 0, elemsAddr := 0, addr := 0, rkeys := fun _ => 0 }
    ar := false
    remoteSpeedBuf := { counter := 0, speedGbps := fun _ => 0 }
    remoteSpeedCounter := 0 }

/-- Parameters at their defaults, and no fatal error. -/
def plainEnv : NetEnv :=
  { asyncEvents := true, eventBasedLb := false, eventBasedLbRemote := true, arThreshold := 8192
    devFatalErrorCount := fun _ => 0, speedChangeCounter := 0, currSpeed := fun _ => 0 }

end net_ib.p2p
