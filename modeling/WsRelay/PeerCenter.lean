import WsRelay.Protocol

/- The store of direct connections that peers report and fetch, per group. -/
namespace RelayPeerCenter
open RelayProtocol

structure SrcDstPeerPair where
  src : PeerId
  dst : PeerId
  deriving DecidableEq, Repr

instance : Ord SrcDstPeerPair := ⟨compareLex (compareOn (·.src)) (compareOn (·.dst))⟩

instance : Std.TransOrd SrcDstPeerPair :=
  inferInstanceAs (Std.TransCmp (compareLex (compareOn SrcDstPeerPair.src)
    (compareOn SrcDstPeerPair.dst)))

instance : Std.LawfulEqOrd SrcDstPeerPair where
  eq_of_compare {a b} same := by
    have parts : (compare a.src b.src).then (compare a.dst b.dst) = .eq := same
    rw [Ordering.then_eq_eq] at parts
    cases a
    cases b
    simp_all

structure PeerCenterInfoEntry where
  info : DirectConnectedPeerInfo
  updateTimeMs : Millis
  deriving DecidableEq, Repr

structure PeerCenterGroupData where
  globalPeerMap : Std.ExtTreeMap SrcDstPeerPair PeerCenterInfoEntry := ∅
  peerReportTime : PeerMap Millis := ∅
  digest : UInt64 := 0
  deriving DecidableEq

structure PeerCenter where
  groups : Std.ExtTreeMap GroupKey PeerCenterGroupData
  deriving DecidableEq

def PeerCenter.new : PeerCenter := ⟨∅⟩

def PeerCenter.group (pc : PeerCenter) (groupKey : GroupKey) : PeerCenterGroupData :=
  pc.groups.getD groupKey {}

def PeerCenter.put (pc : PeerCenter) (groupKey : GroupKey) (data : PeerCenterGroupData) :
    PeerCenter :=
  ⟨pc.groups.insert groupKey data⟩

/- The hasher is fed the two u32 fields of every key in ascending key order. -/
def calcDigestInternal (x : Externals) (data : PeerCenterGroupData) : UInt64 :=
  x.defaultHash (data.globalPeerMap.keys.flatMap fun k => u32ToLeBytes k.src ++ u32ToLeBytes k.dst)

def PeerCenterGroupData.report (x : Externals) (data : PeerCenterGroupData)
    (req : ReportPeersRequest) (nowMs : Millis) : PeerCenterGroupData :=
  let direct : PeerMap DirectConnectedPeerInfo :=
    (req.peerInfos.map (·.directPeers)).getD ∅
  let merged :=
    { data with
      peerReportTime := data.peerReportTime.insert req.myPeerId nowMs
      globalPeerMap := direct.toList.foldl (fun stored (peerId, info) =>
        stored.insert ⟨req.myPeerId, peerId⟩ ⟨info, nowMs⟩) data.globalPeerMap }
  { merged with digest := calcDigestInternal x merged }

/- report_peers; `none` is the decoding error. -/
def PeerCenter.reportPeers (x : Externals) (pc : PeerCenter) (groupKey : GroupKey)
    (reportBytes : Bytes) (nowMs : Millis) : Option Bytes × PeerCenter :=
  match x.decodeReportPeersRequest reportBytes with
  | none => (none, pc)
  | some req =>
    (some x.encodeReportPeersResponse,
      pc.put groupKey ((pc.group groupKey).report x req nowMs))

def regroup (stored : Std.ExtTreeMap SrcDstPeerPair PeerCenterInfoEntry) :
    PeerMap PeerInfoForGlobalMap :=
  stored.toList.foldl (fun bySrc (pair, entry) =>
    let current : PeerMap DirectConnectedPeerInfo := (bySrc[pair.src]?.map (·.directPeers)).getD ∅
    bySrc.insert pair.src ⟨current.insert pair.dst entry.info⟩) ∅

def PeerCenterGroupData.respond (data : PeerCenterGroupData) (req : GetGlobalPeerMapRequest) :
    GetGlobalPeerMapResponse :=
  if req.digest = data.digest ∧ req.digest ≠ 0 then { globalPeerMap := ∅, digest := none }
  else { globalPeerMap := regroup data.globalPeerMap, digest := some data.digest }

def PeerCenter.getGlobalPeerMap (x : Externals) (pc : PeerCenter) (groupKey : GroupKey)
    (requestBytes : Bytes) : Option Bytes × PeerCenter :=
  match x.decodeGetGlobalPeerMapRequest requestBytes with
  | none => (none, pc)
  | some req =>
    let data := pc.group groupKey
    (some (x.encodeGetGlobalPeerMapResponse (data.respond req)), pc.put groupKey data)

/- clean_outdated on one group. The subtraction and the product are unchecked and wrap. -/
def PeerCenterGroupData.cleanOutdated (data : PeerCenterGroupData) (nowMs : Millis)
    (ttlMs : UInt64) : PeerCenterGroupData :=
  { data with
    peerReportTime := data.peerReportTime.filter fun _ v => nowMs - v < ttlMs
    globalPeerMap := data.globalPeerMap.filter fun _ v => nowMs - v.updateTimeMs < ttlMs }

def PeerCenter.cleanOutdated (pc : PeerCenter) (nowMs : Millis) (ttlSec : UInt64) : PeerCenter :=
  let ttlMs := ttlSec * 1000
  ⟨(pc.groups.map fun _ data => data.cleanOutdated nowMs ttlMs).filter fun _ data =>
    !data.globalPeerMap.isEmpty || !data.peerReportTime.isEmpty⟩

end RelayPeerCenter
