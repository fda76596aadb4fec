import WsRelay.ChangeBroadcast

/- Requests without an answer. Each of the functions that write decodes the body again on its
   own; they agree on what is readable, so a request either is answered or writes nothing. -/
namespace RelaySilentRequests
open RelayProtocol RelayRouteState RelayPeerCenter RelayPeerManager RelayRpcHandler
open RelayWireFormats

variable {x : Externals} {a : Ambient} {ctx : WsPeerContext} {pm : PeerManager}
  {centers : PeerCenterMap}

/- At most empty centers have been added. -/
def SameCenters (before after : PeerCenterMap) : Prop :=
  ∀ key : GroupKey, after[key]? = before[key]? ∨
    before[key]? = none ∧ after[key]? = some PeerCenter.new

theorem sameCenters_refl (m : PeerCenterMap) : SameCenters m m := fun _ => Or.inl rfl

theorem sameCenters_entry (m : PeerCenterMap) (key : GroupKey) :
    SameCenters m (m.insert key (m.getD key PeerCenter.new)) := by
  intro other
  rw [Std.ExtTreeMap.getElem?_insert]
  by_cases here : key = other
  · subst here
    cases held : m[key]? with
    | none =>
      right
      simp [Std.ExtTreeMap.getD_eq_getD_getElem?, held]
    | some center =>
      left
      simp [Std.ExtTreeMap.getD_eq_getD_getElem?, held]
  · left
    simp [here]

/- Nothing but an empty center may tell the outcome from the state before. -/
structure NoTrace (pm : PeerManager) (centers : PeerCenterMap) (out : RpcOutcome) : Prop where
  routes : out.peerManager.routeState = pm.routeState
  centers : SameCenters centers out.peerCenterMap

/- The response comes first, goes to the requester and is the only one. -/
structure Responds (x : Externals) (requester : PeerId) (packet : RpcPacket)
    (actions : List RpcAction) : Prop where
  first : ∃ (answer : RpcPacket) (rest : List RpcAction),
    actions = .sendTo requester (x.encodeRpcPacket answer) :: rest ∧
      answer.transactionId = packet.transactionId ∧ answer.isRequest = false ∧
      ∀ p bytes, .sendTo p bytes ∉ rest

theorem responds_build (packet : RpcPacket) (responseBody : Bytes) (requester : PeerId)
    {rest : List RpcAction} (noOther : ∀ p bytes, RpcAction.sendTo p bytes ∉ rest) :
    Responds x requester packet
      (.sendTo requester (buildRpcResponseBytes x packet responseBody requester) :: rest) :=
  ⟨_, rest, rfl, rfl, rfl, noOther⟩

theorem handleSyncRouteInfo_unreadable (a : Ambient) (ctx : WsPeerContext) (pm : PeerManager)
    (packet : RpcPacket) {body : Bytes}
    (unreadable : x.decodeSyncRouteInfoRequest body = none) (key : GroupKey) :
    (handleSyncRouteInfo x a ctx pm packet body key).1 = [] ∧
      (handleSyncRouteInfo x a ctx pm packet body key).2.2 = pm := by
  simp only [handleSyncRouteInfo, applySyncRequest, PeerManager.handleSyncRouteInfo,
    RouteState.handleSyncRouteInfoRequest, unreadable, and_self]

theorem handleSyncRouteInfo_readable {packet : RpcPacket} {body : Bytes}
    {req : SyncRouteInfoRequest} (readable : x.decodeSyncRouteInfoRequest body = some req)
    (key : GroupKey) :
    Responds x ctx.peerId packet (handleSyncRouteInfo x a ctx pm packet body key).1 := by
  simp only [handleSyncRouteInfo, applySyncRequest, PeerManager.handleSyncRouteInfo,
    RouteState.handleSyncRouteInfoRequest, readable, List.cons_append, List.nil_append]
  split
  · exact responds_build packet _ _ (by simp)
  · exact responds_build packet _ _ (by simp)

theorem reportPeers_unreadable {pc : PeerCenter} {body : Bytes} {key : GroupKey} {nowMs : Millis}
    (silent : (pc.reportPeers x key body nowMs).1 = none) :
    (pc.reportPeers x key body nowMs).2 = pc := by
  unfold PeerCenter.reportPeers at silent ⊢
  cases decoded : x.decodeReportPeersRequest body with
  | none => rfl
  | some req => simp [decoded] at silent

theorem getGlobalPeerMap_unreadable {pc : PeerCenter} {body : Bytes} {key : GroupKey}
    (silent : (pc.getGlobalPeerMap x key body).1 = none) :
    (pc.getGlobalPeerMap x key body).2 = pc := by
  unfold PeerCenter.getGlobalPeerMap at silent ⊢
  cases decoded : x.decodeGetGlobalPeerMapRequest body with
  | none => rfl
  | some req => simp [decoded] at silent

theorem handlePeerCenterRpc_cases (packet : RpcPacket) (body : Bytes) :
    Responds x ctx.peerId packet (handlePeerCenterRpc x a ctx centers packet body).1 ∨
      (handlePeerCenterRpc x a ctx centers packet body).1 = [] ∧
        SameCenters centers (handlePeerCenterRpc x a ctx centers packet body).2 := by
  unfold handlePeerCenterRpc
  dsimp only
  set pc := centers.getD ctx.groupKey PeerCenter.new with found
  set called := if methodIndex packet = 0 then pc.reportPeers x ctx.groupKey body a.nowMs
    else if methodIndex packet = 1 then pc.getGlobalPeerMap x ctx.groupKey body
    else (none, pc) with calledDef
  cases answer : called.1 with
  | some respBytes =>
    left
    exact responds_build packet respBytes ctx.peerId (by simp)
  | none =>
    right
    have kept : called.2 = pc := by
      by_cases first : methodIndex packet = 0
      · rw [calledDef, if_pos first] at answer ⊢
        exact reportPeers_unreadable answer
      · by_cases second : methodIndex packet = 1
        · rw [calledDef, if_neg first, if_pos second] at answer ⊢
          exact getGlobalPeerMap_unreadable answer
        · rw [calledDef, if_neg first, if_neg second]
    rw [kept, found]
    exact ⟨rfl, sameCenters_entry centers ctx.groupKey⟩

theorem dispatchRpcReq_cases (packet : RpcPacket) :
    Responds x ctx.peerId packet (dispatchRpcReq x a ctx pm centers packet).actions ∨
      (dispatchRpcReq x a ctx pm centers packet).actions = [] ∧
        NoTrace pm centers (dispatchRpcReq x a ctx pm centers packet) := by
  unfold dispatchRpcReq
  dsimp only
  by_cases center : isPeerCenterService (serviceName packet) = true
  · rw [if_pos center]
    rcases handlePeerCenterRpc_cases packet (innerRequestBody x packet) with
      answered | ⟨silent, same⟩
    · exact Or.inl answered
    · exact Or.inr ⟨silent, rfl, same⟩
  · rw [if_neg center]
    by_cases ospf : isOspfRouteService (serviceName packet) = true
    · rw [if_pos ospf]
      by_cases method : methodIndex packet = 0 ∨ methodIndex packet = 1
      · rw [if_pos method]
        cases decoded : x.decodeSyncRouteInfoRequest (innerRequestBody x packet) with
        | some req => exact Or.inl (handleSyncRouteInfo_readable decoded ctx.groupKey)
        | none =>
          obtain ⟨silent, kept⟩ := handleSyncRouteInfo_unreadable a ctx pm packet decoded
            ctx.groupKey
          exact Or.inr ⟨silent, congrArg PeerManager.routeState kept, sameCenters_refl centers⟩
      · rw [if_neg method]
        exact Or.inr ⟨rfl, rfl, sameCenters_refl centers⟩
    · rw [if_neg ospf]
      exact Or.inr ⟨rfl, rfl, sameCenters_refl centers⟩

/-- A request without actions leaves no trace, and any other is answered: by one response, to the
    requester and under the transaction id of the request. -/
theorem silent_or_answered (x : Externals) (a : Ambient) (ctx : WsPeerContext) (pm : PeerManager)
    (centers : PeerCenterMap) (payload : Bytes) :
    let out := handleRpcReq x a ctx pm centers payload
    (out.actions = [] → NoTrace pm centers out) ∧
      (out.actions ≠ [] → ∃ packet, x.decodeRpcPacket payload = some packet ∧
        Responds x ctx.peerId packet out.actions) := by
  intro out
  cases decoded : x.decodeRpcPacket payload with
  | none =>
    have ignored : out = ⟨[], ctx, pm, centers⟩ := by
      simp only [out, handleRpcReq, decoded]
    rw [ignored]
    exact ⟨fun _ => ⟨rfl, sameCenters_refl centers⟩, fun acted => absurd rfl acted⟩
  | some packet =>
    have dispatched : out = dispatchRpcReq x a ctx pm centers packet := by
      simp only [out, handleRpcReq, decoded]
    rw [dispatched]
    rcases dispatchRpcReq_cases packet with answered | ⟨silent, clean⟩
    · constructor
      · intro none
        obtain ⟨answer, rest, listed, -⟩ := answered.first
        rw [listed] at none
        cases none
      · intro _
        exact ⟨packet, rfl, answered⟩
    · exact ⟨fun _ => clean, fun acted => absurd silent acted⟩

end RelaySilentRequests
