import Uranus.Route.RouteModule

/-! How far a package from a client gets. The target is read three times, by the
read loop, by the agent and by the router, and each of them narrows it. -/
namespace Uranus
open Foundation Program

/-- The ids that the read loop keeps to itself. -/
def reservedIds : List UInt32 :=
  [heartbeatPackageId, loginRequestPackageId, platformPackageId, logoutRequestPackageId]

theorem reaction_direct {pkg : FPacket} (direct : reaction pkg = .direct) :
    pkg.header.target = playerTargetId ∧ pkg.header.id ∉ reservedIds := by
  simp only [reaction] at direct
  split at direct
  · cases direct
  next free =>
    split at direct
    · cases direct
    next stays =>
      split at direct
      next own =>
        refine ⟨own, ?_⟩
        simp only [reservedIds, List.mem_cons, List.not_mem_nil, or_false]
        tauto
      next => split at direct <;> cases direct

theorem reaction_posted {pkg : FPacket} (posted : reaction pkg = .posted) :
    pkg.header.target > 0 := by
  simp only [reaction] at posted
  split at posted
  · cases posted
  · split at posted
    · cases posted
    · split at posted
      · cases posted
      · split at posted
        next positive => exact positive
        next => cases posted

/-- The read loop of the gateway's model reacts in the same way. -/
theorem receivePackage_reaction (factory : IPlayerFactory) (id : AgentId) (player : IPlayerBase)
    (pkg : FPacket) : receivePackage factory id player pkg = match reaction pkg with
      | .ignored | .posted => pure ()
      | .logout => editAgent id fun agent => { agent with cachable := false }
      | .direct => callHook (factory.hooks.onPackage player pkg) := by
  simp only [receivePackage, reaction]
  split
  · rfl
  · split
    · rfl
    · split
      · rfl
      · by_cases positive : pkg.header.target > 0
        · rw [if_pos positive]
        · rw [if_neg positive]

theorem gatewayResult_bind {A B : Type} {program : GatewayM A} {next : A → ServerM B}
    {after : A → GatewayM B} (s : ServerModules)
    (rest : ∀ value gateway, gatewayResult (next value { s with gateway }) = after value gateway) :
    gatewayResult ((onGateway program >>= next) s) = (program >>= after) s.gateway := by
  rw [bind_apply]
  cases ran : program s.gateway with
  | ok value gateway =>
    rw [bind_ok ran, onGateway_ok ran]
    exact rest value gateway
  | error fault gateway =>
    rw [bind_error ran, onGateway_error ran]
    rfl

theorem gatewayResult_onGateway {A : Type} (program : GatewayM A) (s : ServerModules) :
    gatewayResult (onGateway program s) = program s.gateway := by
  cases ran : program s.gateway with
  | ok value gateway =>
    rw [onGateway_ok ran]
    rfl
  | error fault gateway =>
    rw [onGateway_error ran]
    rfl

/-- Who may get a package, and as what. -/
def Permitted (id : AgentId) (player : IPlayerBase) (pkg : FPacket) (s : ServerModules) :
    Addressee × FPacket → Prop
  | (.player agent who, what) => agent = id ∧ who = player ∧ what = pkg ∧
      pkg.header.target = playerTargetId ∧ pkg.header.id ∉ reservedIds
  | (.service sid agent, what) => pkg.header.target > 0 ∧ sid = pkg.header.target.toInt ∧
      (∃ services, s.service = some services ∧ services.serviceMap.lookup sid = some agent) ∧
      what = pkg.setSource playerTargetId
  | (.playerAgent .., _) => False

/-- What a service gets is in its mailbox, and no other service has anything new. -/
def Pushed (s t : ServerModules) : Option (Addressee × FPacket) → Prop
  | some (.service _ agent, what) => ∃ services, s.service = some services ∧
      t.service = some (services.edit agent.serial fun context =>
        context.post (Mailbox.pushPackage (some what)))
  | _ => t.service = s.service

/-- At most one actor gets the package, and no client has anything new to read. -/
structure Confined (id : AgentId) (player : IPlayerBase) (pkg : FPacket) (s t : ServerModules) :
    Prop where
  once : ∃ got : Option (Addressee × FPacket), t.reached = s.reached ++ got.toList ∧
    (∀ entry ∈ got, Permitted id player pkg s entry) ∧ Pushed s t got
  clients : ∀ other, (t.gateway.agents.lookup other).map UPlayerAgent.output =
    (s.gateway.agents.lookup other).map UPlayerAgent.output

section
variable {id : AgentId} {player : IPlayerBase} {pkg : FPacket} {s t : ServerModules}

theorem Confined.refl (id : AgentId) (player : IPlayerBase) (pkg : FPacket) (s : ServerModules) :
    Confined id player pkg s s :=
  ⟨⟨none, by simp, by simp, rfl⟩, fun _ => rfl⟩

/-- The branch of the router for services, with a package from a client. -/
theorem routeToService_confined (positive : pkg.header.target > 0) :
    ∃ t, routeToService pkg.header.target.toInt (pkg.setSource playerTargetId) s = .ok () t ∧
      t.gateway = s.gateway ∧ Confined id player pkg s t := by
  cases present : s.service with
  | none =>
    refine ⟨s, ?_, rfl, .refl id player pkg s⟩
    simp only [routeToService, get_bind, present, pure_apply]
  | some services =>
    have found : ∃ agent, findService pkg.header.target.toInt services = .ok agent services ∧
        ∀ who ∈ agent, services.serviceMap.lookup pkg.header.target.toInt = some who := by
      simp only [findService, get_bind]
      split
      · exact ⟨none, rfl, by simp⟩
      · exact ⟨_, rfl, fun _ known => known⟩
    obtain ⟨agent, ran, known⟩ := found
    have looked := onService_ok (s := s) ran
    cases agent with
    | none =>
      refine ⟨s, ?_, rfl, .refl id player pkg s⟩
      simp only [routeToService, get_bind, present]
      rw [bind_ok looked, ← present]
      rfl
    | some agent =>
      have same : { s with service := some services } = s := by rw [← present]
      refine ⟨{ s with
        reached := s.reached ++
          [(.service pkg.header.target.toInt agent, pkg.setSource playerTargetId)]
        service := some (services.edit agent.serial fun context =>
          context.post (Mailbox.pushPackage (some (pkg.setSource playerTargetId)))) }, ?_, rfl, ?_⟩
      · simp only [routeToService, get_bind, present]
        rw [bind_ok looked, same]
        rfl
      · refine ⟨⟨some (.service pkg.header.target.toInt agent, pkg.setSource playerTargetId),
          rfl, ?_, services, present, rfl⟩, fun _ => rfl⟩
        rintro entry ⟨⟩
        exact ⟨positive, rfl, ⟨services, present, known agent rfl⟩, rfl⟩

/-- A package with a positive target leaves the agent only for a service. -/
theorem agentPostPackage_confined (positive : pkg.header.target > 0) :
    ∃ t, agentPostPackage pkg s = .ok () t ∧ t.gateway = s.gateway ∧
      Confined id player pkg s t := by
  have stays : ∃ t, (pure () : ServerM Unit) s = .ok () t ∧ t.gateway = s.gateway ∧
      Confined id player pkg s t := ⟨s, rfl, rfl, .refl id player pkg s⟩
  have target : (pkg.setSource playerTargetId).header.target.toInt > 0 :=
    Int32.lt_iff_toInt_lt.mp positive
  have routed : ∃ t, routePostPackage (pkg.setSource playerTargetId) (-1) s = .ok () t ∧
      t.gateway = s.gateway ∧ Confined id player pkg s t := by
    simp only [routePostPackage, get_bind, if_pos target]
    split
    · exact stays
    · exact routeToService_confined positive
  simp only [agentPostPackage]
  split
  · exact stays
  · simp only [get_bind]
    cases s.route with
    | none => exact stays
    | some state => exact routed

/-- To the gateway, the body of the read loop is the turn that its own model has. -/
theorem readPackage_readTurn (factory : IPlayerFactory) (parser : ILoginHandler) (id : AgentId)
    (pkg : FPacket) (now : Int) (s : ServerModules) :
    gatewayResult (readPackage factory parser id pkg now s) =
      readTurn factory parser id (.received pkg now) s.gateway := by
  apply gatewayResult_bind s
  intro agent gateway
  cases agent.player with
  | none => exact gatewayResult_onGateway (checkRequest parser now agent.key pkg) _
  | some player =>
    simp only [receivePackage_reaction, react]
    cases reacted : reaction pkg with
    | ignored => rfl
    | logout => exact gatewayResult_bind _ fun _ _ => rfl
    | direct =>
      apply gatewayResult_bind
        { s with gateway, reached := s.reached ++ [(.player id player, pkg)] }
      exact fun _ _ => rfl
    | posted =>
      have posts := @agentPostPackage_confined id player pkg { s with gateway }
        (reaction_posted reacted)
      obtain ⟨t, ran, same, -⟩ := posts
      dsimp only
      rw [bind_ok ran]
      simp only [gatewayResult, pure_apply, same]
      rfl

theorem react_confined (factory : IPlayerFactory) (id : AgentId) (player : IPlayerBase)
    (pkg : FPacket) (s : ServerModules) :
    ∃ t, Ends (react factory id player pkg) s t ∧ Confined id player pkg s t := by
  simp only [react]
  cases reacted : reaction pkg with
  | ignored => exact ⟨s, .inl ⟨(), rfl⟩, .refl id player pkg s⟩
  | logout =>
    refine ⟨{ s with gateway := s.gateway.edit id _ }, .inl ⟨(), rfl⟩, ?_⟩
    refine ⟨⟨none, by simp, by simp, rfl⟩, fun other => ?_⟩
    rw [UGateway.edit_lookup]
    split
    next same =>
      rw [same]
      cases s.gateway.agents.lookup id <;> rfl
    next => rfl
  | direct =>
    obtain ⟨own, free⟩ := reaction_direct reacted
    let t : ServerModules := { s with reached := s.reached ++ [(.player id player, pkg)] }
    have confined : Confined id player pkg s t := by
      refine ⟨⟨some (.player id player, pkg), rfl, ?_, rfl⟩, fun _ => rfl⟩
      rintro entry ⟨⟩
      exact ⟨rfl, rfl, rfl, own, free⟩
    refine ⟨t, ?_, confined⟩
    cases thrown : factory.hooks.onPackage player pkg with
    | none => exact .inl ⟨(), rfl⟩
    | some what => exact .inr ⟨what, rfl⟩
  | posted =>
    obtain ⟨t, ran, -, confined⟩ := agentPostPackage_confined (reaction_posted reacted)
    exact ⟨t, .inl ⟨(), ran⟩, confined⟩

/-- For every agent with a player, every package and every state of the registries. -/
theorem readPackage_confined (factory : IPlayerFactory) (parser : ILoginHandler) (pkg : FPacket)
    (now : Int) {agent : UPlayerAgent} (alive : s.gateway.agents.lookup id = some agent)
    (loggedIn : agent.player = some player) :
    ∃ t, Ends (readPackage factory parser id pkg now) s t ∧ Confined id player pkg s t := by
  have read : onGateway (theAgent id) s = .ok agent s := onGateway_ok (theAgent_ok alive)
  have body : readPackage factory parser id pkg now s =
      (react factory id player pkg >>= fun _ => pure none) s := by
    simp only [readPackage]
    rw [bind_ok read, loggedIn]
  obtain ⟨t, ends, confined⟩ := react_confined factory id player pkg s
  refine ⟨t, ?_, confined⟩
  simp only [Ends, body]
  rcases ends with ⟨value, ran⟩ | ⟨what, threw⟩
  · exact .inl ⟨none, bind_ok ran _⟩
  · exact .inr ⟨what, bind_error threw _⟩

end

/-- A connected agent with a player. -/
def loggedInAgent : UPlayerAgent :=
  { UPlayerAgent.new "127.0.0.1" 7 with player := some ⟨0, 5, some 0⟩ }

/-- Beside the agent the server has one service. -/
def oneLoggedIn : ServerModules where
  gateway := { UGateway.started with
    playerMap := (∅ : Table Int64 AgentId).insert 5 0
    agents := (∅ : Table AgentId UPlayerAgent).insert 0 loggedInAgent }
  service := some { UServiceModule.started (.only mailService) with
    serviceMap := (∅ : Table Int UServiceAgent).insert 3 ⟨0, mailService⟩ }
  route := some .running
  reached := []

/-- The client claims to be the server and asks for the service. -/
theorem readPackage_confined_service :
    let pkg : FPacket := ⟨⟨0, 2001, serverSourceId, 3, 0⟩, ⟨[]⟩⟩
    ∃ t, Ends (readPackage plainFactory emptyParser 0 pkg 9) oneLoggedIn t ∧
      Confined 0 ⟨0, 5, some 0⟩ pkg oneLoggedIn t := by
  have alive : oneLoggedIn.gateway.agents.lookup 0 = some loggedInAgent := rfl
  exact readPackage_confined plainFactory emptyParser _ 9 alive rfl

end Uranus
