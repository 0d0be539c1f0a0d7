import Uranus.Route.Stations

/-! One section of a call: what it leaves of the call, and what it has done to the
packages and to one agent. -/
namespace Uranus
open Foundation

/-- The target by which packages are meant for an agent. -/
def Station.meant (station : Station) : Int32 :=
  match station.role with
  | .service sid _ => Int32.ofInt sid
  | .player => playerTargetId

def Cargo.toClient : Cargo → Bool
  | .client _ => true
  | .package _ | .named _ | .task _ => false

/-- A call that has come to an agent whose client gets its package. -/
def Posting.SendsTo (agent : AgentId) (posting : Posting) : Prop :=
  (∃ pkg, posting = .found posting.sender agent (.client pkg)) ∨
    ∃ pkg, posting = .asked agent (.sendPackage pkg)

namespace Exchange
variable {s t : Exchange} {number : Nat} {sender agent : AgentId} {posting : Posting}
  {rest : Option Posting} {pkg : PackageId}

/-- The maps lead to agents of the right kind. A service agent has the id that it
is found by, until it has been closed. No player has the id 0. -/
structure Listed (s : Exchange) : Prop where
  services : ∀ sid agent, s.serviceMap.lookup sid = some agent →
    ∃ station, s.stations.lookup agent = some station ∧ station.role ≠ .player ∧
      (station.mailbox.channel.isOpen → ∃ name, station.role = .service sid name)
  players : ∀ pid agent, s.playerMap.lookup pid = some agent →
    ∃ station, s.stations.lookup agent = some station ∧ station.role = .player
  nonzero : s.playerMap.lookup 0 = none

/-- A package that is going to be pushed as it is has the target of the agent
found. Who has been found by name gets a package only with a new target, and a
package that was sent to a player is still for players when it is routed. -/
def Fit (s : Exchange) : Posting → Prop
  | .found _ agent (.package pkg) => ∃ station, s.stations.lookup agent = some station ∧
      (station.mailbox.channel.isOpen → (s.packages pkg).header.target = station.meant)
  | .routed _ pkg pid => 0 ≤ pid → (s.packages pkg).header.target = playerTargetId
  | .named _ _ (.package _) => False
  | .asked .. | .found _ _ (.named _) | .found _ _ (.task _) | .found _ _ (.client _)
  | .named _ _ (.named _) | .named _ _ (.task _) | .named _ _ (.client _) => True

/-- What is left of a call has its sender and its package. -/
def Carries (sender : AgentId) (package : Option PackageId) (rest : Option Posting) : Prop :=
  ∀ posting ∈ rest, posting.sender = sender ∧ posting.package = package

theorem Carries.none {package : Option PackageId} : Carries sender package none :=
  fun _ held => by cases held

/-- What is left of a call fits besides. -/
structure Goes (s : Exchange) (sender : AgentId) (package : Option PackageId)
    (rest : Option Posting) : Prop where
  carries : Carries sender package rest
  fit : Listed s → ∀ posting ∈ rest, Fit s posting

theorem Goes.none {package : Option PackageId} : Goes s sender package none :=
  ⟨.none, fun _ _ held => by cases held⟩

theorem target_eq {target : Int32} (same : s.target pkg = target.toInt) :
    (s.packages pkg).header.target = target :=
  Int32.toInt_inj.mp same

theorem findService_some {sid : Int} (found : s.findService sid = some agent) :
    s.serviceMap.lookup sid = some agent := by
  unfold findService at found
  split at found
  · exact found
  · cases found

theorem findPlayer_some {pid : Int64} (found : s.findPlayer pid = some agent) :
    s.playerMap.lookup pid = some agent := by
  unfold findPlayer at found
  split at found
  · exact found
  · cases found

section
variable {pid : Int} {later : Posting} {name : String} {task : Nat}

/-- The router finds a service by a positive target, and a player only where the
package is for players or has the target 0. -/
theorem routePostPackage_some (led : s.routePostPackage sender pkg pid = some later) :
    ∃ agent, later = .found sender agent (.package pkg) ∧
      (0 < s.target pkg ∧ s.serviceMap.lookup (s.target pkg) = some agent ∨
        s.target pkg = playerTargetId.toInt ∧ 0 ≤ pid ∧
          s.playerMap.lookup (Int64.ofInt pid) = some agent ∨
        s.playerMap.lookup 0 = some agent) := by
  unfold routePostPackage at led
  dsimp only at led
  split at led
  · cases led
  · split at led
    next positive =>
      obtain ⟨agent, found, rfl⟩ := Option.map_eq_some_iff.mp led
      exact ⟨agent, rfl, .inl ⟨positive, findService_some found⟩⟩
    next nonpositive =>
      by_cases player : s.target pkg = playerTargetId.toInt
      · rw [if_pos player] at led
        split at led
        · cases led
        next valid =>
          obtain ⟨agent, found, rfl⟩ := Option.map_eq_some_iff.mp led
          exact ⟨agent, rfl, .inr (.inl ⟨player, by omega, findPlayer_some found⟩)⟩
      · rw [if_neg player] at led
        split at led
        · cases led
        next valid =>
          obtain ⟨agent, found, rfl⟩ := Option.map_eq_some_iff.mp led
          have zero : s.target pkg = 0 := by omega
          rw [zero] at found
          exact ⟨agent, rfl, .inr (.inr (findPlayer_some found))⟩

theorem routePostPackageTo_some (led : s.routePostPackageTo sender name pkg = some later) :
    ∃ sid, later = .named sender sid (.named pkg) := by
  unfold routePostPackageTo at led
  split at led
  · cases led
  · obtain ⟨sid, -, rfl⟩ := Option.map_eq_some_iff.mp led
    exact ⟨sid, rfl⟩

theorem routePostTask_some {bToService : Bool} {target : Int64}
    (led : s.routePostTask sender bToService target task = some later) :
    ∃ agent, later = .found sender agent (.task task) ∧
      if bToService then s.serviceMap.lookup target.toInt = some agent
      else s.playerMap.lookup target = some agent := by
  unfold routePostTask at led
  split at led
  · cases led
  · split at led
    next toService =>
      obtain ⟨agent, found, rfl⟩ := Option.map_eq_some_iff.mp led
      exact ⟨agent, rfl, by rw [if_pos toService]; exact findService_some found⟩
    next toPlayer =>
      obtain ⟨agent, found, rfl⟩ := Option.map_eq_some_iff.mp led
      exact ⟨agent, rfl, by rw [if_neg toPlayer]; exact findPlayer_some found⟩

theorem routePostTaskTo_some (led : s.routePostTaskTo sender name task = some later) :
    ∃ sid, later = .named sender sid (.task task) := by
  unfold routePostTaskTo at led
  split at led
  · cases led
  · obtain ⟨sid, -, rfl⟩ := Option.map_eq_some_iff.mp led
    exact ⟨sid, rfl⟩

theorem routeSendToClient_some {pid : Int64}
    (led : s.routeSendToClient sender pid pkg = some later) :
    ∃ agent, later = .found sender agent (.client pkg) ∧ s.playerMap.lookup pid = some agent := by
  unfold routeSendToClient at led
  split at led
  · cases led
  · obtain ⟨agent, found, rfl⟩ := Option.map_eq_some_iff.mp led
    exact ⟨agent, rfl, findPlayer_some found⟩

end

/-- How a call begins: it stops, or enters the router, or sends to its own client.
A player names itself as the source of what it posts. -/
inductive Begun (s : Exchange) (sender : AgentId) (number : Nat) :
    Request → Exchange → Option Posting → Prop where
  | stops (request : Request) : Begun s sender number request s none
  | posts {pkg : PackageId} {t : Exchange} (posted : t = s ∨ t = s.setSource pkg playerTargetId) :
      Begun s sender number (.postPackage (some pkg)) t
        (some (.routed sender pkg playerTargetId.toInt))
  | postsTo {name : String} {pkg : PackageId} {t : Exchange}
      (posted : t = s ∨ t = s.setSource pkg playerTargetId) :
      Begun s sender number (.postPackageTo name (some pkg)) t
        (t.routePostPackageTo sender name pkg)
  | task {target : Int64} {task : Nat} :
      Begun s sender number (.postTask target (some task)) s
        (s.routePostTask sender true target task)
  | taskTo {name : String} {task : Nat} :
      Begun s sender number (.postTaskTo name (some task)) s (s.routePostTaskTo sender name task)
  | toPlayer {pid : Int64} {pkg : PackageId} (player : 0 ≤ pid.toInt) :
      Begun s sender number (.sendToPlayer pid (some pkg)) (s.setTarget pkg playerTargetId)
        (some (.routed sender pkg pid.toInt))
  | taskToPlayer {pid : Int64} {task : Nat} :
      Begun s sender number (.postToPlayer pid (some task)) s
        (s.routePostTask sender false pid task)
  | toClient {pid : Int64} {pkg : PackageId} :
      Begun s sender number (.sendToClient pid (some pkg)) (s.setTarget pkg clientTargetId)
        ((s.setTarget pkg clientTargetId).routeSendToClient sender pid pkg)
  | own {pkg : PackageId} :
      Begun s sender number (.sendPackage (some pkg))
        (((s.setSource pkg playerTargetId).setTarget pkg clientTargetId).sendPackage sender number
          sender pkg) none

theorem serviceRequest_begun (sid : Int) (name : String) (request : Request) :
    Begun s sender number request (s.serviceRequest sid name sender request).1
      (s.serviceRequest sid name sender request).2 := by
  unfold serviceRequest
  split
  next pkg =>
    unfold servicePostPackage
    dsimp only
    split
    · exact .stops _
    · exact .posts (.inl rfl)
  next name pkg =>
    split
    · exact .stops _
    · unfold servicePostPackageTo
      dsimp only
      split
      · exact .stops _
      · exact .postsTo (.inl rfl)
  next target task =>
    split
    · exact .stops _
    · unfold servicePostTask
      dsimp only
      split
      · exact .stops _
      · exact .task
  next name task =>
    split
    · exact .stops _
    · unfold servicePostTaskTo
      dsimp only
      split
      · exact .stops _
      · exact .taskTo
  next pid pkg =>
    split
    · exact .stops _
    · unfold serviceSendToPlayer
      split
      · exact .stops _
      next valid =>
        have player : ¬ pid < 0 := fun negative => valid (.inl negative)
        rw [Int64.lt_iff_toInt_lt, Int64.toInt_zero] at player
        exact .toPlayer (by omega)
  next pid task =>
    split
    · exact .stops _
    · unfold servicePostToPlayer
      dsimp only
      split
      · exact .stops _
      · exact .taskToPlayer
  next pid pkg =>
    split
    · exact .stops _
    · unfold serviceSendToClient
      split
      · exact .stops _
      · exact .toClient
  all_goals exact .stops _

theorem playerRequest_begun (request : Request) :
    Begun s sender number request (s.playerRequest sender number request).1
      (s.playerRequest sender number request).2 := by
  unfold playerRequest
  split
  next pkg =>
    split
    · exact .stops _
    · unfold playerPostPackage
      split
      · exact .stops _
      · exact .posts (.inr rfl)
  next name pkg =>
    split
    · exact .stops _
    · unfold playerPostPackageTo
      split
      · exact .stops _
      · exact .postsTo (.inr rfl)
  next target task =>
    split
    · exact .stops _
    · unfold playerPostTask
      dsimp only
      split
      · exact .stops _
      · exact .task
  next name task =>
    split
    · exact .stops _
    · unfold playerPostTaskTo
      dsimp only
      split
      · exact .stops _
      · exact .taskTo
  next pkg => exact .own
  all_goals exact .stops _

theorem advance_begun (s : Exchange) (number : Nat) (sender : AgentId) (request : Request) :
    Begun s sender number request (s.advance number (.asked sender request)).1
      (s.advance number (.asked sender request)).2 := by
  simp only [advance]
  split
  · exact .stops _
  · exact serviceRequest_begun _ _ request
  · exact playerRequest_begun request

/-- What the router leaves of a call carries its package and fits. -/
theorem routePostPackage_goes (pid : Int) :
    Goes s sender (some pkg) (s.routePostPackage sender pkg pid) := by
  constructor
  · intro later led
    obtain ⟨agent, rfl, -⟩ := routePostPackage_some led
    exact ⟨rfl, rfl⟩
  · intro listed later led
    obtain ⟨agent, rfl, ⟨-, found⟩ | ⟨player, -, found⟩ | found⟩ := routePostPackage_some led
    · obtain ⟨station, present, -, role⟩ := listed.services _ agent found
      refine ⟨station, present, fun opened => ?_⟩
      obtain ⟨name, role⟩ := role opened
      rw [Station.meant, role]
      exact (Int32.ofInt_toInt _).symm
    · obtain ⟨station, present, role⟩ := listed.players _ agent found
      refine ⟨station, present, fun _ => ?_⟩
      rw [Station.meant, role]
      exact target_eq player
    · cases listed.nonzero.symm.trans found

theorem routed_goes {pid : Int}
    (fit : 0 ≤ pid → (s.packages pkg).header.target = playerTargetId) :
    Goes s sender (some pkg) (some (.routed sender pkg pid)) := by
  constructor
  · intro later led
    cases led
    exact ⟨rfl, rfl⟩
  · intro _ later led
    cases led
    exact fit

/-- What is posted is for no player. -/
theorem posted_goes :
    Goes s sender (some pkg) (some (.routed sender pkg playerTargetId.toInt)) :=
  routed_goes fun player => absurd player (by decide)

theorem header_setTarget (target : Int32) :
    ((s.setTarget pkg target).packages pkg).header.target = target := by
  unfold setTarget write
  dsimp only
  rw [Function.update_self]
  rfl

theorem routePostPackageTo_goes (name : String) :
    Goes s sender (some pkg) (s.routePostPackageTo sender name pkg) := by
  constructor
  · intro later led
    obtain ⟨sid, rfl⟩ := routePostPackageTo_some led
    exact ⟨rfl, rfl⟩
  · intro _ later led
    obtain ⟨sid, rfl⟩ := routePostPackageTo_some led
    trivial

theorem routePostTask_goes (bToService : Bool) (target : Int64) (task : Nat) :
    Goes s sender none (s.routePostTask sender bToService target task) := by
  constructor
  · intro later led
    obtain ⟨agent, rfl, -⟩ := routePostTask_some led
    exact ⟨rfl, rfl⟩
  · intro _ later led
    obtain ⟨agent, rfl, -⟩ := routePostTask_some led
    trivial

theorem routePostTaskTo_goes (name : String) (task : Nat) :
    Goes s sender none (s.routePostTaskTo sender name task) := by
  constructor
  · intro later led
    obtain ⟨sid, rfl⟩ := routePostTaskTo_some led
    exact ⟨rfl, rfl⟩
  · intro _ later led
    obtain ⟨sid, rfl⟩ := routePostTaskTo_some led
    trivial

theorem routeSendToClient_goes (pid : Int64) :
    Goes s sender (some pkg) (s.routeSendToClient sender pid pkg) := by
  constructor
  · intro later led
    obtain ⟨agent, rfl, -⟩ := routeSendToClient_some led
    exact ⟨rfl, rfl⟩
  · intro _ later led
    obtain ⟨agent, rfl, -⟩ := routeSendToClient_some led
    trivial

/-- What a section of a call does: it writes into the package of the call at most,
and goes on, pushes a node or sends to a client. -/
inductive Advanced (s : Exchange) (number : Nat) (posting : Posting) :
    Exchange → Option Posting → Prop where
  | goes (packages : PackageId → FPacket) {rest : Option Posting}
      (only : ∀ other, posting.package ≠ some other → packages other = s.packages other)
      (carries : Carries posting.sender posting.package rest)
      (fit : Listed s → Fit s posting → ∀ later ∈ rest, Fit { s with packages } later) :
      Advanced s number posting { s with packages } rest
  | pushed (packages : PackageId → FPacket) (agent : AgentId) (node : IChannelNode)
      (brings : ∃ cargo, posting = .found posting.sender agent cargo ∧ cargo.toClient = false)
      (only : ∀ other, posting.package ≠ some other → packages other = s.packages other)
      (fit : Fit s posting → ∀ pkg, posting.package = some pkg → ∀ station,
        s.stations.lookup agent = some station → station.mailbox.channel.isOpen →
          (packages pkg).header.target = station.meant) :
      Advanced s number posting
        (({ s with packages } : Exchange).edit agent
          (Station.push (some ⟨number, posting.sender, posting.package⟩) node)) none
  | sent (packages : PackageId → FPacket) (agent : AgentId) (sends : posting.SendsTo agent)
      (only : ∀ other, posting.package ≠ some other → packages other = s.packages other)
      (fit : ∀ pkg, posting.package = some pkg →
        (packages pkg).header.target = clientTargetId) :
      Advanced s number posting
        (({ s with packages } : Exchange).edit agent
          (Station.send ⟨number, posting.sender, posting.package⟩)) none

/-- The packages with other fields in the header of one of them. -/
def rewritten (s : Exchange) (pkg : PackageId) (change : FPacket → FPacket) :
    PackageId → FPacket :=
  Function.update s.packages pkg (change (s.packages pkg))

theorem rewritten_only {change : FPacket → FPacket} {package : Option PackageId}
    (carried : package = some pkg) (other : PackageId) (differ : package ≠ some other) :
    rewritten s pkg change other = s.packages other := by
  refine Function.update_of_ne ?_ _ _
  rintro rfl
  exact differ carried

theorem Advanced.asks {request : Request} (packages : PackageId → FPacket)
    (only : ∀ other, request.package ≠ some other → packages other = s.packages other)
    (goes : Goes { s with packages } sender request.package rest) :
    Advanced s number (.asked sender request) { s with packages } rest :=
  .goes packages only goes.carries fun listed _ =>
    goes.fit ⟨listed.services, listed.players, listed.nonzero⟩

theorem Advanced.stays {request : Request} (goes : Goes s sender request.package rest) :
    Advanced s number (.asked sender request) s rest :=
  .asks s.packages (fun _ _ => rfl) goes

theorem Advanced.writes {request : Request} (change : FPacket → FPacket)
    (carried : request.package = some pkg)
    (goes : Goes (s.write pkg change) sender (some pkg) rest) :
    Advanced s number (.asked sender request) (s.write pkg change) rest :=
  .asks (rewritten s pkg change) (rewritten_only carried) (carried ▸ goes)

/-- A package that goes to a client has the client's target. -/
theorem sendPackage_advanced (packages : PackageId → FPacket) (posting : Posting)
    (carried : posting.package = some pkg) (sends : posting.SendsTo agent)
    (only : ∀ other, posting.package ≠ some other → packages other = s.packages other) :
    Advanced s number posting
      (({ s with packages } : Exchange).sendPackage posting.sender number agent pkg) none := by
  unfold sendPackage
  split
  · exact .goes packages only .none fun _ _ _ held => by cases held
  next meant =>
    rw [← carried]
    refine .sent packages agent sends only fun other carried' => ?_
    obtain rfl := Option.some.inj (carried.symm.trans carried')
    exact target_eq (not_not.mp meant)

theorem bring_advanced (cargo : Cargo) :
    Advanced s number (.found sender agent cargo) (s.bring number sender agent cargo) none := by
  cases cargo with
  | package pkg =>
    refine Advanced.pushed s.packages agent _ ⟨_, rfl, rfl⟩ (fun _ _ => rfl) ?_
    rintro ⟨station, present, fit⟩ other carried station' present' opened
    obtain rfl := Option.some.inj carried
    cases present.symm.trans present'
    exact fit opened
  | named pkg =>
    simp only [bring]
    split
    next sid known =>
      refine Advanced.pushed (rewritten s pkg fun packet =>
        packet.setTarget (Int32.ofInt sid)) agent _ ⟨_, rfl, rfl⟩ (rewritten_only rfl) ?_
      intro _ other carried station present opened
      obtain rfl := Option.some.inj carried
      obtain ⟨station', present', role⟩ := Option.bind_eq_some_iff.mp known
      cases present.symm.trans present'
      unfold rewritten
      rw [Function.update_self]
      cases service : station.role with
      | service serviceID name =>
        rw [service] at role
        cases role
        rw [Station.meant, service]
        rfl
      | player =>
        rw [service] at role
        cases role
    next => exact .goes s.packages (fun _ _ => rfl) .none fun _ _ _ held => by cases held
  | task task =>
    refine Advanced.pushed s.packages agent _ ⟨_, rfl, rfl⟩ (fun _ _ => rfl) ?_
    intro _ other carried
    cases carried
  | client pkg =>
    exact sendPackage_advanced (rewritten s pkg fun packet =>
      packet.setTarget clientTargetId) (.found sender agent (.client pkg)) rfl (.inl ⟨pkg, rfl⟩)
      (rewritten_only rfl)

theorem Begun.advanced {request : Request} (begun : Begun s sender number request t rest) :
    Advanced s number (.asked sender request) t rest := by
  cases begun with
  | stops => exact .stays .none
  | posts posted =>
    rcases posted with rfl | rfl
    · exact .stays posted_goes
    · exact .writes (fun packet => packet.setSource playerTargetId) rfl posted_goes
  | @postsTo name pkg t posted =>
    rcases posted with rfl | rfl
    · exact .stays (routePostPackageTo_goes name)
    · exact .writes (fun packet => packet.setSource playerTargetId) rfl
        (routePostPackageTo_goes name)
  | task => exact .stays (routePostTask_goes _ _ _)
  | taskTo => exact .stays (routePostTaskTo_goes _ _)
  | toPlayer =>
    exact .writes (fun packet => packet.setTarget playerTargetId) rfl
      (routed_goes fun _ => header_setTarget playerTargetId)
  | taskToPlayer => exact .stays (routePostTask_goes _ _ _)
  | toClient =>
    exact .writes (fun packet => packet.setTarget clientTargetId) rfl (routeSendToClient_goes _)
  | @own pkg =>
    refine sendPackage_advanced _ (.asked sender (.sendPackage (some pkg))) rfl
      (.inr ⟨some pkg, rfl⟩) ?_
    intro other differ
    have apart : other ≠ pkg := by
      rintro rfl
      exact differ rfl
    -- Source and target are written one after the other.
    simp only [setSource, write, Function.update_of_ne apart]

theorem advance_advanced (s : Exchange) (number : Nat) (posting : Posting) :
    Advanced s number posting (s.advance number posting).1 (s.advance number posting).2 := by
  cases posting with
  | asked sender request => exact (advance_begun s number sender request).advanced
  | routed sender pkg pid =>
    have goes : Goes s sender (some pkg) (s.routePostPackage sender pkg pid) :=
      routePostPackage_goes pid
    exact .goes s.packages (fun _ _ => rfl) goes.carries fun listed _ => goes.fit listed
  | named sender sid cargo =>
    have goes (agents : Option AgentId) : Carries sender cargo.pkg
        (agents.map fun agent => .found sender agent cargo) := by
      intro posting held
      obtain ⟨agent, -, rfl⟩ := Option.map_eq_some_iff.mp held
      exact ⟨rfl, rfl⟩
    refine .goes s.packages (fun _ _ => rfl) (goes _) ?_
    intro _ fit posting held
    obtain ⟨agent, -, rfl⟩ := Option.map_eq_some_iff.mp held
    cases cargo with
    | package pkg => exact fit.elim
    | named | task | client => trivial
  | found sender agent cargo => exact bring_advanced cargo

end Exchange
end Uranus
