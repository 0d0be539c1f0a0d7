import Uranus.Route.Addressing

/-! Who hears of whom. A request leads to a service, to a player or to a client,
and to nobody else: no player reaches another one, or another one's client. Only a
package for a player may come to a service instead, when another holder of it
writes the target before the router reads it. -/
namespace Uranus
open Foundation Transition

/-- Where a request sends: to the actor of an agent, or to a client. -/
inductive Place where
  | service
  | player
  | client
deriving DecidableEq, Repr

def Request.place : Request → Place
  | .postPackage _ | .postPackageTo .. | .postTask .. | .postTaskTo .. => .service
  | .sendToPlayer .. | .postToPlayer .. => .player
  | .sendToClient .. | .sendPackage _ => .client

def Role.place : Role → Place
  | .service .. => .service
  | .player => .player

theorem Role.place_service {role : Role} (service : role ≠ .player) : role.place = .service := by
  cases role with
  | service => rfl
  | player => exact absurd rfl service

/-- Where a letter of a request may come to. The target of a package for a player is
written before it is read, so that the package may come to a service unless it is
`aimed`: nobody else writes to it on its way. -/
def Request.Leads (aimed : Prop) (request : Request) (place : Place) : Prop :=
  request.place = place ∨
    ¬ aimed ∧ place = .service ∧ ∃ pid pkg, request = .sendToPlayer pid pkg

/-- Roles of one kind have one place, and offer the same. -/
theorem Role.alike {role other : Role} (kind : other = .player ↔ role = .player) :
    other.place = role.place ∧ other.offers = role.offers := by
  cases role with
  | player =>
    obtain rfl := kind.mpr rfl
    exact ⟨rfl, rfl⟩
  | service sid name =>
    cases other with
    | service => exact ⟨rfl, funext fun request => by cases request <;> rfl⟩
    | player => cases kind.mp rfl

namespace Station
variable {station later : Station} {letter : Letter}

theorem push_parts (entry : Option Letter) (node : IChannelNode) :
    ((station.push entry node).letters = station.letters ∨
      (station.push entry node).letters = station.letters ++ [entry]) ∧
    (station.push entry node).sent = station.sent ∧
    (station.push entry node).role = station.role := by
  unfold Station.push
  split
  · exact ⟨.inr rfl, rfl, rfl⟩
  · exact ⟨.inl rfl, rfl, rfl⟩

theorem send_parts (letter : Letter) :
    (station.send letter).letters = station.letters ∧
    ((station.send letter).sent = station.sent ∨
      (station.send letter).sent = station.sent ++ [letter]) ∧
    (station.send letter).role = station.role := by
  unfold Station.send
  split
  · exact ⟨rfl, .inr rfl, rfl⟩
  · split
    · exact ⟨rfl, .inr rfl, rfl⟩
    · exact ⟨rfl, .inl rfl, rfl⟩

end Station

namespace Exchange
variable {aimed : Prop} {s t : Exchange} {move : Move} {agent sender : AgentId} {number : Nat}
  {request : Request} {posting : Posting} {rest : Option Posting} {pkg : PackageId}

/-- What may be left of a call with a request. -/
def Follows (aimed : Prop) (s : Exchange) (request : Request) : Posting → Prop
  | .asked _ current => current = request
  | .routed _ pkg pid => request = .postPackage (some pkg) ∧ pid < 0 ∨
      ∃ player, request = .sendToPlayer player (some pkg) ∧ 0 ≤ pid
  | .named _ _ cargo => request.place = .service ∧ cargo.toClient = false
  | .found _ agent cargo => ∃ station, s.stations.lookup agent = some station ∧
      if cargo.toClient then station.role = .player ∧ ∃ pid, request = .sendToClient pid cargo.pkg
      else request.Leads aimed station.role.place

theorem Follows.frame (follows : Follows aimed s request posting) (stays : Stays s t) :
    Follows aimed t request posting := by
  cases posting with
  | asked | routed | named => exact follows
  | found other agent cargo =>
    obtain ⟨station, present, leads⟩ := follows
    obtain ⟨later, present', stays⟩ := stays agent station present
    refine ⟨later, present', ?_⟩
    rwa [stays.kind, (Role.alike stays.kind).1]

/-- Somebody found in the map of the services. -/
theorem Listed.service (listed : Listed s) {sid : Int} {cargo : Cargo}
    (found : s.serviceMap.lookup sid = some agent) (place : request.place = .service)
    (inner : cargo.toClient = false) : Follows aimed s request (.found sender agent cargo) := by
  obtain ⟨station, present, service, -⟩ := listed.services sid agent found
  refine ⟨station, present, ?_⟩
  rw [inner, if_neg Bool.false_ne_true, Role.place_service service]
  exact .inl place

theorem Listed.player (listed : Listed s) {pid : Int64} {cargo : Cargo}
    (found : s.playerMap.lookup pid = some agent) (place : request.place = .player)
    (inner : cargo.toClient = false) : Follows aimed s request (.found sender agent cargo) := by
  obtain ⟨station, present, role⟩ := listed.players pid agent found
  refine ⟨station, present, ?_⟩
  rw [inner, if_neg Bool.false_ne_true, role]
  exact .inl place

/-- The beginning of a call leads it to where its request sends. -/
theorem Begun.follows (listed : Listed s) (begun : Begun s sender number request t rest) :
    ∀ later ∈ rest, Follows aimed t request later := by
  intro later led
  cases begun with
  | stops | own => cases led
  | posts posted =>
    cases led
    exact .inl ⟨rfl, by decide⟩
  | postsTo posted =>
    obtain ⟨sid, rfl⟩ := routePostPackageTo_some led
    exact ⟨rfl, rfl⟩
  | task =>
    obtain ⟨agent, rfl, found⟩ := routePostTask_some led
    exact listed.service found rfl rfl
  | taskTo =>
    obtain ⟨sid, rfl⟩ := routePostTaskTo_some led
    exact ⟨rfl, rfl⟩
  | @toPlayer pid pkg player =>
    cases led
    exact .inr ⟨pid, rfl, player⟩
  | taskToPlayer =>
    obtain ⟨agent, rfl, found⟩ := routePostTask_some led
    exact listed.player found rfl rfl
  | @toClient pid pkg =>
    obtain ⟨agent, rfl, found⟩ := routeSendToClient_some led
    obtain ⟨station, present, role⟩ := listed.players pid agent found
    exact ⟨station, present, role, pid, rfl⟩

/-- The router leads a package for a player to that player, unless the target has
been written over. -/
theorem routed_follows (listed : Listed s) {pid : Int}
    (fit : aimed → Fit s (.routed sender pkg pid))
    (follows : Follows aimed s request (.routed sender pkg pid)) :
    ∀ later ∈ s.routePostPackage sender pkg pid, Follows aimed s request later := by
  intro later led
  obtain ⟨agent, rfl, ⟨positive, found⟩ | ⟨-, player, found⟩ | found⟩ := routePostPackage_some led
  · rcases follows with ⟨rfl, -⟩ | ⟨name, rfl, player⟩
    · exact listed.service found rfl rfl
    · obtain ⟨station, present, service, -⟩ := listed.services _ agent found
      refine ⟨station, present, ?_⟩
      rw [Role.place_service service]
      refine .inr ⟨fun aimed => ?_, rfl, name, some pkg, rfl⟩
      have target := fit aimed player
      unfold Exchange.target at positive
      rw [target] at positive
      exact absurd positive (by decide)
  · rcases follows with ⟨-, negative⟩ | ⟨name, rfl, -⟩
    · omega
    · exact listed.player found rfl rfl
  · cases listed.nonzero.symm.trans found

theorem advance_follows (listed : Listed s) (fit : aimed → Fit s posting)
    (follows : Follows aimed s request posting) :
    ∀ later ∈ (s.advance number posting).2,
      Follows aimed (s.advance number posting).1 request later := by
  cases posting with
  | asked sender current =>
    obtain rfl := follows
    exact (advance_begun s number sender current).follows listed
  | routed sender pkg pid => exact routed_follows listed fit follows
  | named sender sid cargo =>
    intro later led
    obtain ⟨agent, found, rfl⟩ := Option.map_eq_some_iff.mp led
    exact listed.service (findService_some found) follows.1 follows.2
  | found sender agent cargo =>
    intro later led
    cases led

/-- A letter that may stand in the mailbox of an agent, as its request says. -/
def InMailbox (aimed : Prop) (s : Exchange) (station : Station) (letter : Letter) : Prop :=
  ∃ request, s.asked[letter.number]? = some (letter.sender, request) ∧
    request.Leads aimed station.role.place

/-- A letter that may go to the client of an agent: from its player, or from a service. -/
def ForClient (s : Exchange) (agent : AgentId) (station : Station) (letter : Letter) : Prop :=
  station.role = .player ∧ ∃ request, s.asked[letter.number]? = some (letter.sender, request) ∧
    (request = .sendPackage letter.body ∧ letter.sender = agent ∨
      ∃ pid, request = .sendToClient pid letter.body)

/-- Everybody asks for what its agent offers, and all letters are where their requests lead. -/
structure Placed (aimed : Prop) (s : Exchange) : Prop where
  asks : ∀ (number : Nat) (sender : AgentId) (request : Request),
    s.asked[number]? = some (sender, request) →
      ∃ station, s.stations.lookup sender = some station ∧ station.role.offers request
  mailbox : ∀ agent station, s.stations.lookup agent = some station →
    ∀ letter, some letter ∈ station.letters → s.InMailbox aimed station letter
  client : ∀ agent station, s.stations.lookup agent = some station →
    ∀ letter ∈ station.sent, s.ForClient agent station letter

/-- Whatever runs keep for it. -/
structure Guided (aimed : Prop) (s : Exchange) : Prop extends Grounded s, Placed aimed s where
  calls : ∀ number posting, s.calls.lookup number = some posting → ∃ request,
    s.asked[number]? = some (posting.sender, request) ∧ Follows aimed s request posting

/-- What has been asked for stays. -/
def Remembers (s t : Exchange) : Prop :=
  ∀ (number : Nat) (entry : AgentId × Request), s.asked[number]? = some entry →
    t.asked[number]? = some entry

theorem Remembers.of_eq (same : t.asked = s.asked) : Remembers s t :=
  fun number entry held => by rw [same, held]

theorem InMailbox.keep {station later : Station} {letter : Letter} (remembers : Remembers s t)
    (kind : later.role = .player ↔ station.role = .player)
    (placed : s.InMailbox aimed station letter) : t.InMailbox aimed later letter := by
  obtain ⟨request, asked, leads⟩ := placed
  exact ⟨request, remembers _ _ asked, by rwa [(Role.alike kind).1]⟩

theorem ForClient.keep {station later : Station} {letter : Letter} (remembers : Remembers s t)
    (kind : later.role = .player ↔ station.role = .player)
    (placed : s.ForClient agent station letter) : t.ForClient agent later letter := by
  obtain ⟨role, request, asked, sends⟩ := placed
  exact ⟨kind.mpr role, request, remembers _ _ asked, sends⟩

theorem Advanced.asked_eq (advanced : Advanced s number posting t rest) : t.asked = s.asked := by
  cases advanced <;> rfl

theorem keep_asked (s : Exchange) (number : Nat) (rest : Option Posting) :
    (s.keep number rest).asked = s.asked := by
  cases rest <;> rfl

theorem Effect.remembers (effect : Effect s move t) : Remembers s t := by
  cases effect with
  | asked found offers =>
    intro number entry held
    obtain ⟨below, -⟩ := List.getElem?_eq_some_iff.mp held
    rw [List.getElem?_append_left below, held]
  | @advanced number posting known =>
    refine .of_eq ?_
    rw [keep_asked, (advance_advanced s number posting).asked_eq]
  | wrote | entered | enlisted | removed | unnamed | loggedIn | loggedOut | switched | moved =>
    exact .of_eq rfl

theorem Effect.asks (guided : Guided aimed s) (effect : Effect s move t) {sender : AgentId}
    (asked : t.asked[number]? = some (sender, request)) :
    ∃ station, t.stations.lookup sender = some station ∧ station.role.offers request := by
  have stays := effect.stays guided.toGrounded
  have kept (before : s.asked[number]? = some (sender, request)) :
      ∃ station, t.stations.lookup sender = some station ∧ station.role.offers request := by
    obtain ⟨station, present, offers⟩ := guided.asks number sender request before
    obtain ⟨later, present', stays⟩ := stays sender station present
    exact ⟨later, present', by rw [(Role.alike stays.kind).2]; exact offers⟩
  cases effect with
  | @asked asker request' station found offers =>
    simp only [List.getElem?_append] at asked
    split at asked
    · exact kept asked
    · rw [List.getElem?_singleton] at asked
      split at asked
      · cases asked
        exact ⟨station, found, offers⟩
      · cases asked
  | @advanced number' posting known =>
    rw [keep_asked, (advance_advanced s number' posting).asked_eq] at asked
    exact kept asked
  | wrote | entered | enlisted | removed | unnamed | loggedIn | loggedOut | switched | moved =>
    exact kept asked

theorem Effect.follows (guided : Guided aimed s) (steady : aimed → Steady s)
    (effect : Effect s move t) (known : t.calls.lookup number = some posting) : ∃ request,
      t.asked[number]? = some (posting.sender, request) ∧ Follows aimed t request posting := by
  have stays := effect.stays guided.toGrounded
  have remembers := effect.remembers
  have kept (before : s.calls.lookup number = some posting) : ∃ request,
      t.asked[number]? = some (posting.sender, request) ∧ Follows aimed t request posting := by
    obtain ⟨request, asked, follows⟩ := guided.calls number posting before
    exact ⟨request, remembers _ _ asked, follows.frame stays⟩
  cases effect with
  | @asked asker current station found offers =>
    simp only [Table.lookup_insert_ite] at known
    split at known
    next same =>
      subst same
      cases known
      exact ⟨current, by simp [Posting.sender], rfl⟩
    next => exact kept known
  | @advanced number' current before =>
    have advanced := advance_advanced s number' current
    rw [keep_calls] at known
    split at known
    next same =>
      subst same
      obtain ⟨request, asked, follows⟩ := guided.calls _ current before
      have sender : posting.sender = current.sender := by
        generalize (s.advance number current).1 = later, (s.advance number current).2 = rest
          at advanced known
        cases advanced with
        | goes packages only carries => exact (carries posting known).1
        | pushed => cases known
        | sent => cases known
      refine ⟨request, by rw [sender]; exact remembers _ _ asked, ?_⟩
      have fit (aimed : aimed) : Fit s current := (steady aimed).fit _ current before
      refine (advance_follows guided.listed fit follows posting known).frame ?_
      exact .of_eq (keep_stations _ _ _)
    next =>
      have calls : (s.advance number' current).1.calls = s.calls := by
        generalize (s.advance number' current).1 = later, (s.advance number' current).2 = rest
          at advanced
        cases advanced <;> rfl
      rw [calls] at known
      exact kept known
  | wrote | entered | enlisted | removed | unnamed | loggedIn | loggedOut | switched | moved =>
    exact kept known

theorem Advanced.mailbox (guided : Guided aimed s) (known : s.calls.lookup number = some posting)
    (advanced : Advanced s number posting t rest) {later : Station}
    (present : t.stations.lookup agent = some later) {letter : Letter}
    (held : some letter ∈ later.letters) : s.InMailbox aimed later letter := by
  cases advanced with
  | goes => exact guided.mailbox agent later present letter held
  | pushed packages other node brings =>
    simp only [edit, Table.lookup_modify] at present
    split at present
    next same =>
      subst same
      obtain ⟨station, found, rfl⟩ := Option.map_eq_some_iff.mp present
      obtain ⟨letters, -, role⟩ := station.push_parts
        (some ⟨number, posting.sender, posting.package⟩) node
      have before (old : some letter ∈ station.letters) :
          s.InMailbox aimed (station.push _ node) letter :=
        (guided.mailbox agent station found letter old).keep (.of_eq rfl) (by rw [role])
      rcases letters with same | grown
      · rw [same] at held
        exact before held
      · rw [grown] at held
        rcases List.mem_append.mp held with old | new
        · exact before old
        · cases List.mem_singleton.mp new
          -- The call has found the agent by its request.
          obtain ⟨cargo, found', inner⟩ := brings
          obtain ⟨request, asked, follows⟩ := guided.calls number posting known
          rw [found'] at follows
          obtain ⟨station', present', leads⟩ := follows
          cases found.symm.trans present'
          rw [inner, if_neg Bool.false_ne_true] at leads
          exact ⟨request, asked, by rwa [role]⟩
    next => exact guided.mailbox agent later present letter held
  | sent packages other =>
    simp only [edit, Table.lookup_modify] at present
    split at present
    next same =>
      subst same
      obtain ⟨station, found, rfl⟩ := Option.map_eq_some_iff.mp present
      obtain ⟨letters, -, role⟩ := station.send_parts ⟨number, posting.sender, posting.package⟩
      rw [letters] at held
      exact (guided.mailbox agent station found letter held).keep (.of_eq rfl) (by rw [role])
    next => exact guided.mailbox agent later present letter held

theorem Advanced.client (guided : Guided aimed s) (known : s.calls.lookup number = some posting)
    (advanced : Advanced s number posting t rest) {later : Station}
    (present : t.stations.lookup agent = some later) {letter : Letter}
    (held : letter ∈ later.sent) : s.ForClient agent later letter := by
  cases advanced with
  | goes => exact guided.client agent later present letter held
  | pushed packages other node =>
    simp only [edit, Table.lookup_modify] at present
    split at present
    next same =>
      subst same
      obtain ⟨station, found, rfl⟩ := Option.map_eq_some_iff.mp present
      obtain ⟨-, sent, role⟩ := station.push_parts
        (some ⟨number, posting.sender, posting.package⟩) node
      rw [sent] at held
      exact (guided.client agent station found letter held).keep (.of_eq rfl) (by rw [role])
    next => exact guided.client agent later present letter held
  | sent packages other sends =>
    simp only [edit, Table.lookup_modify] at present
    split at present
    next same =>
      subst same
      obtain ⟨station, found, rfl⟩ := Option.map_eq_some_iff.mp present
      obtain ⟨-, sent, role⟩ := station.send_parts ⟨number, posting.sender, posting.package⟩
      have before (old : letter ∈ station.sent) : s.ForClient agent (station.send _) letter :=
        (guided.client agent station found letter old).keep (.of_eq rfl) (by rw [role])
      rcases sent with same | grown
      · rw [same] at held
        exact before held
      · rw [grown] at held
        rcases List.mem_append.mp held with old | new
        · exact before old
        · obtain rfl := List.mem_singleton.mp new
          obtain ⟨request, asked, follows⟩ := guided.calls number posting known
          rcases sends with ⟨pkg, found'⟩ | ⟨pkg, own⟩
          · rw [found'] at follows
            obtain ⟨station', present', player, pid, leads⟩ := follows
            cases found.symm.trans present'
            refine ⟨by rw [role, player], request, asked, .inr ⟨pid, ?_⟩⟩
            rw [leads, found']
            rfl
          · rw [own] at follows
            obtain rfl := follows
            rw [own] at asked
            -- Only players have `SendPackage`.
            obtain ⟨station', present', offers⟩ := guided.asks _ _ _ asked
            cases found.symm.trans present'
            refine ⟨?_, _, by rw [own]; exact asked, .inl ⟨by rw [own]; rfl, by rw [own]; rfl⟩⟩
            rw [role]
            cases kind : station.role with
            | player => rfl
            | service =>
              rw [kind] at offers
              cases offers
    next => exact guided.client agent later present letter held

/-- A change of an agent for itself, seen from its letters. -/
theorem moved_parts {station later : Station}
    (changed : Station.Change s.packages station none later) :
    (∀ letter, some letter ∈ later.letters → some letter ∈ station.letters) ∧
      later.sent = station.sent := by
  rcases change_boxes changed with ⟨letters, sent⟩ | ⟨node, rfl⟩
  · rw [letters]
    exact ⟨fun _ => id, sent⟩
  · obtain ⟨letters, sent, -⟩ := station.push_parts none node
    refine ⟨fun letter held => ?_, sent⟩
    rcases letters with same | grown
    · rwa [same] at held
    · rw [grown] at held
      rcases List.mem_append.mp held with old | new
      · exact old
      · cases List.mem_singleton.mp new

theorem Effect.placed (guided : Guided aimed s) (effect : Effect s move t) :
    Placed aimed t := by
  have remembers := effect.remembers
  have stays := effect.stays guided.toGrounded
  refine ⟨fun _ _ _ => effect.asks guided, fun agent later present letter held => ?_,
    fun agent later present letter held => ?_⟩
  · have kept (before : s.stations.lookup agent = some later) : t.InMailbox aimed later letter :=
      (guided.mailbox agent later before letter held).keep remembers Iff.rfl
    cases effect with
    | @advanced number posting known =>
      rw [keep_stations] at present
      exact ((advance_advanced s number posting).mailbox guided known present held).keep
        remembers Iff.rfl
    | entered role absent =>
      simp only [Table.lookup_insert_ite] at present
      split at present
      · cases present
        cases held
      · exact kept present
    | @moved move other station after mover found changed =>
      simp only [edit, Table.lookup_modify] at present
      split at present
      next same =>
        subst same
        rw [found] at present
        cases present
        have kind := (changed.stays (guided.sound.kept _ station found)
          (guided.shut _ station found)).2.kind
        exact (guided.mailbox _ station found letter ((moved_parts changed).1 letter held)).keep
          remembers kind
      next => exact kept present
    | asked | wrote | enlisted | removed | unnamed | loggedIn | loggedOut | switched =>
      exact kept present
  · have kept (before : s.stations.lookup agent = some later) : t.ForClient agent later letter :=
      (guided.client agent later before letter held).keep remembers Iff.rfl
    cases effect with
    | @advanced number posting known =>
      rw [keep_stations] at present
      exact ((advance_advanced s number posting).client guided known present held).keep
        remembers Iff.rfl
    | entered role absent =>
      simp only [Table.lookup_insert_ite] at present
      split at present
      · cases present
        cases held
      · exact kept present
    | @moved move other station after mover found changed =>
      simp only [edit, Table.lookup_modify] at present
      split at present
      next same =>
        subst same
        rw [found] at present
        cases present
        have kind := (changed.stays (guided.sound.kept _ station found)
          (guided.shut _ station found)).2.kind
        rw [(moved_parts changed).2] at held
        exact (guided.client _ station found letter held).keep remembers kind
      next => exact kept present
    | asked | wrote | enlisted | removed | unnamed | loggedIn | loggedOut | switched =>
      exact kept present

theorem Guided.step (guided : Guided aimed s) (steady : aimed → Steady s) (named : Named move)
    (moved : s.Step move t) : Guided aimed t :=
  ⟨guided.toGrounded.step named moved, moved.effect.placed guided,
    fun _ _ known => moved.effect.follows guided steady known⟩

instance : (move : Move) → Decidable (Named move)
  | .login pid _ => inferInstanceAs (Decidable (pid ≠ 0))
  | .ask _ _ | .advance _ | .write _ _ | .enter _ _ | .enlist _ | .removeService _ | .eraseName _
  | .logout _ | .modules _ _ _ | .mailbox _ _ | .deliver _ _ | .writeTest _ | .writeResume _
  | .encoded _ _ | .disconnect _ => .isTrue trivial

end Exchange
end Uranus
