import Uranus.Event.EventModule

/-! What the event module delivers: over any run, a `Dispatch` pushes its event
once for each registration that stands and whose agent is alive. The maps, their
erasures and the sweeps refine the list of the calls that were made. -/
namespace Uranus
open Foundation

/-- A listener of an event. -/
structure Subscription where
  kind : ListenerKind
  id : Int
  event : Int
deriving DecidableEq, Repr

def Delivery.subscription (d : Delivery) : Subscription := ⟨d.kind, d.id, d.event.eventType⟩

namespace Registration

/-- The ids and the event that the function called does not refuse. -/
def Valid : Registration → Prop
  | .listen kind id _ event | .removeByEvent kind id event => kind.Accepts id ∧ 0 ≤ event
  | .remove kind id => kind.Accepts id

def Concerns (sub : Subscription) : Registration → Prop
  | .listen kind id _ event | .removeByEvent kind id event => sub = ⟨kind, id, event⟩
  | .remove kind id => sub.kind = kind ∧ sub.id = id

/-- The agent that a call leaves for the listeners that it concerns. -/
def leaves : Registration → Option WeakAgent
  | .listen _ _ weak _ => some weak
  | .removeByEvent .. | .remove .. => none

instance (sub : Subscription) : ∀ call : Registration, Decidable (call.Valid ∧ call.Concerns sub)
  | .listen kind id _ event | .removeByEvent kind id event =>
    inferInstanceAs (Decidable ((kind.Accepts id ∧ 0 ≤ event) ∧ sub = ⟨kind, id, event⟩))
  | .remove kind id => inferInstanceAs (Decidable (kind.Accepts id ∧ sub.kind = kind ∧ sub.id = id))

end Registration

/-- The latest valid call that concerns the listener has registered it. -/
def Stands (history : List Registration) (sub : Subscription) (weak : WeakAgent) : Prop :=
  ∃ later earlier, history = later ++ .listen sub.kind sub.id weak sub.event :: earlier ∧
    (Registration.listen sub.kind sub.id weak sub.event).Valid ∧
    ∀ call ∈ later, call.Valid → ¬ call.Concerns sub

section
variable {history : List Registration} {sub : Subscription} {weak : WeakAgent}

theorem stands_nil : ¬ Stands [] sub weak := by
  rintro ⟨later, earlier, split, -⟩
  cases later with
  | nil => cases split
  | cons call rest => cases split

/-- A call that concerns the listener decides, and any other leaves what was. -/
theorem stands_cons (call : Registration) : Stands (call :: history) sub weak ↔
    if call.Valid ∧ call.Concerns sub then call.leaves = some weak
    else Stands history sub weak := by
  constructor
  · rintro ⟨later, earlier, split, valid, after⟩
    cases later with
    | nil =>
      cases split
      rw [if_pos ⟨valid, rfl⟩]
      rfl
    | cons first rest =>
      cases split
      rw [if_neg fun concerned => after _ List.mem_cons_self concerned.1 concerned.2]
      exact ⟨rest, earlier, rfl, valid, fun call member => after call (.tail _ member)⟩
  · intro decided
    split at decided
    next concerned =>
      cases call with
      | listen kind id left event =>
        obtain ⟨valid, rfl⟩ := concerned
        cases decided
        exact ⟨[], history, rfl, valid, nofun⟩
      | removeByEvent => cases decided
      | remove => cases decided
    next other =>
      obtain ⟨later, earlier, rfl, valid, after⟩ := decided
      refine ⟨call :: later, earlier, rfl, valid, ?_⟩
      intro call member
      cases member with
      | head => exact fun valid concerns => other ⟨valid, concerns⟩
      | tail _ member => exact after call member

end

namespace UEventModule
variable {s t : UEventModule} {kind : ListenerKind} {sub : Subscription} {agent : Nat}

def registered (s : UEventModule) (sub : Subscription) : Option WeakAgent :=
  (s.listeners sub.kind).map.find sub.event sub.id

def Alive (s : UEventModule) (agent : Nat) : Prop := (s.agents.lookup agent).isSome

theorem lock_eq_some {weak : WeakAgent} : s.lock weak = some agent ↔
    weak = some agent ∧ s.Alive agent :=
  Option.filter_eq_some_iff

/-! The functions that change what is registered. -/

theorem registered_edit (kind : ListenerKind) (update : Listeners → Listeners) (s : UEventModule)
    (sub : Subscription) : (s.edit kind update).registered sub =
      if sub.kind = kind then (update (s.listeners kind)).map.find sub.event sub.id
      else s.registered sub := by
  obtain ⟨kind', id, event⟩ := sub
  cases kind with
  | service => cases kind' <;> rfl
  | player => cases kind' <;> rfl

theorem registered_removeExpired (kind : ListenerKind) (s : UEventModule) (sub : Subscription) :
    (s.removeExpired kind).registered sub = s.registered sub := by
  rw [removeExpired]
  split
  · rfl
  · rw [registered_edit]
    split
    next same => rw [← same]; rfl
    next => rfl

theorem call_eq (call : Registration) (s : UEventModule) : s.call call =
    match call with
    | .listen kind id weak event => s.listenEvent kind id weak event
    | .removeByEvent kind id event => s.removeListenerByEvent kind id event
    | .remove kind id => s.removeListener kind id := by
  cases call with
  | listen kind => cases kind <;> rfl
  | removeByEvent kind => cases kind <;> rfl
  | remove kind => cases kind <;> rfl

/-- A module that takes every call. -/
structure Serving (s : UEventModule) : Prop where
  initialised : s.state ≠ .created
  serving : s.server ≠ .terminated

/-- The check of an id and an event, as it is written and as it is meant. -/
theorem refused_iff {kind : ListenerKind} {id event : Int} :
    (¬ kind.Accepts id ∨ event < 0) ↔ ¬ (kind.Accepts id ∧ 0 ≤ event) := by
  rw [not_and_or, Int.not_le]

theorem registered_listenEvent (serving : s.Serving) (kind : ListenerKind) (id : Int)
    (weak : WeakAgent) (event : Int) (sub : Subscription) :
    (s.listenEvent kind id weak event).registered sub =
      if (kind.Accepts id ∧ 0 ≤ event) ∧ sub = ⟨kind, id, event⟩ then some weak
      else s.registered sub := by
  rw [listenEvent, if_neg serving.initialised]
  split
  next refused => rw [if_neg fun valid => refused_iff.mp refused valid.1]
  next taken =>
    have valid : kind.Accepts id ∧ 0 ≤ event :=
      not_not.mp fun wrong => taken (refused_iff.mpr wrong)
    rw [registered_removeExpired, registered_edit, NestedTable.find_put]
    obtain ⟨kind', id', event'⟩ := sub
    by_cases same : kind' = kind
    · subst same
      simp only [valid, Subscription.mk.injEq, true_and, if_true, and_comm, registered]
    · simp only [same, Subscription.mk.injEq, false_and, and_false, if_false]

theorem registered_removeListenerByEvent (serving : s.Serving) (kind : ListenerKind)
    (id event : Int) (sub : Subscription) :
    (s.removeListenerByEvent kind id event).registered sub =
      if (kind.Accepts id ∧ 0 ≤ event) ∧ sub = ⟨kind, id, event⟩ then none
      else s.registered sub := by
  rw [removeListenerByEvent, if_neg (not_or.mpr ⟨serving.initialised, serving.serving⟩)]
  split
  next refused => rw [if_neg fun valid => refused_iff.mp refused valid.1]
  next taken =>
    have valid : kind.Accepts id ∧ 0 ≤ event :=
      not_not.mp fun wrong => taken (refused_iff.mpr wrong)
    split
    next absent =>
      split
      next concerned =>
        rw [registered, concerned.2, NestedTable.find, absent]
        rfl
      next => rfl
    next =>
      rw [registered_removeExpired, registered_edit, NestedTable.find_remove]
      obtain ⟨kind', id', event'⟩ := sub
      by_cases same : kind' = kind
      · subst same
        simp only [valid, Subscription.mk.injEq, true_and, if_true, and_comm, registered]
      · simp only [same, Subscription.mk.injEq, false_and, and_false, if_false]

theorem registered_removeListener (serving : s.Serving) (kind : ListenerKind) (id : Int)
    (sub : Subscription) : (s.removeListener kind id).registered sub =
      if kind.Accepts id ∧ sub.kind = kind ∧ sub.id = id then none else s.registered sub := by
  rw [removeListener, if_neg (not_or.mpr ⟨serving.initialised, serving.serving⟩)]
  by_cases accepts : kind.Accepts id
  · rw [if_neg (not_not.mpr accepts), registered_removeExpired, registered_edit,
      NestedTable.find_removeKey]
    by_cases same : sub.kind = kind
    · simp only [accepts, same, true_and, if_true, registered]
    · simp only [same, false_and, and_false, if_false]
  · simp only [accepts, not_false_eq_true, if_true, false_and, if_false]

/-- A valid call leaves its agent for the listeners that it concerns. -/
theorem registered_call (serving : s.Serving) (call : Registration) (sub : Subscription) :
    (s.call call).registered sub =
      if call.Valid ∧ call.Concerns sub then call.leaves else s.registered sub := by
  rw [call_eq]
  cases call with
  | listen kind id weak event => exact registered_listenEvent serving kind id weak event sub
  | removeByEvent kind id event => exact registered_removeListenerByEvent serving kind id event sub
  | remove kind id => exact registered_removeListener serving kind id sub

/-! What the functions leave alone: a call or a sweep changes listeners only. -/

/-- Nothing but listeners is different. -/
structure SameBut (s t : UEventModule) : Prop where
  server : t.server = s.server
  state : t.state = s.state
  agents : t.agents = s.agents
  made : t.made = s.made
  pushed : t.pushed = s.pushed
  history : t.history = s.history

theorem SameBut.refl (s : UEventModule) : SameBut s s := by
  constructor <;> rfl

theorem SameBut.trans {u : UEventModule} (first : SameBut s t) (second : SameBut t u) :
    SameBut s u where
  server := second.server.trans first.server
  state := second.state.trans first.state
  agents := second.agents.trans first.agents
  made := second.made.trans first.made
  pushed := second.pushed.trans first.pushed
  history := second.history.trans first.history

theorem edit_sameBut (kind : ListenerKind) (update : Listeners → Listeners) (s : UEventModule) :
    SameBut s (s.edit kind update) := by
  cases kind with
  | service => constructor <;> rfl
  | player => constructor <;> rfl

theorem removeExpired_sameBut (kind : ListenerKind) (s : UEventModule) :
    SameBut s (s.removeExpired kind) := by
  rw [removeExpired]
  split
  · exact .refl s
  · exact edit_sameBut kind _ s

theorem call_sameBut (call : Registration) (s : UEventModule) : SameBut s (s.call call) := by
  rw [call_eq]
  cases call with
  | listen kind id weak event =>
    simp only [listenEvent]
    split
    · exact .refl s
    split
    · exact .refl s
    · exact (edit_sameBut kind _ s).trans (removeExpired_sameBut kind _)
  | removeByEvent kind id event =>
    simp only [removeListenerByEvent]
    split
    · exact .refl s
    split
    · exact .refl s
    split
    · exact .refl s
    · exact (edit_sameBut kind _ s).trans (removeExpired_sameBut kind _)
  | remove kind id =>
    simp only [removeListener]
    split
    · exact .refl s
    split
    · exact .refl s
    · exact (edit_sameBut kind _ s).trans (removeExpired_sameBut kind _)

/-- A sweep drops what points to no agent that is alive, and nothing else. -/
theorem sweep_registered {cancelled : Bool} (swept : s.sweep kind cancelled = some t) :
    SameBut s t ∧ ∀ sub, t.registered sub = s.registered sub ∨
      t.registered sub = (s.registered sub).filter fun weak => (s.lock weak).isSome := by
  rw [sweep] at swept
  split at swept
  · cases swept
  split at swept
  · cases swept
    refine ⟨edit_sameBut kind _ s, fun sub => .inl ?_⟩
    rw [registered_edit]
    split
    next same => rw [← same]; rfl
    next => rfl
  · cases swept
    refine ⟨edit_sameBut kind _ s, fun sub => ?_⟩
    rw [registered_edit]
    split
    next same =>
      refine .inr ?_
      rw [NestedTable.find_sweep, ← same]
      simp only [Option.not_isNone]
      rfl
    next => exact .inl rfl

/-! The loops of `Dispatch`. -/

/-- What the loop for a kind of listeners pushes. -/
def deliveries (s : UEventModule) (kind : ListenerKind) (event : IEventParam) : List Delivery :=
  ((s.listeners kind).map.inner event.eventType).entries.filterMap fun entry =>
    (s.lock entry.2).map fun agent => ⟨kind, entry.1, agent, event⟩

/-- The mailbox of an agent after some deliveries. -/
def receive (agent : Nat) (sent : List Delivery) (mailbox : Mailbox) : Mailbox :=
  (sent.filter fun d => d.agent = agent).foldl
    (fun mailbox d => mailbox.pushEvent (some d.event.param)) mailbox

/-- `Dispatch` pushes something to agents. It leaves what is registered. -/
structure Sends (s : UEventModule) (sent : List Delivery) (t : UEventModule) : Prop where
  server : t.server = s.server
  state : t.state = s.state
  maps : ∀ kind, (t.listeners kind).map = (s.listeners kind).map
  made : t.made = s.made
  history : t.history = s.history
  pushed : t.pushed = s.pushed ++ sent
  mailboxes : ∀ agent, t.agents.lookup agent = (s.agents.lookup agent).map (receive agent sent)

theorem Sends.refl (s : UEventModule) : Sends s [] s where
  server := rfl
  state := rfl
  maps _ := rfl
  made := rfl
  history := rfl
  pushed := (List.append_nil _).symm
  mailboxes _ := Option.map_id'.symm

theorem Sends.trans {u : UEventModule} {sent more : List Delivery} (first : Sends s sent t)
    (second : Sends t more u) : Sends s (sent ++ more) u where
  server := second.server.trans first.server
  state := second.state.trans first.state
  maps kind := (second.maps kind).trans (first.maps kind)
  made := second.made.trans first.made
  history := second.history.trans first.history
  pushed := by rw [second.pushed, first.pushed, List.append_assoc]
  mailboxes agent := by
    rw [second.mailboxes, first.mailboxes, Option.map_map]
    congr 1
    funext mailbox
    simp only [Function.comp_apply, receive, List.filter_append, List.foldl_append]

theorem Sends.alive {sent : List Delivery} (sends : Sends s sent t) : t.Alive = s.Alive := by
  funext agent
  rw [Alive, sends.mailboxes, Option.isSome_map, Alive]

theorem Sends.lock {sent : List Delivery} (sends : Sends s sent t) (weak : WeakAgent) :
    t.lock weak = s.lock weak := by
  apply Option.ext
  intro agent
  rw [lock_eq_some, lock_eq_some, sends.alive]

theorem pushEvent_sends (kind : ListenerKind) (event : IEventParam) (id : Int) (weak : WeakAgent)
    (s : UEventModule) : Sends s (((s.lock weak).map fun agent =>
      (⟨kind, id, agent, event⟩ : Delivery)).toList) (s.pushEvent kind event id weak) := by
  rw [pushEvent]
  cases s.lock weak with
  | none => exact .refl s
  | some agent =>
    refine ⟨rfl, rfl, fun _ => ?_, rfl, rfl, rfl, fun other => ?_⟩
    · rfl
    rw [Table.lookup_modify]
    split
    next same =>
      subst same
      have pushed : receive other [⟨kind, id, other, event⟩] =
          Mailbox.pushEvent (some event.param) := by
        funext mailbox
        simp [receive]
      rw [Option.map_some, Option.toList_some, pushed]
    next different =>
      have unmoved : receive other [⟨kind, id, agent, event⟩] = fun mailbox => mailbox := by
        funext mailbox
        simp [receive, Ne.symm different]
      simp only [Option.map_some, Option.toList_some, unmoved, Option.map_id']

theorem loop_sends (kind : ListenerKind) (event : IEventParam)
    (entries : List (Sigma fun _ : Int => WeakAgent)) (s : UEventModule) :
    Sends s (entries.filterMap fun entry => (s.lock entry.2).map fun agent =>
      (⟨kind, entry.1, agent, event⟩ : Delivery))
      (entries.foldl (fun s entry => s.pushEvent kind event entry.1 entry.2) s) := by
  induction entries generalizing s with
  | nil => exact .refl s
  | cons entry rest ih =>
    have first := pushEvent_sends kind event entry.1 entry.2 s
    have after := ih (s.pushEvent kind event entry.1 entry.2)
    simp only [first.lock] at after
    have both := first.trans after
    rw [List.foldl_cons]
    convert both using 1
    rw [List.filterMap_cons]
    cases (s.lock entry.2) with
    | none => rfl
    | some agent => rfl

theorem dispatchTo_sends (kind : ListenerKind) (event : IEventParam) (s : UEventModule) :
    Sends s (s.deliveries kind event) (s.dispatchTo kind event) := by
  rw [dispatchTo, deliveries, NestedTable.inner]
  cases (s.listeners kind).map.lookup event.eventType with
  | none => exact .refl s
  | some listening => exact loop_sends kind event listening.entries s

theorem Sends.deliveries {sent : List Delivery} (sends : Sends s sent t) (kind : ListenerKind)
    (event : IEventParam) : t.deliveries kind event = s.deliveries kind event := by
  simp only [UEventModule.deliveries, sends.maps, sends.lock]

theorem mem_deliveries {event : IEventParam} {d : Delivery} : d ∈ s.deliveries kind event ↔
    d.kind = kind ∧ d.event = event ∧ s.registered d.subscription = some (some d.agent) ∧
      s.Alive d.agent := by
  rw [deliveries, List.mem_filterMap]
  constructor
  · rintro ⟨entry, member, made⟩
    obtain ⟨agent, locked, rfl⟩ := Option.map_eq_some_iff.mp made
    obtain ⟨weak, alive⟩ := lock_eq_some.mp locked
    refine ⟨rfl, rfl, ?_, alive⟩
    rw [registered, ← NestedTable.inner_lookup, ← weak]
    exact List.mem_dlookup (AList.nodupKeys _) member
  · rintro ⟨rfl, rfl, present, alive⟩
    rw [registered, ← NestedTable.inner_lookup] at present
    refine ⟨⟨d.id, some d.agent⟩, List.of_mem_dlookup (Option.mem_def.mpr present), ?_⟩
    rw [lock_eq_some.mpr ⟨rfl, alive⟩]
    rfl

/-- The listeners that something is delivered to in a section are told apart by their ids. -/
theorem deliveries_nodup (s : UEventModule) (kind : ListenerKind) (event : IEventParam) :
    ((s.deliveries kind event).map fun d => (d.kind, d.id)).Nodup := by
  have keys := ((s.listeners kind).map.inner event.eventType).nodupKeys
  rw [deliveries]
  generalize ((s.listeners kind).map.inner event.eventType).entries = entries at keys
  induction entries with
  | nil => exact .nil
  | cons entry rest ih =>
    obtain ⟨fresh, keys⟩ := List.nodupKeys_cons.mp keys
    rw [List.filterMap_cons]
    cases s.lock entry.2 with
    | none => exact ih keys
    | some agent =>
      refine List.nodup_cons.mpr ⟨?_, ih keys⟩
      intro repeated
      obtain ⟨d, member, same⟩ := List.mem_map.mp repeated
      obtain ⟨other, listed, made⟩ := List.mem_filterMap.mp member
      obtain ⟨_, _, rfl⟩ := Option.map_eq_some_iff.mp made
      have key : other.1 = entry.1 := congrArg Prod.snd same
      exact fresh (key ▸ List.mem_keys_of_mem listed)

theorem removeExpired_sends (kind : ListenerKind) (s : UEventModule) :
    Sends s [] (s.removeExpired kind) := by
  have same := removeExpired_sameBut kind s
  refine ⟨same.server, same.state, fun other => ?_, same.made, same.history, ?_, fun agent => ?_⟩
  · rw [removeExpired]
    split
    · rfl
    · cases kind <;> cases other <;> rfl
  · rw [same.pushed, List.append_nil]
  · rw [same.agents]
    exact Option.map_id'.symm

theorem removeBoth_sends (s : UEventModule) :
    Sends s [] s.removeExpiredServices.removeExpiredPlayers :=
  (removeExpired_sends .service s).trans (removeExpired_sends .player _)

/-- What the loops for some kinds push is told apart by kind and id. -/
theorem all_deliveries_nodup (s : UEventModule) (event : IEventParam) {kinds : List ListenerKind}
    (once : kinds.Nodup) : ((kinds.flatMap fun kind => s.deliveries kind event).map
      fun d => (d.kind, d.id)).Nodup := by
  induction kinds with
  | nil => exact .nil
  | cons kind rest ih =>
    obtain ⟨fresh, once⟩ := List.nodup_cons.mp once
    rw [List.flatMap_cons, List.map_append]
    refine (deliveries_nodup s kind event).append (ih once) ?_
    intro key here there
    obtain ⟨d, member, rfl⟩ := List.mem_map.mp here
    obtain ⟨d', member', same⟩ := List.mem_map.mp there
    obtain ⟨other, among, member'⟩ := List.mem_flatMap.mp member'
    have kinds : d'.kind = d.kind := congrArg Prod.fst same
    rw [(mem_deliveries.mp member).1, (mem_deliveries.mp member').1] at kinds
    exact fresh (kinds ▸ among)

/-! The module refines the list of the calls. -/

/-- What is registered stands. What stands for an agent that is alive is
registered, as no sweep drops it. -/
structure Refines (s : UEventModule) : Prop where
  serving : s.Serving
  sound : ∀ sub weak, s.registered sub = some weak → Stands s.history sub weak
  complete : ∀ sub agent, Stands s.history sub (some agent) → s.Alive agent →
    s.registered sub = some (some agent)
  made : ∀ sub agent, Stands s.history sub (some agent) → agent < s.made
  older : ∀ agent, s.Alive agent → agent < s.made

theorem initialised_refines {server : EServerState} (serving : server ≠ .terminated) :
    (initialised server).Refines where
  serving := ⟨nofun, serving⟩
  sound sub weak present := by
    rw [registered] at present
    obtain ⟨kind, id, event⟩ := sub
    cases kind with
    | service => cases present
    | player => cases present
  complete sub agent stands := absurd stands stands_nil
  made sub agent stands := absurd stands stands_nil
  older agent living := nomatch living

/-- A change of nothing that the relation speaks of. -/
theorem Refines.of_same (refines : s.Refines) (server : t.server = s.server)
    (state : t.state ≠ .created) (registered : t.registered = s.registered)
    (alive : ∀ agent, t.Alive agent → s.Alive agent) (made : t.made = s.made)
    (history : t.history = s.history) : t.Refines where
  serving := ⟨state, server ▸ refines.serving.serving⟩
  sound sub weak present := by
    rw [history]
    exact refines.sound sub weak (registered ▸ present)
  complete sub agent stands living := by
    rw [registered]
    exact refines.complete sub agent (history ▸ stands) (alive agent living)
  made sub agent stands := by
    rw [made]
    exact refines.made sub agent (history ▸ stands)
  older agent living := by
    rw [made]
    exact refines.older agent (alive agent living)

theorem Refines.sends {sent : List Delivery} (refines : s.Refines) (sends : Sends s sent t) :
    t.Refines := by
  apply refines.of_same sends.server
  · exact sends.state ▸ refines.serving.initialised
  · funext sub
    rw [registered, registered, sends.maps]
  · intro agent living
    rwa [← sends.alive]
  · exact sends.made
  · exact sends.history

theorem Refines.call (refines : s.Refines) {call : Registration} (made : s.Made call) :
    Refines { s.call call with history := call :: s.history } where
  serving :=
    have same := call_sameBut call s
    ⟨same.state ▸ refines.serving.initialised, same.server ▸ refines.serving.serving⟩
  sound sub weak present := by
    rw [stands_cons]
    change (s.call call).registered sub = some weak at present
    rw [registered_call refines.serving] at present
    split
    next concerned => rwa [if_pos concerned] at present
    next other =>
      rw [if_neg other] at present
      exact refines.sound sub weak present
  complete sub agent stands living := by
    change (s.call call).registered sub = some (some agent)
    rw [registered_call refines.serving]
    rw [stands_cons] at stands
    split
    next concerned => rwa [if_pos concerned] at stands
    next other =>
      rw [if_neg other] at stands
      refine refines.complete sub agent stands ?_
      rwa [Alive, ← (call_sameBut call s).agents]
  made sub agent stands := by
    change agent < (s.call call).made
    rw [(call_sameBut call s).made]
    rw [stands_cons] at stands
    split at stands
    next =>
      cases call with
      | listen kind id weak event =>
        cases stands
        exact made
      | removeByEvent => cases stands
      | remove => cases stands
    next => exact refines.made sub agent stands
  older agent living := by
    have same := call_sameBut call s
    change agent < (s.call call).made
    rw [same.made]
    refine refines.older agent ?_
    rwa [Alive, ← same.agents]

theorem Refines.sweep (refines : s.Refines) {cancelled : Bool}
    (swept : s.sweep kind cancelled = some t) : t.Refines := by
  obtain ⟨same, kept⟩ := sweep_registered swept
  have living (agent) (later : t.Alive agent) : s.Alive agent := by
    rwa [Alive, ← same.agents]
  refine ⟨⟨same.state ▸ refines.serving.initialised, same.server ▸ refines.serving.serving⟩,
    ?_, ?_, ?_, ?_⟩
  · intro sub weak present
    rw [same.history]
    apply refines.sound
    rcases kept sub with unswept | filtered
    · rwa [← unswept]
    · exact (Option.filter_eq_some_iff.mp (filtered ▸ present)).1
  · intro sub agent stands later
    have alive := living agent later
    have present := refines.complete sub agent (same.history ▸ stands) alive
    rcases kept sub with unswept | filtered
    · rw [unswept, present]
    · rw [filtered, present]
      exact Option.filter_eq_some_iff.mpr ⟨rfl, by rw [lock_eq_some.mpr ⟨rfl, alive⟩]; rfl⟩
  · intro sub agent stands
    rw [same.made]
    exact refines.made sub agent (same.history ▸ stands)
  · intro agent later
    rw [same.made]
    exact refines.older agent (living agent later)

/-- An agent that is made is new, so nothing is registered for it. -/
theorem Refines.make (refines : s.Refines) (capacity : Nat) :
    Refines { s with agents := s.agents.insert s.made (.new capacity), made := s.made + 1 } where
  serving := ⟨refines.serving.initialised, refines.serving.serving⟩
  sound := refines.sound
  complete sub agent stands living := by
    refine refines.complete sub agent stands ?_
    have older := refines.made sub agent stands
    rwa [Alive, Table.lookup_insert_ite, if_neg (Nat.ne_of_lt older)] at living
  made sub agent stands := Nat.lt_succ_of_lt (refines.made sub agent stands)
  older agent living := by
    rw [Alive, Table.lookup_insert_ite] at living
    split at living
    next newest => exact newest ▸ Nat.lt_succ_self s.made
    next => exact Nat.lt_succ_of_lt (refines.older agent living)

/-! What a step does, by its label. -/

theorem dispatched_eq_some {event : Option IEventParam} {e : IEventParam} :
    s.dispatched event = some e ↔ s.state = .running ∧ event = some e ∧ 0 ≤ e.eventType := by
  rw [dispatched]
  split
  next idle => exact ⟨nofun, fun running => absurd running.1 idle⟩
  next running =>
    rw [Option.filter_eq_some_iff, decide_eq_true_iff]
    exact ⟨fun taken => ⟨not_not.mp running, taken⟩, fun taken => taken.2⟩

/-- The listeners that a step serves, and the event that it pushes to them. -/
def Label.Serves (s : UEventModule) (kind : ListenerKind) (event : IEventParam) : Label → Prop
  | .dispatch given => s.state = .running ∧ given = some event ∧ 0 ≤ event.eventType
  | .beginDispatch given =>
    (s.state = .running ∧ given = some event ∧ 0 ≤ event.eventType) ∧ kind = .service
  | .endDispatch given => given = event ∧ kind = .player
  | .start | .stop | .make _ | .destroy _ | .call _ | .sweep .. => False

/-- The agents that are alive after a step. -/
def Label.Spares (s : UEventModule) (agent : Nat) : Label → Prop
  | .make _ => agent = s.made ∨ s.Alive agent
  | .destroy gone => agent ≠ gone ∧ s.Alive agent
  | .start | .stop | .call _ | .sweep .. | .dispatch _ | .beginDispatch _ | .endDispatch _ =>
    s.Alive agent

/-- The calls that a step adds to the record. -/
def Label.calls : Label → List Registration
  | .call registration => [registration]
  | .start | .stop | .make _ | .destroy _ | .sweep .. | .dispatch _ | .beginDispatch _
  | .endDispatch _ => []

/-- A step changes what stands and who is alive in the way its label tells. -/
structure Accounts (s : UEventModule) (label : Label) (t : UEventModule) : Prop where
  history : t.history = label.calls ++ s.history
  alive : ∀ agent, t.Alive agent ↔ label.Spares s agent

/-- What a step pushes, and to whom. -/
structure Pushes (s : UEventModule) (label : Label) (sent : List Delivery) (t : UEventModule) :
    Prop where
  pushed : t.pushed = s.pushed ++ sent
  mailboxes : ∀ agent before after, s.agents.lookup agent = some before →
    t.agents.lookup agent = some after → after = receive agent sent before
  once : (sent.map fun d => (d.kind, d.id)).Nodup
  exact : ∀ d, d ∈ sent ↔ label.Serves s d.kind d.event ∧
    Stands s.history d.subscription (some d.agent) ∧ s.Alive d.agent

/-- The steps of a module. The labels of `Dispatch` push to some kinds of
listeners, or to none where the tests at its head fail. -/
inductive Effect (s : UEventModule) : Label → UEventModule → Prop where
  | starts : Effect s .start { s with state := .running }
  | stops : Effect s .stop { s with state := .stopped }
  | makes (capacity : Nat) : Effect s (.make capacity) { s with
      agents := s.agents.insert s.made (.new capacity)
      made := s.made + 1 }
  | destroys (agent : Nat) : Effect s (.destroy agent) { s with agents := s.agents.erase agent }
  | calls {registration : Registration} (made : s.Made registration) :
      Effect s (.call registration)
        { s.call registration with history := registration :: s.history }
  | sweeps {kind : ListenerKind} {cancelled : Bool} {t : UEventModule}
      (swept : s.sweep kind cancelled = some t) : Effect s (.sweep kind cancelled) t
  | sends {label : Label} {t : UEventModule} {event : IEventParam} {kinds : List ListenerKind}
      (sends : Sends s (kinds.flatMap fun kind => s.deliveries kind event) t) (once : kinds.Nodup)
      (serves : ∀ kind e, label.Serves s kind e ↔ event = e ∧ kind ∈ kinds)
      (calls : label.calls = []) (spares : ∀ agent, label.Spares s agent = s.Alive agent) :
      Effect s label t

/-- A `Dispatch` that returns at its head. -/
theorem Effect.idle {label : Label} (idle : ∀ kind e, ¬ label.Serves s kind e)
    (calls : label.calls = []) (spares : ∀ agent, label.Spares s agent = s.Alive agent) :
    Effect s label s := by
  have nothing : Sends s
      (([] : List ListenerKind).flatMap fun kind => s.deliveries kind ⟨0, 0⟩) s := .refl s
  refine .sends nothing .nil (fun kind e => ?_) calls spares
  exact ⟨fun serves => absurd serves (idle kind e), fun none => nomatch none.2⟩

theorem dispatch_effect (event : Option IEventParam) (s : UEventModule) :
    Effect s (.dispatch event) (s.dispatch event) := by
  rw [dispatch]
  cases given : s.dispatched event with
  | none =>
    refine .idle (fun kind e serves => ?_) rfl fun _ => rfl
    cases given.symm.trans (dispatched_eq_some.mpr serves)
  | some event =>
    have services := dispatchTo_sends .service event s
    have players := dispatchTo_sends .player event (s.dispatchTo .service event)
    rw [services.deliveries] at players
    have both : [ListenerKind.service, .player].flatMap (fun kind => s.deliveries kind event) =
        s.deliveries .service event ++ s.deliveries .player event ++ [] := by
      simp
    have sends := (services.trans players).trans (removeBoth_sends _)
    rw [← both] at sends
    refine .sends sends (by decide) (fun kind e => ?_) rfl fun _ => rfl
    rw [Label.Serves, ← dispatched_eq_some, given, Option.some.injEq]
    cases kind with
    | service => simp
    | player => simp

theorem beginDispatch_effect (event : Option IEventParam) (s : UEventModule) :
    Effect s (.beginDispatch event) (s.beginDispatch event) := by
  rw [beginDispatch]
  cases given : s.dispatched event with
  | none =>
    refine .idle (fun kind e serves => ?_) rfl fun _ => rfl
    cases given.symm.trans (dispatched_eq_some.mpr serves.1)
  | some event =>
    have services := dispatchTo_sends .service event s
    have sends : Sends s ([.service].flatMap fun kind => s.deliveries kind event)
        { s.dispatchTo .service event with
          dispatching := event :: (s.dispatchTo .service event).dispatching } := by
      rw [List.flatMap_singleton]
      exact ⟨services.server, services.state, services.maps, services.made, services.history,
        services.pushed, services.mailboxes⟩
    refine .sends sends (by decide) (fun kind e => ?_) rfl fun _ => rfl
    rw [Label.Serves, ← dispatched_eq_some, given, Option.some.injEq, List.mem_singleton]

theorem endDispatch_effect {event : IEventParam} (ended : s.endDispatch event = some t) :
    Effect s (.endDispatch event) t := by
  simp only [endDispatch, Option.ite_none_right_eq_some, Option.some.injEq] at ended
  obtain ⟨-, rfl⟩ := ended
  have players := dispatchTo_sends .player event s
  have dropped : Sends s ([.player].flatMap fun kind => s.deliveries kind event)
      { s.dispatchTo .player event with
        dispatching := (s.dispatchTo .player event).dispatching.erase event } := by
    rw [List.flatMap_singleton]
    exact ⟨players.server, players.state, players.maps, players.made, players.history,
      players.pushed, players.mailboxes⟩
  have sends := dropped.trans (removeBoth_sends _)
  rw [List.append_nil] at sends
  refine .sends sends (by decide) (fun kind e => ?_) rfl fun _ => rfl
  rw [Label.Serves, List.mem_singleton]

theorem step_effect {label : Label} (moved : Step s label t) : Effect s label t := by
  cases label with
  | start =>
    simp only [Step, next, Option.ite_none_right_eq_some, Option.some.injEq] at moved
    obtain ⟨-, rfl⟩ := moved
    exact .starts
  | stop =>
    cases moved
    exact .stops
  | make capacity =>
    cases moved
    exact .makes capacity
  | destroy agent =>
    cases moved
    exact .destroys agent
  | call registration =>
    simp only [Step, next, Option.ite_none_right_eq_some, Option.some.injEq] at moved
    obtain ⟨made, rfl⟩ := moved
    exact .calls made
  | sweep kind cancelled => exact .sweeps moved
  | dispatch event =>
    cases moved
    exact dispatch_effect event s
  | beginDispatch event =>
    cases moved
    exact beginDispatch_effect event s
  | endDispatch event => exact endDispatch_effect moved

/-- What stands and who is alive after a step. -/
theorem Effect.accounts {label : Label} (effect : Effect s label t) : Accounts s label t := by
  cases effect with
  | starts => exact ⟨rfl, fun _ => Iff.rfl⟩
  | stops => exact ⟨rfl, fun _ => Iff.rfl⟩
  | makes capacity =>
    refine ⟨rfl, fun agent => ?_⟩
    rw [Alive, Table.lookup_insert_ite, Label.Spares]
    split
    next newest => exact ⟨fun _ => .inl newest, fun _ => rfl⟩
    next other => exact ⟨.inr, fun either => either.resolve_left other⟩
  | destroys gone =>
    refine ⟨rfl, fun agent => ?_⟩
    rw [Alive, Table.lookup_erase_ite, Label.Spares]
    split
    next same => exact ⟨nofun, fun both => absurd same both.1⟩
    next other => exact ⟨fun living => ⟨other, living⟩, And.right⟩
  | @calls registration made =>
    refine ⟨rfl, fun agent => ?_⟩
    rw [Alive, (call_sameBut registration s).agents]
    rfl
  | sweeps swept =>
    have same := (sweep_registered swept).1
    refine ⟨same.history, fun agent => ?_⟩
    rw [Alive, same.agents]
    rfl
  | sends sends once serves calls spares =>
    refine ⟨?_, fun agent => ?_⟩
    · rw [sends.history, calls, List.nil_append]
    · rw [sends.alive, spares]

theorem Effect.refines {label : Label} (effect : Effect s label t) (refines : s.Refines) :
    t.Refines := by
  have alive := effect.accounts.alive
  cases effect with
  | starts => exact refines.of_same rfl nofun rfl (fun _ => id) rfl rfl
  | stops => exact refines.of_same rfl nofun rfl (fun _ => id) rfl rfl
  | makes capacity => exact refines.make capacity
  | destroys gone =>
    exact refines.of_same rfl refines.serving.initialised rfl
      (fun agent living => ((alive agent).mp living).2) rfl rfl
  | calls made => exact refines.call made
  | sweeps swept => exact refines.sweep swept
  | sends sends => exact refines.sends sends

theorem Refines.mem_deliveries (refines : s.Refines) {event : IEventParam} {d : Delivery} :
    d ∈ s.deliveries kind event ↔ (event = d.event ∧ d.kind = kind) ∧
      Stands s.history d.subscription (some d.agent) ∧ s.Alive d.agent := by
  rw [UEventModule.mem_deliveries]
  constructor
  · rintro ⟨rfl, rfl, present, alive⟩
    exact ⟨⟨rfl, rfl⟩, refines.sound _ _ present, alive⟩
  · rintro ⟨⟨rfl, rfl⟩, stands, alive⟩
    exact ⟨rfl, rfl, refines.complete _ _ stands alive, alive⟩

/-- A step that is no `Dispatch` pushes nothing. -/
theorem Pushes.nothing {label : Label} (same : t.pushed = s.pushed)
    (kept : ∀ agent before after, s.agents.lookup agent = some before →
      t.agents.lookup agent = some after → after = before)
    (idle : ∀ kind event, ¬ label.Serves s kind event) : Pushes s label [] t where
  pushed := same.trans (List.append_nil _).symm
  mailboxes := kept
  once := .nil
  exact _ := ⟨nofun, fun serves => absurd serves.1 (idle _ _)⟩

theorem Pushes.unmoved {label : Label} (pushed : t.pushed = s.pushed) (agents : t.agents = s.agents)
    (idle : ∀ kind event, ¬ label.Serves s kind event) : Pushes s label [] t := by
  refine .nothing pushed ?_ idle
  intro agent before after present later
  rw [agents, present] at later
  exact (Option.some.inj later).symm

theorem Refines.mem_all_deliveries (refines : s.Refines) {event : IEventParam}
    {kinds : List ListenerKind} {d : Delivery} :
    (d ∈ kinds.flatMap fun kind => s.deliveries kind event) ↔
      (event = d.event ∧ d.kind ∈ kinds) ∧
        Stands s.history d.subscription (some d.agent) ∧ s.Alive d.agent := by
  rw [List.mem_flatMap]
  constructor
  · rintro ⟨kind, among, member⟩
    obtain ⟨⟨same, rfl⟩, stands⟩ := refines.mem_deliveries.mp member
    exact ⟨⟨same, among⟩, stands⟩
  · rintro ⟨⟨same, among⟩, stands⟩
    exact ⟨d.kind, among, refines.mem_deliveries.mpr ⟨⟨same, rfl⟩, stands⟩⟩

theorem Effect.pushes {label : Label} (effect : Effect s label t) (refines : s.Refines) :
    ∃ sent, Pushes s label sent t := by
  cases effect with
  | starts => exact ⟨[], .unmoved rfl rfl fun _ _ => id⟩
  | stops => exact ⟨[], .unmoved rfl rfl fun _ _ => id⟩
  | makes capacity =>
    refine ⟨[], .nothing rfl ?_ fun _ _ => id⟩
    intro agent before after present later
    have older := refines.older agent (Option.isSome_of_mem present)
    rw [Table.lookup_insert_ite, if_neg (Nat.ne_of_lt older), present] at later
    exact (Option.some.inj later).symm
  | destroys gone =>
    refine ⟨[], .nothing rfl ?_ fun _ _ => id⟩
    intro agent before after present later
    rw [Table.lookup_erase_ite] at later
    split at later
    · cases later
    · rw [present] at later
      exact (Option.some.inj later).symm
  | @calls registration made =>
    have same := call_sameBut registration s
    exact ⟨[], .unmoved same.pushed same.agents fun _ _ => id⟩
  | sweeps swept =>
    have same := (sweep_registered swept).1
    exact ⟨[], .unmoved same.pushed same.agents fun _ _ => id⟩
  | @sends label t event kinds sends once serves calls spares =>
    refine ⟨_, sends.pushed, ?_, all_deliveries_nodup s event once, fun d => ?_⟩
    · intro agent before after present later
      rw [sends.mailboxes, present] at later
      exact (Option.some.inj later).symm
    · rw [refines.mem_all_deliveries, serves]

open Transition in
/-- Over any run a `Dispatch` pushes its event exactly once for each listener
whose latest valid registration was not removed and whose agent is alive. No
other step pushes anything. -/
theorem dispatch_matches {server : EServerState} (serving : server ≠ .terminated)
    {path : List (Label × UEventModule)} (run : Path Step (initialised server) path) :
    Path (fun s label t => Accounts s label t ∧ ∃ sent, Pushes s label sent t)
      (initialised server) path := by
  have always : Always Refines (initialised server) path := by
    apply run.invariant _ (initialised_refines serving)
    intro s label t refines moved
    exact (step_effect moved).refines refines
  apply run.steps _ always
  intro s label t refines moved
  have effect := step_effect moved
  exact ⟨effect.accounts, effect.pushes refines⟩

/-- A service and a player with the id of a service that is gone. -/
def reusedId : List (Label × UEventModule) :=
  runs (initialised .running) [.start, .make 4, .call (.listen .service 7 (some 0) 3), .destroy 0,
    .make 4, .call (.listen .player 7 (some 1) 3), .sweep .service false, .make 4,
    .call (.listen .service 7 (some 2) 5), .dispatch (some ⟨3, 0⟩)]

open Transition in
theorem dispatch_matches_reusedId :
    (last (initialised .running) reusedId).pushed = [⟨.player, 7, 1, ⟨3, 0⟩⟩] ∧
      Path (fun s label t => Accounts s label t ∧ ∃ sent, Pushes s label sent t)
        (initialised .running) reusedId :=
  ⟨by decide +kernel, dispatch_matches (by decide) (runs_path _ _)⟩

end UEventModule
end Uranus
