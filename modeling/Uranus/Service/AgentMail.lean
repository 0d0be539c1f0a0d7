import Uranus.Base.MailboxOnce
import Uranus.Service.AgentSerials

/-! What happens to the mailboxes of the agents over the life of the module: new
agents get empty ones, and what pushes no tick keeps whatever holds of a mailbox
against all that may happen to it besides. -/
namespace Uranus
open Foundation Program Interleaving

/-- The time point and the period of a node that is a tick. -/
def IChannelNode.tick : IChannelNode → Option (Int × Int)
  | .ticker timepoint delta => some (timepoint, delta)
  | .package _ | .event _ | .task _ => none

namespace Mailbox
variable {m t : Mailbox} {event : Event}

/-- The ticks that were pushed. -/
def ticks (m : Mailbox) : List (Int × Int) := m.pushed.filterMap fun post => post.node.tick

/-- The ticks that were executed: the calls of `OnUpdate`. -/
def updates (m : Mailbox) : List (Int × Int) := m.executed.filterMap fun post => post.node.tick

/-- The event is not the push of a tick. -/
def Event.plain : Event → Bool
  | .push (some (.ticker ..)) => false
  | _ => true

theorem push_ticks (node : IChannelNode) : (m.push (some node)).ticks =
    if m.channel.isOpen then m.ticks ++ node.tick.toList else m.ticks := by
  unfold push ticks
  split
  next closed =>
    rw [if_neg (by simpa using closed)]
  next opened =>
    have pushes (post : Post) : (m.pushed ++ [post]).filterMap (fun post => post.node.tick) =
        m.pushed.filterMap (fun post => post.node.tick) ++ post.node.tick.toList := by
      rw [List.filterMap_append]
      cases tick : post.node.tick <;> simp [tick]
    rw [if_pos (by simpa using opened)]
    dsimp only
    split
    · exact pushes _
    · exact pushes _

theorem plain_ticks (conserved : Conserved m) (plain : event.plain) (moved : m.Step event t) :
    t.ticks = m.ticks := by
  by_cases pushes : ∃ node, event = .push (some node)
  · obtain ⟨node, rfl⟩ := pushes
    cases moved
    rw [push_ticks]
    cases node with
    | ticker timepoint delta => cases plain
    | package | event | task =>
      simp only [IChannelNode.tick, Option.toList_none, List.append_nil, ite_self]
  · obtain ⟨quiet, -⟩ := step_quiet conserved moved fun node same => pushes ⟨node, same⟩
    rw [ticks, quiet.pushed]
    rfl

theorem spawnProcess_conserved (conserved : Conserved m) : Conserved m.spawnProcess := by
  unfold spawnProcess
  split
  next absent =>
    refine ⟨conserved.serials, conserved.within, fun _ => ?_⟩
    exact conserved.resting (by rw [absent]; exact nofun)
  next => exact conserved

theorem spawnProcess_ticks (m : Mailbox) : m.spawnProcess.ticks = m.ticks := by
  unfold spawnProcess
  split <;> rfl

/-- Only what was pushed is executed. -/
theorem Conserved.updates_subset (conserved : Conserved m) {tick : Int × Int}
    (updated : tick ∈ m.updates) : tick ∈ m.ticks := by
  obtain ⟨post, held, same⟩ := List.mem_filterMap.mp updated
  have pushed : post ∈ (m.pushed : Multiset Post) :=
    Multiset.mem_of_le conserved.within (Multiset.mem_add.mpr (.inl (Multiset.mem_coe.mpr held)))
  exact List.mem_filterMap.mpr ⟨post, Multiset.mem_coe.mp pushed, same⟩

/-- Ticks that are pushed once are executed once. -/
theorem Conserved.updates_nodup (conserved : Conserved m) (distinct : m.ticks.Nodup) :
    m.updates.Nodup := by
  have within := (Multiset.le_add_right _ _).trans conserved.within
  have fewer := Multiset.filterMap_le_filterMap (fun post : Post => post.node.tick) within
  exact Multiset.coe_nodup.mp (Multiset.nodup_of_le fewer (Multiset.coe_nodup.mpr distinct))

end Mailbox

/-- Every agent's mailbox has the property. -/
def UServiceModule.Mailed (P : Nat → Mailbox → Prop) (s : UServiceModule) : Prop :=
  ∀ serial context, s.contexts.lookup serial = some context → P serial context.mailbox

/-- What may happen to a mailbox besides ticks keeps the property, and the agents
from `first` on begin with it. -/
structure Stable (first : Nat) (P : Nat → Mailbox → Prop) : Prop where
  fresh : ∀ {serial}, first ≤ serial → P serial (.new serviceChannelSize)
  event : ∀ {serial m t event}, Mailbox.Event.plain event → P serial m → m.Step event t →
    P serial t
  spawn : ∀ {serial m}, P serial m → P serial m.spawnProcess

/-- The mailboxes keep the property, where agents from `first` on are still to come. -/
structure KeepsMail (first : Nat) (P : Nat → Mailbox → Prop) (s t : UServiceModule) : Prop where
  next : s.nextAgent ≤ t.nextAgent
  mailed : first ≤ s.nextAgent → s.Mailed P → t.Mailed P

instance (first : Nat) (P : Nat → Mailbox → Prop) :
    IsPreorder UServiceModule (KeepsMail first P) where
  refl _ := ⟨le_refl _, fun _ mailed => mailed⟩
  trans _ _ _ one two := ⟨one.next.trans two.next, fun known mailed =>
    two.mailed (known.trans one.next) (one.mailed known mailed)⟩

section
variable {first : Nat} {P : Nat → Mailbox → Prop} {s t : UServiceModule}

theorem KeepsMail.of_same (contexts : t.contexts = s.contexts)
    (next : t.nextAgent = s.nextAgent) : KeepsMail first P s t :=
  ⟨ge_of_eq next, fun _ mailed serial context held => mailed serial context (contexts ▸ held)⟩

theorem edit_keepsMail {serial : Nat} {update : ServiceContext → ServiceContext}
    (keeps : ∀ context, P serial context.mailbox → P serial (update context).mailbox)
    (s : UServiceModule) : KeepsMail first P s (s.edit serial update) := by
  refine ⟨le_refl _, fun _ mailed key context held => ?_⟩
  have found := (Table.lookup_modify s.contexts serial key update).symm.trans held
  split at found
  next same =>
    subst same
    obtain ⟨before, present, rfl⟩ := Option.map_eq_some_iff.mp found
    exact keeps before (mailed key before present)
  next => exact mailed key context found

theorem make_keepsMail (stable : Stable first P) (sid : Int) (service : IServiceBase) :
    KeepsMail first P s (s.make sid service) := by
  refine ⟨Nat.le_succ _, fun known mailed serial context held => ?_⟩
  have found := (Table.lookup_insert_ite s.contexts s.nextAgent serial
    (ServiceContext.new sid service)).symm.trans held
  split at found
  next same =>
    cases found
    exact stable.fresh (known.trans (ge_of_eq same))
  next => exact mailed serial context found

theorem Stable.push (stable : Stable first P) {serial : Nat} {m : Mailbox}
    (node : Option IChannelNode) (plain : Mailbox.Event.plain (.push node)) (holds : P serial m) :
    P serial (m.push node) := stable.event plain holds rfl

theorem Stable.stop (stable : Stable first P) (serial : Nat) (context : ServiceContext)
    (holds : P serial context.mailbox) : P serial context.stop.mailbox := by
  have closes : context.mailbox.Step .close context.stop.mailbox := rfl
  exact stable.event rfl holds closes

theorem Stable.step (stable : Stable first P) {serial : Nat} {event : Mailbox.Event}
    (plain : event.plain) (context : ServiceContext) (holds : P serial context.mailbox) :
    P serial ((context.step event).getD context).mailbox := by
  cases came : context.step event with
  | none => exact holds
  | some later =>
    cases event with
    | resume actor =>
      obtain ⟨m, moved, rfl⟩ := Option.map_eq_some_iff.mp came
      have resumes : context.mailbox.Step (.resume context.service.isSome) m := moved
      exact stable.event rfl holds resumes
    | push | close =>
      cases came
      exact stable.event plain holds rfl
    | deliver | complete | cleanUp =>
      obtain ⟨m, moved, rfl⟩ := Option.map_eq_some_iff.mp came
      exact stable.event plain holds moved

theorem editContext_keepsMail {serial : Nat} {update : ServiceContext → ServiceContext}
    (keeps : ∀ context, P serial context.mailbox → P serial (update context).mailbox) :
    Within (KeepsMail first P) (editContext serial update) :=
  .modify fun s => edit_keepsMail keeps s

theorem agentStop_keepsMail (stable : Stable first P) (agent : UServiceAgent) :
    Within (KeepsMail first P) (agentStop agent) :=
  editContext_keepsMail (stable.stop agent.serial)

theorem launch_keepsMail (stable : Stable first P) (sid : Int) (agent : UServiceAgent) :
    KeepsMail first P s (s.launch sid agent) :=
  have edited : KeepsMail first P s _ := edit_keepsMail (fun _ => stable.spawn) s
  ⟨edited.next, edited.mailed⟩

theorem agentBootService_keepsMail (stable : Stable first P) {sid : Int} {agent : UServiceAgent}
    (ends : Ends (agentBootService sid agent) s t) : KeepsMail first P s t := by
  cases opened : s.isOpen agent with
  | false =>
    rw [ends.of_exception (agentBootService_closed opened)]
    exact refl_of _ s
  | true =>
    cases start : agent.service.start with
    | error what =>
      rw [ends.of_exception (agentBootService_threw opened start)]
      exact refl_of _ s
    | ok started =>
      cases started with
      | false =>
        rw [ends.of_ok (agentBootService_refused opened start)]
        exact refl_of _ s
      | true =>
        rw [ends.of_ok (agentBootService_started opened start)]
        exact launch_keepsMail stable sid agent

theorem coreService_keepsMail (stable : Stable first P) (core : CoreService) :
    Within (KeepsMail first P) (coreService core) := by
  unfold coreService
  apply Within.bind (R := KeepsMail first P) .get
  intro s
  split
  · exact .throw _
  · split
    · exact .pure _
    · have allocated : Within (KeepsMail first P) (allocate core.first) := by
        intro s t ends
        cases ends.of_ok (u := { s with allocator := (s.allocator.allocate core.first).2 }) rfl
        exact .of_same rfl rfl
      apply Within.bind allocated
      intro sid
      apply Within.bind (R := KeepsMail first P) (.throwIf _ _)
      intro _
      have made (service : IServiceBase) : Within (KeepsMail first P) (makeAgent sid service) := by
        intro s t ends
        cases ends.of_ok (u := s.make sid service) rfl
        exact make_keepsMail stable sid service
      apply Within.bind (made _)
      intro agent
      apply Within.bind (R := KeepsMail first P) (.of_same (agentInitial_same_state agent))
      intro ready
      split
      · exact Within.bind (R := KeepsMail first P) (.modify fun _ => .of_same rfl rfl) fun _ =>
          agentStop_keepsMail stable agent
      · split
        · exact agentStop_keepsMail stable agent
        · exact .modify fun _ => .of_same rfl rfl

/-- The activity pushes no tick: ticks come from a pass of `UpdateLoop` only. -/
def Activity.Tickless (s : UServiceModule) : Activity → Prop
  | .service (.updatePass ..) => False
  | .loop .. => s.updateLoop ≠ .passing
  | .agent _ event => event.plain
  | _ => True

theorem CallEffect.keepsMail {call : ServiceCall} {rest : Option ServiceCall}
    (stable : Stable first P) (effect : CallEffect s call rest t)
    (pass : ∀ timepoint delta, call ≠ .updatePass timepoint delta)
    (found : ∀ purpose name agent, call ≠ .found purpose name agent) :
    KeepsMail first P s t := by
  cases effect with
  | initialThrew | invalid | valid => exact make_keepsMail stable _ _
  | started => exact launch_keepsMail stable _ _
  | @refused _ agent | @halted _ _ agent =>
    have edited : KeepsMail first P s _ := edit_keepsMail (stable.stop agent.serial) s
    exact ⟨edited.next, edited.mailed⟩
  | served => exact absurd rfl (found _ _ _)
  | passed => exact absurd rfl (pass _ _)
  | _ => exact .of_same rfl rfl

theorem serve_keepsMail (stable : Stable first P) (agent : UServiceAgent) (purpose : Purpose) :
    Within (KeepsMail first P) (purpose.serve agent) := by
  cases purpose with
  | find => exact .pure _
  | postPackage pkg =>
    exact editContext_keepsMail fun context => stable.push (some (.package _)) rfl
  | postTask task => exact editContext_keepsMail fun context => stable.push (some (.task task)) rfl

/-- Whatever pushes no tick keeps what ticks alone can change. -/
theorem part_keepsMail {activity : Activity} {rest : Option Activity} (stable : Stable first P)
    (tickless : activity.Tickless s) (reaches : Reaches activity.part s rest t) :
    KeepsMail first P s t := by
  cases activity with
  | service call =>
    obtain ⟨inner, rfl, reached⟩ := Reaches.of_map reaches
    cases call with
    | updatePass => exact tickless.elim
    | found purpose name agent => exact serve_keepsMail stable agent purpose s t reached.last.2
    | _ => exact (part_effect reached).keepsMail stable nofun nofun
  | initial cores =>
    rcases mainBegin_idle reaches.last.2 with rfl | ⟨-, ends⟩
    · exact refl_of _ t
    · rcases guarded_ends (ends.congr (get_bind _ s)) with rfl | ⟨-, rfl⟩
      · exact refl_of _ t
      · exact .of_same rfl rfl
  | start =>
    rcases mainBegin_idle reaches.last.2 with rfl | ⟨-, ends⟩
    · exact refl_of _ t
    · rcases guarded_ends (ends.congr (get_bind _ s)) with rfl | ⟨-, rfl⟩
      · exact refl_of _ t
      · exact .of_same rfl rfl
  | stop =>
    rcases mainBegin_idle reaches.last.2 with rfl | ⟨-, ends⟩
    · exact refl_of _ t
    · have ends := ends.congr (get_bind _ s)
      split at ends
      · cases ends.of_ok (u := s) rfl
        exact refl_of _ s
      · cases ends.of_ok (u := { s with state := .stopped, main := .cancelling }) rfl
        exact .of_same rfl rfl
  | main =>
    cases mainNext_cases reaches.last.2 with
    | idle _ same | spawns _ same | opens _ same | initialises _ same | runs _ same
    | cancels _ same | halts _ same | clears _ same =>
      subst same
      exact .of_same rfl rfl
    | @closes service services _ same =>
      subst same
      have edited : KeepsMail first P s _ := edit_keepsMail (stable.stop service.2.serial) s
      exact ⟨edited.next, edited.mailed⟩
    | @creates core cores u _ ends next =>
      have kept := coreService_keepsMail stable core _ _ ends
      rcases next with rfl | rfl
      · exact ⟨kept.next, kept.mailed⟩
      · exact ⟨kept.next, kept.mailed⟩
    | boots _ ends next =>
      have kept := agentBootService_keepsMail stable ends
      rcases next with rfl | rfl
      · exact ⟨kept.next, kept.mailed⟩
      · exact ⟨kept.next, kept.mailed⟩
  | loop timepoint delta =>
    cases loopNext_cases reaches.last.2 with
    | stays _ same | enters _ _ same | tests _ same | resumes _ _ same =>
      subst same
      exact .of_same rfl rfl
    | passes at' => exact absurd at' tickless
  | expire | signal =>
    cases reaches.last.2.of_ok rfl
    exact .of_same rfl rfl
  | agent serial event =>
    have within : Within (KeepsMail first P) (agentEvent serial event) := by
      apply Within.bind (R := KeepsMail first P) .get
      intro s
      split
      · exact .pure _
      · exact editContext_keepsMail (stable.step tickless)
    exact within s t reaches.last.2

end
end Uranus
