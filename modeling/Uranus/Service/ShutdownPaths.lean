import Uranus.Service.Registry

/-! The two functions that shut a service down, by its id and by its name. They
start from different maps and find the missing half in the other one, and where
the maps are mutually inverse they come to one state, unless the id is negative:
`ShutdownService(name)` gives up on such an id when it has erased the name. -/
namespace Uranus
open Foundation Program
variable {s : UServiceModule} {sid : Int} {agent : UServiceAgent} {name : String}

namespace UServiceModule

/-- The module without the service: it has left the three structures that know it,
its id is free again and its agent stopped. -/
def shutDown (s : UServiceModule) (sid : Int) (agent : UServiceAgent) : UServiceModule :=
  { s with
    serviceMap := s.serviceMap.erase sid
    serviceNameMap := s.serviceNameMap.erase agent.name
    tickerSet := s.tickerSet.erase sid
    allocator := s.allocator.recycleTS sid
    contexts := Table.modify agent.serial ServiceContext.stop s.contexts
    removals := (sid, agent) ::ₘ s.removals
    recyclings := (sid, agent) ::ₘ s.recyclings
    halts := (sid, agent) ::ₘ s.halts }

def MutuallyInverse (s : UServiceModule) : Prop :=
  Inverse s.serviceNameMap.lookup (serviceNames s.serviceMap)

end UServiceModule

theorem shutdownService_registered (running : s.state = .running)
    (registered : s.serviceMap.lookup sid = some agent) :
    shutdownService sid s = .ok () (s.shutDown sid agent) := by
  rw [shutdownService]
  rw [bind_ok ((shutdownEntry_running running sid).trans (removeService_some registered))]
  rfl

theorem shutdownServiceByName_negative (running : s.state = .running)
    (named : s.serviceNameMap.lookup name = some sid) (negative : sid < 0) :
    shutdownServiceByName name s =
      .ok () { s with serviceNameMap := s.serviceNameMap.erase name } := by
  have known : s.named name = some sid := by
    rw [UServiceModule.named, if_neg (not_not.mpr running), named]
  have given := shutdownNamed_some known
  rw [if_pos negative] at given
  rw [shutdownServiceByName, bind_ok given]
  rfl

theorem shutdownServiceByName_registered (running : s.state = .running)
    (named : s.serviceNameMap.lookup agent.name = some sid)
    (registered : s.serviceMap.lookup sid = some agent) (nonnegative : 0 ≤ sid) :
    shutdownServiceByName agent.name s = .ok () (s.shutDown sid agent) := by
  have known : s.named agent.name = some sid := by
    rw [UServiceModule.named, if_neg (not_not.mpr running), named]
  have given := shutdownNamed_some known
  rw [if_neg (by omega)] at given
  have removed := removeService_some (s := { s with
    serviceNameMap := s.serviceNameMap.erase agent.name }) registered
  rw [shutdownServiceByName, bind_ok given]
  dsimp only
  rw [bind_ok removed]
  rfl

theorem shutdownService_unregistered (unregistered : s.serviceMap.lookup sid = none) :
    shutdownService sid s = .ok () s := by
  have entered : shutdownEntry sid s = .ok none s := by
    by_cases running : s.state = .running
    · exact (shutdownEntry_running running sid).trans (removeService_none unregistered)
    · exact shutdownEntry_idle running
  rw [shutdownService, bind_ok entered]
  rfl

theorem shutdownServiceByName_unregistered
    (unregistered : s.serviceNameMap.lookup name = none) :
    shutdownServiceByName name s = .ok () s := by
  have unknown : s.named name = none := by
    rw [UServiceModule.named, unregistered, ite_self]
  rw [shutdownServiceByName, bind_ok (shutdownNamed_none unknown)]
  rfl

/-- A service that is still in the map has not been shut down. -/
theorem shutDown_differs (registered : s.serviceMap.lookup sid = some agent) :
    s.shutDown sid agent ≠ { s with serviceNameMap := s.serviceNameMap.erase name } := by
  intro same
  have kept := congrArg (fun u : UServiceModule => u.serviceMap.lookup sid) same
  simp only [UServiceModule.shutDown, AList.lookup_erase] at kept
  cases kept.trans registered

theorem paths_agree (running : s.state = .running) (consistent : s.MutuallyInverse)
    (registered : s.serviceMap.lookup sid = some agent) :
    shutdownService sid s = shutdownServiceByName agent.name s ↔ 0 ≤ sid := by
  have named := (consistent agent.name sid).mpr (serviceNames_some registered)
  rw [shutdownService_registered running registered]
  constructor
  · intro same
    by_contra negative
    rw [shutdownServiceByName_negative running named (not_le.mp negative)] at same
    cases shutDown_differs registered (EStateM.Result.ok.inj same).2
  · intro nonnegative
    rw [shutdownServiceByName_registered running named registered nonnegative]

/-- The ids that the allocator gives out are positive. -/
theorem Registered.paths_agree (consistent : Registered s) (running : s.state = .running)
    (registered : s.serviceMap.lookup sid = some agent) :
    shutdownService sid s = shutdownServiceByName agent.name s := by
  have out := (consistent.outstanding sid).mp (by rw [registered]; rfl)
  exact (Uranus.paths_agree running consistent.inverse registered).mpr out.1.1.le

/-- On a running module whose maps are mutually inverse, both paths bring a
registered service with a nonnegative id to the same state, and only those; both
leave the module alone where the id or the name is not registered. -/
theorem shutdown_same_iff_nonnegative (running : s.state = .running)
    (consistent : s.MutuallyInverse) :
    (∀ name sid agent, s.serviceNameMap.lookup name = some sid →
      s.serviceMap.lookup sid = some agent →
        agent.name = name ∧ shutdownService sid s = .ok () (s.shutDown sid agent) ∧
          (shutdownServiceByName name s = .ok () (s.shutDown sid agent) ↔ 0 ≤ sid)) ∧
      (∀ sid, s.serviceMap.lookup sid = none → shutdownService sid s = .ok () s) ∧
        ∀ name, s.serviceNameMap.lookup name = none →
          shutdownServiceByName name s = .ok () s := by
  refine ⟨?_, fun sid => shutdownService_unregistered,
    fun name => shutdownServiceByName_unregistered⟩
  intro name sid agent named registered
  have same : agent.name = name := by
    have back := (consistent name sid).mp named
    rw [serviceNames_some registered] at back
    exact Option.some.inj back
  subst same
  have removed := shutdownService_registered running registered
  refine ⟨rfl, removed, ?_⟩
  rw [← paths_agree running consistent registered, removed]
  exact eq_comm

def soleAgent : UServiceAgent := ⟨0, mailService⟩

/-- A running module with one service. -/
def oneService (sid : Int) : UServiceModule :=
  { UServiceModule.started (IServiceFactory.only mailService) with
    serviceMap := (∅ : Table Int UServiceAgent).insert sid soleAgent
    serviceNameMap := (∅ : Table String Int).insert soleAgent.name sid }

theorem oneService_consistent (sid : Int) : (oneService sid).MutuallyInverse := by
  have empty : Inverse (∅ : Table String Int).lookup (serviceNames ∅) := by
    intro name id
    simp [serviceNames]
  have upTo := empty.upTo (P := fun _ _ => False) (Q := fun _ _ => False)
  simp only [UServiceModule.MutuallyInverse, oneService, serviceNames_insert,
    Table.lookup_insert_update]
  apply (upTo.insert (a := soleAgent.name) (b := sid) _ _).inverse
  · exact fun _ _ => not_false
  · exact fun _ _ => not_false
  · exact AList.lookup_empty _
  · simp [serviceNames]

theorem shutdown_same_iff_nonnegative_one :
    shutdownServiceByName "mail" (oneService 1) = .ok () ((oneService 1).shutDown 1 soleAgent) ∧
      shutdownService 2 (oneService 1) = .ok () (oneService 1) := by
  obtain ⟨agree, byId, -⟩ := shutdown_same_iff_nonnegative (s := oneService 1) rfl
    (oneService_consistent 1)
  exact ⟨(agree "mail" 1 soleAgent rfl rfl).2.2.mpr (by decide), byId 2 rfl⟩

theorem negative_paths_differ :
    (oneService (-1)).state = .running ∧ (oneService (-1)).MutuallyInverse ∧
      (oneService (-1)).serviceNameMap.lookup "mail" = some (-1) ∧
        shutdownService (-1) (oneService (-1)) ≠
          shutdownServiceByName "mail" (oneService (-1)) := by
  refine ⟨rfl, oneService_consistent (-1), rfl, fun same => ?_⟩
  have registered : (oneService (-1)).serviceMap.lookup (-1) = some soleAgent := rfl
  have nonnegative := (paths_agree rfl (oneService_consistent (-1)) registered).mp same
  exact absurd nonnegative (by decide)

end Uranus
