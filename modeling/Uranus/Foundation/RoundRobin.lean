import Uranus.Foundation.Path
import Mathlib.Algebra.Order.Group.Multiset
import Mathlib.Data.Multiset.Filter

/-! Taking turns by a shared counter. A caller takes the value of the counter and raises
it in one operation, loads it again to reduce it, and stores what it has then. A system
realizes the turns where its runs and those of the turns follow each other. -/
namespace Foundation.RoundRobin
open Transition

/-- Where a caller is that has its index. -/
inductive Turn where
  | loading (index : Nat)
  | storing (index value : Nat)
  | holding (index : Nat)
deriving DecidableEq

namespace Turn

def index : Turn → Nat
  | loading index | storing index _ | holding index => index

/-- The caller has yet to store the reduced value. -/
def reducing : Turn → Bool
  | loading _ | storing _ _ => true
  | holding _ => false

end Turn

structure Counter where
  next : Nat
  turns : Multiset Turn

variable {size bound : Nat} {c d : Counter}

/-- What the next operation of a caller leaves, beside the others. -/
def Counter.after (size : Nat) (c : Counter) : Turn → Counter
  | .loading index => ⟨c.next, .storing index (c.next % size) ::ₘ c.turns⟩
  | .storing index value => ⟨value, .holding index ::ₘ c.turns⟩
  | .holding _ => c

inductive Step (size : Nat) : Counter → Counter → Prop where
  | take (c : Counter) : Step size c ⟨c.next + 1, .loading c.next ::ₘ c.turns⟩
  | go (c : Counter) (turn : Turn) : Step size ⟨c.next, turn ::ₘ c.turns⟩ (c.after size turn)

/-- How many callers have yet to store. -/
def overlap (c : Counter) : Nat := c.turns.countP (·.reducing = true)

def InRange (size : Nat) (c : Counter) : Prop := ∀ turn ∈ c.turns, turn.index < size

/-- Where nobody is about to store, the counter is in range, and so is what is stored. -/
structure Ordered (size : Nat) (c : Counter) : Prop where
  inRange : InRange size c
  idle : overlap c = 0 → c.next < size
  stored : ∀ index value, .storing index value ∈ c.turns → value < size

theorem overlap_zero (next : Nat) : overlap ⟨next, 0⟩ = 0 := rfl

theorem overlap_loading (next index : Nat) (turns : Multiset Turn) :
    overlap ⟨next, .loading index ::ₘ turns⟩ = overlap ⟨next, turns⟩ + 1 :=
  Multiset.countP_cons_of_pos turns rfl

theorem overlap_storing (next index value : Nat) (turns : Multiset Turn) :
    overlap ⟨next, .storing index value ::ₘ turns⟩ = overlap ⟨next, turns⟩ + 1 :=
  Multiset.countP_cons_of_pos turns rfl

theorem overlap_holding (next index : Nat) (turns : Multiset Turn) :
    overlap ⟨next, .holding index ::ₘ turns⟩ = overlap ⟨next, turns⟩ :=
  Multiset.countP_cons_of_neg turns (by simp [Turn.reducing])

/-- A caller that is alone between its increment and its store finds the counter in
range, and leaves it there. -/
theorem Ordered.step (ordered : Ordered size c) (step : Step size c d) (single : overlap d ≤ 1)
    (positive : 0 < size) : Ordered size d := by
  obtain ⟨inRange, idle, stored⟩ := ordered
  cases step with
  | take c =>
    rw [overlap_loading] at single
    have below : c.next < size := idle (by
      have same : overlap c = overlap ⟨c.next + 1, c.turns⟩ := rfl
      omega)
    refine ⟨?_, ?_, ?_⟩
    · intro turn member
      rcases Multiset.mem_cons.mp member with rfl | other
      · exact below
      · exact inRange turn other
    · intro none
      rw [overlap_loading] at none
      omega
    · intro index value member
      exact stored index value ((Multiset.mem_cons.mp member).resolve_left (by simp))
  | go c turn =>
    obtain ⟨own, others⟩ := Multiset.forall_mem_cons.mp inRange
    have earlier (index value : Nat) (member : .storing index value ∈ c.turns) : value < size :=
      stored index value (Multiset.mem_cons_of_mem member)
    cases turn with
    | loading index =>
      refine ⟨Multiset.forall_mem_cons.mpr ⟨own, others⟩, ?_, ?_⟩
      · intro none
        rw [Counter.after, overlap_storing] at none
        omega
      · intro other value member
        rcases Multiset.mem_cons.mp member with same | member
        · cases same
          exact Nat.mod_lt _ positive
        · exact earlier other value member
    | storing index value =>
      refine ⟨Multiset.forall_mem_cons.mpr ⟨own, others⟩, ?_, ?_⟩
      · intro _
        exact stored index value (Multiset.mem_cons_self _ _)
      · intro other later member
        exact earlier other later ((Multiset.mem_cons.mp member).resolve_left (by simp))
    | holding index =>
      refine ⟨others, ?_, earlier⟩
      intro none
      apply idle
      rw [overlap_holding]
      exact none

/-- A run of the turns, whose steps have no labels. -/
abbrev Run (size : Nat) : Counter → List (Unit × Counter) → Prop :=
  Path fun c _ d => Step size c d

/-- One caller after another raises the counter up to the last index. -/
theorem exists_run_to {next : Nat} (within : next < size) : ∃ path,
    Run size ⟨0, 0⟩ path ∧ Always (fun c => overlap c ≤ 1) ⟨0, 0⟩ path ∧
      last ⟨0, 0⟩ path = ⟨next, 0⟩ := by
  induction next with
  | zero => exact ⟨[], trivial, Nat.zero_le 1, rfl⟩
  | succ next ih =>
    obtain ⟨path, run, single, ends⟩ := ih (by omega)
    have load : Step size _ _ := .go ⟨next + 1, 0⟩ (.loading next)
    rw [Counter.after, Nat.mod_eq_of_lt within] at load
    refine ⟨path ++ [((), ⟨next + 1, .loading next ::ₘ 0⟩),
      ((), ⟨next + 1, .storing next (next + 1) ::ₘ 0⟩), ((), ⟨next + 1, .holding next ::ₘ 0⟩),
      ((), ⟨next + 1, 0⟩)], ?_, ?_, ?_⟩
    · rw [Run, path_append, ends]
      exact ⟨run, .take ⟨next, 0⟩, load, .go ⟨next + 1, 0⟩ (.storing next (next + 1)),
        .go ⟨next + 1, 0⟩ (.holding next), trivial⟩
    · rw [always_append, ends]
      refine ⟨single, ?_⟩
      simp only [Always, overlap_loading, overlap_storing, overlap_holding, overlap_zero]
      omega
    · rw [last_append]
      rfl

/-- Two callers at the last index take one too many. -/
theorem exists_run_out (positive : 0 < size) : ∃ path,
    Run size ⟨0, 0⟩ path ∧ Always (fun c => overlap c ≤ 2) ⟨0, 0⟩ path ∧
      ¬ InRange size (last ⟨0, 0⟩ path) := by
  obtain ⟨path, run, single, ends⟩ := exists_run_to (Nat.sub_one_lt_of_lt positive)
  refine ⟨path ++ [((), ⟨size - 1 + 1, .loading (size - 1) ::ₘ 0⟩),
    ((), ⟨size - 1 + 1 + 1, .loading (size - 1 + 1) ::ₘ .loading (size - 1) ::ₘ 0⟩)], ?_, ?_, ?_⟩
  · rw [Run, path_append, ends]
    exact ⟨run, .take ⟨size - 1, 0⟩, .take ⟨size - 1 + 1, .loading (size - 1) ::ₘ 0⟩, trivial⟩
  · rw [always_append, ends]
    refine ⟨single.imp fun _ one => by omega, ?_⟩
    simp only [Always, overlap_loading, overlap_zero]
    omega
  · rw [last_append, ends]
    intro inRange
    have below := inRange (.loading (size - 1 + 1)) (by simp [last])
    simp only [Turn.index] at below
    omega

/-- A turn that is shown is that of a call. -/
theorem exists_call {C : Type} {turn : C → Option Turn} {calls : Multiset C} {shown : Turn}
    {turns : Multiset Turn} (whole : calls.filterMap turn = shown ::ₘ turns) :
    ∃ call rest, calls = call ::ₘ rest ∧ turn call = some shown ∧ rest.filterMap turn = turns := by
  have member : shown ∈ calls.filterMap turn := whole ▸ Multiset.mem_cons_self _ _
  obtain ⟨call, pending, shows⟩ := (Multiset.mem_filterMap turn _).mp member
  obtain ⟨rest, rfl⟩ := Multiset.exists_cons_of_mem pending
  rw [Multiset.filterMap_cons_some _ _ _ shows] at whole
  exact ⟨call, rest, rfl, shows, (Multiset.cons_inj_right _).mp whole⟩

section Realizes
variable {S A : Type} {step : S → A → S → Prop} {J R : S → Prop} {view : S → Counter} {s : S}

/-- A run shows nothing up to the last step that it shows. -/
structure Leads (step : S → A → S → Prop) (R : S → Prop) (view : S → Counter) (s : S)
    (d : Counter) (path : List (A × S)) : Prop where
  run : Path step s path
  between : Always (fun t => view t = view s ∨ view t = d) s path
  shows : view (last s path) = d
  ready : R (last s path)

/-- One step is such a run, also after steps that show nothing. -/
theorem Leads.single {t : S} {a : A} {d : Counter} (moved : step s a t) (shows : view t = d)
    (ready : R t) : Leads step R view s d [(a, t)] :=
  ⟨⟨moved, trivial⟩, ⟨.inl rfl, .inr shows⟩, shows, ready⟩

theorem Leads.before {t : S} {a : A} {d : Counter} {path : List (A × S)} (moved : step s a t)
    (hidden : view t = view s) (leads : Leads step R view t d path) :
    Leads step R view s d ((a, t) :: path) :=
  ⟨⟨moved, leads.run⟩, ⟨.inl rfl, by simpa only [hidden] using leads.between⟩, leads.shows,
    leads.ready⟩

/-- In states with `J`, the steps of a system are steps of the turns that it shows, or
show nothing. In states with `R`, every step of the turns is one of its runs. -/
structure Realizes (step : S → A → S → Prop) (size : Nat) (J R : S → Prop)
    (view : S → Counter) : Prop where
  keeps : ∀ {s a t}, J s → step s a t → J t
  forth : ∀ {s a t}, J s → step s a t → view t = view s ∨ Step size (view s) (view t)
  back : ∀ {s d}, R s → Step size (view s) d → ∃ path, Leads step R view s d path

theorem Realizes.ordered (realizes : Realizes step size J R view) (positive : 0 < size)
    {path : List (A × S)} (run : Path step s path) (base : J s) (ordered : Ordered size (view s))
    (single : Always (fun t => overlap (view t) ≤ 1) s path) :
    Always (fun t => Ordered size (view t)) s path := by
  have both : Always (fun t => J t ∧ Ordered size (view t)) s path := by
    refine run.always_through ?_ ⟨base, ordered⟩ single
    intro s a t holds moved one
    refine ⟨realizes.keeps holds.1 moved, ?_⟩
    rcases realizes.forth holds.1 moved with same | turn
    · rw [same]
      exact holds.2
    · exact holds.2.step turn one positive
  exact both.imp fun _ holds => holds.2

/-- A run of the turns is one of the system. -/
theorem Realizes.exists_path (realizes : Realizes step size J R view)
    {turns : List (Unit × Counter)} (run : Run size (view s) turns) (ready : R s)
    (few : Always (fun c => overlap c ≤ bound) (view s) turns) : ∃ path, Path step s path ∧
      Always (fun t => overlap (view t) ≤ bound) s path ∧
      view (last s path) = last (view s) turns := by
  induction turns generalizing s with
  | nil => exact ⟨[], trivial, few, rfl⟩
  | cons entry turns ih =>
    obtain ⟨_, d⟩ := entry
    obtain ⟨first, ran, between, ends, ready⟩ := realizes.back ready run.1
    have onward : Always (fun c => overlap c ≤ bound) (view (last s first)) turns := by
      rw [ends]
      exact few.2
    obtain ⟨second, ran', few', ends'⟩ := ih (by rw [ends]; exact run.2) ready onward
    refine ⟨first ++ second, path_append.mpr ⟨ran, ran'⟩, always_append.mpr ⟨?_, few'⟩, ?_⟩
    · refine between.imp fun t shown => ?_
      rcases shown with same | same
      · rw [same]
        exact few.1
      · rw [same]
        exact few.2.first
    · rw [last_append, ends', ends]
      rfl

/-- Where no two callers overlap, all indices are in range. -/
theorem Realizes.inRange (realizes : Realizes step size J R view) (positive : 0 < size) (base : J s)
    (fresh : view s = ⟨0, 0⟩) {path : List (A × S)} (run : Path step s path)
    (single : Always (fun t => overlap (view t) ≤ 1) s path) :
    Always (fun t => InRange size (view t)) s path := by
  have ordered : Ordered size (view s) := by
    rw [fresh]
    exact ⟨by simp [InRange], fun _ => positive, by simp⟩
  exact (realizes.ordered positive run base ordered single).imp fun _ ordered => ordered.inRange

/-- Where two may overlap, some index is not. -/
theorem Realizes.exists_out (realizes : Realizes step size J R view) (positive : 0 < size)
    (ready : R s) (fresh : view s = ⟨0, 0⟩) (several : 2 ≤ bound) : ∃ path, Path step s path ∧
      Always (fun t => overlap (view t) ≤ bound) s path ∧
      ¬ Always (fun t => InRange size (view t)) s path := by
  obtain ⟨turns, run, few, out⟩ := exists_run_out positive
  rw [← fresh] at run few out
  obtain ⟨path, ran, most, ends⟩ := realizes.exists_path run ready
    (few.imp fun _ two => le_trans two several)
  refine ⟨path, ran, most, fun inRange => ?_⟩
  rw [← ends] at out
  exact out inRange.last

end Realizes
end Foundation.RoundRobin
