import Uranus.Base.RecycleHandle

/-! The recycler and its own lock. On a lock that is not recursive `Recycle`
blocks on itself whenever it reaches its inner scope, which is on every node it
takes back while no shrink timer runs. -/
namespace Uranus
open Foundation Program
variable {E A : Type} {fp : Rounding} {type : RecycleType E} {pool : Recycler E}

namespace Recycler

/-- The calls of a recycler that touch its lock. -/
inductive Call where
  | acquire (outcome : Nat → Creation)
  | recycle (pointer : Option NodeId)
  | shrink
  | getIdle
  | getCapacity

/-- A call without the value it returns. -/
def discard (program : RecyclerM E A) : RecyclerM E Unit := program >>= fun _ => pure ()

def Call.run (fp : Rounding) (type : RecycleType E) : Call → RecyclerM E Unit
  | .acquire outcome => discard (acquireNode fp .nonRecursive type outcome)
  | .recycle pointer => Recycler.recycle .nonRecursive pointer
  | .shrink => Recycler.shrink fp .nonRecursive
  | .getIdle => discard (Recycler.getIdle .nonRecursive)
  | .getCapacity => discard (Recycler.getCapacity .nonRecursive)

/-- The call comes back and the lock is free then. -/
def Completes (program : RecyclerM E A) (pool : Recycler E) : Prop :=
  ∃ later, Program.Ends program pool later ∧ later.held = []

/-- The state in which a call comes back. `Recycle` needs the shrink timer to
run, and the others need the nodes they meet in the queue to exist. -/
def Call.Clear (fp : Rounding) (pool : Recycler E) : Call → Prop
  | .acquire _ => pool.usage < 0 ∨ pool.queue = [] ∨
    ∃ id rest node, pool.queue = some id :: rest ∧ pool.nodes.lookup id = some node
  | .recycle pointer => pool.usage < 0 ∨ pointer = none ∨
    pool.shrinking = true ∧ ∃ id node, pointer = some id ∧ pool.nodes.lookup id = some node
  | .shrink => pool.usage < 0 ∨ Destroyable pool (pool.queue.take (shrinkNum fp pool))
  | .getIdle | .getCapacity => True

/-- The state in which a call requests the lock that it holds. -/
def Call.Blocks (pool : Recycler E) : Call → Prop
  | .recycle pointer => 0 ≤ pool.usage ∧ pool.shrinking = false ∧
    ∃ id node, pointer = some id ∧ pool.nodes.lookup id = some node
  | _ => False

theorem completes_ok {program : RecyclerM E A} {value : A} {later : Recycler E}
    (ran : program pool = .ok value later) (free : later.held = []) : Completes program pool :=
  ⟨later, .inl ⟨value, ran⟩, free⟩

theorem completes_exception {program : RecyclerM E A} {what : String} {later : Recycler E}
    (ran : program pool = .error (.exception what) later) (free : later.held = []) :
    Completes program pool :=
  ⟨later, .inr ⟨what, ran⟩, free⟩

theorem not_completes {program : RecyclerM E A} {fault : Fault} {later : Recycler E}
    (ran : program pool = .error fault later) (fatal : ∀ what, fault ≠ .exception what) :
    ¬ Completes program pool := by
  rintro ⟨_, ends, -⟩
  obtain ⟨what, wrong⟩ := ends.of_fault ran
  exact fatal what wrong

theorem discard_ok {program : RecyclerM E A} {value : A} {later : Recycler E}
    (ran : program pool = .ok value later) : discard program pool = .ok () later :=
  bind_ok ran _

theorem discard_error {program : RecyclerM E A} {fault : Fault} {later : Recycler E}
    (ran : program pool = .error fault later) : discard program pool = .error fault later :=
  bind_error ran _

/-- How a call stands to the lock: it comes back with the lock free, it blocks
on its own lock, or it fails on a null or destroyed node of the queue. -/
def Settles (program : RecyclerM E A) (pool : Recycler E) (clear blocks : Prop) : Prop :=
  (Completes program pool ↔ clear) ∧ ((∃ later, program pool = .error .selfLock later) ↔ blocks)

theorem settles_clear {program : RecyclerM E A} {clear blocks : Prop}
    (completes : Completes program pool) (holds : clear) (never : ¬ blocks) :
    Settles program pool clear blocks := by
  constructor
  · exact iff_of_true completes holds
  · apply iff_of_false _ never
    rintro ⟨later, ran⟩
    exact not_completes ran (by simp) completes

theorem settles_undefined {program : RecyclerM E A} {clear blocks : Prop} {later : Recycler E}
    (ran : program pool = .error .undefined later) (fails : ¬ clear) (never : ¬ blocks) :
    Settles program pool clear blocks := by
  constructor
  · exact iff_of_false (not_completes ran (by simp)) fails
  · apply iff_of_false _ never
    rintro ⟨other, locked⟩
    cases ran.symm.trans locked

theorem settles_locked {program : RecyclerM E A} {clear blocks : Prop} {later : Recycler E}
    (ran : program pool = .error .selfLock later) (fails : ¬ clear) (holds : blocks) :
    Settles program pool clear blocks :=
  ⟨iff_of_false (not_completes ran (by simp)) fails, iff_of_true ⟨later, ran⟩ holds⟩

theorem acquire_settles (outcome : Nat → Creation) (free : pool.held = []) :
    Settles ((Call.acquire outcome).run fp type) pool ((Call.acquire outcome).Clear fp pool)
      ((Call.acquire outcome).Blocks pool) := by
  have acquisition := acquireNode_cases fp .nonRecursive type outcome free
  generalize ran : acquireNode fp .nonRecursive type outcome pool = result at acquisition
  cases acquisition with
  | uninitialised idle =>
    exact settles_clear (completes_exception (discard_error ran) free) (.inl idle) id
  | front ready queue alive idle =>
    exact settles_clear (completes_ok (discard_ok ran) free)
      (.inr (.inr ⟨_, _, _, queue, alive⟩)) id
  | used ready queue alive used =>
    exact settles_clear (completes_exception (discard_error ran) free)
      (.inr (.inr ⟨_, _, _, queue, alive⟩)) id
  | broken ready queue dead =>
    have fails : ¬ (Call.acquire outcome).Clear fp pool := by
      rintro (idle | empty | ⟨id, rest, node, front, alive⟩)
      · exact absurd ready idle.not_ge
      · cases queue.symm.trans empty
      · cases queue.symm.trans front
        cases (dead id rfl).symm.trans alive
    exact settles_undefined (discard_error ran) fails id
  | unused ready empty none =>
    exact settles_clear (completes_exception (discard_error ran) free) (.inr (.inl empty)) id
  | notCreated what ready empty some grown early =>
    have held := grown.held.trans free
    exact settles_clear (completes_exception (discard_error ran) held) (.inr (.inl empty)) id
  | expanded ready empty several first grown nulls perm alive =>
    have held := grown.held.trans free
    exact settles_clear (completes_ok (discard_ok ran) held) (.inr (.inl empty)) id

theorem recycle_settles (pointer : Option NodeId) (free : pool.held = []) :
    Settles ((Call.recycle pointer).run fp type) pool ((Call.recycle pointer).Clear fp pool)
      ((Call.recycle pointer).Blocks pool) := by
  by_cases idle : pool.usage < 0
  · apply settles_clear (completes_exception (recycle_uninitialised idle pointer) free) (.inl idle)
    intro blocks
    exact absurd idle blocks.1.not_gt
  have ready : 0 ≤ pool.usage := not_lt.mp idle
  cases pointer with
  | none =>
    apply settles_clear (completes_ok (recycle_null ready) free) (.inr (.inl rfl))
    simp [Call.Blocks]
  | some id =>
    cases alive : pool.nodes.lookup id with
    | none =>
      apply settles_undefined (recycle_dead ready alive)
      · simp [Call.Clear, idle, alive]
      · simp [Call.Blocks, alive]
    | some node =>
      cases shrinking : pool.shrinking with
      | true =>
        apply settles_clear (completes_ok (recycle_shrinking free ready alive shrinking) free)
          (.inr (.inr ⟨shrinking, id, node, rfl, alive⟩))
        simp [Call.Blocks, shrinking]
      | false =>
        have fails : ¬ (Call.recycle (some id)).Clear fp pool := by
          simp [Call.Clear, idle, shrinking]
        exact settles_locked (recycle_nonRecursive free ready alive shrinking) fails
          ⟨ready, shrinking, id, node, rfl, alive⟩

theorem shrink_settles (free : pool.held = []) :
    Settles (Call.shrink.run fp type) pool (Call.shrink.Clear fp pool)
      (Call.shrink.Blocks pool) := by
  have shrinking := shrink_cases fp .nonRecursive free
  generalize ran : shrink fp .nonRecursive pool = result at shrinking
  cases shrinking with
  | uninitialised idle => exact settles_clear (completes_exception ran free) (.inl idle) id
  | @popped ids later ready popped split =>
    have still : later.held = [] := by
      rw [popped.frame]
      exact free
    have whole : Destroyable pool (pool.queue.take (shrinkNum fp pool)) := by
      rw [split]
      exact popped.destroyable
    exact settles_clear (completes_ok ran still) (.inr whole) id
  | broken ready broken =>
    have fails : ¬ Call.shrink.Clear fp pool := by
      rintro (idle | whole)
      · exact absurd ready idle.not_ge
      · exact broken whole
    exact settles_undefined ran fails id

theorem getter_settles {program : RecyclerM E Nat} {value : Nat} (free : pool.held = [])
    (ran : program pool = .ok value pool) : Settles (discard program) pool True False :=
  settles_clear (completes_ok (discard_ok ran) free) trivial id

/-- Over every state of a recycler whose lock is free, and for each of its calls:
the call comes back with the lock free if and only if the state is clear for it,
and `Recycle` is the call that requests the lock it holds. -/
theorem call_settles (fp : Rounding) (type : RecycleType E) (call : Call) (free : pool.held = []) :
    (Completes (call.run fp type) pool ↔ call.Clear fp pool) ∧
    ((∃ later, call.run fp type pool = .error .selfLock later) ↔ call.Blocks pool) := by
  cases call with
  | acquire outcome => exact acquire_settles outcome free
  | recycle pointer => exact recycle_settles pointer free
  | shrink => exact shrink_settles free
  | getIdle =>
    by_cases idle : pool.usage < 0
    · exact getter_settles free (getIdle_uninitialised idle)
    · exact getter_settles free (getIdle_free free (not_lt.mp idle))
  | getCapacity =>
    by_cases idle : pool.usage < 0
    · exact getter_settles free (getCapacity_uninitialised idle)
    · exact getter_settles free (getCapacity_free free (not_lt.mp idle))

/-- A recycler of one node, initialised, and the node acquired. -/
def firstUse : RecyclerM Unit (Option NodeId) := do
  initial unitType (fun _ => .made) 1
  acquireNode .exact .nonRecursive unitType fun _ => .made

def inUse : Recycler Unit :=
  match firstUse Recycler.new with
  | .ok _ pool | .error _ pool => pool

/-- Releasing the first node that was ever acquired blocks. -/
theorem recycle_blocks : firstUse Recycler.new = .ok (some 0) inUse ∧ inUse.held = [] ∧
    (∃ later, recycle .nonRecursive (some 0) inUse = .error .selfLock later) ∧
    ¬ Completes (recycle .nonRecursive (some 0)) inUse := by
  refine ⟨rfl, rfl, ⟨_, rfl⟩, ?_⟩
  rintro ⟨later, ⟨value, wrong⟩ | ⟨what, wrong⟩, -⟩
  · cases wrong
  · cases wrong

theorem call_settles_inUse :
    (Completes ((Call.recycle (some 0)).run .exact unitType) inUse ↔
      (Call.recycle (some 0)).Clear .exact inUse) ∧
    ((∃ later, (Call.recycle (some 0)).run .exact unitType inUse = .error .selfLock later) ↔
      (Call.recycle (some 0)).Blocks inUse) :=
  call_settles .exact unitType (.recycle (some 0)) rfl

end Recycler
end Uranus
