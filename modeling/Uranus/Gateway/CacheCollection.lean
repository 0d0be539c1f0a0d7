import Uranus.Gateway.Gateway

/-! One pass of the loop that ages the cache: first every node that is too old
goes, then the iteration over the hash map erases what is too much. -/
namespace Uranus
open Foundation Program
variable {s : UGateway} {point keepSec : Int} {maxSize : Int32} {order : List Int64}

abbrev CachedMap := Table Int64 FCachedNode

/-- A node that is at most `keepSec` old at the tick. -/
def FCachedNode.Fresh (point keepSec : Int) (node : FCachedNode) : Prop :=
  point - node.timepoint ≤ keepSec * 1000000000

instance (point keepSec : Int) : DecidablePred (FCachedNode.Fresh point keepSec) := fun node =>
  inferInstanceAs (Decidable (point - node.timepoint ≤ keepSec * 1000000000))

/-- The first phase. -/
def dropStale (point keepSec : Int) (cachedMap : CachedMap) : CachedMap :=
  Table.eraseIf (fun _ node => point - node.timepoint > keepSec * 1000000000) cachedMap

/-- The loop of the second phase; the list is what the iterator has before it. -/
def eraseLoop (del : Nat) (cachedMap : CachedMap) : List Int64 → CachedMap
  | [] => cachedMap
  | pid :: rest => if del > 0 then eraseLoop (del - 1) (cachedMap.erase pid) rest else cachedMap

/-- The second phase. The signed limit is converted where it meets the size. -/
def dropExcess (maxSize : Int32) (order : List Int64) (cachedMap : CachedMap) : CachedMap :=
  if cachedMap.size > maxSize.toInt64.toUInt64.toNat then
    eraseLoop (cachedMap.size - maxSize.toInt64.toUInt64.toNat) cachedMap order
  else cachedMap

def collectPass (point keepSec : Int) (maxSize : Int32) (order : List Int64) : GatewayM Unit :=
  modify fun s =>
    { s with cachedMap := dropExcess maxSize order (dropStale point keepSec s.cachedMap) }

/-- The order of an iteration: every key of the map once. -/
def Traverses (order : List Int64) (cachedMap : CachedMap) : Prop :=
  order.Perm cachedMap.keys

/-- The number of entries that are fresh. -/
def freshCount (point keepSec : Int) (cachedMap : CachedMap) : Nat :=
  cachedMap.entries.countP fun entry => entry.2.Fresh point keepSec

section
variable {cachedMap : CachedMap}

theorem Traverses.nodup (traverses : Traverses order cachedMap) : order.Nodup :=
  traverses.nodup_iff.mpr cachedMap.nodupKeys

theorem Traverses.lookup (traverses : Traverses order cachedMap) {pid : Int64}
    (member : pid ∈ order) : cachedMap.lookup pid ≠ none := by
  rw [← Option.isSome_iff_ne_none, AList.lookup_isSome]
  exact traverses.mem_iff.mp member

theorem Traverses.length (traverses : Traverses order cachedMap) :
    order.length = cachedMap.size := by
  rw [traverses.length_eq]
  exact List.length_map _

/-- The loop erases the first keys of the iteration, as many as it has to. -/
theorem eraseLoop_take (del : Nat) (cachedMap : CachedMap) (order : List Int64) :
    eraseLoop del cachedMap order =
      (order.take del).foldl (fun map pid => map.erase pid) cachedMap := by
  induction order generalizing del cachedMap with
  | nil => simp [eraseLoop]
  | cons pid rest ih =>
    cases del with
    | zero => simp [eraseLoop]
    | succ del => simp [eraseLoop, ih]

theorem eraseLoop_zero (cachedMap : CachedMap) (order : List Int64) :
    eraseLoop 0 cachedMap order = cachedMap := by
  rw [eraseLoop_take, List.take_zero, List.foldl_nil]

/-- A limit that is not exceeded leaves nothing to erase. -/
theorem dropExcess_loop (maxSize : Int32) (order : List Int64) (cachedMap : CachedMap) :
    dropExcess maxSize order cachedMap =
      eraseLoop (cachedMap.size - maxSize.toInt64.toUInt64.toNat) cachedMap order := by
  unfold dropExcess
  split
  · rfl
  next within => rw [Nat.sub_eq_zero_of_le (Nat.not_lt.mp within), eraseLoop_zero]

/-- In the order of an iteration the pass is the collection of the model. -/
theorem collectPass_eq (traverses : Traverses order (dropStale point keepSec s.cachedMap)) :
    collectPass point keepSec maxSize order s =
      collectCachedPlayer point keepSec maxSize order s := by
  have present : order.filter
      (fun pid => ((dropStale point keepSec s.cachedMap).lookup pid).isSome) = order := by
    rw [List.filter_eq_self]
    exact fun pid member => Option.isSome_iff_ne_none.mpr (traverses.lookup member)
  simp only [collectPass, collectCachedPlayer, modify_apply, dropExcess_loop, eraseLoop_take]
  rw [← dropStale, present]

theorem lookup_dropStale {pid : Int64} {node : FCachedNode} :
    (dropStale point keepSec cachedMap).lookup pid = some node ↔
      cachedMap.lookup pid = some node ∧ node.Fresh point keepSec := by
  rw [dropStale, Table.lookup_eraseIf_iff, decide_eq_false_iff_not, Int.not_lt]
  rfl

theorem size_dropStale : (dropStale point keepSec cachedMap).size =
    freshCount point keepSec cachedMap := by
  rw [freshCount, List.countP_eq_length_filter]
  apply congrArg List.length
  apply List.filter_congr
  intro entry _
  rw [← decide_not]
  exact decide_eq_decide.mpr Int.not_lt

theorem toNat_of_nonneg (nonneg : 0 ≤ maxSize.toInt) :
    maxSize.toInt64.toUInt64.toNat = maxSize.toInt.toNat := by
  have widened : 0 ≤ maxSize.toInt64 := by
    rw [Int64.le_iff_toInt_le, Int32.toInt_toInt64]
    exact nonneg
  rw [Int64.toNat_toUInt64_of_le widened, Int32.toNatClampNeg_toInt64]
  rfl

end

/-- What one pass leaves of a cache. -/
structure Collected (point keepSec : Int) (maxSize : Nat) (before after : CachedMap) : Prop where
  kept : ∀ pid node, after.lookup pid = some node →
    before.lookup pid = some node ∧ node.Fresh point keepSec
  size : after.size = min maxSize (freshCount point keepSec before)
  spared : freshCount point keepSec before ≤ maxSize → ∀ pid node,
    before.lookup pid = some node → node.Fresh point keepSec → after.lookup pid = some node

/-- Any keys of the iteration may go, as long as they are as many as the excess. -/
theorem collected_take {cachedMap : CachedMap} {limit : Nat}
    (traverses : Traverses order (dropStale point keepSec cachedMap)) :
    Collected point keepSec limit cachedMap
      (eraseLoop ((dropStale point keepSec cachedMap).size - limit)
        (dropStale point keepSec cachedMap) order) := by
  rw [eraseLoop_take, size_dropStale]
  constructor
  · intro pid node kept
    rw [Table.lookup_eraseAll_ite] at kept
    split at kept
    · cases kept
    · exact lookup_dropStale.mp kept
  · have distinct (n : Nat) := traverses.nodup.sublist (List.take_sublist n order)
    have present (n : Nat) (pid : Int64) (member : pid ∈ order.take n) :
        (dropStale point keepSec cachedMap).lookup pid ≠ none :=
      traverses.lookup (List.mem_of_mem_take member)
    rw [Table.size_eraseAll (distinct _) (present _), List.length_take, traverses.length,
      size_dropStale]
    omega
  · intro within pid node found fresh
    rw [Nat.sub_eq_zero_of_le within, List.take_zero, List.foldl_nil]
    exact lookup_dropStale.mpr ⟨found, fresh⟩

/-- One pass, in whatever order the hash map is iterated. -/
theorem collectPass_collects (nonneg : 0 ≤ maxSize.toInt)
    (traverses : Traverses order (dropStale point keepSec s.cachedMap)) :
    ∃ after, collectPass point keepSec maxSize order s = .ok () { s with cachedMap := after } ∧
      Collected point keepSec maxSize.toInt.toNat s.cachedMap after := by
  refine ⟨_, modify_apply _ s, ?_⟩
  rw [dropExcess_loop, toNat_of_nonneg nonneg]
  exact collected_take traverses

/-- Players 1, 2 and 3 are cached, player 1 for too long. -/
def cachedThree : UGateway where
  state := .running
  agentMap := ∅
  playerMap := ∅
  cachedMap := (((∅ : CachedMap).insert 1 ⟨some ⟨0, 1, none⟩, 0⟩).insert 2
    ⟨some ⟨1, 2, none⟩, 1000000000⟩).insert 3 ⟨some ⟨2, 3, none⟩, 2000000000⟩
  agents := ∅
  nextAgent := 3
  nextPlayer := 3
  login := none

/-- A limit of one, and an iteration that finds player 3 first. -/
theorem collectPass_collects_one :
    ∃ after, collectPass 3000000000 2 1 [3, 2] cachedThree =
        .ok () { cachedThree with cachedMap := after } ∧
      Collected 3000000000 2 1 cachedThree.cachedMap after :=
  collectPass_collects (by decide) (by unfold Traverses; decide)

end Uranus
