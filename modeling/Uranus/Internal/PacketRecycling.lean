import Uranus.Base.Reacquisition
import Uranus.Internal.PacketCodec

/-! Packets of a pool. `Recycle` calls no hook of the packet and `Initial` sets
three header fields, so the magic, the stated length and the payload of a packet
pass from one owner to the next. -/
namespace Uranus
open Foundation Program

def packetType : RecycleType FPacket where
  construct := FPacket.new
  onCreate := FPacket.onCreate
  initial := FPacket.initial
  clear := FPacket.clear
  isA target := target ∈ ["FPacket", "IPackage_Interface", "IRecycle_Interface"]

namespace FPacket

/-- A packet acquired for the first time. -/
def neverUsed : FPacket := initial (onCreate new)

example : neverUsed = ⟨⟨packetMagic, minimumPackageId - 1, -1, -1, 0⟩, ⟨[]⟩⟩ := rfl

/-- What an owner can do to a packet. -/
inductive Use where
  | setMagic (magic : UInt32)
  | setPackageID (id : UInt32)
  | setSource (source : Int32)
  | setTarget (target : Int32)
  | setData (str : List UInt8)
  | copyFrom (other : Option FPacket)
  | rawRef (edit : List UInt8 → List UInt8)
  | decodeT (stream : List UInt8)

def Use.apply : Use → FPacket → FPacket
  | .setMagic magic, pkt => pkt.setMagic magic
  | .setPackageID id, pkt => pkt.setPackageID id
  | .setSource source, pkt => pkt.setSource source
  | .setTarget target, pkt => pkt.setTarget target
  | .setData str, pkt => pkt.setData str
  | .copyFrom other, pkt => (pkt.copyFrom other).1
  | .rawRef edit, pkt => pkt.rawRef edit
  | .decodeT stream, pkt => (Uranus.decodeT pkt stream).2.1

/-- Nothing that `Initial` leaves alone differs from a new packet. -/
def Clean (pkt : FPacket) : Prop :=
  pkt.header.magic = packetMagic ∧ pkt.header.length = 0 ∧ pkt.payload.bytes = []

theorem initial_neverUsed_iff (pkt : FPacket) : pkt.initial = neverUsed ↔ pkt.Clean := by
  obtain ⟨⟨magic, id, source, target, length⟩, ⟨bytes⟩⟩ := pkt
  simp [initial, neverUsed, onCreate, setMagic, new, Clean, and_assoc]

end FPacket

namespace World

/-- The owner's use of a packet, through one of its handles. -/
def usePacket (this : HandleId) (use : FPacket.Use) : Label FPacket := .edit this use.apply

/-- Over every run: a packet is released by its last handle, stays idle and is
acquired again. It is then like a packet that was never used if and only if it
was released clean. -/
theorem reacquired_neverUsed_iff (fp : Rounding) (discipline : Discipline)
    {before between : List (Label FPacket × World FPacket)} {release acquire : Label FPacket}
    {u t : World FPacket} {id : NodeId} {node : ElementNode FPacket}
    (run : Transition.Path (World.step fp discipline packetType) World.new
      (before ++ (release, u) :: (between ++ [(acquire, t)])))
    (alive : (Transition.last World.new before).pool.nodes.lookup id = some node)
    (used : id ∈ (Transition.last World.new before).refs) (released : id ∉ u.refs)
    (idle : Transition.Always (fun v => id ∉ v.refs) u between) (reacquired : id ∈ t.refs) :
    t.pool.nodes.lookup id = some ⟨1, FPacket.neverUsed⟩ ↔ node.element.Clean := by
  rw [reacquired_element run alive used released idle reacquired, Option.some.injEq,
    ElementNode.mk.injEq, and_iff_right rfl]
  exact FPacket.initial_neverUsed_iff node.element

def leakBefore : List (Label FPacket × World FPacket) :=
  Transition.trace (World.next .exact .granted packetType) World.new
    [.initial (fun _ => .made) 1, .acquire 0 "FPacket" fun _ => .made,
      usePacket 0 (.rawRef fun _ => [42])]

def leakReleased : World FPacket :=
  Transition.last World.new (leakBefore ++ Transition.trace (World.next .exact .granted packetType)
    (Transition.last World.new leakBefore) [.destruct 0])

def leakReacquired : World FPacket :=
  Transition.last leakReleased (Transition.trace (World.next .exact .granted packetType)
    leakReleased [.acquire 1 "FPacket" fun _ => .made])

theorem leak_run : Transition.Path (World.step .exact .granted packetType) World.new
    (leakBefore ++ (.destruct 0, leakReleased) ::
      ([] ++ [(.acquire 1 "FPacket" fun _ => .made, leakReacquired)])) := by
  refine Transition.path_append.mpr ⟨Transition.trace_path World.next_step _, ?_, ?_, trivial⟩
  · exact World.next_step rfl
  · exact World.next_step rfl

/-- The second owner of the packet reads the byte of the first. -/
theorem reacquired_leak :
    Transition.Path (World.step .exact .granted packetType) World.new
      (leakBefore ++ (.destruct 0, leakReleased) ::
        ([] ++ [(.acquire 1 "FPacket" fun _ => .made, leakReacquired)])) ∧
    (0 : NodeId) ∈ (Transition.last World.new leakBefore).refs ∧ (0 : NodeId) ∉ leakReleased.refs ∧
    (0 : NodeId) ∈ leakReacquired.refs ∧
    leakReacquired.pool.nodes.lookup 0 ≠ some ⟨1, FPacket.neverUsed⟩ ∧
    leakReacquired.pool.nodes.lookup 0 =
      some ⟨1, { FPacket.neverUsed with payload := ⟨[42]⟩ }⟩ := by
  refine ⟨leak_run, ?_, ?_, ?_, ?_, ?_⟩ <;> decide +kernel

theorem reacquired_neverUsed_iff_leak :
    leakReacquired.pool.nodes.lookup 0 = some ⟨1, FPacket.neverUsed⟩ ↔
      FPacket.Clean { FPacket.neverUsed with payload := ⟨[42]⟩ } := by
  have alive : (Transition.last World.new leakBefore).pool.nodes.lookup 0 =
      some ⟨1, { FPacket.neverUsed with payload := ⟨[42]⟩ }⟩ := by decide +kernel
  have released : (0 : NodeId) ∉ leakReleased.refs := by decide +kernel
  exact reacquired_neverUsed_iff .exact .granted leak_run alive (by decide +kernel) released
    released (by decide +kernel)

end World
end Uranus
