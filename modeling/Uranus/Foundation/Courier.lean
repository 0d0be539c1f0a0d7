import Mathlib.Data.List.Basic
import Mathlib.Logic.Function.Basic
import Uranus.Foundation.Path

/-! Errands that senders ask for. Each is on its way until it is dropped or leaves
one parcel in one box, and any number of them interleave. A box may also get
entries that are nobody's errand. -/
namespace Foundation
variable {Sender Body Box : Type} [DecidableEq Box]

/-- What is left in a box, with the number of its errand. -/
structure Parcel (Sender Body : Type) where
  number : Nat
  sender : Sender
  body : Body
deriving DecidableEq, Repr

@[ext] structure Courier (Sender Body Box : Type) where
  asked : List (Sender × Body)
  underway : Nat → Option (Sender × Body)
  boxes : Box → List (Option (Parcel Sender Body))

namespace Courier
variable {c d : Courier Sender Body Box} {label : Option (Sender × Body)}

/-- An errand ends. -/
def settle (n : Nat) (c : Courier Sender Body Box) : Courier Sender Body Box :=
  { c with underway := Function.update c.underway n none }

def put (box : Box) (entry : Option (Parcel Sender Body)) (c : Courier Sender Body Box) :
    Courier Sender Body Box :=
  { c with boxes := Function.update c.boxes box (c.boxes box ++ [entry]) }

/-- The label is the errand that the step begins, if it begins one. -/
inductive Step (c : Courier Sender Body Box) :
    Option (Sender × Body) → Courier Sender Body Box → Prop where
  | ask (errand : Sender × Body) : Step c (some errand)
      { c with
        asked := c.asked ++ [errand]
        underway := Function.update c.underway c.asked.length (some errand) }
  | idle : Step c none c
  | drop (n : Nat) : Step c none (c.settle n)
  | deliver {n : Nat} {sender : Sender} {body : Body} (box : Box)
      (underway : c.underway n = some (sender, body)) :
      Step c none ((c.put box (some ⟨n, sender, body⟩)).settle n)
  | other (box : Box) : Step c none (c.put box none)

/-- Every errand under way and every parcel is one that was asked for, and no
errand has left two of them. -/
structure Genuine (c : Courier Sender Body Box) : Prop where
  asking : ∀ n errand, c.underway n = some errand → c.asked[n]? = some errand
  asked : ∀ box parcel, some parcel ∈ c.boxes box →
    c.asked[parcel.number]? = some (parcel.sender, parcel.body)
  settled : ∀ box parcel, some parcel ∈ c.boxes box → c.underway parcel.number = none
  single : ∀ (box box' : Box) (i j : Nat) (parcel other : Parcel Sender Body),
    (c.boxes box)[i]? = some (some parcel) → (c.boxes box')[j]? = some (some other) →
      parcel.number = other.number → box = box' ∧ i = j

theorem mem_put {box box' : Box} {entry : Option (Parcel Sender Body)}
    {parcel : Parcel Sender Body} (held : some parcel ∈ (c.put box entry).boxes box') :
    some parcel ∈ c.boxes box' ∨ entry = some parcel := by
  simp only [put, Function.update_apply] at held
  split at held
  next same =>
    subst same
    rcases List.mem_append.mp held with before | last
    · exact .inl before
    · exact .inr (List.mem_singleton.mp last).symm
  next => exact .inl held

/-- An entry of a box after one more has come into some box. -/
theorem getElem_put {box box' : Box} {entry : Option (Parcel Sender Body)} {i : Nat}
    {parcel : Parcel Sender Body} (held : ((c.put box entry).boxes box')[i]? = some (some parcel)) :
    (c.boxes box')[i]? = some (some parcel) ∨
      box' = box ∧ i = (c.boxes box).length ∧ entry = some parcel := by
  simp only [put, Function.update_apply] at held
  split at held
  next same =>
    subst same
    rw [List.getElem?_append] at held
    split at held
    next => exact .inl held
    next beyond =>
      rw [List.getElem?_singleton] at held
      split at held
      next first =>
        cases held
        exact .inr ⟨rfl, by omega, rfl⟩
      next => cases held
  next => exact .inl held

omit [DecidableEq Box] in
theorem Genuine.initial : Genuine (⟨[], fun _ => none, fun _ => []⟩ : Courier Sender Body Box) := by
  constructor
  · intro n errand underway
    cases underway
  · intro box parcel held
    cases held
  · intro box parcel held
    cases held
  · intro box box' i j parcel other held
    cases held

omit [DecidableEq Box] in
theorem Genuine.ask (genuine : Genuine c) (errand : Sender × Body) : Genuine
    { c with
      asked := c.asked ++ [errand]
      underway := Function.update c.underway c.asked.length (some errand) } := by
  have kept {n : Nat} {found : Sender × Body} (before : c.asked[n]? = some found) :
      (c.asked ++ [errand])[n]? = some found := by
    obtain ⟨below, -⟩ := List.getElem?_eq_some_iff.mp before
    rw [List.getElem?_append_left below, before]
  constructor
  · intro n found underway
    simp only [Function.update_apply] at underway
    split at underway
    next same =>
      subst same
      simpa using underway
    next => exact kept (genuine.asking n found underway)
  · intro box parcel held
    exact kept (genuine.asked box parcel held)
  · intro box parcel held
    obtain ⟨below, -⟩ := List.getElem?_eq_some_iff.mp (genuine.asked box parcel held)
    simp only [Function.update_apply]
    rw [if_neg (by omega)]
    exact genuine.settled box parcel held
  · exact genuine.single

omit [DecidableEq Box] in
theorem Genuine.settle (genuine : Genuine c) (n : Nat) : Genuine (c.settle n) := by
  constructor
  · intro m errand underway
    simp only [Courier.settle, Function.update_apply] at underway
    split at underway
    · cases underway
    · exact genuine.asking m errand underway
  · exact genuine.asked
  · intro box parcel held
    simp only [Courier.settle, Function.update_apply]
    split
    · rfl
    · exact genuine.settled box parcel held
  · exact genuine.single

theorem Genuine.other (genuine : Genuine c) (box : Box) : Genuine (c.put box none) := by
  constructor
  · exact genuine.asking
  · intro box' parcel held
    rcases mem_put held with before | last
    · exact genuine.asked box' parcel before
    · cases last
  · intro box' parcel held
    rcases mem_put held with before | last
    · exact genuine.settled box' parcel before
    · cases last
  · intro one two i j parcel other held held' same
    rcases getElem_put held with before | ⟨-, -, last⟩
    · rcases getElem_put held' with before' | ⟨-, -, last⟩
      · exact genuine.single one two i j parcel other before before' same
      · cases last
    · cases last

/-- The parcel of an errand under way is the only one of its number. -/
theorem Genuine.deliver (genuine : Genuine c) {n : Nat} {sender : Sender} {body : Body} (box : Box)
    (underway : c.underway n = some (sender, body)) :
    Genuine ((c.put box (some ⟨n, sender, body⟩)).settle n) := by
  have unused {box' : Box} {i : Nat} {parcel : Parcel Sender Body}
      (held : (c.boxes box')[i]? = some (some parcel)) : parcel.number ≠ n := by
    intro same
    have ended := genuine.settled box' parcel (List.mem_of_getElem? held)
    rw [same, underway] at ended
    cases ended
  constructor
  · intro m errand on
    simp only [Courier.settle, Courier.put, Function.update_apply] at on
    split at on
    · cases on
    · exact genuine.asking m errand on
  · intro box' parcel held
    rcases mem_put held with before | last
    · exact genuine.asked box' parcel before
    · cases last
      exact genuine.asking n _ underway
  · intro box' parcel held
    simp only [Courier.settle, Courier.put, Function.update_apply]
    split
    · rfl
    next other =>
      rcases mem_put held with before | last
      · exact genuine.settled box' parcel before
      · cases last
        exact absurd rfl other
  · intro one two i j parcel other held held' same
    rcases getElem_put held with before | ⟨rfl, rfl, last⟩
    · rcases getElem_put held' with before' | ⟨rfl, rfl, last⟩
      · exact genuine.single one two i j parcel other before before' same
      · cases last
        exact absurd same (unused before)
    · rcases getElem_put held' with before' | ⟨rfl, rfl, last'⟩
      · cases last
        exact absurd same.symm (unused before')
      · exact ⟨rfl, rfl⟩

theorem Genuine.step (genuine : Genuine c) (moved : Step c label d) : Genuine d := by
  cases moved with
  | ask errand => exact genuine.ask errand
  | idle => exact genuine
  | drop n => exact genuine.settle n
  | deliver box underway => exact genuine.deliver box underway
  | other box => exact genuine.other box

/-- The one who asks has no other errand under way. -/
def Sequential (c : Courier Sender Body Box) : Option (Sender × Body) → Prop
  | some errand => ∀ n other, c.underway n = some other → other.1 ≠ errand.1
  | none => True

/-- A sender has one errand under way at most, later than all the parcels it has
sent, and those are in every box in the order in which it asked. -/
structure Ordered (c : Courier Sender Body Box) : Prop where
  alone : ∀ m n errand other, c.underway m = some errand → c.underway n = some other →
    errand.1 = other.1 → m = n
  later : ∀ box parcel, some parcel ∈ c.boxes box → ∀ n errand, c.underway n = some errand →
    errand.1 = parcel.sender → parcel.number < n
  sorted : ∀ box, ((c.boxes box).filterMap id).Pairwise fun first second =>
    first.sender = second.sender → first.number < second.number

omit [DecidableEq Box] in
theorem Ordered.initial : Ordered (⟨[], fun _ => none, fun _ => []⟩ : Courier Sender Body Box) := by
  constructor
  · intro m n errand other on
    cases on
  · intro box parcel held
    cases held
  · intro box
    exact List.Pairwise.nil

omit [DecidableEq Box] in
theorem Ordered.ask (ordered : Ordered c) (genuine : Genuine c) {errand : Sender × Body}
    (sequential : Sequential c (some errand)) : Ordered
    { c with
      asked := c.asked ++ [errand]
      underway := Function.update c.underway c.asked.length (some errand) } := by
  constructor
  · intro m n first second on on' same
    simp only [Function.update_apply] at on on'
    split at on
    · split at on'
      · omega
      · cases on
        exact absurd same.symm (sequential n second on')
    · split at on'
      · cases on'
        exact absurd same (sequential m first on)
      · exact ordered.alone m n first second on on' same
  · intro box parcel held n other on same
    simp only [Function.update_apply] at on
    split at on
    next fresh =>
      obtain ⟨below, -⟩ := List.getElem?_eq_some_iff.mp (genuine.asked box parcel held)
      omega
    next => exact ordered.later box parcel held n other on same
  · exact ordered.sorted

omit [DecidableEq Box] in
theorem Ordered.settle (ordered : Ordered c) (n : Nat) : Ordered (c.settle n) := by
  have before {m : Nat} {errand : Sender × Body} (on : (c.settle n).underway m = some errand) :
      c.underway m = some errand := by
    simp only [Courier.settle, Function.update_apply] at on
    split at on
    · cases on
    · exact on
  constructor
  · intro m m' errand other on on' same
    exact ordered.alone m m' errand other (before on) (before on') same
  · intro box parcel held m errand on same
    exact ordered.later box parcel held m errand (before on) same
  · exact ordered.sorted

theorem Ordered.other (ordered : Ordered c) (box : Box) : Ordered (c.put box none) := by
  constructor
  · exact ordered.alone
  · intro box' parcel held
    rcases mem_put held with before | last
    · exact ordered.later box' parcel before
    · cases last
  · intro box'
    simp only [put, Function.update_apply]
    split
    next same =>
      subst same
      simpa using ordered.sorted box'
    next => exact ordered.sorted box'

theorem Ordered.deliver (ordered : Ordered c) {n : Nat} {sender : Sender} {body : Body} (box : Box)
    (underway : c.underway n = some (sender, body)) :
    Ordered ((c.put box (some ⟨n, sender, body⟩)).settle n) := by
  constructor
  · exact (ordered.settle n).alone
  · intro box' parcel held m errand on same
    have still : (c.settle n).underway m = some errand := on
    rcases mem_put held with before | last
    · exact (ordered.settle n).later box' parcel before m errand still same
    · cases last
      -- The sender would have a second errand under way.
      simp only [Courier.settle, Function.update_apply] at still
      split at still
      · cases still
      next other => exact absurd (ordered.alone m n _ _ still underway same) other
  · intro box'
    simp only [Courier.settle, put, Function.update_apply]
    split
    next same =>
      subst same
      rw [List.filterMap_append, List.pairwise_append]
      refine ⟨ordered.sorted box', by simp, ?_⟩
      intro first held second last sameSender
      simp only [List.filterMap_cons, id_eq, List.filterMap_nil, List.mem_singleton] at last
      subst last
      obtain ⟨entry, member, shown⟩ := List.mem_filterMap.mp held
      cases shown
      exact ordered.later box' first member n _ underway sameSender.symm
    next => exact ordered.sorted box'

theorem Ordered.step (ordered : Ordered c) (genuine : Genuine c) (sequential : Sequential c label)
    (moved : Step c label d) : Ordered d := by
  cases moved with
  | ask errand => exact ordered.ask genuine sequential
  | idle => exact ordered
  | drop n => exact ordered.settle n
  | deliver box underway => exact ordered.deliver box underway
  | other box => exact ordered.other box

end Courier
end Foundation
