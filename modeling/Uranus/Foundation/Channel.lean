import Mathlib.Data.List.Basic

/-! A bounded channel with one receiver. Items that find no room wait in the
order of their senders, and each received item makes room for the first of
them. The invariant of the buffer is part of the type. -/
namespace Foundation

/-- What has become of the receiver's last request. -/
inductive Receiver (N : Type) where
  | idle
  | waiting
  | received (item : N)
  | failed
deriving DecidableEq, Repr

namespace Receiver
variable {N : Type}

def isWaiting : Receiver N → Bool
  | .waiting => true
  | .idle | .received _ | .failed => false

/-- The item that has been handed over and not been looked at. -/
def item : Receiver N → List N
  | .received item => [item]
  | .idle | .waiting | .failed => []

theorem item_waiting {receiver : Receiver N} (waiting : receiver.isWaiting) :
    receiver.item = [] := by
  cases receiver with
  | idle => cases waiting
  | waiting => rfl
  | received item => cases waiting
  | failed => cases waiting

end Receiver

/-- Senders wait only at a full buffer, and the receiver only at an empty channel. -/
structure Channel (N : Type) where
  capacity : Nat
  isOpen : Bool
  buffer : List N
  senders : List N
  receiver : Receiver N
  full : senders ≠ [] → capacity ≤ buffer.length
  waits : receiver.isWaiting → buffer = [] ∧ senders = []

namespace Channel
variable {N : Type} {c d : Channel N} {item : N}

def new (capacity : Nat) : Channel N where
  capacity := capacity
  isOpen := true
  buffer := []
  senders := []
  receiver := .idle
  full := fun some => absurd rfl some
  waits := fun _ => ⟨rfl, rfl⟩

/-- Something can take an item at once. -/
def hasRoom (c : Channel N) : Prop := c.receiver.isWaiting ∨ c.buffer.length < c.capacity

instance : Decidable c.hasRoom := inferInstanceAs (Decidable (_ ∨ _))

/-- Hands an item to a receiver that waits, or puts it into the buffer. It fails
where neither is possible. -/
def trySend (item : N) (c : Channel N) : Option (Channel N) :=
  if !c.isOpen then none
  else if waiting : c.receiver.isWaiting then
    some { c with receiver := .received item, waits := fun still => nomatch still }
  else if room : c.buffer.length < c.capacity then
    some { c with
      buffer := c.buffer ++ [item]
      full := fun some => absurd room (Nat.not_lt.mpr (c.full some))
      waits := fun still => absurd still waiting }
  else none

theorem trySend_refused (opened : c.isOpen) (refused : c.trySend item = none) :
    ¬ c.receiver.isWaiting ∧ c.capacity ≤ c.buffer.length := by
  unfold trySend at refused
  rw [opened] at refused
  split at refused
  next closed => cases closed
  next =>
    split at refused
    next => cases refused
    next still =>
      split at refused
      next => cases refused
      next noRoom => exact ⟨still, Nat.not_lt.mp noRoom⟩

/-- Waits for room where there is none. A closed channel takes nothing. -/
def asyncSend (item : N) (c : Channel N) : Channel N :=
  if opened : c.isOpen then
    match tried : c.trySend item with
    | some sent => sent
    | none =>
      { c with
        senders := c.senders ++ [item]
        full := fun _ => (trySend_refused opened tried).2
        waits := fun still => absurd still (trySend_refused opened tried).1 }
  else c

/-- Requests the next item. -/
def asyncReceive (c : Channel N) : Channel N :=
  match split : c.buffer, blocked : c.senders with
  | item :: rest, [] =>
    { c with
      buffer := rest
      receiver := .received item
      full := fun some => absurd blocked some
      waits := fun still => nomatch still }
  | item :: rest, next :: others =>
    { c with
      buffer := rest ++ [next]
      senders := others
      receiver := .received item
      full := fun _ => by
        have full := c.full (by rw [blocked]; exact List.cons_ne_nil next others)
        rw [split] at full
        simpa using full
      waits := fun still => nomatch still }
  | [], next :: others =>
    { c with
      senders := others
      receiver := .received next
      full := fun _ => c.full (by rw [blocked]; exact List.cons_ne_nil next others)
      waits := fun still => nomatch still }
  | [], [] =>
    { c with
      receiver := if c.isOpen then .waiting else .failed
      waits := fun _ => ⟨split, blocked⟩ }

/-- What the receiver finds when it goes on: an item, or an error. -/
def take (c : Channel N) : Option (Option N × Channel N) :=
  match c.receiver with
  | .idle | .waiting => none
  | .received item =>
    some (some item, { c with receiver := .idle, waits := fun still => nomatch still })
  | .failed => some (none, { c with receiver := .idle, waits := fun still => nomatch still })

/-- Only a receiver that waits is told at once. -/
def close (c : Channel N) : Channel N :=
  { c with
    isOpen := false
    receiver := if c.receiver.isWaiting then .failed else c.receiver
    waits := fun still => by
      split at still
      · cases still
      · exact absurd still ‹_› }

/-- Everything in the channel, in the order in which it will be received. -/
def contents (c : Channel N) : List N := c.receiver.item ++ c.buffer ++ c.senders

/-- A receiver that waits has everything there is. -/
theorem contents_waiting (waiting : c.receiver.isWaiting) : c.contents = [] := by
  obtain ⟨noBuffer, noSenders⟩ := c.waits waiting
  simp [contents, Receiver.item_waiting waiting, noBuffer, noSenders]

theorem trySend_hasRoom (sent : c.trySend item = some d) : c.hasRoom := by
  unfold trySend at sent
  split at sent
  · cases sent
  · split at sent
    next waiting => exact .inl waiting
    next =>
      split at sent
      next room => exact .inr room
      next => cases sent

theorem trySend_isOpen (sent : c.trySend item = some d) : c.isOpen ∧ d.isOpen := by
  unfold trySend at sent
  split at sent
  · cases sent
  next opened =>
    have opened : c.isOpen := by simpa using opened
    split at sent
    · cases sent
      exact ⟨opened, opened⟩
    · split at sent
      · cases sent
        exact ⟨opened, opened⟩
      · cases sent

theorem trySend_contents (sent : c.trySend item = some d) : d.contents = c.contents ++ [item] := by
  unfold trySend at sent
  split at sent
  · cases sent
  · split at sent
    next waiting =>
      obtain ⟨noBuffer, noSenders⟩ := c.waits waiting
      rw [contents_waiting waiting]
      cases sent
      simp [contents, Receiver.item, noBuffer, noSenders]
    next =>
      split at sent
      next room =>
        have unblocked : c.senders = [] := by
          by_contra blocked
          exact absurd room (Nat.not_lt.mpr (c.full blocked))
        cases sent
        simp [contents, unblocked]
      next => cases sent

/-- Sending changes what the receiver sees only where it waits. -/
theorem trySend_receiver (sent : c.trySend item = some d) :
    d.receiver = c.receiver ∨ c.receiver.isWaiting ∧ d.receiver = .received item := by
  unfold trySend at sent
  split at sent
  · cases sent
  · split at sent
    next waiting =>
      cases sent
      exact .inr ⟨waiting, rfl⟩
    next =>
      split at sent
      · cases sent
        exact .inl rfl
      · cases sent

/-- An item sent to an open channel comes after everything there is. -/
theorem asyncSend_contents (opened : c.isOpen) (item : N) :
    (c.asyncSend item).contents = c.contents ++ [item] := by
  unfold asyncSend
  rw [dif_pos opened]
  split
  next sent tried => exact trySend_contents tried
  next tried => simp [contents]

theorem asyncSend_receiver (item : N) : (c.asyncSend item).receiver = c.receiver ∨
    c.receiver.isWaiting ∧ (c.asyncSend item).receiver = .received item := by
  unfold asyncSend
  split
  next opened =>
    split
    next sent tried => exact trySend_receiver tried
    next => exact .inl rfl
  next => exact .inl rfl

theorem asyncSend_isOpen : (c.asyncSend item).isOpen = c.isOpen := by
  unfold asyncSend
  split
  next opened =>
    split
    next sent tried =>
      obtain ⟨-, still⟩ := trySend_isOpen tried
      rw [still, opened]
    next => rfl
  next => rfl

@[simp] theorem asyncReceive_isOpen : c.asyncReceive.isOpen = c.isOpen := by
  unfold asyncReceive
  split <;> rfl

/-- A request moves the next item to the receiver and keeps the order. -/
theorem asyncReceive_contents (idle : c.receiver = .idle) :
    c.asyncReceive.contents = c.contents := by
  unfold asyncReceive
  split
  next item rest split blocked => simp [contents, Receiver.item, idle, split, blocked]
  next item rest next others split blocked => simp [contents, Receiver.item, idle, split, blocked]
  next next others split blocked => simp [contents, Receiver.item, idle, split, blocked]
  next split blocked =>
    have none : (if c.isOpen then .waiting else .failed : Receiver N).item = [] := by
      split <;> rfl
    have before : c.receiver.item = [] := by rw [idle]; rfl
    simp [contents, before, split, blocked, none]

/-- A request to an open channel is answered with an item or waits. -/
theorem asyncReceive_receiver (opened : c.isOpen) :
    c.asyncReceive.receiver = .waiting ∨ ∃ item, c.asyncReceive.receiver = .received item := by
  unfold asyncReceive
  split
  next item rest split blocked => exact .inr ⟨item, rfl⟩
  next item rest next others split blocked => exact .inr ⟨item, rfl⟩
  next next others split blocked => exact .inr ⟨next, rfl⟩
  next split blocked => exact .inl (if_pos opened)

/-- The answer is what the receiver was told, and it asks for nothing any more. -/
theorem take_spec {answer : Option N} (taken : c.take = some (answer, d)) :
    c.receiver = answer.elim .failed .received ∧
      d = { c with receiver := .idle, waits := fun still => by cases still } := by
  unfold take at taken
  split at taken
  · cases taken
  · cases taken
  next handed =>
    cases taken
    exact ⟨handed, rfl⟩
  next failed =>
    cases taken
    exact ⟨failed, rfl⟩

theorem take_isOpen {answer : Option N} (taken : c.take = some (answer, d)) :
    d.isOpen = c.isOpen := by
  rw [(take_spec taken).2]

theorem take_receiver {answer : Option N} (taken : c.take = some (answer, d)) :
    d.receiver = .idle := by
  rw [(take_spec taken).2]

theorem take_received (taken : c.take = some (some item, d)) : c.receiver = .received item :=
  (take_spec taken).1

theorem take_contents (taken : c.take = some (some item, d)) : c.contents = item :: d.contents := by
  obtain ⟨handed, rfl⟩ := take_spec taken
  simp [contents, Receiver.item, handed]

theorem take_error (taken : c.take = some (none, d)) : c.receiver = .failed :=
  (take_spec taken).1

theorem take_none (empty : c.take = none) : c.receiver = .idle ∨ c.receiver.isWaiting := by
  unfold take at empty
  split at empty
  next idle => exact .inl idle
  next waiting =>
    rw [waiting]
    exact .inr rfl
  all_goals cases empty

end Channel
end Foundation
