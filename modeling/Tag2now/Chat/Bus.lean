import Mathlib.Data.Finset.Basic
import Tag2now.Chat.Domain

/-! # The chat event bus

One bounded queue for each open stream. An event is offered to every registered stream; a
stream that is too far behind to take it is dropped: its queue is emptied and the marker
that ends its iteration is put there instead.
-/
namespace Tag2now.Chat

def queueSize : ℕ := 100

/-- What a queue holds: an event, or the marker of its end. -/
inductive Item
  | event (event : ChatEvent)
  | closed
  deriving DecidableEq

structure Subscription where
  queue : List Item
  /-- The reader has met the marker. -/
  ended : Bool
  deriving DecidableEq

namespace Subscription

def open_ : Subscription := ⟨[],false⟩

/-- Queue the event; none when the queue is full. -/
def offer (size : ℕ) (s : Subscription) (event : ChatEvent) : Option Subscription :=
  if s.queue.length < size then some { s with queue := s.queue ++ [.event event] } else none

/-- What is still queued is discarded. -/
def close (s : Subscription) : Subscription := { s with queue := [.closed] }

/-- One read of the iteration; none while there is nothing to read. -/
def next (s : Subscription) : Option (Item × Subscription) :=
  if s.ended then none
  else match s.queue with
    | [] => none
    | .event event :: rest => some (.event event,{ s with queue := rest })
    | .closed :: rest => some (.closed,⟨rest,true⟩)

end Subscription

/-- The bus and every subscription it made; those registered are offered what is published. -/
structure Bus where
  queueSize : ℕ
  subscriptions : Finset ℕ
  streams : ℕ → Option Subscription

namespace Bus

def empty (queueSize : ℕ) : Bus := ⟨queueSize,∅,fun _ => none⟩

def set (b : Bus) (i : ℕ) (s : Subscription) : Bus := { b with streams := Function.update b.streams i (some s) }

def subscribe (b : Bus) (i : ℕ) : Bus :=
  { b.set i .open_ with subscriptions := insert i b.subscriptions }

def unsubscribe (b : Bus) (i : ℕ) : Bus := { b with subscriptions := b.subscriptions.erase i }

def offerTo (event : ChatEvent) (b : Bus) (i : ℕ) : Bus :=
  match b.streams i with
  | none => b
  | some s =>
    match s.offer b.queueSize event with
    | some s => b.set i s
    | none => (b.unsubscribe i).set i s.close

/-- The registered subscriptions are gone through in some order: a set has none. -/
def publish (order : List ℕ) (event : ChatEvent) (b : Bus) : Bus := order.foldl (offerTo event) b

end Bus

inductive Action
  | subscribe (i : ℕ)
  | publish (event : ChatEvent)
  | read (i : ℕ) (item : Item)
  | unsubscribe (i : ℕ)
  deriving DecidableEq

/-- The order is one of all registered subscriptions. -/
def InSomeOrder (subscriptions : Finset ℕ) (order : List ℕ) : Prop :=
  order.Nodup ∧ ∀ i, i ∈ order ↔ i ∈ subscriptions

inductive Step (b : Bus) : Action → Bus → Prop
  | subscribe (i : ℕ) : b.streams i = none → Step b (.subscribe i) (b.subscribe i)
  | publish (event : ChatEvent) {order : List ℕ} : InSomeOrder b.subscriptions order →
      Step b (.publish event) (b.publish order event)
  | read {i : ℕ} {item : Item} {s s' : Subscription} : b.streams i = some s → s.next = some (item,s') →
      Step b (.read i item) (b.set i s')
  | unsubscribe (i : ℕ) : b.streams i ≠ none → Step b (.unsubscribe i) (b.unsubscribe i)

/-- Runs of a bus of this queue size, with what was done, newest first. -/
inductive Run (queueSize : ℕ) : Bus → List Action → Prop
  | start : Run queueSize (.empty queueSize) []
  | step {b b' : Bus} {trace : List Action} {a : Action} : Run queueSize b trace → Step b a b' →
      Run queueSize b' (a :: trace)

/-! ## What is published reaches each stream by itself -/

def Subscription.offered (size : ℕ) (event : ChatEvent) (s : Subscription) : Subscription :=
  (s.offer size event).getD s.close

def Full (b : Bus) (i : ℕ) : Prop := ∃ s, b.streams i = some s ∧ b.queueSize ≤ s.queue.length

section Publish
variable {b : Bus} {event : ChatEvent} {order : List ℕ}

theorem offered_of_lt {size : ℕ} {s : Subscription} (h : s.queue.length < size) :
    s.offered size event = { s with queue := s.queue ++ [.event event] } := by
  unfold Subscription.offered Subscription.offer
  rw [if_pos h]
  rfl

theorem offered_of_le {size : ℕ} {s : Subscription} (h : size ≤ s.queue.length) :
    s.offered size event = s.close := by
  unfold Subscription.offered Subscription.offer
  rw [if_neg (Nat.not_lt.mpr h)]
  rfl

@[simp] theorem set_streams (b : Bus) (i : ℕ) (s : Subscription) (j : ℕ) :
    (b.set i s).streams j = if j = i then some s else b.streams j := by
  unfold Bus.set Function.update
  simp only [eq_rec_constant,dite_eq_ite]

theorem offerTo_of_lt {i : ℕ} {s : Subscription} (hs : b.streams i = some s)
    (h : s.queue.length < b.queueSize) : b.offerTo event i = b.set i (s.offered b.queueSize event) := by
  simp only [Bus.offerTo,hs,Subscription.offered,Subscription.offer,if_pos h,Option.getD_some]

theorem offerTo_of_le {i : ℕ} {s : Subscription} (hs : b.streams i = some s)
    (h : b.queueSize ≤ s.queue.length) :
    b.offerTo event i = (b.unsubscribe i).set i (s.offered b.queueSize event) := by
  simp only [Bus.offerTo,hs,Subscription.offered,Subscription.offer,if_neg (Nat.not_lt.mpr h),Option.getD_none]

theorem offerTo_of_none {i : ℕ} (hs : b.streams i = none) : b.offerTo event i = b := by
  simp only [Bus.offerTo,hs]

@[simp] theorem offerTo_queueSize (b : Bus) (i : ℕ) : (b.offerTo event i).queueSize = b.queueSize := by
  unfold Bus.offerTo
  split
  · rfl
  · split <;> rfl

theorem offerTo_streams (b : Bus) (i j : ℕ) : (b.offerTo event i).streams j =
    if j = i then (b.streams j).map (·.offered b.queueSize event) else b.streams j := by
  cases hs : b.streams i with
  | none =>
    rw [offerTo_of_none hs]
    split
    · rename_i hji
      rw [hji,hs]
      rfl
    · rfl
  | some s =>
    by_cases hfull : s.queue.length < b.queueSize
    · rw [offerTo_of_lt hs hfull,set_streams]
      split
      · rename_i hji
        rw [hji,hs]
        rfl
      · rfl
    · rw [offerTo_of_le hs (Nat.le_of_not_lt hfull),set_streams]
      split
      · rename_i hji
        rw [hji,hs]
        rfl
      · rfl

theorem mem_offerTo (b : Bus) (i j : ℕ) :
    j ∈ (b.offerTo event i).subscriptions ↔ j ∈ b.subscriptions ∧ ¬ (j = i ∧ Full b j) := by
  cases hs : b.streams i with
  | none =>
    rw [offerTo_of_none hs]
    refine (and_iff_left ?_).symm
    rintro ⟨rfl,s,hs',_⟩
    rw [hs] at hs'
    cases hs'
  | some s =>
    by_cases hfull : s.queue.length < b.queueSize
    · rw [offerTo_of_lt hs hfull]
      refine (and_iff_left ?_).symm
      rintro ⟨rfl,s',hs',hle⟩
      rw [hs] at hs'
      cases hs'
      exact Nat.not_lt.mpr hle hfull
    · have hle := Nat.le_of_not_lt hfull
      rw [offerTo_of_le hs hle]
      change j ∈ b.subscriptions.erase i ↔ _
      rw [Finset.mem_erase,and_comm]
      refine and_congr_right fun _ => not_congr ?_
      constructor
      · rintro rfl
        exact ⟨rfl,s,hs,hle⟩
      · exact And.left

@[simp] theorem publish_queueSize (b : Bus) : (b.publish order event).queueSize = b.queueSize := by
  unfold Bus.publish
  induction order generalizing b with
  | nil => rfl
  | cons i order ih => exact (ih _).trans (offerTo_queueSize b i)

theorem publish_streams (h : order.Nodup) (b : Bus) (j : ℕ) : (b.publish order event).streams j =
    if j ∈ order then (b.streams j).map (·.offered b.queueSize event) else b.streams j := by
  unfold Bus.publish
  induction order generalizing b with
  | nil => rfl
  | cons i order ih =>
    obtain ⟨hi,horder⟩ := List.nodup_cons.mp h
    have hrest := ih horder (b.offerTo event i)
    rw [List.foldl_cons,hrest,offerTo_queueSize,offerTo_streams]
    by_cases hji : j = i
    · subst hji
      simp [hi]
    · simp [hji]

theorem mem_publish (h : order.Nodup) (b : Bus) (j : ℕ) : j ∈ (b.publish order event).subscriptions ↔
    j ∈ b.subscriptions ∧ ¬ (j ∈ order ∧ Full b j) := by
  unfold Bus.publish
  induction order generalizing b with
  | nil => simp
  | cons i order ih =>
    obtain ⟨hi,horder⟩ := List.nodup_cons.mp h
    have hrest := ih horder (b.offerTo event i)
    rw [List.foldl_cons,hrest,mem_offerTo]
    by_cases hji : j = i
    · subst hji
      simp [hi]
    · have hfull : Full (b.offerTo event i) j ↔ Full b j := by
        unfold Full
        rw [offerTo_streams,if_neg hji,offerTo_queueSize]
      simp [hji,hfull]

theorem publish_streams_of_order (h : InSomeOrder b.subscriptions order) (j : ℕ) :
    (b.publish order event).streams j =
      if j ∈ b.subscriptions then (b.streams j).map (·.offered b.queueSize event) else b.streams j := by
  simp only [publish_streams h.1,h.2]

theorem mem_publish_of_order (h : InSomeOrder b.subscriptions order) (j : ℕ) :
    j ∈ (b.publish order event).subscriptions ↔ j ∈ b.subscriptions ∧ ¬ Full b j := by
  rw [mem_publish h.1,h.2]
  exact and_congr_right fun hj => not_congr (and_iff_right hj)

end Publish

end Tag2now.Chat
