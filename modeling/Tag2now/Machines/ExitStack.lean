import Mathlib.Data.List.Basic
import Mathlib.Data.List.Nodup
import Tag2now.Machines.Guarded

/-! # Scopes that close what they opened

A scope opens its parts one after another and puts each on a stack. However it is left, what is
on the stack is closed, the last opened first, and what raises while it is closed does not keep
the others from being closed. Some parts act by themselves while they are there, on other parts.
A thread that one of them or the body has started goes on by itself, whatever has been closed.
-/
namespace Scopes
open Guarded

inductive Event (ρ ε : Type)
  | opened (part : ρ)
  | closing (part : ρ)
  | closed (part : ρ)
  | raised (error : ε)
  | used (worker part : ρ)
  | served (part : ρ)
  /-- By a thread, which nothing waits for. -/
  | late (part : ρ)

/-- The part an event needs open. -/
def Event.needs? {ρ ε : Type} : Event ρ ε → Option ρ
  | .used _ part | .served part => some part
  | _ => none

inductive Phase
  | opening
  | body
  | leaving
  deriving DecidableEq

structure Scope (ρ ε : Type) where
  toOpen : List ρ
  /-- The last opened first. -/
  stack : List ρ
  closing : Option ρ
  phase : Phase
  /-- The error on its way out. -/
  raised : Option ε
  /-- Newest first. -/
  log : List (Event ρ ε)

inductive Action (ρ ε : Type)
  | opens
  | ready
  | fails (error : ε)
  | ends
  | closes
  | closed (error : Option ε)
  | use (worker part : ρ)
  | serve (part : ρ)
  | late (part : ρ)

section
variable {ρ ε : Type} [DecidableEq ρ]

namespace Scope
variable (s : Scope ρ ε)

/-- Whoever is open or being closed may act. -/
def active (worker : ρ) : Bool := worker ∈ s.stack || s.closing = some worker

def step (reads : ρ → List ρ) (served threaded : List ρ) : Action ρ ε → Option (Scope ρ ε)
  | .opens => match s.phase,s.toOpen with
    | .opening,part :: rest =>
      some { s with toOpen := rest, stack := part :: s.stack, log := .opened part :: s.log }
    | _,_ => none
  | .ready => match s.phase,s.toOpen with
    | .opening,[] => some { s with phase := .body }
    | _,_ => none
  | .fails error =>
    if s.phase = .leaving then none
    else some { s with phase := .leaving, raised := some error, log := .raised error :: s.log }
  | .ends => if s.phase = .body then some { s with phase := .leaving } else none
  | .closes => match s.phase,s.closing,s.stack with
    | .leaving,none,part :: rest => some { s with stack := rest, closing := some part, log := .closing part :: s.log }
    | _,_,_ => none
  | .closed error => match s.closing,error with
    | some part,none => some { s with closing := none, log := .closed part :: s.log }
    | some part,some error =>
      some { s with closing := none, raised := some error, log := .raised error :: .closed part :: s.log }
    | none,_ => none
  | .use worker part =>
    if s.active worker ∧ part ∈ reads worker then some { s with log := .used worker part :: s.log } else none
  | .serve part => if s.phase = .body ∧ part ∈ served then some { s with log := .served part :: s.log } else none
  | .late part =>
    if part ∈ threaded ∧ part ∈ s.log.filterMap Event.needs? then some { s with log := .late part :: s.log }
    else none

end Scope

/-- The parts in the order in which they are opened, what each reads, what the body reads, and what is
read in threads. -/
def scope (ε : Type) (parts : List ρ) (reads : ρ → List ρ) (served threaded : List ρ) :
    Machine (Scope ρ ε) (Action ρ ε) :=
  ⟨⟨parts,[],none,.opening,none,[]⟩,fun s a => s.step reads served threaded a⟩

end

/-! ## What the log tells -/
section
variable {ρ ε : Type}

def Event.opened? : Event ρ ε → Option ρ
  | .opened part => some part
  | _ => none

def Event.closing? : Event ρ ε → Option ρ
  | .closing part => some part
  | _ => none

def Event.closed? : Event ρ ε → Option ρ
  | .closed part => some part
  | _ => none

def Event.raised? : Event ρ ε → Option ε
  | .raised error => some error
  | _ => none

def Event.late? : Event ρ ε → Option ρ
  | .late part => some part
  | _ => none

/-- It has been opened, and nothing has begun to close it. -/
def Open (log : List (Event ρ ε)) (part : ρ) : Prop :=
  part ∈ log.filterMap Event.opened? ∧ part ∉ log.filterMap Event.closing?

/-- Whatever was used was open then. -/
def UsedOpen : List (Event ρ ε) → Prop
  | [] => True
  | event :: log => (∀ part, event.needs? = some part → Open log part) ∧ UsedOpen log

/-- A thread uses what is read in threads, and only after a worker or the body used it. -/
def LateAfter (threaded : List ρ) : List (Event ρ ε) → Prop
  | [] => True
  | event :: log =>
    (∀ part, event.late? = some part → part ∈ threaded ∧ part ∈ log.filterMap Event.needs?) ∧ LateAfter threaded log

/-- Nobody reads what is opened later; the last opened first. -/
def InOrder (reads : ρ → List ρ) : List ρ → Prop
  | [] => True
  | part :: older => (∀ r ∈ reads part, r ∈ older) ∧ InOrder reads older

theorem InOrder.suffix {reads : ρ → List ρ} {newer older : List ρ} (h : InOrder reads (newer ++ older)) :
    InOrder reads older := by
  induction newer with
  | nil => exact h
  | cons _ newer ih => exact ih h.2

theorem InOrder.below {reads : ρ → List ρ} {parts : List ρ} (h : InOrder reads parts) {worker r : ρ}
    (hworker : worker ∈ parts) (hr : r ∈ reads worker) : r ∈ parts := by
  induction parts with
  | nil => cases hworker
  | cons part older ih =>
    rcases List.mem_cons.mp hworker with rfl | hworker
    · exact List.mem_cons_of_mem _ (h.1 r hr)
    · exact List.mem_cons_of_mem _ (ih h.2 hworker)

theorem usedOpen_cons {event : Event ρ ε} {log : List (Event ρ ε)} (hevent : event.needs? = none)
    (h : UsedOpen log) : UsedOpen (event :: log) :=
  ⟨fun part hpart => by simp [hevent] at hpart,h⟩

theorem lateAfter_cons {threaded : List ρ} {event : Event ρ ε} {log : List (Event ρ ε)}
    (hevent : event.late? = none) (h : LateAfter threaded log) : LateAfter threaded (event :: log) :=
  ⟨fun part hpart => by simp [hevent] at hpart,h⟩

end

/-! ## Every run -/
section
variable {ρ ε : Type}

/-- What was opened is what has begun to close, in that order, and what is on the stack. -/
structure Kept (parts : List ρ) (s : Scope ρ ε) : Prop where
  opened : (s.log.filterMap Event.opened?).reverse ++ s.toOpen = parts
  stack : s.log.filterMap Event.opened? = (s.log.filterMap Event.closing?).reverse ++ s.stack
  closing : s.log.filterMap Event.closing? = s.closing.toList ++ s.log.filterMap Event.closed?
  opening : s.phase ≠ .leaving → s.log.filterMap Event.closing? = []
  body : s.phase = .body → s.toOpen = []
  raised : s.raised = s.log.findSome? Event.raised?
  used : UsedOpen s.log

/-- The scope has been left, and everything on the stack is closed. -/
def Scope.finished (s : Scope ρ ε) : Prop := s.phase = .leaving ∧ s.stack = [] ∧ s.closing = none

variable {parts : List ρ} {s s' : Scope ρ ε}

/-- What was opened, the last first, is an end of the parts in that order. -/
theorem Kept.suffix (h : Kept parts s) :
    parts.reverse = (s.toOpen.reverse ++ (s.log.filterMap Event.closing?).reverse) ++ s.stack := by
  rw [← h.opened,List.reverse_append,List.reverse_reverse,h.stack,List.append_assoc]

theorem Kept.inBody (h : Kept parts s) (hbody : s.phase = .body) : s.stack = parts.reverse := by
  have hnone := h.opening (by simp [hbody])
  rw [h.suffix,h.body hbody,hnone]
  rfl

/-- In the end what was opened is closed, the last first, and nothing else. -/
theorem Kept.finished (h : Kept parts s) (hfinished : s.finished) :
    s.log.filterMap Event.closed? = (s.log.filterMap Event.opened?).reverse := by
  obtain ⟨-,hempty,hnone⟩ := hfinished
  have hclosed := h.closing
  rw [hnone,Option.toList_none,List.nil_append] at hclosed
  rw [h.stack,hempty,List.append_nil,List.reverse_reverse,hclosed]

theorem Kept.open (h : Kept parts s) (hnodup : parts.Nodup) {part : ρ} (hpart : part ∈ s.stack) : Open s.log part := by
  refine ⟨by simp [h.stack,hpart],fun hclosing => ?_⟩
  have hall : (parts.reverse).Nodup := List.nodup_reverse.mpr hnodup
  rw [h.suffix] at hall
  exact List.disjoint_of_nodup_append hall (by simp [hclosing]) hpart

/-- What an active part reads is on the stack, also while the part itself is being closed. -/
theorem Kept.reads [DecidableEq ρ] (h : Kept parts s) {reads : ρ → List ρ} (horder : InOrder reads parts.reverse)
    {worker part : ρ} (hactive : s.active worker) (hreads : part ∈ reads worker) : part ∈ s.stack := by
  rw [h.suffix] at horder
  rw [Scope.active,Bool.or_eq_true,decide_eq_true_eq,decide_eq_true_eq] at hactive
  rcases hactive with hstack | hclosing
  · exact horder.suffix.below hstack hreads
  · have hnow := h.closing
    rw [hclosing,Option.toList_some] at hnow
    rw [hnow,List.reverse_append,List.reverse_singleton,← List.append_assoc,List.append_assoc] at horder
    exact (InOrder.suffix horder).1 part hreads

end

section
variable {ρ ε : Type} [DecidableEq ρ] {reads : ρ → List ρ} {served threaded parts : List ρ} {s s' : Scope ρ ε}

theorem Kept.step (h : Kept parts s) (hnodup : parts.Nodup) (horder : InOrder reads parts.reverse)
    (hserved : served ⊆ parts) {a : Action ρ ε} (hstep : s.step reads served threaded a = some s') : Kept parts s' := by
  obtain ⟨hopened,hstack,hclosing,hopening,hbody,hraised,hused⟩ := id h
  cases a with
  | opens =>
    simp only [Scope.step] at hstep
    split at hstep
    · rename_i part rest hphase hrest
      cases hstep
      have hnone := hopening (by simp [hphase])
      refine ⟨?_,?_,hclosing,fun _ => hnone,fun hp => by simp [hphase] at hp,hraised,usedOpen_cons rfl hused⟩
      · simpa [List.filterMap_cons,Event.opened?,hrest] using hopened
      · simpa [List.filterMap_cons,Event.opened?,Event.closing?,hnone] using hstack
    · cases hstep
  | ready =>
    simp only [Scope.step] at hstep
    split at hstep
    · rename_i hphase hrest
      cases hstep
      exact ⟨hopened,hstack,hclosing,fun _ => hopening (by simp [hphase]),fun _ => hrest,hraised,hused⟩
    · cases hstep
  | fails error =>
    simp only [Scope.step] at hstep
    split at hstep
    · cases hstep
    · cases hstep
      exact ⟨hopened,hstack,hclosing,by simp,by simp,
        by simp [List.findSome?_cons,Event.raised?],usedOpen_cons rfl hused⟩
  | ends =>
    simp only [Scope.step] at hstep
    split at hstep
    · cases hstep
      exact ⟨hopened,hstack,hclosing,by simp,by simp,hraised,hused⟩
    · cases hstep
  | closes =>
    simp only [Scope.step] at hstep
    split at hstep
    · rename_i part rest hphase hnone hrest
      cases hstep
      refine ⟨hopened,?_,?_,fun hp => absurd hphase hp,fun hp => by simp [hphase] at hp,hraised,usedOpen_cons rfl hused⟩
      · simpa [List.filterMap_cons,Event.opened?,Event.closing?,hrest] using hstack
      · simpa [List.filterMap_cons,Event.closing?,Event.closed?,hnone] using hclosing
    · cases hstep
  | closed error =>
    simp only [Scope.step] at hstep
    split at hstep
    · rename_i part hpart
      cases hstep
      refine ⟨hopened,hstack,?_,hopening,hbody,hraised,usedOpen_cons rfl hused⟩
      simpa [List.filterMap_cons,Event.closing?,Event.closed?,hpart] using hclosing
    · rename_i part error hpart
      cases hstep
      refine ⟨hopened,hstack,?_,hopening,hbody,by simp [List.findSome?_cons,Event.raised?],
        usedOpen_cons rfl (usedOpen_cons rfl hused)⟩
      simpa [List.filterMap_cons,Event.closing?,Event.closed?,hpart] using hclosing
    · cases hstep
  | use worker part =>
    simp only [Scope.step] at hstep
    split at hstep
    · rename_i huse
      cases hstep
      have hopen : Open s.log part := h.open hnodup (h.reads horder huse.1 huse.2)
      exact ⟨hopened,hstack,hclosing,hopening,hbody,hraised,(fun _ hneeds => by cases hneeds; exact hopen),hused⟩
    · cases hstep
  | serve part =>
    simp only [Scope.step] at hstep
    split at hstep
    · rename_i hserve
      cases hstep
      have hpart : part ∈ s.stack := by simpa [h.inBody hserve.1] using hserved hserve.2
      have hopen : Open s.log part := h.open hnodup hpart
      exact ⟨hopened,hstack,hclosing,hopening,hbody,hraised,(fun _ hneeds => by cases hneeds; exact hopen),hused⟩
    · cases hstep
  | late part =>
    simp only [Scope.step] at hstep
    split at hstep
    · cases hstep
      exact ⟨hopened,hstack,hclosing,hopening,hbody,hraised,usedOpen_cons rfl hused⟩
    · cases hstep

theorem kept_start : Kept parts (scope ε parts reads served threaded).start where
  opened := rfl
  stack := rfl
  closing := rfl
  opening _ := rfl
  body h := by cases h
  raised := rfl
  used := trivial

theorem kept_reached (hnodup : parts.Nodup) (horder : InOrder reads parts.reverse) (hserved : served ⊆ parts)
    (h : (scope ε parts reads served threaded).Reached s) : Kept parts s :=
  h.invariant kept_start fun hkept _ hstep => hkept.step hnodup horder hserved hstep

theorem LateAfter.step (h : LateAfter threaded s.log) {a : Action ρ ε}
    (hstep : s.step reads served threaded a = some s') : LateAfter threaded s'.log := by
  cases a with
  | late part =>
    simp only [Scope.step] at hstep
    split at hstep
    · rename_i hlate
      cases hstep
      exact ⟨fun _ hpart => by cases hpart; exact hlate,h⟩
    · cases hstep
  | ready | ends =>
    simp only [Scope.step] at hstep
    split at hstep <;> cases hstep
    exact h
  | opens | fails error | closes | use worker part | serve part =>
    simp only [Scope.step] at hstep
    split at hstep <;> cases hstep
    exact lateAfter_cons rfl h
  | closed error =>
    simp only [Scope.step] at hstep
    split at hstep <;> cases hstep
    · exact lateAfter_cons rfl h
    · exact lateAfter_cons rfl (lateAfter_cons rfl h)

theorem late_reached (h : (scope ε parts reads served threaded).Reached s) : LateAfter threaded s.log := by
  induction h with
  | start => trivial
  | step _ _ hstep ih => exact ih.step hstep

/-- The steps that close what is on the stack, with what each of the closings raises. -/
def leaving (outcomes : List (Option ε)) : List (Action ρ ε) :=
  outcomes.flatMap fun outcome => [.closes,.closed outcome]

theorem leaving_finishes {outcomes : List (Option ε)} (hphase : s.phase = .leaving) (hclosing : s.closing = none)
    (houtcomes : outcomes.length = s.stack.length) :
    ∃ s', (scope ε parts reads served threaded).run s (leaving outcomes) = some s' ∧ s'.finished := by
  induction outcomes generalizing s with
  | nil => exact ⟨s,rfl,hphase,List.length_eq_zero_iff.mp houtcomes.symm,hclosing⟩
  | cons outcome outcomes ih =>
    cases hstack : s.stack with
    | nil => simp [hstack] at houtcomes
    | cons part rest =>
      have hbegin : (scope ε parts reads served threaded).step s .closes =
          some { s with stack := rest, closing := some part, log := .closing part :: s.log } := by
        simp [scope,Scope.step,hphase,hclosing,hstack]
      have hrest : outcomes.length = rest.length := by simpa [hstack] using houtcomes
      unfold leaving
      rw [List.flatMap_cons,List.cons_append,Machine.run_cons hbegin]
      cases outcome with
      | none => exact ih hphase rfl hrest
      | some error => exact ih hphase rfl hrest

end

end Scopes
