import Tag2now.Collections.Fallible
import Tag2now.Rpcn.Wire

/-! # The shared RPCN client

One client at a time is held for every caller, under a lock, so uses come one after
another. A use that ends in an error of the connection's takes the client with it, and no
other is made before the cooldown is over.
-/
namespace Tag2now.Matching
open Rpcn

structure SharedRpcnClient (C : Type) where
  client : Option C
  /-- The last failure; none at first. -/
  failedAt : Option ℤ
  /-- How many clients the factory has made. The one held is the last of them. -/
  made : ℕ
  /-- The clients that are no longer held, as they were left. -/
  letGo : List C

def SharedRpcnClient.fresh (C : Type) : SharedRpcnClient C := ⟨none,none,0,[]⟩

/-- What a use meets besides the client: the clock when it begins and when a failure is noted,
and what the factory gives if it is called, also where it fails. -/
structure Moment (C : Type) where
  enteredAt : ℤ
  notedAt : ℤ
  factory : EStateM.Result Fault C Unit

section
variable {C α : Type} (disconnect : EStateM Fault C Unit) (cooldown : ℤ)

/-- The client after `disconnect`, whose exceptions are dropped. -/
def disconnected (client : C) : C :=
  match disconnect client with
  | .ok _ client' => client'
  | .error _ client' => client'

def ensureCooledDown (now : ℤ) : EStateM Fault (SharedRpcnClient C) Unit := do
  match (← get).failedAt with
  | none => pure ()
  | some failedAt =>
    let remaining := failedAt + cooldown - now
    if 0 < remaining then throw (.unavailable (.cooldown remaining))

def made (factory : EStateM.Result Fault C Unit) : EStateM Fault (SharedRpcnClient C) C := fun s =>
  match factory with
  | .ok _ client => .ok client { s with client := some client, made := s.made + 1 }
  | .error e client => .error e { s with letGo := client :: s.letGo }

def connected (moment : Moment C) : EStateM Fault (SharedRpcnClient C) C := do
  match (← get).client with
  | some client => pure client
  | none =>
    ensureCooledDown cooldown moment.enteredAt
    made moment.factory

/-- The use's own steps change the client that is held. -/
def onClient (use : EStateM Fault C α) (client : C) : EStateM Fault (SharedRpcnClient C) α := fun s =>
  match use client with
  | .ok a client' => .ok a { s with client := some client' }
  | .error e client' => .error e { s with client := some client' }

def discard (now : ℤ) : EStateM Fault (SharedRpcnClient C) Unit :=
  modify fun s => { s with
    client := none
    failedAt := some now
    letGo := (s.client.map (disconnected disconnect)).toList ++ s.letGo }

def apiClient (moment : Moment C) (use : EStateM Fault C α) : EStateM Fault (SharedRpcnClient C) α :=
  tryCatch (do onClient use (← connected cooldown moment)) fun
    | .rpcnError message => do
      discard disconnect moment.notedAt
      throw (.unavailable (.failed message))
    | .osError message => do
      discard disconnect moment.notedAt
      throw (.unavailable (.failed message))
    | e => throw e

def shutdown (s : SharedRpcnClient C) : SharedRpcnClient C :=
  { s with client := none, letGo := (s.client.map (disconnected disconnect)).toList ++ s.letGo }

/-- Which of the factory's clients a use is handed, if any. -/
def handedOut (moment : Moment C) (s : SharedRpcnClient C) : Option ℕ :=
  match connected cooldown moment s with
  | .ok _ s' => some s'.made
  | .error .. => none

def left {σ : Type} : EStateM.Result Fault σ α → σ
  | .ok _ s => s
  | .error _ s => s

/-- What may happen to the shared client: any caller's use of it, or a shutdown. -/
inductive Step (s : SharedRpcnClient C) : SharedRpcnClient C → Prop
  | use {β : Type} (moment : Moment C) (use : EStateM Fault C β) :
      Step s (left (apiClient disconnect cooldown moment use s))
  | shutdown : Step s (shutdown disconnect s)

end

/-! ## What a use does -/
section
variable {C α : Type} {disconnect : EStateM Fault C Unit} {cooldown : ℤ} {moment : Moment C}
  {use : EStateM Fault C α} {s s' : SharedRpcnClient C} {c c' : C} {e : Fault} {n : ℕ}

theorem ensureCooledDown_state (now : ℤ) : left (ensureCooledDown cooldown now s) = s := by
  unfold ensureCooledDown
  simp only [bind,EStateM.bind,get,getThe,MonadStateOf.get,Collections.get_ok]
  cases s.failedAt with
  | none => rfl
  | some failedAt =>
    simp only
    split <;> rfl

theorem connected_held (h : s.client = some c) : connected cooldown moment s = .ok c s := by
  unfold connected
  simp only [bind,EStateM.bind,get,getThe,MonadStateOf.get,Collections.get_ok,h]
  rfl

theorem connected_none (h : s.client = none) :
    connected cooldown moment s = (do ensureCooledDown cooldown moment.enteredAt; made moment.factory) s := by
  unfold connected
  simp only [bind,EStateM.bind,get,getThe,MonadStateOf.get,Collections.get_ok,h]

/-- Without a client, a cooldown that is not over refuses, and after it one is made. -/
theorem connected_none_cases (h : s.client = none) :
    (∃ e, connected cooldown moment s = .error e s) ∨
      connected cooldown moment s = made moment.factory s := by
  rw [connected_none h]
  have hstate : left (ensureCooledDown cooldown moment.enteredAt s) = s := ensureCooledDown_state _
  simp only [bind,EStateM.bind]
  cases hcool : ensureCooledDown cooldown moment.enteredAt s with
  | error e s₁ =>
    rw [hcool] at hstate
    obtain rfl : s₁ = s := hstate
    exact .inl ⟨e,rfl⟩
  | ok _ s₁ =>
    rw [hcool] at hstate
    obtain rfl : s₁ = s := hstate
    exact .inr rfl

theorem connected_ok (h : connected cooldown moment s = .ok c s') :
    (s.client = some c ∧ s' = s) ∨ (s.client = none ∧ s' = { s with client := some c, made := s.made + 1 }) := by
  cases hc : s.client with
  | some held =>
    rw [connected_held hc] at h
    cases h
    exact .inl ⟨rfl,rfl⟩
  | none =>
    rcases connected_none_cases hc with ⟨e,herror⟩ | hmade
    · rw [herror] at h
      cases h
    · rw [hmade] at h
      unfold made at h
      cases hf : moment.factory with
      | ok _ client =>
        rw [hf] at h
        cases h
        exact .inr ⟨rfl,rfl⟩
      | error e client =>
        rw [hf] at h
        cases h

theorem connected_error (h : connected cooldown moment s = .error e s') :
    s.client = none ∧ s'.client = none ∧ s'.made = s.made := by
  cases hc : s.client with
  | some held =>
    rw [connected_held hc] at h
    cases h
  | none =>
    rcases connected_none_cases hc with ⟨e,herror⟩ | hmade
    · rw [herror] at h
      cases h
      exact ⟨rfl,hc,rfl⟩
    · rw [hmade] at h
      unfold made at h
      cases hf : moment.factory with
      | ok _ client =>
        rw [hf] at h
        cases h
      | error e client =>
        rw [hf] at h
        cases h
        exact ⟨rfl,hc,rfl⟩

theorem connected_client (h : connected cooldown moment s = .ok c s') : s'.client = some c := by
  rcases connected_ok h with ⟨hc,rfl⟩ | ⟨_,rfl⟩
  · exact hc
  · rfl

/-- A use that ends in an error of the connection's takes the client with it. -/
theorem apiClient_lost (h : connected cooldown moment s = .ok c s') (huse : use c = .error e c')
    (he : e.ofConnection = true) : ∃ message, apiClient disconnect cooldown moment use s =
      .error (.unavailable (.failed message))
        ⟨none,some moment.notedAt,s'.made,disconnected disconnect c' :: s'.letGo⟩ := by
  unfold apiClient onClient
  cases e with
  | rpcnError message | osError message =>
    refine ⟨message,?_⟩
    simp only [tryCatch,tryCatchThe,MonadExceptOf.tryCatch,EStateM.tryCatch,bind,EStateM.bind,h,huse]
    rfl
  | _ => cases he

/-- Any other use leaves the client to the next. -/
theorem apiClient_kept (h : connected cooldown moment s = .ok c s')
    (huse : ∀ e c', use c = .error e c' → e.ofConnection = false) :
    ∃ c', left (apiClient disconnect cooldown moment use s) = { s' with client := some c' } := by
  unfold apiClient onClient
  simp only [tryCatch,tryCatchThe,MonadExceptOf.tryCatch,EStateM.tryCatch,bind,EStateM.bind,h]
  cases hu : use c with
  | ok a c' => exact ⟨c',rfl⟩
  | error e c' =>
    refine ⟨c',?_⟩
    have he := huse e c' hu
    cases e with
    | rpcnError message | osError message => cases he
    | _ => rfl

theorem apiClient_refused (h : connected cooldown moment s = .error e s') :
    (left (apiClient disconnect cooldown moment use s)).client = none ∧
      (left (apiClient disconnect cooldown moment use s)).made = s.made := by
  obtain ⟨_,hclient,hmade⟩ := connected_error h
  unfold apiClient
  simp only [tryCatch,tryCatchThe,MonadExceptOf.tryCatch,EStateM.tryCatch,bind,EStateM.bind,h]
  cases e with
  | rpcnError message | osError message => exact ⟨rfl,hmade⟩
  | _ => exact ⟨hclient,hmade⟩

/-! ## A client let go is never handed out again -/

/-- Client `n` has been made and is not the one held. -/
structure Retired (n : ℕ) (s : SharedRpcnClient C) : Prop where
  made : n ≤ s.made
  held : s.client ≠ none → n < s.made

theorem Retired.handedOut (h : Retired n s) (moment : Moment C) : handedOut cooldown moment s ≠ some n := by
  unfold Matching.handedOut
  cases hc : connected cooldown moment s with
  | error e s' => nofun
  | ok c s' =>
    intro hn
    have hn := Option.some.inj hn
    rcases connected_ok hc with ⟨hclient,rfl⟩ | ⟨_,rfl⟩
    · have hlt := h.held (by rw [hclient]; nofun)
      omega
    · have hle := h.made
      simp only at hn
      omega

theorem Retired.connected (h : Retired n s) (hc : connected cooldown moment s = .ok c s') : n < s'.made := by
  rcases connected_ok hc with ⟨hclient,rfl⟩ | ⟨_,rfl⟩
  · exact h.held (by rw [hclient]; nofun)
  · exact Nat.lt_succ_of_le h.made

theorem Retired.apiClient (h : Retired n s) (moment : Moment C) (use : EStateM Fault C α) :
    Retired n (left (apiClient disconnect cooldown moment use s)) := by
  cases hc : Matching.connected cooldown moment s with
  | error e s' =>
    have hrun : (left (Matching.apiClient disconnect cooldown moment use s)).client = none ∧ _ :=
      apiClient_refused hc
    exact ⟨by rw [hrun.2]; exact h.made,fun hheld => absurd hrun.1 hheld⟩
  | ok c s' =>
    have hlt := h.connected hc
    by_cases hlost : ∃ e c', use c = .error e c' ∧ e.ofConnection = true
    · obtain ⟨e,c',huse,he⟩ := hlost
      obtain ⟨message,hrun⟩ : ∃ message, Matching.apiClient disconnect cooldown moment use s = _ :=
        apiClient_lost hc huse he
      rw [hrun]
      exact ⟨hlt.le,fun _ => hlt⟩
    · obtain ⟨c',hrun⟩ : ∃ c', left (Matching.apiClient disconnect cooldown moment use s) = _ :=
        apiClient_kept hc fun e c' huse => Bool.eq_false_iff.mpr fun he => hlost ⟨e,c',huse,he⟩
      rw [hrun]
      exact ⟨hlt.le,fun _ => hlt⟩

theorem Retired.step (h : Retired n s) (hstep : Step disconnect cooldown s s') : Retired n s' := by
  cases hstep with
  | use moment use => exact h.apiClient moment use
  | shutdown => exact ⟨h.made,fun hheld => absurd rfl hheld⟩

theorem Retired.later (h : Retired n s) (hlater : Relation.ReflTransGen (Step disconnect cooldown) s s') :
    Retired n s' := by
  induction hlater with
  | refl => exact h
  | tail _ hstep ih => exact ih.step hstep

end

end Tag2now.Matching
