import Mathlib.Logic.Function.Basic
import Mathlib.Logic.Relation
import Tag2now.Matching.RpcnLifecycle

/-! # Uses of the shared client

Any number of callers use the shared client or shut it down, each under the lock, and time
goes on between any two of their steps. A log of what happened is kept beside the state.
-/
namespace Tag2now.Matching
open Rpcn Relation

/-- Where a caller is in `apiClient` or `shutdown`. Whoever is not idle holds the lock. -/
inductive Phase
  | idle
  | entered
  /-- There is no client, and the cooldown is over. -/
  | cleared
  | calling
  /-- In the body of the use, with the factory's `n`-th client. -/
  | inUse (n : ℕ)
  /-- An error of the connection's is on its way out. -/
  | failing
  | closing

inductive Ending
  | normally
  /-- In an error of the connection's. -/
  | lost
  | otherwise

inductive Event (C : Type)
  | called (time : ℤ)
  | factoryFailed (time : ℤ)
  | refused (time : ℤ)
  | handed (n : ℕ)
  /-- The client is as the use left it. -/
  | ended (n : ℕ) (how : Ending) (client : C) (time : ℤ)
  /-- The client, if there is one, is disconnected and the failure noted. -/
  | noted (n : Option ℕ) (time : ℤ)
  | shut (n : Option ℕ)

def Event.failedAt {C : Type} : Event C → Option ℤ
  | .factoryFailed time | .ended _ .lost _ time => some time
  | _ => none

/-- Newest first. -/
abbrev Log (C : Type) := List (Event C)

/-- The client that the last use left to the next, unless it has been shut down. -/
def kept {C : Type} : Log C → Option ℕ
  | [] => none
  | .ended _ .lost _ _ :: _ => none
  | .ended n _ _ _ :: _ => some n
  | .noted .. :: log => kept log
  | _ :: _ => none

structure Sharing (C : Type) where
  now : ℤ
  shared : SharedRpcnClient C
  lock : Option ℕ
  phase : ℕ → Phase
  log : Log C

section
variable {C : Type}

def Sharing.start (C : Type) (now : ℤ) : Sharing C := ⟨now,.fresh C,none,fun _ => .idle,[]⟩

namespace Sharing
variable (w : Sharing C)

def goes (t : ℕ) (p : Phase) : Sharing C := { w with phase := Function.update w.phase t p }

def acquires (t : ℕ) (p : Phase) : Sharing C := { w.goes t p with lock := some t }

def releases (t : ℕ) : Sharing C := { w.goes t .idle with lock := none }

def logs (e : Event C) : Sharing C := { w with log := e :: w.log }

def becomes (shared : SharedRpcnClient C) : Sharing C := { w with shared }

end Sharing

def SharedRpcnClient.held (s : SharedRpcnClient C) : Option ℕ := s.client.map fun _ => s.made

def ending {β : Type} : EStateM.Result Fault (SharedRpcnClient C) β → Ending
  | .ok _ _ => .normally
  | .error e _ => if e.ofConnection then .lost else .otherwise

variable (disconnect : EStateM Fault C Unit) (cooldown : ℤ)

/-- One step of one caller, or of the clock. -/
inductive Act (w : Sharing C) : Sharing C → Prop
  | tick {later : ℤ} (h : w.now ≤ later) : Act w { w with now := later }
  | enter (t : ℕ) (hlock : w.lock = none) (h : w.phase t = .idle) : Act w (w.acquires t .entered)
  | hold (t : ℕ) (h : w.phase t = .entered) (hclient : w.shared.client ≠ none) :
    Act w ((w.logs (.handed w.shared.made)).goes t (.inUse w.shared.made))
  | refuse (t : ℕ) (h : w.phase t = .entered) (hclient : w.shared.client = none) {e : Fault}
    {s : SharedRpcnClient C} (hcool : ensureCooledDown cooldown w.now w.shared = .error e s) :
    Act w (((w.becomes s).logs (.refused w.now)).releases t)
  | clear (t : ℕ) (h : w.phase t = .entered) (hclient : w.shared.client = none)
    {s : SharedRpcnClient C} (hcool : ensureCooledDown cooldown w.now w.shared = .ok () s) :
    Act w ((w.becomes s).goes t .cleared)
  | call (t : ℕ) (h : w.phase t = .cleared) : Act w ((w.logs (.called w.now)).goes t .calling)
  | fill (t : ℕ) (h : w.phase t = .calling) {factory : EStateM.Result Fault C Unit} {client : C}
    {s : SharedRpcnClient C} (hmade : made factory w.shared = .ok client s) :
    Act w (((w.becomes s).logs (.handed s.made)).goes t (.inUse s.made))
  | fault (t : ℕ) (h : w.phase t = .calling) {factory : EStateM.Result Fault C Unit} {e : Fault}
    {s : SharedRpcnClient C} (hmade : made factory w.shared = .error e s) (he : e.ofConnection = true) :
    Act w (((w.becomes s).logs (.factoryFailed w.now)).goes t .failing)
  | faultOther (t : ℕ) (h : w.phase t = .calling) {factory : EStateM.Result Fault C Unit} {e : Fault}
    {s : SharedRpcnClient C} (hmade : made factory w.shared = .error e s) (he : e.ofConnection = false) :
    Act w ((w.becomes s).releases t)
  | lose (t : ℕ) {n : ℕ} (h : w.phase t = .inUse n) {c : C} (hclient : w.shared.client = some c) {β : Type}
    (use : EStateM Fault C β) (hlost : ending (onClient use c w.shared) = .lost) :
    Act w (((w.becomes (left (onClient use c w.shared))).logs (.ended n .lost (left (use c)) w.now)).goes t .failing)
  | finish (t : ℕ) {n : ℕ} (h : w.phase t = .inUse n) {c : C} (hclient : w.shared.client = some c) {β : Type}
    (use : EStateM Fault C β) (hkept : ending (onClient use c w.shared) ≠ .lost) :
    Act w (((w.becomes (left (onClient use c w.shared))).logs
      (.ended n (ending (onClient use c w.shared)) (left (use c)) w.now)).releases t)
  | discard (t : ℕ) (h : w.phase t = .failing) :
    Act w (((w.becomes (left (discard disconnect w.now w.shared))).logs (.noted w.shared.held w.now)).releases t)
  | close (t : ℕ) (hlock : w.lock = none) (h : w.phase t = .idle) : Act w (w.acquires t .closing)
  | shut (t : ℕ) (h : w.phase t = .closing) :
    Act w (((w.becomes (shutdown disconnect w.shared)).logs (.shut w.shared.held)).releases t)

/-- What holds of an event and the log behind it. -/
def Lawful : Event C → Log C → Prop
  | .called time,log => (∀ x ∈ log, ∀ failed, x.failedAt = some failed → failed + cooldown ≤ time) ∧ kept log = none
  | .refused time,log => (∃ n noted, .noted n noted ∈ log ∧ time < noted + cooldown) ∧ kept log = none
  | .handed n,log => (∀ client time, .ended n .lost client time ∉ log) ∧ ∀ m, kept log = some m → n = m
  | .noted _ time,log => ∃ x rest failed, log = x :: rest ∧ x.failedAt = some failed ∧ failed ≤ time
  | _,_ => True

def LawfulLog (log : Log C) : Prop := ∀ later e earlier, log = later ++ e :: earlier → Lawful cooldown e earlier

/-! ## What the holder of the lock finds -/

/-- Of every failure the time is noted, and no client lost to one is held. -/
structure Settled (s : SharedRpcnClient C) (log : Log C) : Prop where
  failedAt : ∀ x ∈ log, ∀ failed, x.failedAt = some failed → ∃ noted, s.failedAt = some noted ∧ failed ≤ noted
  notHeld : ∀ n client time, .ended n .lost client time ∈ log → s.held ≠ some n

/-- By where the holder is; idle if the lock is free. -/
def Finds (now : ℤ) (s : SharedRpcnClient C) (log : Log C) : Phase → Prop
  | .idle | .entered | .closing => Settled s log
  | .cleared => Settled s log ∧ s.client = none ∧
      ∀ x ∈ log, ∀ failed, x.failedAt = some failed → failed + cooldown ≤ now
  | .calling => Settled s log ∧ s.client = none ∧ kept log = none
  | .inUse n => Settled s log ∧ s.held = some n ∧ kept log = none
  | .failing => kept log = none ∧ ∃ x rest failed, log = x :: rest ∧ x.failedAt = some failed ∧ failed ≤ now ∧
      Settled s rest ∧ (x = .factoryFailed failed ∨ ∃ n client, x = .ended n .lost client failed ∧ s.held = some n)

/-- What holds between the steps, whoever takes them. -/
structure Sound (now : ℤ) (s : SharedRpcnClient C) (log : Log C) (p : Phase) : Prop where
  lawful : LawfulLog cooldown log
  past : ∀ x ∈ log, ∀ failed, x.failedAt = some failed → failed ≤ now
  made : ∀ n client time, .ended n .lost client time ∈ log → n ≤ s.made
  noted : ∀ time, s.failedAt = some time → ∃ n, .noted n time ∈ log
  kept : ∀ n, kept log = some n → s.held = some n
  finds : Finds cooldown now s log p

end

section
variable {C : Type} {disconnect : EStateM Fault C Unit} {cooldown now : ℤ} {s s' : SharedRpcnClient C} {log : Log C}
  {p : Phase} {e : Fault} {n : ℕ}

theorem lawfulLog_cons {x : Event C} :
    LawfulLog cooldown (x :: log) ↔ Lawful cooldown x log ∧ LawfulLog cooldown log := by
  constructor
  · intro h
    exact ⟨h [] x log rfl,fun later e earlier heq => h (x :: later) e earlier (congrArg (x :: ·) heq)⟩
  · rintro ⟨hx,hlog⟩ later e earlier heq
    cases later with
    | nil => obtain ⟨rfl,rfl⟩ := List.cons.inj heq; exact hx
    | cons y later => exact hlog later e earlier (List.cons.inj heq).2

theorem held_none (h : s.client = none) : s.held = none := by
  unfold SharedRpcnClient.held
  rw [h]
  rfl

theorem held_some (h : s.client ≠ none) : s.held = some s.made := by
  unfold SharedRpcnClient.held
  cases hc : s.client with
  | none => exact absurd hc h
  | some c => rfl

theorem ensureCooledDown_error (h : ensureCooledDown cooldown now s = .error e s') :
    s' = s ∧ ∃ noted, s.failedAt = some noted ∧ now < noted + cooldown := by
  have hstate : left (ensureCooledDown cooldown now s) = s := ensureCooledDown_state now
  rw [h] at hstate
  refine ⟨hstate,?_⟩
  unfold ensureCooledDown at h
  simp only [bind,EStateM.bind,get,getThe,MonadStateOf.get,Collections.get_ok] at h
  cases hf : s.failedAt with
  | none => rw [hf] at h; cases h
  | some failedAt =>
    rw [hf] at h
    simp only at h
    split at h
    · exact ⟨failedAt,rfl,by omega⟩
    · cases h

theorem ensureCooledDown_ok (h : ensureCooledDown cooldown now s = .ok () s') :
    s' = s ∧ ∀ noted, s.failedAt = some noted → noted + cooldown ≤ now := by
  have hstate : left (ensureCooledDown cooldown now s) = s := ensureCooledDown_state now
  rw [h] at hstate
  refine ⟨hstate,fun noted hnoted => ?_⟩
  unfold ensureCooledDown at h
  simp only [bind,EStateM.bind,get,getThe,MonadStateOf.get,Collections.get_ok,hnoted] at h
  split at h
  · cases h
  · omega

/-- What the laws speak of is as it was. -/
structure SameSlot (s s' : SharedRpcnClient C) : Prop where
  made : s'.made = s.made
  failedAt : s'.failedAt = s.failedAt
  held : s'.held = s.held

theorem Settled.same (h : Settled s log) (hsame : SameSlot s s') : Settled s' log := by
  constructor
  · rw [hsame.failedAt]
    exact h.failedAt
  · rw [hsame.held]
    exact h.notHeld

theorem Settled.cons (h : Settled s log) {x : Event C} (hx : x.failedAt = none) : Settled s (x :: log) := by
  have hlost : ∀ n client time, .ended n .lost client time ∈ x :: log → .ended n .lost client time ∈ log := by
    intro n client time hmem
    rcases List.mem_cons.mp hmem with rfl | hmem
    · cases hx
    · exact hmem
  constructor
  · intro y hy failed hfailed
    rcases List.mem_cons.mp hy with rfl | hy
    · rw [hx] at hfailed
      cases hfailed
    · exact h.failedAt y hy failed hfailed
  · exact fun n client time hmem => h.notHeld n client time (hlost n client time hmem)

namespace Sound

theorem tick (h : Sound cooldown now s log p) {later : ℤ} (hlater : now ≤ later) : Sound cooldown later s log p := by
  refine ⟨h.lawful,fun x hx failed hfailed => (h.past x hx failed hfailed).trans hlater,h.made,h.noted,h.kept,?_⟩
  have hfinds := h.finds
  cases p with
  | idle | entered | closing | calling | inUse n => exact hfinds
  | cleared =>
    obtain ⟨hsettled,hclient,hcooled⟩ := hfinds
    exact ⟨hsettled,hclient,fun x hx failed hfailed => (hcooled x hx failed hfailed).trans hlater⟩
  | failing =>
    obtain ⟨hkept,x,rest,failed,hlog,hfailed,hle,hrest⟩ := hfinds
    exact ⟨hkept,x,rest,failed,hlog,hfailed,hle.trans hlater,hrest⟩

/-- An event that is no failure, with what the holder finds behind it. -/
theorem logs (h : Sound cooldown now s log p) {x : Event C} {p' : Phase} (hx : x.failedAt = none)
    (hlawful : Lawful cooldown x log) (hmade : s.made ≤ s'.made) (hfailedAt : s'.failedAt = s.failedAt)
    (hkept : ∀ n, Matching.kept (x :: log) = some n → s'.held = some n)
    (hfinds : Finds cooldown now s' (x :: log) p') : Sound cooldown now s' (x :: log) p' := by
  refine ⟨lawfulLog_cons.mpr ⟨hlawful,h.lawful⟩,?_,?_,?_,hkept,hfinds⟩
  · intro y hy failed hfailed
    rcases List.mem_cons.mp hy with rfl | hy
    · rw [hx] at hfailed
      cases hfailed
    · exact h.past y hy failed hfailed
  · intro n client time hmem
    rcases List.mem_cons.mp hmem with rfl | hmem
    · cases hx
    · exact (h.made n client time hmem).trans hmade
  · intro time htime
    rw [hfailedAt] at htime
    obtain ⟨n,hn⟩ := h.noted time htime
    exact ⟨n,List.mem_cons_of_mem x hn⟩

theorem fails (h : Sound cooldown now s log p) {x : Event C} (hx : x.failedAt = some now)
    (hlawful : Lawful cooldown x log) (hsame : SameSlot s s') (hsettled : Settled s log)
    (hwhose : x = .factoryFailed now ∨ ∃ n client, x = .ended n .lost client now ∧ s.held = some n) :
    Sound cooldown now s' (x :: log) .failing := by
  have hkept : Matching.kept (x :: log) = none := by
    rcases hwhose with rfl | ⟨n,client,rfl,_⟩ <;> rfl
  refine ⟨lawfulLog_cons.mpr ⟨hlawful,h.lawful⟩,?_,?_,?_,?_,hkept,x,log,now,rfl,hx,le_rfl,hsettled.same hsame,?_⟩
  · intro y hy failed hfailed
    rcases List.mem_cons.mp hy with rfl | hy
    · rw [hx] at hfailed
      exact (Option.some.inj hfailed).ge
    · exact h.past y hy failed hfailed
  · intro n client time hmem
    rw [hsame.made]
    rcases List.mem_cons.mp hmem with rfl | hmem
    · rcases hwhose with hx' | ⟨m,_,hx',hheld⟩
      · cases hx'
      · cases hx'
        unfold SharedRpcnClient.held at hheld
        obtain ⟨c,_,hn⟩ := Option.map_eq_some_iff.mp hheld
        exact hn.ge
    · exact h.made n client time hmem
  · intro time htime
    rw [hsame.failedAt] at htime
    obtain ⟨n,hn⟩ := h.noted time htime
    exact ⟨n,List.mem_cons_of_mem x hn⟩
  · intro n hn
    rw [hkept] at hn
    cases hn
  · rw [hsame.held]
    exact hwhose

theorem goes (h : Sound cooldown now s log p) {p' : Phase} (hfinds : Finds cooldown now s log p') :
    Sound cooldown now s log p' := { h with finds := hfinds }

theorem kept_none (h : Sound cooldown now s log p) (hclient : s.client = none) : Matching.kept log = none := by
  apply Option.eq_none_iff_forall_ne_some.mpr
  intro n hn
  have hheld := h.kept n hn
  rw [held_none hclient] at hheld
  cases hheld

theorem hold (h : Sound cooldown now s log .entered) (hclient : s.client ≠ none) :
    Sound cooldown now s (.handed s.made :: log) (.inUse s.made) := by
  have hheld := held_some hclient
  have hsettled : Settled s log := h.finds
  have hlast : ∀ m, Matching.kept log = some m → s.made = m := by
    intro m hm
    have hkept := h.kept m hm
    rw [hheld] at hkept
    exact Option.some.inj hkept
  have hnot : ∀ client time, .ended s.made .lost client time ∉ log :=
    fun client time hmem => hsettled.notHeld s.made client time hmem hheld
  exact h.logs rfl ⟨hnot,hlast⟩ le_rfl rfl nofun ⟨hsettled.cons rfl,hheld,rfl⟩

theorem refuse (h : Sound cooldown now s log .entered) (hclient : s.client = none)
    (hcool : ensureCooledDown cooldown now s = .error e s') : Sound cooldown now s' (.refused now :: log) .idle := by
  obtain ⟨rfl,noted,hfailedAt,hlt⟩ := ensureCooledDown_error hcool
  have hsettled : Settled s' log := h.finds
  obtain ⟨n,hn⟩ := h.noted noted hfailedAt
  exact h.logs rfl ⟨⟨n,noted,hn,hlt⟩,h.kept_none hclient⟩ le_rfl rfl nofun (hsettled.cons rfl)

theorem clear (h : Sound cooldown now s log .entered) (hclient : s.client = none)
    (hcool : ensureCooledDown cooldown now s = .ok () s') : Sound cooldown now s' log .cleared := by
  obtain ⟨rfl,hcooled⟩ := ensureCooledDown_ok hcool
  have hsettled : Settled s' log := h.finds
  have hover : ∀ x ∈ log, ∀ failed, x.failedAt = some failed → failed + cooldown ≤ now := by
    intro x hx failed hfailed
    obtain ⟨noted,hnoted,hle⟩ := hsettled.failedAt x hx failed hfailed
    have hcooled := hcooled noted hnoted
    omega
  exact h.goes ⟨hsettled,hclient,hover⟩

theorem call (h : Sound cooldown now s log .cleared) : Sound cooldown now s (.called now :: log) .calling := by
  obtain ⟨hsettled,hclient,hcooled⟩ := h.finds
  exact h.logs rfl ⟨hcooled,h.kept_none hclient⟩ le_rfl rfl nofun ⟨hsettled.cons rfl,hclient,rfl⟩

theorem fill (h : Sound cooldown now s log .calling) {factory : EStateM.Result Fault C Unit} {client : C}
    (hmade : Matching.made factory s = .ok client s') :
    Sound cooldown now s' (.handed s'.made :: log) (.inUse s'.made) := by
  obtain ⟨hsettled,_,hkept⟩ := h.finds
  unfold Matching.made at hmade
  cases factory with
  | error e c => cases hmade
  | ok _ c =>
    cases hmade
    have hsettled' : Settled { s with client := some client, made := s.made + 1 } log := by
      refine ⟨hsettled.failedAt,?_⟩
      intro n client time hmem hheld
      have hle := h.made n client time hmem
      have hn : s.made + 1 = n := Option.some.inj hheld
      omega
    have hnot : ∀ client time, .ended (s.made + 1) .lost client time ∉ log := by
      intro client time hmem
      have hle := h.made _ client time hmem
      omega
    have hlast : ∀ m, Matching.kept log = some m → s.made + 1 = m := by
      rw [hkept]
      nofun
    exact h.logs rfl ⟨hnot,hlast⟩ (Nat.le_succ s.made) rfl nofun ⟨hsettled'.cons rfl,rfl,rfl⟩

end Sound

theorem made_error {factory : EStateM.Result Fault C Unit} (h : made factory s = .error e s') : SameSlot s s' := by
  unfold made at h
  cases factory with
  | ok _ c => cases h
  | error e' c =>
    cases h
    exact ⟨rfl,rfl,rfl⟩

theorem onClient_left {β : Type} {use : EStateM Fault C β} {c : C} (h : s.client = some c) :
    SameSlot s (left (onClient use c s)) := by
  have hheld (c' : C) : { s with client := some c' }.held = s.held := by
    unfold SharedRpcnClient.held
    rw [h]
    rfl
  unfold onClient
  cases use c with
  | ok a c' => exact ⟨rfl,rfl,hheld c'⟩
  | error e c' => exact ⟨rfl,rfl,hheld c'⟩

namespace Sound

theorem fault (h : Sound cooldown now s log .calling) {factory : EStateM.Result Fault C Unit}
    (hmade : Matching.made factory s = .error e s') : Sound cooldown now s' (.factoryFailed now :: log) .failing :=
  h.fails rfl trivial (made_error hmade) h.finds.1 (.inl rfl)

theorem faultOther (h : Sound cooldown now s log .calling) {factory : EStateM.Result Fault C Unit}
    (hmade : Matching.made factory s = .error e s') : Sound cooldown now s' log .idle := by
  have hsame := made_error hmade
  obtain ⟨hsettled,_,hkept⟩ := h.finds
  refine ⟨h.lawful,h.past,?_,?_,?_,hsettled.same hsame⟩
  · rw [hsame.made]
    exact h.made
  · rw [hsame.failedAt]
    exact h.noted
  · rw [hkept]
    nofun

theorem lose (h : Sound cooldown now s log (.inUse n)) (hsame : SameSlot s s') (client : C) :
    Sound cooldown now s' (.ended n .lost client now :: log) .failing := by
  obtain ⟨hsettled,hheld,_⟩ := h.finds
  exact h.fails rfl trivial hsame hsettled (.inr ⟨n,client,rfl,hheld⟩)

theorem finish (h : Sound cooldown now s log (.inUse n)) (hsame : SameSlot s s') {how : Ending}
    (hkept : how ≠ .lost) (client : C) : Sound cooldown now s' (.ended n how client now :: log) .idle := by
  obtain ⟨hsettled,hheld,_⟩ := h.finds
  have hnone : (Event.ended n how client now).failedAt = none := by
    cases how with
    | lost => exact absurd rfl hkept
    | normally | otherwise => rfl
  have hlast : Matching.kept (.ended n how client now :: log) = some n := by
    cases how with
    | lost => exact absurd rfl hkept
    | normally | otherwise => rfl
  have hslot : ∀ m, Matching.kept (.ended n how client now :: log) = some m → s'.held = some m := by
    intro m hm
    rw [hlast] at hm
    rw [hsame.held,hheld,hm]
  have hsettled' := (hsettled.same hsame).cons hnone
  exact h.logs hnone trivial hsame.made.ge hsame.failedAt hslot hsettled'

theorem discard (h : Sound cooldown now s log .failing) :
    Sound cooldown now (left (Matching.discard disconnect now s)) (.noted s.held now :: log) .idle := by
  obtain ⟨hkept,x,rest,failed,rfl,hfailed,hle,hsettled,hwhose⟩ := h.finds
  refine ⟨lawfulLog_cons.mpr ⟨⟨x,rest,failed,rfl,hfailed,hle⟩,h.lawful⟩,?_,?_,?_,?_,?_⟩
  · intro y hy failed' hfailed'
    rcases List.mem_cons.mp hy with rfl | hy
    · cases hfailed'
    · exact h.past y hy failed' hfailed'
  · intro n client time hmem
    rcases List.mem_cons.mp hmem with hmem | hmem
    · cases hmem
    · exact h.made n client time hmem
  · intro time htime
    cases htime
    exact ⟨s.held,List.mem_cons_self⟩
  · intro n hn
    have hn : Matching.kept (x :: rest) = some n := hn
    rw [hkept] at hn
    cases hn
  · constructor
    · intro y hy failed' hfailed'
      rcases List.mem_cons.mp hy with rfl | hy
      · cases hfailed'
      · exact ⟨now,rfl,h.past y hy failed' hfailed'⟩
    · exact fun n client time hmem => nofun

theorem shut (h : Sound cooldown now s log .closing) :
    Sound cooldown now (shutdown disconnect s) (.shut s.held :: log) .idle := by
  have hsettled : Settled s log := h.finds
  have hsettled' : Settled (shutdown disconnect s) log :=
    ⟨hsettled.failedAt,fun n client time hmem => nofun⟩
  exact h.logs rfl trivial le_rfl rfl nofun (hsettled'.cons rfl)

end Sound

/-! ## One at a time -/

/-- Where the holder of the lock is. -/
def Sharing.current (w : Sharing C) : Phase :=
  match w.lock with
  | none => .idle
  | some t => w.phase t

/-- Who is not idle holds the lock, and what the holder finds is sound. -/
structure Orderly (cooldown : ℤ) (w : Sharing C) : Prop where
  lock : ∀ t, w.phase t ≠ .idle → w.lock = some t
  sound : Sound cooldown w.now w.shared w.log w.current

variable {w w' : Sharing C} {t : ℕ}

namespace Orderly

theorem current (h : Orderly cooldown w) (ht : w.phase t = p) (hp : p ≠ .idle) :
    Sound cooldown w.now w.shared w.log p := by
  have hlock : w.lock = some t := h.lock t (by rw [ht]; exact hp)
  have hsound := h.sound
  unfold Sharing.current at hsound
  simp only [hlock,ht] at hsound
  exact hsound

theorem free (h : Orderly cooldown w) (hlock : w.lock = none) : Sound cooldown w.now w.shared w.log .idle := by
  have hsound := h.sound
  unfold Sharing.current at hsound
  simp only [hlock] at hsound
  exact hsound

theorem others (h : Orderly cooldown w) (ht : w.phase t ≠ .idle) {u : ℕ} (hu : u ≠ t) : w.phase u = .idle := by
  by_contra hnot
  have hlock := h.lock t ht
  rw [h.lock u hnot] at hlock
  exact hu (Option.some.inj hlock)

theorem acquires (h : Orderly cooldown w) (hlock : w.lock = none)
    (hfinds : Finds cooldown w.now w.shared w.log p) : Orderly cooldown (w.acquires t p) := by
  have hidle (u : ℕ) : w.phase u = .idle := by
    by_contra hnot
    have hlock' := h.lock u hnot
    rw [hlock] at hlock'
    cases hlock'
  constructor
  · intro u hu
    by_cases hut : u = t
    · rw [hut]
      rfl
    · have hother : (w.acquires t p).phase u = w.phase u := Function.update_of_ne hut ..
      exact absurd (hother.trans (hidle u)) hu
  · have hcurrent : (w.acquires t p).current = p := by
      unfold Sharing.current Sharing.acquires Sharing.goes
      simp only [Function.update_self]
    rw [hcurrent]
    exact (h.free hlock).goes hfinds

theorem goes (h : Orderly cooldown w) (ht : w.phase t ≠ .idle) {log' : Log C}
    (hsound : Sound cooldown w.now s' log' p) :
    Orderly cooldown { w with shared := s', log := log', phase := Function.update w.phase t p } := by
  have hlock := h.lock t ht
  constructor
  · intro u hu
    by_cases hut : u = t
    · rw [hut]
      exact hlock
    · exact absurd ((Function.update_of_ne hut p w.phase).trans (h.others ht hut)) hu
  · have hcurrent :
        Sharing.current { w with shared := s', log := log', phase := Function.update w.phase t p } = p := by
      unfold Sharing.current
      simp only [hlock,Function.update_self]
    rw [hcurrent]
    exact hsound

theorem releases (h : Orderly cooldown w) (ht : w.phase t ≠ .idle) {log' : Log C}
    (hsound : Sound cooldown w.now s' log' .idle) :
    Orderly cooldown { w with shared := s', log := log', lock := none, phase := Function.update w.phase t .idle } := by
  constructor
  · intro u hu
    by_cases hut : u = t
    · rw [hut] at hu
      exact absurd (Function.update_self t .idle w.phase) hu
    · exact absurd ((Function.update_of_ne hut .idle w.phase).trans (h.others ht hut)) hu
  · exact hsound

theorem start (now : ℤ) : Orderly cooldown (Sharing.start C now) := by
  constructor
  · exact fun t ht => absurd rfl ht
  · refine ⟨?_,nofun,nofun,nofun,nofun,nofun,nofun⟩
    intro later e earlier hlog
    cases later <;> cases hlog

theorem act (h : Orderly cooldown w) (hact : Act disconnect cooldown w w') : Orderly cooldown w' := by
  cases hact with
  | tick hlater => exact ⟨h.lock,h.sound.tick hlater⟩
  | enter t hlock ht => exact h.acquires hlock (h.free hlock).finds
  | hold t ht hclient => exact h.goes (by rw [ht]; nofun) ((h.current ht nofun).hold hclient)
  | refuse t ht hclient hcool => exact h.releases (by rw [ht]; nofun) ((h.current ht nofun).refuse hclient hcool)
  | clear t ht hclient hcool => exact h.goes (by rw [ht]; nofun) ((h.current ht nofun).clear hclient hcool)
  | call t ht => exact h.goes (by rw [ht]; nofun) (h.current ht nofun).call
  | fill t ht hmade => exact h.goes (by rw [ht]; nofun) ((h.current ht nofun).fill hmade)
  | fault t ht hmade he => exact h.goes (by rw [ht]; nofun) ((h.current ht nofun).fault hmade)
  | faultOther t ht hmade he => exact h.releases (by rw [ht]; nofun) ((h.current ht nofun).faultOther hmade)
  | lose t ht hclient use hlost =>
    exact h.goes (by rw [ht]; nofun) ((h.current ht nofun).lose (onClient_left hclient) _)
  | finish t ht hclient use hkept =>
    exact h.releases (by rw [ht]; nofun) ((h.current ht nofun).finish (onClient_left hclient) hkept _)
  | discard t ht => exact h.releases (by rw [ht]; nofun) (h.current ht nofun).discard
  | close t hlock ht => exact h.acquires hlock (h.free hlock).finds
  | shut t ht => exact h.releases (by rw [ht]; nofun) (h.current ht nofun).shut

theorem current_eq (h : Orderly cooldown w) (ht : w.phase t = p) (hp : p ≠ .idle) : w.current = p := by
  unfold Sharing.current
  simp only [h.lock t (by rw [ht]; exact hp),ht]

theorem alone (h : Orderly cooldown w) {t u : ℕ} (ht : w.phase t ≠ .idle) (hu : w.phase u ≠ .idle) : t = u := by
  by_contra hne
  exact ht (h.others hu hne)

end Orderly

end

/-! ## The uses one after another

What the callers' steps do together, whole uses and shutdowns do one after another.
-/
section
variable {C : Type} {disconnect : EStateM Fault C Unit} {cooldown now : ℤ} {s s' : SharedRpcnClient C}
  {moment : Moment C} {p : Phase}

def settle (disconnect : EStateM Fault C Unit) (now : ℤ) {β : Type} :
    EStateM.Result Fault (SharedRpcnClient C) β → SharedRpcnClient C
  | .ok _ s => s
  | .error e s => if e.ofConnection then left (discard disconnect now s) else s

theorem settle_lost {β : Type} {r : EStateM.Result Fault (SharedRpcnClient C) β} (h : ending r = .lost) :
    settle disconnect now r = left (discard disconnect now (left r)) := by
  cases r with
  | ok a s => cases h
  | error e s =>
    simp only [ending] at h
    split at h
    · rename_i he
      exact if_pos he
    · cases h

theorem settle_kept {β : Type} {r : EStateM.Result Fault (SharedRpcnClient C) β} (h : ending r ≠ .lost) :
    settle disconnect now r = left r := by
  cases r with
  | ok a s => rfl
  | error e s =>
    simp only [ending] at h
    split at h
    · exact absurd rfl h
    · rename_i he
      exact if_neg he

theorem apiClient_left {β : Type} (use : EStateM Fault C β) (s : SharedRpcnClient C) :
    left (apiClient disconnect cooldown moment use s) =
      settle disconnect moment.notedAt ((connected cooldown moment >>= onClient use) s) := by
  unfold apiClient
  simp only [tryCatch,tryCatchThe,MonadExceptOf.tryCatch,EStateM.tryCatch]
  cases (connected cooldown moment >>= onClient use) s with
  | ok a s' => rfl
  | error e s' => cases e <;> rfl

theorem bind_connected {β : Type} {c : C} (use : EStateM Fault C β) (h : connected cooldown moment s = .ok c s') :
    (connected cooldown moment >>= onClient use) s = onClient use c s' := by
  simp only [bind,EStateM.bind,h]

theorem connected_made {enteredAt : ℤ} {factory : EStateM.Result Fault C Unit} (notedAt : ℤ)
    (hclient : s.client = none) (hcool : ensureCooledDown cooldown enteredAt s = .ok () s) :
    connected cooldown ⟨enteredAt,notedAt,factory⟩ s = made factory s := by
  rw [connected_none hclient]
  simp only [bind,EStateM.bind,hcool]

variable (disconnect cooldown) in
/-- Reached by whole uses and shutdowns. -/
def Whole (s : SharedRpcnClient C) : Prop := ReflTransGen (Step disconnect cooldown) (.fresh C) s

variable (disconnect cooldown) in
/-- The use of the lock's holder has been begun by the state that whole ones reached. -/
def Begun (s : SharedRpcnClient C) : Phase → Prop
  | .idle | .entered | .closing => Whole disconnect cooldown s
  | .cleared | .calling => Whole disconnect cooldown s ∧ s.client = none ∧
      ∃ enteredAt, ensureCooledDown cooldown enteredAt s = .ok () s
  | .inUse _ => ∃ s₀ enteredAt factory c, Whole disconnect cooldown s₀ ∧
      ∀ notedAt, connected cooldown ⟨enteredAt,notedAt,factory⟩ s₀ = .ok c s ∧ s.client = some c
  | .failing => ∀ now, Whole disconnect cooldown (left (discard disconnect now s))

theorem Whole.use {β : Type} (h : Whole disconnect cooldown s) (moment : Moment C) (use : EStateM Fault C β) :
    Whole disconnect cooldown (settle disconnect moment.notedAt ((connected cooldown moment >>= onClient use) s)) := by
  rw [← apiClient_left]
  exact h.tail (.use moment use)

/-- A use that never gets a client. -/
theorem Whole.unconnected {e : Fault} (h : Whole disconnect cooldown s)
    (hconnected : connected cooldown moment s = .error e s') :
    Whole disconnect cooldown (if e.ofConnection then left (discard disconnect moment.notedAt s') else s') := by
  have hbind : (connected cooldown moment >>= onClient (pure () : EStateM Fault C Unit)) s = .error e s' := by
    simp only [bind,EStateM.bind,hconnected]
  have huse := h.use moment (pure () : EStateM Fault C Unit)
  rw [hbind] at huse
  exact huse

theorem Begun.refuse {e : Fault} (h : Begun disconnect cooldown s .entered) (hclient : s.client = none)
    (hcool : ensureCooledDown cooldown now s = .error e s') : Begun disconnect cooldown s' .idle := by
  obtain ⟨rfl,_⟩ := ensureCooledDown_error hcool
  exact h

theorem Begun.clear (h : Begun disconnect cooldown s .entered) (hclient : s.client = none)
    (hcool : ensureCooledDown cooldown now s = .ok () s') : Begun disconnect cooldown s' .cleared := by
  obtain ⟨rfl,_⟩ := ensureCooledDown_ok hcool
  exact ⟨h,hclient,now,hcool⟩

theorem Begun.hold {c : C} (h : Begun disconnect cooldown s .entered) (hclient : s.client = some c) (n : ℕ) :
    Begun disconnect cooldown s (.inUse n) :=
  ⟨s,0,.ok () c,c,h,fun _ => ⟨connected_held hclient,hclient⟩⟩

theorem Begun.fill {factory : EStateM.Result Fault C Unit} {client : C}
    (h : Begun disconnect cooldown s .calling) (hmade : made factory s = .ok client s') (n : ℕ) :
    Begun disconnect cooldown s' (.inUse n) := by
  obtain ⟨hwhole,hclient,enteredAt,hcool⟩ := h
  refine ⟨s,enteredAt,factory,client,hwhole,fun notedAt => ?_⟩
  have hconnected := (connected_made notedAt hclient hcool).trans hmade
  exact ⟨hconnected,connected_client hconnected⟩

theorem Begun.fault {factory : EStateM.Result Fault C Unit} {e : Fault} (h : Begun disconnect cooldown s .calling)
    (hmade : made factory s = .error e s') (he : e.ofConnection = true) :
    Begun disconnect cooldown s' .failing := by
  obtain ⟨hwhole,hclient,enteredAt,hcool⟩ := h
  intro now
  have huse := hwhole.unconnected ((connected_made now hclient hcool).trans hmade)
  rwa [if_pos he] at huse

theorem Begun.faultOther {factory : EStateM.Result Fault C Unit} {e : Fault}
    (h : Begun disconnect cooldown s .calling) (hmade : made factory s = .error e s')
    (he : e.ofConnection = false) : Begun disconnect cooldown s' .idle := by
  obtain ⟨hwhole,hclient,enteredAt,hcool⟩ := h
  have huse := hwhole.unconnected ((connected_made 0 hclient hcool).trans hmade)
  rwa [if_neg (by rw [he]; nofun)] at huse

theorem Begun.lose {n : ℕ} {c : C} {β : Type} {use : EStateM Fault C β}
    (h : Begun disconnect cooldown s (.inUse n)) (hclient : s.client = some c)
    (hlost : ending (onClient use c s) = .lost) :
    Begun disconnect cooldown (left (onClient use c s)) .failing := by
  obtain ⟨s₀,enteredAt,factory,c',hwhole,hconnected⟩ := h
  intro now
  obtain ⟨hconnected,hclient'⟩ := hconnected now
  obtain rfl : c = c' := Option.some.inj (hclient.symm.trans hclient')
  have huse := hwhole.use ⟨enteredAt,now,factory⟩ use
  rwa [bind_connected use hconnected,settle_lost hlost] at huse

theorem Begun.finish {n : ℕ} {c : C} {β : Type} {use : EStateM Fault C β}
    (h : Begun disconnect cooldown s (.inUse n)) (hclient : s.client = some c)
    (hkept : ending (onClient use c s) ≠ .lost) : Begun disconnect cooldown (left (onClient use c s)) .idle := by
  obtain ⟨s₀,enteredAt,factory,c',hwhole,hconnected⟩ := h
  obtain ⟨hconnected,hclient'⟩ := hconnected 0
  obtain rfl : c = c' := Option.some.inj (hclient.symm.trans hclient')
  have huse := hwhole.use ⟨enteredAt,0,factory⟩ use
  rwa [bind_connected use hconnected,settle_kept hkept] at huse

structure Serial (disconnect : EStateM Fault C Unit) (cooldown : ℤ) (w : Sharing C) : Prop where
  orderly : Orderly cooldown w
  begun : Begun disconnect cooldown w.shared w.current

variable {w w' : Sharing C} {t : ℕ}

theorem Sharing.current_of (hlock : w.lock = some t) (ht : w.phase t = p) : w.current = p := by
  unfold Sharing.current
  simp only [hlock,ht]

theorem Sharing.current_free (hlock : w.lock = none) : w.current = .idle := by
  unfold Sharing.current
  simp only [hlock]

theorem Serial.current (h : Serial disconnect cooldown w) (ht : w.phase t = p) (hp : p ≠ .idle) :
    w.lock = some t ∧ Begun disconnect cooldown w.shared p := by
  have hlock := h.orderly.lock t (by rw [ht]; exact hp)
  have hbegun := h.begun
  rw [Sharing.current_of hlock ht] at hbegun
  exact ⟨hlock,hbegun⟩

theorem Serial.free (h : Serial disconnect cooldown w) (hlock : w.lock = none) :
    Whole disconnect cooldown w.shared := by
  have hbegun := h.begun
  rw [Sharing.current_free hlock] at hbegun
  exact hbegun

theorem Begun.goes (hlock : w.lock = some t) (h : Begun disconnect cooldown s' p) (log' : Log C) :
    Begun disconnect cooldown s'
      (Sharing.current { w with shared := s', log := log', phase := Function.update w.phase t p }) := by
  unfold Sharing.current
  simp only [hlock,Function.update_self]
  exact h

theorem Serial.act (h : Serial disconnect cooldown w) (hact : Act disconnect cooldown w w') :
    Serial disconnect cooldown w' := by
  refine ⟨h.orderly.act hact,?_⟩
  cases hact with
  | tick hlater => exact h.begun
  | enter t hlock ht | close t hlock ht =>
    unfold Sharing.current Sharing.acquires Sharing.goes
    simp only [Function.update_self]
    exact h.free hlock
  | hold t ht hclient =>
    obtain ⟨hlock,hbegun⟩ := h.current ht nofun
    obtain ⟨c,hc⟩ := Option.ne_none_iff_exists'.mp hclient
    exact (hbegun.hold hc _).goes hlock _
  | refuse t ht hclient hcool => exact (h.current ht nofun).2.refuse hclient hcool
  | clear t ht hclient hcool =>
    obtain ⟨hlock,hbegun⟩ := h.current ht nofun
    exact (hbegun.clear hclient hcool).goes hlock _
  | call t ht =>
    obtain ⟨hlock,hbegun⟩ := h.current ht nofun
    exact Begun.goes (p := .calling) hlock hbegun _
  | fill t ht hmade =>
    obtain ⟨hlock,hbegun⟩ := h.current ht nofun
    exact (hbegun.fill hmade _).goes hlock _
  | fault t ht hmade he =>
    obtain ⟨hlock,hbegun⟩ := h.current ht nofun
    exact (hbegun.fault hmade he).goes hlock _
  | faultOther t ht hmade he => exact (h.current ht nofun).2.faultOther hmade he
  | lose t ht hclient use hlost =>
    obtain ⟨hlock,hbegun⟩ := h.current ht nofun
    exact (hbegun.lose hclient hlost).goes hlock _
  | finish t ht hclient use hkept => exact (h.current ht nofun).2.finish hclient hkept
  | discard t ht => exact (h.current ht nofun).2 w.now
  | shut t ht => exact (h.current ht nofun).2.tail .shutdown

/-- Whatever the callers do at once, while nobody holds the lock the shared client is as whole
uses and shutdowns one after another leave it. -/
theorem uses_serial (h : ReflTransGen (Act disconnect cooldown) (.start C now) w) (hlock : w.lock = none) :
    Whole disconnect cooldown w.shared := by
  have hserial : Serial disconnect cooldown w := by
    clear hlock
    induction h with
    | refl => exact ⟨.start now,.refl⟩
    | tail _ hact ih => exact ih.act hact
  exact hserial.free hlock

end

section
variable {C : Type} {disconnect : EStateM Fault C Unit} {cooldown : ℤ} {w w' : Sharing C} {s : SharedRpcnClient C}

theorem refusal_unchanged {time : ℤ} (hact : Act disconnect cooldown w w') (h : w'.log = .refused time :: w.log) :
    w'.shared = w.shared := by
  cases hact with
  | refuse t _ _ hcool => exact (ensureCooledDown_error hcool).1
  | tick | enter | clear | faultOther | close => exact absurd h.symm (List.cons_ne_self _ _)
  | hold | call | fill | fault | lose | finish | discard | shut => cases (List.cons.inj h).1

/-- The client as it is after `disconnect`, however that ends. -/
theorem disconnected_eq (disconnect : EStateM Fault C Unit) (client : C) :
    disconnected disconnect client = left (disconnect client) := by
  unfold disconnected
  cases disconnect client <;> rfl

theorem noted_disconnects {n : Option ℕ} {time : ℤ} (hact : Act disconnect cooldown w w')
    (h : w'.log = .noted n time :: w.log) : w'.shared.client = none ∧
      w'.shared.letGo = (w.shared.client.map fun client => left (disconnect client)).toList ++ w.shared.letGo := by
  cases hact with
  | discard t ht =>
    refine ⟨rfl,?_⟩
    simp only [← disconnected_eq]
    rfl
  | tick | enter | clear | faultOther | close => exact absurd h.symm (List.cons_ne_self _ _)
  | hold | call | fill | fault | refuse | lose | finish | shut => cases (List.cons.inj h).1

theorem made_letGo {factory : EStateM.Result Fault C Unit} {r : EStateM.Result Fault (SharedRpcnClient C) C}
    (h : made factory s = r) : s.letGo <:+ (left r).letGo := by
  subst h
  unfold made
  cases factory with
  | ok _ client => exact List.suffix_rfl
  | error e client => exact List.suffix_cons client s.letGo

theorem onClient_letGo {β : Type} (use : EStateM Fault C β) (client : C) (s : SharedRpcnClient C) :
    (left (onClient use client s)).letGo = s.letGo := by
  unfold onClient
  cases use client <;> rfl

theorem onClient_client {β : Type} (use : EStateM Fault C β) (client : C) (s : SharedRpcnClient C) :
    (left (onClient use client s)).client = some (left (use client)) := by
  unfold onClient
  cases use client <;> rfl

theorem Act.letGo (hact : Act disconnect cooldown w w') : w.shared.letGo <:+ w'.shared.letGo := by
  cases hact with
  | tick | enter | hold | call | close => exact List.suffix_rfl
  | refuse t _ _ hcool =>
    obtain ⟨rfl,_⟩ := ensureCooledDown_error hcool
    exact List.suffix_rfl
  | clear t _ _ hcool =>
    obtain ⟨rfl,_⟩ := ensureCooledDown_ok hcool
    exact List.suffix_rfl
  | fill t _ hmade => exact made_letGo hmade
  | fault t _ hmade _ | faultOther t _ hmade _ => exact made_letGo hmade
  | lose t _ _ use _ | finish t _ _ use _ =>
    exact (onClient_letGo use _ w.shared) ▸ List.suffix_rfl
  | discard | shut => exact List.suffix_append _ _

theorem Act.log (hact : Act disconnect cooldown w w') : w.log ⊆ w'.log := by
  cases hact with
  | tick | enter | clear | faultOther | close => exact List.Subset.refl w.log
  | hold | refuse | call | fill | fault | lose | finish | discard | shut => exact List.subset_cons_self _ w.log

/-- Who was lost has been disconnected and let go, or the failure is still on its way out. -/
def Gone (disconnect : EStateM Fault C Unit) (w : Sharing C) : Prop :=
  ∀ n client time, .ended n .lost client time ∈ w.log →
    (∃ time', .noted (some n) time' ∈ w.log) ∧ left (disconnect client) ∈ w.shared.letGo ∨
      w.current = .failing ∧ w.shared.client = some client ∧ w.shared.made = n

theorem Orderly.made_eq (h : Orderly cooldown w) {t n : ℕ} (ht : w.phase t = .inUse n) : w.shared.made = n := by
  obtain ⟨_,hheld,_⟩ := (h.current ht nofun).finds
  unfold SharedRpcnClient.held at hheld
  obtain ⟨_,_,hn⟩ := Option.map_eq_some_iff.mp hheld
  exact hn

/-- A client is lost by the step that ends its use. -/
theorem Act.lost (hact : Act disconnect cooldown w w') (horderly : Orderly cooldown w) {n : ℕ} {client : C}
    {time : ℤ} (hlost : .ended n .lost client time ∈ w'.log) : .ended n .lost client time ∈ w.log ∨
      w'.current = .failing ∧ w'.shared.client = some client ∧ w'.shared.made = n := by
  cases hact with
  | tick | enter | clear | faultOther | close => exact .inl hlost
  | hold | refuse | call | fill | fault | discard | shut =>
    rcases List.mem_cons.mp hlost with heq | hmem
    · cases heq
    · exact .inl hmem
  | finish t ht hclient use hkept =>
    rcases List.mem_cons.mp hlost with heq | hmem
    · exact absurd (Event.ended.inj heq).2.1.symm hkept
    · exact .inl hmem
  | @lose t m ht c hclient β use hend =>
    rcases List.mem_cons.mp hlost with heq | hmem
    · cases heq
      have hlock : w.lock = some t := horderly.lock t (by rw [ht]; nofun)
      refine .inr ⟨Sharing.current_of (t := t) hlock (Function.update_self t _ w.phase),?_,?_⟩
      · exact onClient_client use c w.shared
      · exact (onClient_left hclient).made.trans (horderly.made_eq ht)
    · exact .inl hmem

/-- What a failure meets next is its `discard`, whoever waits for the lock. -/
theorem Act.failing (hact : Act disconnect cooldown w w') (horderly : Orderly cooldown w)
    (hfailing : w.current = .failing) : (w'.current = .failing ∧ w'.shared = w.shared) ∨
      ∃ time, w'.log = .noted w.shared.held time :: w.log := by
  have hnot {t : ℕ} {p : Phase} (ht : w.phase t = p) (hp : p ≠ .idle) : p = .failing :=
    (horderly.current_eq ht hp).symm.trans hfailing
  cases hact with
  | tick _ => exact .inl ⟨hfailing,rfl⟩
  | discard t ht => exact .inr ⟨w.now,rfl⟩
  | enter t hlock _ | close t hlock _ =>
    rw [Sharing.current_free hlock] at hfailing
    cases hfailing
  | hold t ht _ | call t ht | fill t ht _ | shut t ht => cases hnot ht nofun
  | refuse t ht _ _ | clear t ht _ _ => cases hnot ht nofun
  | fault t ht _ _ | faultOther t ht _ _ => cases hnot ht nofun
  | lose t ht _ _ _ | finish t ht _ _ _ => cases hnot ht nofun

theorem Gone.act (h : Gone disconnect w) (horderly : Orderly cooldown w) (hact : Act disconnect cooldown w w') :
    Gone disconnect w' := by
  intro n client time hlost
  rcases hact.lost horderly hlost with hbefore | hnow
  · rcases h n client time hbefore with ⟨⟨time',hnoted⟩,hgone⟩ | ⟨hfailing,hclient,hmade⟩
    · exact .inl ⟨⟨time',hact.log hnoted⟩,hact.letGo.subset hgone⟩
    · rcases hact.failing horderly hfailing with ⟨hstill,hsame⟩ | ⟨time',hlog⟩
      · exact .inr ⟨hstill,by rw [hsame,hclient],by rw [hsame,hmade]⟩
      · obtain ⟨_,hletGo⟩ := noted_disconnects hact hlog
        refine .inl ⟨⟨time',?_⟩,?_⟩
        · rw [hlog,held_some (by rw [hclient]; nofun),hmade]
          exact List.mem_cons_self
        · rw [hletGo,hclient]
          exact List.mem_cons_self
  · exact .inr hnow

variable (disconnect cooldown) in
/-- What holds of the shared client after any run. -/
structure Life (w : Sharing C) : Prop where
  lawful : LawfulLog cooldown w.log
  refusal : ∀ w' time, Act disconnect cooldown w w' → w'.log = .refused time :: w.log → w'.shared = w.shared
  /-- Who was lost is disconnected, or the failure is still on its way out. -/
  lost : ∀ n client time, .ended n .lost client time ∈ w.log →
    (∃ time', .noted (some n) time' ∈ w.log) ∧ left (disconnect client) ∈ w.shared.letGo ∨
      (∃ t, w.phase t = .failing) ∧ w.shared.client = some client
  discards : ∀ w' n time, Act disconnect cooldown w w' → w'.log = .noted n time :: w.log →
    w'.shared.client = none ∧
      w'.shared.letGo = (w.shared.client.map fun client => left (disconnect client)).toList ++ w.shared.letGo
  alone : ∀ t u, w.phase t ≠ .idle → w.phase u ≠ .idle → t = u

theorem reachable_gone {now : ℤ} (h : ReflTransGen (Act disconnect cooldown) (.start C now) w) :
    Orderly cooldown w ∧ Gone disconnect w := by
  induction h with
  | refl => exact ⟨.start now,nofun⟩
  | tail _ hact ih => exact ⟨ih.1.act hact,ih.2.act ih.1 hact⟩

theorem Sharing.failing_of (h : w.current = .failing) : ∃ t, w.phase t = .failing := by
  unfold Sharing.current at h
  cases hlock : w.lock with
  | none =>
    rw [hlock] at h
    cases h
  | some t =>
    rw [hlock] at h
    exact ⟨t,h⟩

theorem sharedRpcnClient_life (disconnect : EStateM Fault C Unit) (cooldown now : ℤ) {w : Sharing C}
    (h : ReflTransGen (Act disconnect cooldown) (.start C now) w) : Life disconnect cooldown w := by
  obtain ⟨horderly,hgone⟩ := reachable_gone h
  refine ⟨horderly.sound.lawful,fun _ _ => refusal_unchanged,?_,fun _ _ _ => noted_disconnects,
    fun _ _ => horderly.alone⟩
  intro n client time hlost
  rcases hgone n client time hlost with hgone | ⟨hfailing,hclient,_⟩
  · exact .inl hgone
  · exact .inr ⟨Sharing.failing_of hfailing,hclient⟩

/-- Whether it is connected is all there is to this client. -/
def hangUp : EStateM Fault Bool Unit := set false

/-- A use that is lost, and one that is refused. -/
theorem sharedRpcnClient_life_refused : ∃ w : Sharing Bool,
    w.log = [.refused 0,.noted (some 1) 0,.ended 1 .lost true 0,.handed 1,.called 0] ∧
    w.shared.letGo = [false] ∧ Life hangUp 5 w := by
  have h := ReflTransGen.refl (r := Act hangUp 5) (a := .start Bool 0)
  have h := h.tail (.enter 0 rfl rfl)
  have h := h.tail (.clear 0 rfl rfl rfl)
  have h := h.tail (.call 0 rfl)
  have h := h.tail (@Act.fill _ _ _ _ 0 rfl (.ok () true) _ _ rfl)
  have h := h.tail (.lose 0 rfl rfl (throw (.osError "reset") : EStateM Fault Bool Unit) rfl)
  have h := h.tail (.discard 0 rfl)
  have h := h.tail (.enter 1 rfl rfl)
  have h := h.tail (.refuse 1 rfl rfl rfl)
  exact ⟨_,rfl,rfl,sharedRpcnClient_life hangUp 5 0 h⟩

end

end Tag2now.Matching
