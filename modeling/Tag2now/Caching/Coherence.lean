import Mathlib.Logic.Relation
import Tag2now.Caching.ReadThrough
import Tag2now.Collections.Slots

/-! # Reading through a cache while others write

Readers answer from the cache, or fetch on a miss, statement by statement, and store what
they fetched. Writers commit, and drop the entry before they return. A fill is fresh when
what it stores was fetched after every write whose writer had dropped the entry by then;
where every fill is fresh, a read that begins after a writer has returned includes its
write. A fill that is not fresh leaves an entry that lacks a write till it expires.
-/
namespace Coherence
open ReadThrough Collections

/-- A cache whose entries can be dropped. -/
structure Invalidating (C κ ν : Type) extends Cache C κ ν where
  delete : C → κ → C → Prop
  delete_holds : ∀ {c c' k k' v}, delete c k c' → holds c' k' v → holds c k' v ∧ k' ≠ k

/-- What is read through the cache and what is written behind it. -/
structure Source (κ ρ σ ω ε ν : Type) where
  key : ρ → κ
  /-- There is more to ask after these answers. -/
  asks : ρ → List σ → Prop
  /-- What may be answered from these. -/
  gives : ρ → List σ → Except ε ν → Prop
  target : ω → ρ
  /-- The statements of a fetch whose answers the write changes. -/
  parts : ω → List ℕ
  effect : ω → σ → σ → Prop
  /-- Commits that drop no entry. -/
  other : σ → σ → Prop
  key_injective : Function.Injective key

structure Commit (ω : Type) where
  op : ω
  /-- The version it made. -/
  version : ℕ

structure Fetch (ρ ω : Type) where
  resource : ρ
  /-- The version each statement has read. -/
  seen : List ℕ
  /-- The writes whose writers had returned when it began. -/
  after : List (Commit ω)

structure Answer (ρ ω ε ν : Type) where
  resource : ρ
  after : List (Commit ω)
  result : Except ε ν

structure State (C ρ σ ω ε ν : Type) where
  history : List σ
  cache : C
  /-- Committed, and the entry not dropped yet. -/
  pending : List (Commit ω)
  returned : List (Commit ω)
  fetching : ℕ → Option (Fetch ρ ω)
  answers : List (Answer ρ ω ε ν)

inductive Label (ρ ω : Type)
  | commit (op : ω)
  | other
  | finish (c : Commit ω)
  | hit (r : ρ)
  | miss (id : ℕ) (r : ρ)
  | fetch (id : ℕ)
  | fill (id : ℕ)
  | fail (id : ℕ)
  | abort (id : ℕ)

def states {σ : Type} (history : List σ) (seen : List ℕ) : List σ := seen.filterMap (history[·]?)

section
variable {C κ ρ σ ω ε ν : Type} (M : Invalidating C κ ν) (S : Source κ ρ σ ω ε ν)

inductive Step (s : State C ρ σ ω ε ν) : Label ρ ω → State C ρ σ ω ε ν → Prop
  | commit {op : ω} {db db' : σ} : s.history.getLast? = some db → S.effect op db db' → Step s (.commit op)
      { s with history := s.history ++ [db'], pending := ⟨op,s.history.length⟩ :: s.pending }
  | other {db db' : σ} : s.history.getLast? = some db → S.other db db' → Step s .other
      { s with history := s.history ++ [db'] }
  | finish {c : Commit ω} {before behind : List (Commit ω)} {cache : C} : s.pending = before ++ c :: behind →
      M.delete s.cache (S.key (S.target c.op)) cache → Step s (.finish c)
      { s with cache := cache, pending := before ++ behind, returned := c :: s.returned }
  | hit {r : ρ} {v : ν} {cache : C} : M.get s.cache (S.key r) (some v) cache → Step s (.hit r)
      { s with cache := cache, answers := ⟨r,s.returned,.ok v⟩ :: s.answers }
  | miss {id : ℕ} {r : ρ} {cache : C} : s.fetching id = none → M.get s.cache (S.key r) none cache →
      Step s (.miss id r)
      { s with cache := cache, fetching := Function.update s.fetching id (some ⟨r,[],s.returned⟩) }
  | fetch {id : ℕ} {f : Fetch ρ ω} : s.fetching id = some f → S.asks f.resource (states s.history f.seen) →
      Step s (.fetch id)
      { s with fetching :=
          Function.update s.fetching id (some { f with seen := f.seen ++ [s.history.length - 1] }) }
  | fill {id : ℕ} {f : Fetch ρ ω} {v : ν} {cache : C} : s.fetching id = some f →
      S.gives f.resource (states s.history f.seen) (.ok v) → M.set s.cache (S.key f.resource) v cache →
      Step s (.fill id)
      { s with
        cache := cache
        fetching := Function.update s.fetching id none
        answers := ⟨f.resource,f.after,.ok v⟩ :: s.answers }
  | fail {id : ℕ} {f : Fetch ρ ω} {e : ε} : s.fetching id = some f →
      S.gives f.resource (states s.history f.seen) (.error e) → Step s (.fail id)
      { s with
        fetching := Function.update s.fetching id none
        answers := ⟨f.resource,f.after,.error e⟩ :: s.answers }
  /-- It is cancelled, or what it asked failed. -/
  | abort {id : ℕ} {f : Fetch ρ ω} : s.fetching id = some f → Step s (.abort id)
      { s with fetching := Function.update s.fetching id none }

def start (db : σ) : State C ρ σ ω ε ν := ⟨[db],M.empty,[],[],fun _ => none,[]⟩

/-- The statements whose answers the write changes read it or a later version. -/
def Source.Covers (seen : List ℕ) (w : Commit ω) : Prop :=
  ∀ n ∈ S.parts w.op, ∀ i, seen[n]? = some i → w.version ≤ i

/-- The result is what a fetch that covers the write gives. -/
def Source.Includes (history : List σ) (r : ρ) (result : Except ε ν) (w : Commit ω) : Prop :=
  ∃ seen, (∀ i ∈ seen, i < history.length) ∧ S.gives r (states history seen) result ∧ S.Covers seen w

/-- What a fill stores covers every write whose writer has dropped the entry. -/
def FillsFresh (s : State C ρ σ ω ε ν) (label : Label ρ ω) : Prop :=
  ∀ id f, label = .fill id → s.fetching id = some f →
    ∀ w ∈ s.returned, S.target w.op = f.resource → S.Covers f.seen w

def Run (s t : State C ρ σ ω ε ν) : Prop := Relation.ReflTransGen (fun s t => ∃ label, Step M S s label t) s t

def FreshRun (s t : State C ρ σ ω ε ν) : Prop :=
  Relation.ReflTransGen (fun s t => ∃ label, Step M S s label t ∧ FillsFresh S s label) s t

/-- Every answer includes every write to it that had returned when the read began. -/
def Coherent (s : State C ρ σ ω ε ν) : Prop :=
  ∀ a ∈ s.answers, ∀ w ∈ a.after, S.target w.op = a.resource → S.Includes s.history a.resource a.result w

/-- What a run whose fills are fresh keeps. -/
structure Kept (s : State C ρ σ ω ε ν) : Prop where
  nonempty : s.history ≠ []
  pending : ∀ c ∈ s.pending, c.version < s.history.length
  returned : ∀ c ∈ s.returned, c.version < s.history.length
  seen : ∀ id f, s.fetching id = some f → ∀ i ∈ f.seen, i < s.history.length
  after : ∀ id f, s.fetching id = some f → ∀ w ∈ f.after, w.version < s.history.length ∧ ∀ i ∈ f.seen, w.version ≤ i
  cached : ∀ r v, M.holds s.cache (S.key r) v →
    ∀ w ∈ s.returned, S.target w.op = r → S.Includes s.history r (.ok v) w
  coherent : Coherent S s

variable {M S} {s t : State C ρ σ ω ε ν} {label : Label ρ ω} {history : List σ} {seen : List ℕ} {db : σ}

theorem states_append (h : ∀ i ∈ seen, i < history.length) : states (history ++ [db]) seen = states history seen := by
  unfold states
  refine List.filterMap_congr fun i hi => ?_
  exact List.getElem?_append_left (h i hi)

theorem Source.Includes.append {r : ρ} {result : Except ε ν} {w : Commit ω} (h : S.Includes history r result w) :
    S.Includes (history ++ [db]) r result w := by
  obtain ⟨seen,hbound,hgives,hcovers⟩ := h
  refine ⟨seen,fun i hi => ?_,?_,hcovers⟩
  · have hlt := hbound i hi
    rw [List.length_append]
    omega
  · rw [states_append hbound]
    exact hgives

theorem covers_of_forall {w : Commit ω} (h : ∀ i ∈ seen, w.version ≤ i) : S.Covers seen w :=
  fun _ _ i hi => h i (List.mem_of_getElem? hi)

theorem Kept.append (h : Kept M S s) {pending : List (Commit ω)}
    (hpending : ∀ c ∈ pending, c ∈ s.pending ∨ c.version = s.history.length) :
    Kept M S { s with history := s.history ++ [db], pending := pending } := by
  have hlength : (s.history ++ [db]).length = s.history.length + 1 := by simp
  constructor
  case nonempty => simp
  case pending =>
    intro c hc
    change c.version < (s.history ++ [db]).length
    rcases hpending c hc with hold | hnew
    · have hlt := h.pending c hold
      omega
    · omega
  case returned =>
    intro c hc
    have hlt := h.returned c hc
    change c.version < (s.history ++ [db]).length
    omega
  case seen =>
    intro id f hf i hi
    have hlt := h.seen id f hf i hi
    change i < (s.history ++ [db]).length
    omega
  case after =>
    intro id f hf w hw
    obtain ⟨hlt,hseen⟩ := h.after id f hf w hw
    refine ⟨?_,hseen⟩
    change w.version < (s.history ++ [db]).length
    omega
  case cached => exact fun r v hv w hw htarget => (h.cached r v hv w hw htarget).append
  case coherent => exact fun a ha w hw htarget => (h.coherent a ha w hw htarget).append

theorem Kept.finish (h : Kept M S s) {c : Commit ω} {before behind : List (Commit ω)} {cache : C}
    (hpending : s.pending = before ++ c :: behind) (hdelete : M.delete s.cache (S.key (S.target c.op)) cache) :
    Kept M S { s with cache := cache, pending := before ++ behind, returned := c :: s.returned } := by
  have hmem : ∀ d, d ∈ before ++ behind ∨ d = c → d ∈ s.pending := by
    intro d hd
    rw [hpending]
    simp only [List.mem_append,List.mem_cons] at hd ⊢
    tauto
  constructor
  case nonempty => exact h.nonempty
  case pending => exact fun d hd => h.pending d (hmem d (.inl hd))
  case returned =>
    intro d hd
    rcases List.mem_cons.mp hd with rfl | hold
    · exact h.pending d (hmem d (.inr rfl))
    · exact h.returned d hold
  case seen => exact h.seen
  case after => exact h.after
  case cached =>
    intro r v hv w hw htarget
    obtain ⟨hheld,hne⟩ := M.delete_holds hdelete hv
    rcases List.mem_cons.mp hw with rfl | hold
    · exact absurd (congrArg S.key htarget.symm) hne
    · exact h.cached r v hheld w hold htarget
  case coherent => exact h.coherent

theorem Kept.hit (h : Kept M S s) {r : ρ} {v : ν} {cache : C} (hget : M.get s.cache (S.key r) (some v) cache) :
    Kept M S { s with cache := cache, answers := ⟨r,s.returned,.ok v⟩ :: s.answers } := by
  constructor
  case nonempty => exact h.nonempty
  case pending => exact h.pending
  case returned => exact h.returned
  case seen => exact h.seen
  case after => exact h.after
  case cached => exact fun r' v' hv w hw htarget => h.cached r' v' (M.get_kept hget hv) w hw htarget
  case coherent =>
    intro a ha w hw htarget
    rcases List.mem_cons.mp ha with rfl | hold
    · exact h.cached r v (M.get_holds hget) w hw htarget
    · exact h.coherent a hold w hw htarget

/-- One read goes on: it is begun or has asked once more. -/
theorem Kept.fetching (h : Kept M S s) {id : ℕ} {f : Fetch ρ ω} {cache : C}
    (hcache : ∀ k v, M.holds cache k v → M.holds s.cache k v) (hseen : ∀ i ∈ f.seen, i < s.history.length)
    (hafter : ∀ w ∈ f.after, w.version < s.history.length ∧ ∀ i ∈ f.seen, w.version ≤ i) :
    Kept M S { s with cache := cache, fetching := Function.update s.fetching id (some f) } := by
  constructor
  case nonempty => exact h.nonempty
  case pending => exact h.pending
  case returned => exact h.returned
  case seen =>
    intro id' f' hf'
    rcases of_filled hf' with rfl | hold
    · exact hseen
    · exact h.seen id' f' hold
  case after =>
    intro id' f' hf'
    rcases of_filled hf' with rfl | hold
    · exact hafter
    · exact h.after id' f' hold
  case cached => exact fun r v hv w hw htarget => h.cached r v (hcache _ _ hv) w hw htarget
  case coherent => exact h.coherent

theorem Kept.abort (h : Kept M S s) (id : ℕ) :
    Kept M S { s with fetching := Function.update s.fetching id none } where
  nonempty := h.nonempty
  pending := h.pending
  returned := h.returned
  seen id' f hf := h.seen id' f (of_cleared hf)
  after id' f hf := h.after id' f (of_cleared hf)
  cached := h.cached
  coherent := h.coherent

theorem Kept.answered (h : Kept M S s) {id : ℕ} {f : Fetch ρ ω} {result : Except ε ν} {cache : C}
    (hf : s.fetching id = some f) (hgives : S.gives f.resource (states s.history f.seen) result)
    (hcached : ∀ r v, M.holds cache (S.key r) v → ∀ w ∈ s.returned, S.target w.op = r →
      S.Includes s.history r (.ok v) w) :
    Kept M S { s with
      cache := cache
      fetching := Function.update s.fetching id none
      answers := ⟨f.resource,f.after,result⟩ :: s.answers } := by
  constructor
  case nonempty => exact h.nonempty
  case pending => exact h.pending
  case returned => exact h.returned
  case seen => exact fun id' f' hf' => h.seen id' f' (of_cleared hf')
  case after => exact fun id' f' hf' => h.after id' f' (of_cleared hf')
  case cached => exact hcached
  case coherent =>
    intro a ha w hw htarget
    rcases List.mem_cons.mp ha with rfl | hold
    · have hcovers := (h.after id f hf w hw).2
      exact ⟨f.seen,h.seen id f hf,hgives,covers_of_forall hcovers⟩
    · exact h.coherent a hold w hw htarget

theorem Kept.step (h : Kept M S s) (hstep : Step M S s label t) (hfresh : FillsFresh S s label) : Kept M S t := by
  cases hstep with
  | commit _ _ => exact h.append fun c hc => (List.mem_cons.mp hc).elim (fun hnew => .inr (hnew ▸ rfl)) .inl
  | other _ _ => exact h.append fun c hc => .inl hc
  | finish hpending hdelete => exact h.finish hpending hdelete
  | hit hget => exact h.hit hget
  | miss _ hget =>
    refine h.fetching (fun k v => M.get_kept hget) ?_ ?_
    · exact fun i hi => absurd hi List.not_mem_nil
    · exact fun w hw => ⟨h.returned w hw,fun i hi => absurd hi List.not_mem_nil⟩
  | @fetch id f hf _ =>
    have hpos : 0 < s.history.length := List.length_pos_iff.mpr h.nonempty
    refine h.fetching (fun _ _ hv => hv) ?_ ?_
    · intro i hi
      rcases List.mem_append.mp hi with hold | hnew
      · exact h.seen id f hf i hold
      · rw [List.mem_singleton.mp hnew]
        omega
    · intro w hw
      obtain ⟨hlt,hseen⟩ := h.after id f hf w hw
      refine ⟨hlt,fun i hi => ?_⟩
      rcases List.mem_append.mp hi with hold | hnew
      · exact hseen i hold
      · rw [List.mem_singleton.mp hnew]
        omega
  | @fill id f v cache hf hgives hset =>
    refine h.answered hf hgives fun r v' hv w hw htarget => ?_
    rcases M.set_holds hset hv with hold | ⟨hkey,rfl⟩
    · exact h.cached r v' hold w hw htarget
    · have hr := S.key_injective hkey
      subst hr
      exact ⟨f.seen,h.seen id f hf,hgives,hfresh id f rfl hf w hw htarget⟩
  | fail hf hgives => exact h.answered hf hgives h.cached
  | @abort id _ _ => exact h.abort id

theorem kept_start (db : σ) : Kept M S (start M db) where
  nonempty := List.cons_ne_nil _ _
  pending _ hc := absurd hc List.not_mem_nil
  returned _ hc := absurd hc List.not_mem_nil
  seen _ _ hf := by cases hf
  after _ _ hf := by cases hf
  cached _ _ hv := absurd hv M.empty_holds
  coherent _ ha := absurd ha List.not_mem_nil

/-- Where every fill is fresh, every read includes the writes that had returned when it began. -/
theorem FreshRun.coherent {db : σ} (h : FreshRun M S (start M db) t) : Coherent S t := by
  have hkept : Kept M S t := by
    induction h with
    | refl => exact kept_start db
    | tail _ hstep ih =>
      obtain ⟨label,hstep,hfresh⟩ := hstep
      exact ih.step hstep hfresh
  exact hkept.coherent

end

end Coherence
