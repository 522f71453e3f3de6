import Tag2now.Collections.Dict
import Tag2now.Collections.Slots
import Tag2now.Machines.Guarded
import Tag2now.Shared.Cache

/-! # The in-process cache between threads

Each critical section of a call is a step, and so is the clock's reading of a get, which is
made after its lookup and outside the lock. Steps of any calls come in any order. A get that
found an expired entry drops its key in a critical section of its own, and so does
`delete_pattern` with the keys it listed; whatever was set there meanwhile is dropped too.
-/
namespace Tag2now.CacheThreads
open Collections Guarded

/-- What the cache calls of Python's library: `json.dumps`, `json.loads` and `fnmatch.fnmatch`. -/
structure Library (α β : Type) where
  dumps : α → String
  loads : String → β
  fnmatch : String → String → Bool

/-- A call that writes, as it enters its first critical section. -/
inductive Write (α : Type)
  | set (key : String) (value : α) (expireAt : ℤ)
  | delete (key : String)
  | deletePattern (pattern : String)

/-- A get between its critical sections. -/
structure Lookup (α : Type) where
  key : String
  valueJson : String
  expireAt : ℤ
  /-- The clock has been read, and the entry had expired. -/
  expired : Bool
  startedAt : ℤ
  /-- The calls that had written when the get began; the code keeps no such list. -/
  after : List (Write α)

/-- What a get returned, `none` for a missing or expired entry. -/
structure Answer (α β : Type) where
  key : String
  startedAt : ℤ
  after : List (Write α)
  result : Option β

structure Threads (α β : Type) where
  now : ℤ
  store : Dict String (String × ℤ)
  lookups : ℕ → Option (Lookup α)
  /-- The keys that calls of `delete_pattern` are about to drop. -/
  doomed : ℕ → Option (List String)
  writes : List (Write α)
  answers : List (Answer α β)

/-- The steps of all calls; a call between two of them goes by a number. -/
inductive Action (α : Type)
  | wait (now : ℤ)
  | look (id : ℕ) (key : String)
  | readClock (id : ℕ)
  | drop (id : ℕ)
  | set (key : String) (value : α) (ttl readAt : ℤ)
  | delete (key : String)
  | list (id : ℕ) (pattern : String)
  | sweep (id : ℕ)

variable {α β : Type}

def Lookup.answer (get : Lookup α) (result : Option β) : Answer α β := ⟨get.key,get.startedAt,get.after,result⟩

namespace Threads

def empty : Threads α β := ⟨0,∅,fun _ => none,fun _ => none,[],[]⟩

/-- The clock is monotone. -/
def wait (s : Threads α β) (now : ℤ) : Option (Threads α β) := if s.now ≤ now then some { s with now } else none

/-- The first critical section of `get`; a missing entry is answered at once. -/
def look (s : Threads α β) (id : ℕ) (key : String) : Option (Threads α β) :=
  match s.store.lookup key with
  | none => some { s with answers := ⟨key,s.now,s.writes,none⟩ :: s.answers }
  | some (valueJson,expireAt) =>
    if (s.lookups id).isSome then none
    else some { s with
      lookups := Function.update s.lookups id (some ⟨key,valueJson,expireAt,false,s.now,s.writes⟩) }

variable (L : Library α β)

/-- Outside the lock, `get` compares the entry it found with the clock. -/
def readClock (s : Threads α β) (id : ℕ) : Option (Threads α β) :=
  match s.lookups id with
  | none => none
  | some get =>
    if get.expired then none
    else if get.expireAt ≤ s.now then
      some { s with lookups := Function.update s.lookups id (some { get with expired := true }) }
    else some { s with
      lookups := Function.update s.lookups id none
      answers := get.answer (some (L.loads get.valueJson)) :: s.answers }

/-- The second critical section of `get`. -/
def drop (s : Threads α β) (id : ℕ) : Option (Threads α β) :=
  match s.lookups id with
  | none => none
  | some get =>
    if get.expired then some { s with
      store := s.store.erase get.key
      lookups := Function.update s.lookups id none
      answers := get.answer none :: s.answers }
    else none

/-- `set` has read the clock before it takes the lock. -/
def set (s : Threads α β) (key : String) (value : α) (ttl readAt : ℤ) : Option (Threads α β) :=
  if readAt ≤ s.now then
    let expireAt := readAt + ttl * second
    some { s with
      store := s.store.insert key (L.dumps value,expireAt)
      writes := .set key value expireAt :: s.writes }
  else none

def delete (s : Threads α β) (key : String) : Threads α β :=
  { s with store := s.store.erase key, writes := .delete key :: s.writes }

/-- The first critical section of `delete_pattern`, and the matching after it. -/
def list (s : Threads α β) (id : ℕ) (pattern : String) : Option (Threads α β) :=
  if (s.doomed id).isSome then none
  else some { s with
    doomed := Function.update s.doomed id (some (s.store.keys.filter fun key => L.fnmatch key pattern))
    writes := .deletePattern pattern :: s.writes }

/-- The second critical section of `delete_pattern`. -/
def sweep (s : Threads α β) (id : ℕ) : Option (Threads α β) :=
  match s.doomed id with
  | none => none
  | some keys => some { s with store := popAll keys s.store, doomed := Function.update s.doomed id none }

def step (s : Threads α β) : Action α → Option (Threads α β)
  | .wait now => s.wait now
  | .look id key => s.look id key
  | .readClock id => s.readClock L id
  | .drop id => s.drop id
  | .set key value ttl readAt => s.set L key value ttl readAt
  | .delete key => some (s.delete key)
  | .list id pattern => s.list L id pattern
  | .sweep id => s.sweep id

end Threads

def cache (L : Library α β) : Machine (Threads α β) (Action α) := ⟨.empty,Threads.step L⟩

/-! ## What a get may answer -/

section
variable (L : Library α β)

def Write.Touches : Write α → String → Prop
  | .set key' _ _, key => key' = key
  | .delete key', key => key' = key
  | .deletePattern pattern, key => L.fnmatch key pattern = true

/-- The value was set, and no call that touches its key has begun since. -/
def Standing (writes : List (Write α)) (key : String) (value : α) (expireAt : ℤ) : Prop :=
  Stands (Write.Touches L) key (.set key value expireAt) writes

/-- A get that began while a value stood and had not expired answers that value. -/
def Answer.Kept (a : Answer α β) : Prop :=
  ∀ value expireAt, Standing L a.after a.key value expireAt → a.startedAt < expireAt →
    a.result = some (L.loads (L.dumps value))

/-- A value answered was set, and had not expired when the get began. -/
def Answer.Fresh (a : Answer α β) : Prop :=
  ∀ x, a.result = some x → ∃ value expireAt, .set a.key value expireAt ∈ a.after ∧ a.startedAt < expireAt ∧
    x = L.loads (L.dumps value)

/-- Under the key there is a live entry that no call has touched since it was set. -/
def Threads.Live (s : Threads α β) (key : String) : Prop :=
  ∃ value expireAt, Standing L s.writes key value expireAt ∧ s.now < expireAt

/-- The step drops no live entry, and a get that found one has read the clock before it expires. -/
def Careful (s : Threads α β) : Action α → Prop
  | .readClock id => ∀ get, s.lookups id = some get → ∀ value expireAt,
      Standing L get.after get.key value expireAt → get.startedAt < expireAt → s.now < expireAt
  | .drop id => ∀ get, s.lookups id = some get → ¬ s.Live L get.key
  | .sweep id => ∀ keys, s.doomed id = some keys → ∀ key ∈ keys, ¬ s.Live L key
  | _ => True

end

/-! ## One step -/

section
variable (L : Library α β)

/-- All that a step can do. -/
inductive Moves (s : Threads α β) : Action α → Threads α β → Prop
  | wait {now : ℤ} : s.now ≤ now → Moves s (.wait now) { s with now }
  | miss {id : ℕ} {key : String} : s.store.lookup key = none →
      Moves s (.look id key) { s with answers := ⟨key,s.now,s.writes,none⟩ :: s.answers }
  | found {id : ℕ} {key valueJson : String} {expireAt : ℤ} : s.store.lookup key = some (valueJson,expireAt) →
      s.lookups id = none → Moves s (.look id key) { s with
        lookups := Function.update s.lookups id (some ⟨key,valueJson,expireAt,false,s.now,s.writes⟩) }
  | live {id : ℕ} {get : Lookup α} : s.lookups id = some get → get.expired = false → s.now < get.expireAt →
      Moves s (.readClock id) { s with
        lookups := Function.update s.lookups id none
        answers := get.answer (some (L.loads get.valueJson)) :: s.answers }
  | expired {id : ℕ} {get : Lookup α} : s.lookups id = some get → get.expired = false → get.expireAt ≤ s.now →
      Moves s (.readClock id) { s with
        lookups := Function.update s.lookups id (some { get with expired := true }) }
  | drop {id : ℕ} {get : Lookup α} : s.lookups id = some get → get.expired = true → Moves s (.drop id) { s with
      store := s.store.erase get.key
      lookups := Function.update s.lookups id none
      answers := get.answer none :: s.answers }
  | set {key : String} {value : α} {ttl readAt : ℤ} : readAt ≤ s.now →
      Moves s (.set key value ttl readAt) { s with
        store := s.store.insert key (L.dumps value,readAt + ttl * second)
        writes := .set key value (readAt + ttl * second) :: s.writes }
  | delete {key : String} : Moves s (.delete key) (s.delete key)
  | list {id : ℕ} {pattern : String} : s.doomed id = none → Moves s (.list id pattern) { s with
      doomed := Function.update s.doomed id (some (s.store.keys.filter fun key => L.fnmatch key pattern))
      writes := .deletePattern pattern :: s.writes }
  | sweep {id : ℕ} {keys : List String} : s.doomed id = some keys → Moves s (.sweep id) { s with
      store := popAll keys s.store
      doomed := Function.update s.doomed id none }

end

section
variable {L : Library α β} {s s' : Threads α β} {action : Action α}

theorem moves_of_step (h : s.step L action = some s') : Moves L s action s' := by
  cases action with
  | wait now =>
    obtain ⟨hle,⟨⟩⟩ := Option.ite_none_right_eq_some.mp h
    exact .wait hle
  | look id key =>
    have hlook : s.look id key = some s' := h
    unfold Threads.look at hlook
    split at hlook
    · rename_i hnone
      cases hlook
      exact .miss hnone
    · rename_i hfound
      obtain ⟨hfree,⟨⟩⟩ := Option.ite_none_left_eq_some.mp hlook
      exact .found hfound (Option.not_isSome_iff_eq_none.mp hfree)
  | readClock id =>
    have hread : s.readClock L id = some s' := h
    unfold Threads.readClock at hread
    split at hread
    · cases hread
    · rename_i hget
      obtain ⟨hexpired,hread⟩ := Option.ite_none_left_eq_some.mp hread
      have hnot := Bool.eq_false_iff.mpr hexpired
      split at hread
      · rename_i hle
        cases hread
        exact .expired hget hnot hle
      · rename_i hlt
        cases hread
        exact .live hget hnot (not_le.mp hlt)
  | drop id =>
    have hdrop : s.drop id = some s' := h
    unfold Threads.drop at hdrop
    split at hdrop
    · cases hdrop
    · rename_i hget
      obtain ⟨hexpired,⟨⟩⟩ := Option.ite_none_right_eq_some.mp hdrop
      exact .drop hget hexpired
  | set key value ttl readAt =>
    obtain ⟨hle,⟨⟩⟩ := Option.ite_none_right_eq_some.mp h
    exact .set hle
  | delete key =>
    cases h
    exact .delete
  | list id pattern =>
    obtain ⟨hfree,⟨⟩⟩ := Option.ite_none_left_eq_some.mp h
    exact .list (Option.not_isSome_iff_eq_none.mp hfree)
  | sweep id =>
    have hsweep : s.sweep id = some s' := h
    unfold Threads.sweep at hsweep
    split at hsweep
    · cases hsweep
    · rename_i hkeys
      cases hsweep
      exact .sweep hkeys

theorem step_of_moves (h : Moves L s action s') : s.step L action = some s' := by
  cases h with
  | wait hle => exact if_pos hle
  | @miss id key hnone =>
    show s.look id key = _
    unfold Threads.look
    rw [hnone]
  | @found id key valueJson expireAt hfound hfree =>
    show s.look id key = _
    unfold Threads.look
    rw [hfound,hfree]
    rfl
  | @live id get hget hexpired hlt =>
    show s.readClock L id = _
    unfold Threads.readClock
    simp only [hget,hexpired,Bool.false_eq_true,if_false,if_neg (not_le.mpr hlt)]
  | @expired id get hget hexpired hle =>
    show s.readClock L id = _
    unfold Threads.readClock
    simp only [hget,hexpired,Bool.false_eq_true,if_false,if_pos hle]
  | @drop id get hget hexpired =>
    show s.drop id = _
    unfold Threads.drop
    simp only [hget,hexpired,if_true]
  | set hle => exact if_pos hle
  | delete => rfl
  | @list id pattern hfree =>
    show s.list L id pattern = _
    unfold Threads.list
    rw [hfree]
    rfl
  | @sweep id keys hkeys =>
    show s.sweep id = _
    unfold Threads.sweep
    rw [hkeys]

end

/-! ## Calls that nothing interrupts -/

def Threads.entries (s : Threads α β) : DictCache String := fun key => s.store.lookup key

section
variable {L : Library α β} {s s' : Threads α β} {id : ℕ} {key : String}

theorem erased_entries (s : Threads α β) (key : String) :
    (fun k => (s.store.erase key).lookup k) = Function.update s.entries key none := by
  funext k
  rw [Function.update_apply]
  exact lookup_erase_eq key

/-- From its lookup on, a get drops its key or answers, by the clock. -/
theorem lookup_uninterrupted {get : Lookup α} (hget : s.lookups id = some get) (hnew : get.expired = false) :
    ∃ actions t, (cache L).run s actions = some t ∧
      t.store = (if get.expireAt ≤ s.now then s.store.erase get.key else s.store) ∧
      t.answers = get.answer (if get.expireAt ≤ s.now then none else some (L.loads get.valueJson)) :: s.answers := by
  by_cases hle : get.expireAt ≤ s.now
  · simp only [if_pos hle]
    have hread : (cache L).step s (.readClock id) = _ := step_of_moves (L := L) (.expired hget hnew hle)
    have hmarked : (Function.update s.lookups id (some { get with expired := true })) id =
        some { get with expired := true } := Function.update_self id _ s.lookups
    have hdrop : (cache L).step { s with
          lookups := Function.update s.lookups id (some { get with expired := true }) } (.drop id) = _ :=
      step_of_moves (L := L) (.drop hmarked rfl)
    exact ⟨_,_,(Machine.run_cons hread).trans (Machine.run_single hdrop),rfl,rfl⟩
  · simp only [if_neg hle]
    have hread : (cache L).step s (.readClock id) = _ := step_of_moves (L := L) (.live hget hnew (not_le.mp hle))
    exact ⟨_,_,Machine.run_single hread,rfl,rfl⟩

/-- A get whose steps follow each other is the get of a cache no other thread uses. -/
theorem get_uninterrupted (hfree : s.lookups id = none) : ∃ actions t, (cache L).run s actions = some t ∧
    t.entries = (DictCache.get s.entries key s.now).2 ∧
    t.answers = ⟨key,s.now,s.writes,(DictCache.get s.entries key s.now).1.map L.loads⟩ :: s.answers := by
  unfold DictCache.get
  cases hfound : s.entries key with
  | none =>
    have hlook : (cache L).step s (.look id key) = _ := step_of_moves (L := L) (.miss hfound)
    exact ⟨_,_,Machine.run_single hlook,rfl,rfl⟩
  | some entry =>
    obtain ⟨valueJson,expireAt⟩ := entry
    have hlook : (cache L).step s (.look id key) = _ := step_of_moves (L := L) (.found hfound hfree)
    obtain ⟨actions,t,hrun,hstore,hanswers⟩ := lookup_uninterrupted (L := L)
      (s := { s with lookups := Function.update s.lookups id (some ⟨key,valueJson,expireAt,false,s.now,s.writes⟩) })
      (Function.update_self id _ s.lookups) rfl
    refine ⟨_,t,(Machine.run_cons hlook).trans hrun,?_,?_⟩
    · unfold Threads.entries
      rw [hstore]
      dsimp only
      split
      · exact erased_entries s key
      · rfl
    · rw [hanswers]
      dsimp only
      split <;> rfl

theorem set_uninterrupted {value : α} {ttl : ℤ} (h : s.set L key value ttl s.now = some s') :
    s'.entries = DictCache.set s.entries key (L.dumps value) s.now (ttl * second) := by
  obtain ⟨_,⟨⟩⟩ := Option.ite_none_right_eq_some.mp h
  funext k
  unfold DictCache.set
  rw [Function.update_apply]
  exact lookup_insert_eq key _

theorem delete_uninterrupted : (s.delete key).entries = DictCache.delete s.entries key := erased_entries s key

/-- The two halves of `delete_pattern`, one after the other, drop what matches and no more. -/
theorem deletePattern_uninterrupted {pattern : String} (hfree : s.doomed id = none) :
    ∃ t, (cache L).run s [.list id pattern,.sweep id] = some t ∧
      ∀ k, t.entries k = if L.fnmatch k pattern then none else s.entries k := by
  have hlist : (cache L).step s (.list id pattern) = _ := step_of_moves (L := L) (.list hfree)
  have hdoomed : (Function.update s.doomed id (some (s.store.keys.filter fun key => L.fnmatch key pattern))) id =
      some (s.store.keys.filter fun key => L.fnmatch key pattern) := Function.update_self id _ s.doomed
  have hsweep : (cache L).step { s with
      doomed := Function.update s.doomed id (some (s.store.keys.filter fun key => L.fnmatch key pattern))
      writes := .deletePattern pattern :: s.writes } (.sweep id) = _ := step_of_moves (L := L) (.sweep hdoomed)
  refine ⟨_,(Machine.run_cons hlist).trans (Machine.run_single hsweep),fun k => ?_⟩
  refine (lookup_popAll_eq _).trans ?_
  by_cases hmatch : L.fnmatch k pattern = true
  · rw [if_pos hmatch]
    split
    · rfl
    · -- a key that matches and is not listed was not there
      rename_i hnot
      apply Option.not_isSome_iff_eq_none.mp
      intro hsome
      exact hnot (List.mem_filter.mpr ⟨AList.mem_keys.mp (AList.lookup_isSome.mp hsome),hmatch⟩)
  · have hkept : k ∉ s.store.keys.filter fun key => L.fnmatch key pattern :=
      fun hmem => hmatch (List.mem_filter.mp hmem).2
    rw [if_neg hmatch,if_neg hkept]
    rfl

end

/-! ## No expired value is answered -/

section
variable (L : Library α β)

def SetTo (writes : List (Write α)) (key valueJson : String) (expireAt : ℤ) : Prop :=
  ∃ value, .set key value expireAt ∈ writes ∧ valueJson = L.dumps value

/-- Every entry was set as it is found. -/
structure Sourced (s : Threads α β) : Prop where
  stored : ∀ {key valueJson expireAt}, s.store.lookup key = some (valueJson,expireAt) →
    SetTo L s.writes key valueJson expireAt
  lookups : ∀ {id get}, s.lookups id = some get →
    SetTo L get.after get.key get.valueJson get.expireAt ∧ get.startedAt ≤ s.now
  answers : ∀ a ∈ s.answers, a.Fresh L

end

section
variable {L : Library α β} {s s' : Threads α β} {action : Action α} {key : String} {value : α} {expireAt : ℤ}

theorem SetTo.cons {writes : List (Write α)} {valueJson : String} (h : SetTo L writes key valueJson expireAt)
    (write : Write α) : SetTo L (write :: writes) key valueJson expireAt := by
  obtain ⟨value,hmem,rfl⟩ := h
  exact ⟨value,List.mem_cons_of_mem _ hmem,rfl⟩

/-- What an erased dictionary still has was there. -/
theorem of_lookup_erase {d : Dict String (String × ℤ)} {k key : String} {entry : String × ℤ}
    (h : (d.erase k).lookup key = some entry) : d.lookup key = some entry := by
  rw [lookup_erase_eq] at h
  split at h
  · cases h
  · exact h

theorem fresh_none (get : Lookup α) : (get.answer (none : Option β)).Fresh L := by
  rintro x ⟨⟩

theorem Sourced.step (h : Sourced L s) (hstep : s.step L action = some s') : Sourced L s' := by
  cases moves_of_step hstep with
  | wait hle => exact ⟨h.stored,fun hget => ⟨(h.lookups hget).1,(h.lookups hget).2.trans hle⟩,h.answers⟩
  | miss hnone =>
    refine ⟨h.stored,h.lookups,List.forall_mem_cons.mpr ⟨?_,h.answers⟩⟩
    rintro x ⟨⟩
  | found hfound hfree =>
    refine ⟨h.stored,fun hget => ?_,h.answers⟩
    rcases of_filled hget with rfl | hold
    · exact ⟨h.stored hfound,le_refl _⟩
    · exact h.lookups hold
  | live hget _ hlt =>
    refine ⟨h.stored,fun hget' => h.lookups (of_cleared hget'),List.forall_mem_cons.mpr ⟨?_,h.answers⟩⟩
    rintro x ⟨⟩
    obtain ⟨⟨value,hmem,hjson⟩,hstarted⟩ := h.lookups hget
    exact ⟨value,_,hmem,lt_of_le_of_lt hstarted hlt,congrArg L.loads hjson⟩
  | expired hget _ _ =>
    have hsourced := h.lookups hget
    refine ⟨h.stored,fun hget' => ?_,h.answers⟩
    rcases of_filled hget' with rfl | hold
    · exact hsourced
    · exact h.lookups hold
  | drop hget _ =>
    refine ⟨fun hkey => h.stored (of_lookup_erase hkey),fun hget' => h.lookups (of_cleared hget'),?_⟩
    exact List.forall_mem_cons.mpr ⟨fresh_none _,h.answers⟩
  | set hread =>
    refine ⟨fun hkey => ?_,h.lookups,h.answers⟩
    rw [lookup_insert_eq] at hkey
    split at hkey
    · rename_i hsame
      cases hkey
      subst hsame
      exact ⟨_,List.mem_cons_self,rfl⟩
    · exact (h.stored hkey).cons _
  | delete => exact ⟨fun hkey => (h.stored (of_lookup_erase hkey)).cons _,h.lookups,h.answers⟩
  | list hfree => exact ⟨fun hkey => (h.stored hkey).cons _,h.lookups,h.answers⟩
  | sweep hkeys => exact ⟨fun hkey => h.stored (lookup_popAll.mp hkey).2,h.lookups,h.answers⟩

theorem sourced_empty : Sourced L (.empty : Threads α β) := by
  refine ⟨?_,?_,?_⟩
  · rintro key valueJson expireAt ⟨⟩
  · rintro id get ⟨⟩
  · rintro a ⟨⟩

/-! ## Where every step is careful, no live entry is lost -/

/-- What stands and is live is stored, and a get that began then has found it. -/
structure Intact (L : Library α β) (s : Threads α β) : Prop where
  stored : ∀ {key value expireAt}, Standing L s.writes key value expireAt → s.now < expireAt →
    s.store.lookup key = some (L.dumps value,expireAt)
  lookups : ∀ {id get}, s.lookups id = some get → ∀ {value expireAt}, Standing L get.after get.key value expireAt →
    get.startedAt < expireAt → get.expired = false ∧ get.valueJson = L.dumps value ∧ get.expireAt = expireAt
  answers : ∀ a ∈ s.answers, a.Kept L

theorem standing_set {writes : List (Write α)} {key' : String} {value' : α} {expireAt' : ℤ}
    (h : Standing L (.set key' value' expireAt' :: writes) key value expireAt) :
    (key = key' ∧ value = value' ∧ expireAt = expireAt') ∨ key ≠ key' ∧ Standing L writes key value expireAt := by
  rcases stands_cons.mp h with hsame | ⟨huntouched,hold⟩
  · cases hsame
    exact .inl ⟨rfl,rfl,rfl⟩
  · exact .inr ⟨fun heq => huntouched heq.symm,hold⟩

theorem standing_delete {writes : List (Write α)} {key' : String}
    (h : Standing L (.delete key' :: writes) key value expireAt) :
    key ≠ key' ∧ Standing L writes key value expireAt := by
  rcases stands_cons.mp h with hsame | ⟨huntouched,hold⟩
  · cases hsame
  · exact ⟨fun heq => huntouched heq.symm,hold⟩

theorem standing_deletePattern {writes : List (Write α)} {pattern : String}
    (h : Standing L (.deletePattern pattern :: writes) key value expireAt) : Standing L writes key value expireAt := by
  rcases stands_cons.mp h with hsame | ⟨_,hold⟩
  · cases hsame
  · exact hold

/-! What care asks of the steps that may lose something. -/

theorem careful_readClock_iff {id : ℕ} {get : Lookup α} (hget : s.lookups id = some get) :
    Careful L s (.readClock id) ↔ ∀ value expireAt, Standing L get.after get.key value expireAt →
      get.startedAt < expireAt → s.now < expireAt := by
  refine ⟨fun h => h get hget,fun h get' hget' => ?_⟩
  rw [hget] at hget'
  cases hget'
  exact h

theorem careful_drop_iff {id : ℕ} {get : Lookup α} (hget : s.lookups id = some get) :
    Careful L s (.drop id) ↔ ¬ s.Live L get.key := by
  refine ⟨fun h => h get hget,fun h get' hget' => ?_⟩
  rw [hget] at hget'
  cases hget'
  exact h

theorem careful_sweep_iff {id : ℕ} {keys : List String} (hkeys : s.doomed id = some keys) :
    Careful L s (.sweep id) ↔ ∀ key ∈ keys, ¬ s.Live L key := by
  refine ⟨fun h => h keys hkeys,fun h keys' hkeys' => ?_⟩
  rw [hkeys] at hkeys'
  cases hkeys'
  exact h

theorem Intact.step (h : Intact L s) (hcareful : Careful L s action) (hstep : s.step L action = some s') :
    Intact L s' := by
  cases moves_of_step hstep with
  | wait hle => exact ⟨fun hstands hlive => h.stored hstands (lt_of_le_of_lt hle hlive),h.lookups,h.answers⟩
  | miss hnone =>
    refine ⟨h.stored,h.lookups,List.forall_mem_cons.mpr ⟨fun value expireAt hstands hlive => ?_,h.answers⟩⟩
    have hstored := h.stored hstands hlive
    rw [hnone] at hstored
    cases hstored
  | found hfound hfree =>
    refine ⟨h.stored,fun hget value expireAt hstands hlive => ?_,h.answers⟩
    rcases of_filled hget with rfl | hold
    · have hstored := h.stored hstands hlive
      rw [hfound] at hstored
      cases hstored
      exact ⟨rfl,rfl,rfl⟩
    · exact h.lookups hold hstands hlive
  | live hget hexpired hlt =>
    refine ⟨h.stored,fun hget' => h.lookups (of_cleared hget'),List.forall_mem_cons.mpr ⟨?_,h.answers⟩⟩
    intro value expireAt hstands hlive
    exact congrArg (fun json => some (L.loads json)) (h.lookups hget hstands hlive).2.1
  | expired hget hexpired hle =>
    refine ⟨h.stored,fun hget' value expireAt hstands hlive => ?_,h.answers⟩
    rcases of_filled hget' with rfl | hold
    · -- the clock was read in time, so the entry cannot have expired
      have hearly := (careful_readClock_iff hget).mp hcareful value expireAt hstands hlive
      have hsame := (h.lookups hget hstands hlive).2.2
      omega
    · exact h.lookups hold hstands hlive
  | @drop id get hget hexpired =>
    refine ⟨@fun key value expireAt hstands hlive => ?_,fun hget' => h.lookups (of_cleared hget'),?_⟩
    · have hne : key ≠ get.key := by
        rintro rfl
        exact (careful_drop_iff hget).mp hcareful ⟨_,_,hstands,hlive⟩
      exact (AList.lookup_erase_ne hne).trans (h.stored hstands hlive)
    · refine List.forall_mem_cons.mpr ⟨fun value expireAt hstands hlive => ?_,h.answers⟩
      have hnot := (h.lookups hget hstands hlive).1
      rw [hexpired] at hnot
      cases hnot
  | set hread =>
    refine ⟨fun hstands hlive => ?_,h.lookups,h.answers⟩
    rw [lookup_insert_eq]
    rcases standing_set hstands with ⟨rfl,rfl,rfl⟩ | ⟨hne,hold⟩
    · rw [if_pos rfl]
    · rw [if_neg hne]
      exact h.stored hold hlive
  | delete =>
    refine ⟨fun hstands hlive => ?_,h.lookups,h.answers⟩
    obtain ⟨hne,hold⟩ := standing_delete hstands
    exact (AList.lookup_erase_ne hne).trans (h.stored hold hlive)
  | list hfree => exact ⟨fun hstands => h.stored (standing_deletePattern hstands),h.lookups,h.answers⟩
  | @sweep id keys hkeys =>
    have hdead := (careful_sweep_iff hkeys).mp hcareful
    refine ⟨fun hstands hlive => ?_,h.lookups,h.answers⟩
    exact lookup_popAll.mpr ⟨fun hmem => hdead _ hmem ⟨_,_,hstands,hlive⟩,h.stored hstands hlive⟩

theorem intact_empty : Intact L (.empty : Threads α β) := by
  refine ⟨?_,?_,?_⟩
  · intro key value expireAt hstands
    exact absurd hstands not_stands_nil
  · rintro id get ⟨⟩
  · rintro a ⟨⟩

/-! ## A careless step loses an entry -/

/-- A get of a key that holds a live entry and is not found is answered wrong. -/
theorem exists_lost (id : ℕ) (hlive : s.Live L key) (hnone : s.store.lookup key = none) :
    ∃ t, (cache L).run s [.look id key] = some t ∧ ∃ a ∈ t.answers, ¬ a.Kept L := by
  obtain ⟨value,expireAt,hstands,hlt⟩ := hlive
  have hlook : (cache L).step s (.look id key) = _ := step_of_moves (L := L) (.miss hnone)
  refine ⟨_,Machine.run_single hlook,_,List.mem_cons_self,fun hkept => ?_⟩
  have hresult := hkept value expireAt hstands hlt
  cases hresult

theorem careless_loses (h : Intact L s) (hstep : s.step L action = some s') (hcareless : ¬ Careful L s action) :
    ∃ actions t, (cache L).run s' actions = some t ∧ ∃ a ∈ t.answers, ¬ a.Kept L := by
  cases moves_of_step hstep with
  | wait _ => exact absurd trivial hcareless
  | miss _ => exact absurd trivial hcareless
  | found _ _ => exact absurd trivial hcareless
  | set _ => exact absurd trivial hcareless
  | delete => exact absurd trivial hcareless
  | list _ => exact absurd trivial hcareless
  | live hget hexpired hlt =>
    refine absurd ((careful_readClock_iff hget).mpr fun value expireAt hstands hlive => ?_) hcareless
    rw [← (h.lookups hget hstands hlive).2.2]
    exact hlt
  | @expired id get hget hexpired hle =>
    -- the get goes on to drop the key, and answers that there is nothing
    rw [careful_readClock_iff hget] at hcareless
    push Not at hcareless
    obtain ⟨value,expireAt,hstands,hlive,_⟩ := hcareless
    have hmarked : (Function.update s.lookups id (some { get with expired := true })) id =
        some { get with expired := true } := Function.update_self id _ s.lookups
    have hdrop : (cache L).step { s with
          lookups := Function.update s.lookups id (some { get with expired := true }) } (.drop id) = _ :=
      step_of_moves (L := L) (.drop hmarked rfl)
    refine ⟨_,_,Machine.run_single hdrop,_,List.mem_cons_self,fun hkept => ?_⟩
    have hresult := hkept value expireAt hstands hlive
    cases hresult
  | @drop id get hget hexpired =>
    rw [careful_drop_iff hget,not_not] at hcareless
    exact ⟨_,exists_lost id hcareless (AList.lookup_erase get.key s.store)⟩
  | @sweep id keys hkeys =>
    rw [careful_sweep_iff hkeys] at hcareless
    push Not at hcareless
    obtain ⟨key,hkey,hlive⟩ := hcareless
    exact ⟨_,exists_lost id hlive ((lookup_popAll_eq keys).trans (if_pos hkey))⟩

end

/-- Whatever the order of the steps, no expired value is answered; while they are careful no live entry is
lost, and the first that is not can be followed by a get that misses one. -/
theorem live_entries_kept (L : Library α β) :
    (∀ s, (cache L).Reached s → ∀ a ∈ s.answers, a.Fresh L) ∧
    (∀ s, (cache L).Reachable (Careful L) s → ∀ a ∈ s.answers, a.Kept L) ∧
    ∀ s action s', (cache L).Reachable (Careful L) s → (cache L).step s action = some s' → ¬ Careful L s action →
      ∃ actions t, (cache L).run s' actions = some t ∧ ∃ a ∈ t.answers, ¬ a.Kept L := by
  have hintact {s : Threads α β} (h : (cache L).Reachable (Careful L) s) : Intact L s :=
    h.invariant intact_empty fun hs hcareful hstep => hs.step hcareful hstep
  refine ⟨fun s h => ?_,fun s h => (hintact h).answers,fun s action s' h hstep => careless_loses (hintact h) hstep⟩
  have hsourced : Sourced L s := h.invariant sourced_empty fun hs _ hstep => hs.step hstep
  exact hsourced.answers

/-- Values are texts, and a pattern is the key it matches. -/
def plain : Library String String := ⟨id,id,fun key pattern => key = pattern⟩

/-- A get is answered while another thread drops other keys. -/
theorem live_entries_kept_besideSweep : ∃ s, (cache plain).Reachable (Careful plain) s ∧
    ∃ a ∈ s.answers, a.startedAt = 0 ∧ s.now = second ∧ a.result = some "none" := by
  have hstart : (cache plain).Reachable (Careful plain) .empty := .start
  have hset := hstart.step (a := Action.set "rooms" "none" 10 0) trivial rfl
  have hlook := hset.step (a := Action.look 0 "rooms") trivial rfl
  have hlist := hlook.step (a := Action.list 0 "servers") trivial rfl
  have hwait := hlist.step (a := Action.wait second) trivial rfl
  have hsweep := hwait.step (a := Action.sweep 0) (by rintro keys ⟨⟩ key ⟨⟩) rfl
  have hread := hsweep.step (a := Action.readClock 0) (by
    intro get hget value expireAt hstands _
    cases hget
    rcases standing_set hstands with ⟨_,_,rfl⟩ | ⟨hne,_⟩
    · decide
    · exact absurd rfl hne) rfl
  have hstands : Standing plain [.set "rooms" "none" (0 + 10 * second)] "rooms" "none" (0 + 10 * second) := stands_self
  have hkept := (live_entries_kept plain).2.1 _ hread _ List.mem_cons_self _ _ hstands (by decide)
  exact ⟨_,hread,_,List.mem_cons_self,rfl,rfl,hkept⟩

/-- A get finds the entry expired, another thread sets it anew, the get drops it, and the next get misses. -/
def lateDrop : List (Action String) :=
  [.set "rooms" "old" 1 0,.wait second,.look 0 "rooms",.readClock 0,.set "rooms" "new" 10 second,.drop 0,
    .look 0 "rooms"]

theorem late_drop_loses : ¬ ∀ s, (cache plain).Reached s → ∀ a ∈ s.answers, a.Kept plain := by
  intro hkept
  obtain ⟨s,hrun,hanswer⟩ : ∃ s, (cache plain).run .empty lateDrop = some s ∧ s.answers.head? = some ⟨"rooms",second,
      [.set "rooms" "new" (11 * second),.set "rooms" "old" second],none⟩ := ⟨_,rfl,rfl⟩
  have hreached : (cache plain).Reached s := Machine.Reachable.start.run hrun
  have hresult := hkept s hreached _ (List.mem_of_head? hanswer) "new" (11 * second) stands_self (by decide)
  cases hresult

end Tag2now.CacheThreads
