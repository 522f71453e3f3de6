import Tag2now.Chat.Service

/-! # What a client ends up with

A message and its deletion are committed in one order but may be published in the other.
Where a posted message is announced only while it is stored or its deletion is still to be
announced, a client that has read everything shows just the messages stored in the window.
The invariant ties what is queued for a stream to the store: the last word about a message
in the queue is true, or a deletion that will correct it is on its way.
-/
namespace Tag2now.Chat
open ReadCommitted

/-! ## One stream on the bus -/

/-- The stream is registered and these events are queued for it: it was not dropped and did not leave. -/
def Following (b : Bus) (i : ℕ) (events : List ChatEvent) : Prop :=
  b.streams i = some (live events) ∧ i ∈ b.subscriptions

section Following
variable {b b' : Bus} {i j : ℕ} {events : List ChatEvent} {event : ChatEvent}

theorem live_of_offered {size : ℕ} {s : Subscription} (h : s.offered size event = live events) :
    ∃ before, s = live before ∧ events = before ++ [event] := by
  rcases Nat.lt_or_ge s.queue.length size with hlt | hfull
  · rw [offered_of_lt hlt] at h
    have hqueue : s.queue ++ [.event event] = events.map .event := congrArg Subscription.queue h
    have hended : s.ended = false := congrArg Subscription.ended h
    obtain ⟨before,last,rfl,hbefore,hlast⟩ := List.append_eq_map_iff.mp hqueue
    obtain ⟨e,rfl,he⟩ := List.map_eq_singleton_iff.mp hlast
    cases he
    refine ⟨before,?_,rfl⟩
    cases s
    cases hbefore
    cases hended
    rfl
  · rw [offered_of_le hfull] at h
    have hqueue : [Item.closed] = events.map .event := congrArg Subscription.queue h
    cases events with
    | nil => cases hqueue
    | cons e rest => cases hqueue

theorem live_of_next {s : Subscription} (h : s.next = some (.event event,live events)) :
    s = live (event :: events) := by
  obtain ⟨queue,ended⟩ := s
  cases ended with
  | true => cases h
  | false =>
    cases queue with
    | nil => cases h
    | cons item rest =>
      cases item with
      | closed => cases h
      | event e =>
        cases h
        rfl

theorem following_publish (hstep : Step b (.publish event) b') (h : Following b' i events) :
    ∃ before, Following b i before ∧ events = before ++ [event] := by
  cases hstep with
  | publish _ horder =>
    obtain ⟨hstream,hreg⟩ := h
    have hin := ((mem_publish_of_order horder i).mp hreg).1
    rw [publish_streams_of_order horder,if_pos hin] at hstream
    obtain ⟨s,hs,hoffered⟩ := Option.map_eq_some_iff.mp hstream
    obtain ⟨before,rfl,rfl⟩ := live_of_offered hoffered
    exact ⟨before,⟨hs,hin⟩,rfl⟩

theorem following_subscribe (hstep : Step b (.subscribe j) b') (h : Following b' i events) :
    (i = j ∧ events = [] ∧ b.streams i = none) ∨ (i ≠ j ∧ Following b i events) := by
  cases hstep with
  | subscribe _ hnone =>
    obtain ⟨hstream,hreg⟩ := h
    have hset : (b.subscribe j).streams i = if i = j then some .open_ else b.streams i := set_streams b j .open_ i
    rw [hset] at hstream
    split at hstream
    · rename_i hij
      refine .inl ⟨hij,?_,hij ▸ hnone⟩
      have hqueue : ([] : List Item) = events.map .event := congrArg Subscription.queue (Option.some.inj hstream)
      exact List.map_eq_nil_iff.mp hqueue.symm
    · rename_i hij
      exact .inr ⟨hij,hstream,(Finset.mem_insert.mp hreg).resolve_left hij⟩

theorem following_read (hstep : Step b (.read j (.event event)) b') (h : Following b' i events) :
    (i = j ∧ Following b i (event :: events)) ∨ (i ≠ j ∧ Following b i events) := by
  cases hstep with
  | @read _ _ s s' hs hn =>
    obtain ⟨hstream,hreg⟩ := h
    rw [set_streams] at hstream
    split at hstream
    · rename_i hij
      cases hstream
      rw [live_of_next hn] at hs
      exact .inl ⟨hij,hij ▸ hs,hreg⟩
    · rename_i hij
      exact .inr ⟨hij,hstream,hreg⟩

theorem following_closed (hstep : Step b (.read j .closed) b') (h : Following b' i events) :
    Following b i events := by
  cases hstep with
  | @read _ _ s s' hs hn =>
    obtain ⟨hstream,hreg⟩ := h
    rw [set_streams] at hstream
    split at hstream
    · cases hstream
      obtain ⟨queue,ended⟩ := s
      cases ended with
      | true => cases hn
      | false =>
        cases queue with
        | nil => cases hn
        | cons item rest => cases item <;> cases hn
    · exact ⟨hstream,hreg⟩

theorem following_unsubscribe (hstep : Step b (.unsubscribe j) b') (h : Following b' i events) :
    Following b i events := by
  cases hstep with
  | unsubscribe _ _ => exact ⟨h.1,Finset.mem_of_mem_erase h.2⟩

theorem Step.streams_none {a : Action} (hstep : Step b a b') (h : b'.streams i = none) : b.streams i = none := by
  cases hstep with
  | subscribe j _ =>
    have hset : (b.subscribe j).streams i = if i = j then some .open_ else b.streams i := set_streams b j .open_ i
    rw [hset] at h
    split at h
    · cases h
    · exact h
  | publish e horder =>
    rw [publish_streams_of_order horder] at h
    split at h
    · exact Option.map_eq_none_iff.mp h
    · exact h
  | read _ _ =>
    rw [set_streams] at h
    split at h
    · cases h
    · exact h
  | unsubscribe j _ => exact h

end Following

/-! ## Calls on their way -/

def AnnouncementDue (s : Service) (m : Message) : Prop := ∃ k, s.calls k = some (.appended m)
def RetractionDue (s : Service) (messageId : ℕ) : Prop := ∃ k, s.calls k = some (.deleted messageId)

/-- The shown window stays where it is and is listed whole. -/
def WindowStays (boundary : ℤ) (s : Service) : Move → Prop
  | .check _ draft => historyStart draft.createdAt = boundary
  | .snapshot _ now => historyStart now = boundary ∧ (shownSince s.store boundary).length ≤ maxListedMessages
  | _ => True

/-- A message is announced while it is stored, or before its deletion is. -/
def InOrder (s : Service) : Move → Prop
  | .announce k => ∀ m, s.calls k = some (.appended m) → m ∈ s.store.rows ∨ RetractionDue s m.id
  | _ => True

def StaysInOrder (boundary : ℤ) (s : Service) (move : Move) : Prop := WindowStays boundary s move ∧ InOrder s move

/-! ## The store's books -/

def Stored (s : Service) (messageId : ℕ) : Prop := ∃ m ∈ s.store.rows, m.id = messageId
def Archived (s : Service) (messageId : ℕ) : Prop := ∃ m ∈ s.archive.rows, m.id = messageId

/-- What a suspended call knows of the store. -/
def CallOk (boundary : ℤ) (s : Service) : Call → Prop
  | .appending draft => boundary ≤ draft.createdAt
  | .appended m => m ∈ s.archive.rows ∧ boundary ≤ m.createdAt
  | .deleting id => Archived s id
  | .deleted id => Archived s id ∧ ¬ Stored s id

structure Books (boundary : ℤ) (s : Service) : Prop where
  archived : ∀ m ∈ s.store.rows, m ∈ s.archive.rows
  calls : ∀ k call, s.calls k = some call → CallOk boundary s call
  opened : ∀ i, s.bus.streams i = none → s.clients i = none

section Books
variable {boundary : ℤ} {s s' : Service}

/-- From `s` to `s'` nothing leaves the archive, and only new ids enter the store. -/
structure Grows (s s' : Service) : Prop where
  archive : ∀ m ∈ s.archive.rows, m ∈ s'.archive.rows
  fresh : ∀ m ∈ s'.store.rows, m ∈ s.store.rows ∨ ¬ Archived s m.id

theorem Grows.same (harchive : s'.archive = s.archive) (hstore : s'.store = s.store) : Grows s s' := by
  refine ⟨fun m hm => ?_,fun m hm => .inl ?_⟩
  · rwa [harchive]
  · rwa [← hstore]

theorem Grows.archived (h : Grows s s') {id : ℕ} (hid : Archived s id) : Archived s' id := by
  obtain ⟨m,hm,rfl⟩ := hid
  exact ⟨m,h.archive m hm,rfl⟩

theorem Grows.not_stored (h : Grows s s') {id : ℕ} (hid : Archived s id) (hnot : ¬ Stored s id) : ¬ Stored s' id := by
  rintro ⟨m,hm,rfl⟩
  rcases h.fresh m hm with hold | hnew
  · exact hnot ⟨m,hold,rfl⟩
  · exact hnew hid

theorem CallOk.grows (hg : Grows s s') {call : Call} (h : CallOk boundary s call) : CallOk boundary s' call := by
  cases call with
  | appending draft => exact h
  | appended m => exact ⟨hg.archive m h.1,h.2⟩
  | deleting id => exact hg.archived h
  | deleted id => exact ⟨hg.archived h.1,hg.not_stored h.1 h.2⟩

theorem Books.grows (h : Books boundary s) (hg : Grows s s') (hstore : ∀ m ∈ s'.store.rows, m ∈ s'.archive.rows)
    (hcalls : ∀ k call, s'.calls k = some call → CallOk boundary s' call ∨ s.calls k = some call)
    (hopen : ∀ i, s'.bus.streams i = none → s'.clients i = none) : Books boundary s' := by
  refine ⟨hstore,fun k call hk => ?_,hopen⟩
  rcases hcalls k call hk with hok | hold
  · exact hok
  · exact (h.calls k call hold).grows hg

theorem grows_append {k : ℕ} {m : Message} (hfresh : s.archive.get? m.id = none)
    (harchived : ∀ m ∈ s.store.rows, m ∈ s.archive.rows) :
    Grows s (s.append k m) ∧ ∀ n ∈ (s.append k m).store.rows, n ∈ s.store.rows ∨ n = m := by
  have hstore : s.store.get? m.id = none :=
    Table.get?_eq_none_iff.mpr fun n hn => Table.get?_eq_none_iff.mp hfresh n (harchived n hn)
  have hmem {n : Message} (hn : n ∈ (s.append k m).store.rows) : n ∈ s.store.rows ∨ n = m :=
    (Table.mem_insert hstore).mp hn
  refine ⟨⟨fun n hn => (Table.mem_insert hfresh).mpr (.inl hn),fun n hn => ?_⟩,fun n hn => hmem hn⟩
  refine (hmem hn).imp id ?_
  rintro rfl ⟨old,hold,hid⟩
  exact Table.get?_eq_none_iff.mp hfresh old hold hid

theorem Books.step (h : Books boundary s) {move : Move} (hwindow : WindowStays boundary s move)
    (hstep : s.Step move s') : Books boundary s' := by
  have hopen {i : ℕ} {a : Action} {bus : Bus} (hbus : Chat.Step s.bus a bus) (hnone : bus.streams i = none) :
      s.clients i = none := h.opened i (hbus.streams_none hnone)
  have hshow {i j : ℕ} {l : List Message} {bus : Bus} (hi : bus.streams i ≠ none)
      (hothers : bus.streams j = none → s.clients j = none) (hnone : bus.streams j = none) :
      (s.show_ i l).clients j = none := by
    have hji : j ≠ i := by
      rintro rfl
      exact hi hnone
    exact (Function.update_of_ne hji _ _).trans (hothers hnone)
  cases hstep with
  | check k draft hk =>
    have hnow : boundary ≤ draft.createdAt := by
      have hle := historyStart_le draft.createdAt
      have heq : historyStart draft.createdAt = boundary := hwindow
      omega
    unfold Service.checked
    split
    · refine h.grows (.same rfl rfl) h.archived (fun j call hj => ?_) h.opened
      refine (of_put hj).imp ?_ id
      rintro rfl
      exact hnow
    · exact h
  | @append k draft id hk hfresh =>
    obtain ⟨hg,hmem⟩ := grows_append (k := k) (m := draft.message id) hfresh h.archived
    have hnew : draft.message id ∈ (s.append k (draft.message id)).archive.rows :=
      (Table.mem_insert (a := draft.message id) hfresh).mpr (.inr rfl)
    refine h.grows hg (fun m hm => ?_) (fun j call hj => ?_) h.opened
    · rcases hmem m hm with hold | rfl
      · exact hg.archive m (h.archived m hold)
      · exact hnew
    · refine (of_put (s := s) hj).imp ?_ (fun hold => hold)
      rintro rfl
      exact ⟨hnew,h.calls k _ hk⟩
  | appendFails hk =>
    exact h.grows (.same rfl rfl) h.archived (fun j call hj => .inr (of_drop hj)) h.opened
  | announce hk hbus =>
    refine h.grows (.same rfl rfl) h.archived (fun j call hj => ?_) fun i => hopen hbus
    exact .inr (of_drop (s := s) hj)
  | find k messageId subject admin hk =>
    unfold Service.found
    split
    · rename_i hok
      refine h.grows (.same rfl rfl) h.archived (fun j call hj => ?_) h.opened
      refine (of_put hj).imp ?_ id
      rintro rfl
      cases hget : s.store.get? messageId with
      | none =>
        rw [hget] at hok
        cases hok
      | some m => exact ⟨m,h.archived m (Table.mem_of_get? hget),Table.key_of_get? hget⟩
    · exact h
  | @remove k messageId hk =>
    have hg : Grows s (s.remove k messageId) := ⟨fun _ hm => hm,fun m hm => .inl (Table.mem_delete.mp hm).1⟩
    refine h.grows hg (fun m hm => h.archived m (Table.mem_delete.mp hm).1) (fun j call hj => ?_) h.opened
    refine (of_put (s := s) hj).imp ?_ (fun hold => hold)
    rintro rfl
    refine ⟨hg.archived (h.calls k _ hk),?_⟩
    rintro ⟨m,hm,hid⟩
    exact (Table.mem_delete.mp hm).2 hid
  | removeFails hk =>
    exact h.grows (.same rfl rfl) h.archived (fun j call hj => .inr (of_drop hj)) h.opened
  | retract hk hbus =>
    refine h.grows (.same rfl rfl) h.archived (fun j call hj => ?_) fun i => hopen hbus
    exact .inr (of_drop (s := s) hj)
  | subscribe hbus =>
    exact h.grows (.same rfl rfl) h.archived (fun _ _ hj => .inr hj) fun i => hopen hbus
  | snapshot now hsome _ =>
    refine h.grows (.same rfl rfl) h.archived (fun _ _ hj => .inr hj) fun j => ?_
    exact hshow hsome (h.opened j)
  | @receive i event messages bus hclient hbus =>
    refine h.grows (.same rfl rfl) h.archived (fun _ _ hj => .inr hj) fun j => ?_
    refine hshow (fun hnone => ?_) (hopen hbus)
    rw [hopen hbus hnone] at hclient
    cases hclient
  | finish _ hbus =>
    exact h.grows (.same rfl rfl) h.archived (fun _ _ hj => .inr hj) fun i => hopen hbus
  | unsubscribe hbus =>
    exact h.grows (.same rfl rfl) h.archived (fun _ _ hj => .inr hj) fun i => hopen hbus

end Books

/-! ## Queues -/

/-- The queue's last word about the message is that it was posted. -/
def Survives (events : List ChatEvent) (m : Message) : Prop :=
  ∃ before after, events = before ++ .posted m :: after ∧ .deleted m.id ∉ after

section Survives
variable {events : List ChatEvent} {m n : Message} {id : ℕ}

theorem survives_snoc (h : Survives (events ++ [.posted n]) m) : m = n ∨ Survives events m := by
  obtain ⟨before,after,heq,hnot⟩ := h
  rcases List.eq_nil_or_concat' after with rfl | ⟨init,last,rfl⟩
  · have hlast := List.append_inj_right' heq rfl
    cases hlast
    exact .inl rfl
  · have hinit : events = before ++ .posted m :: init := by
      have hcut : events ++ [.posted n] = (before ++ .posted m :: init) ++ [last] := by simpa using heq
      exact List.append_inj_left' hcut rfl
    refine .inr ⟨before,init,hinit,fun hmem => hnot ?_⟩
    exact List.mem_append_left _ hmem

theorem survives_snoc_deleted (h : Survives (events ++ [.deleted id]) m) : m.id ≠ id ∧ Survives events m := by
  obtain ⟨before,after,heq,hnot⟩ := h
  rcases List.eq_nil_or_concat' after with rfl | ⟨init,last,rfl⟩
  · have hlast := List.append_inj_right' heq rfl
    cases hlast
  · have hcut : events ++ [.deleted id] = (before ++ .posted m :: init) ++ [last] := by simpa using heq
    have hlast := List.append_inj_right' hcut rfl
    cases hlast
    refine ⟨?_,before,init,List.append_inj_left' hcut rfl,fun hmem => hnot (List.mem_append_left _ hmem)⟩
    rintro rfl
    exact hnot (by simp)

theorem Survives.cons (h : Survives events m) (event : ChatEvent) : Survives (event :: events) m := by
  obtain ⟨before,after,rfl,hnot⟩ := h
  exact ⟨event :: before,after,rfl,hnot⟩

theorem survives_head (h : .deleted m.id ∉ events) : Survives (.posted m :: events) m := ⟨[],events,rfl,h⟩

theorem not_survives_nil : ¬ Survives [] m := by
  rintro ⟨before,after,heq,_⟩
  cases before <;> cases heq

end Survives

def Shown (boundary : ℤ) (s : Service) (m : Message) : Prop := m ∈ s.store.rows ∧ boundary ≤ m.createdAt

structure Tracked (boundary : ℤ) (s : Service) (i : ℕ) (events : List ChatEvent) : Prop where
  sent : ∀ m, .posted m ∈ events → m ∈ s.archive.rows
  gone : ∀ id, .deleted id ∈ events → Archived s id ∧ ¬ Stored s id
  survives : ∀ m, Survives events m → Shown boundary s m ∨ RetractionDue s m.id
  known : ∀ l, s.clients i = some l → ∀ m ∈ l, m ∈ s.archive.rows
  nodup : ∀ l, s.clients i = some l → (l.map (·.id)).Nodup
  listed : ∀ l, s.clients i = some l → ∀ m ∈ l, .deleted m.id ∉ events → Shown boundary s m ∨ RetractionDue s m.id
  complete : ∀ l, s.clients i = some l → ∀ m, Shown boundary s m → m ∈ l ∨ .posted m ∈ events ∨ AnnouncementDue s m

/-! ## The client's list -/

section Client
variable {l : List Message} {m n : Message} {id : ℕ}

theorem of_mem_applied_posted (h : n ∈ applied l (.posted m)) : n ∈ l ∨ n = m := by
  simp only [applied] at h
  split at h
  · exact .inl h
  · exact (List.mem_append.mp h).imp (fun hin => hin) List.mem_singleton.mp

theorem mem_applied_posted (h : n ∈ l) : n ∈ applied l (.posted m) := by
  simp only [applied]
  split
  · exact h
  · exact List.mem_append_left _ h

theorem exists_mem_applied_posted (l : List Message) (m : Message) : ∃ n ∈ applied l (.posted m), n.id = m.id := by
  simp only [applied]
  split
  · rename_i hin
    exact List.mem_map.mp hin
  · exact ⟨m,List.mem_append_right _ (List.mem_singleton.mpr rfl),rfl⟩

theorem mem_applied_deleted : n ∈ applied l (.deleted id) ↔ n ∈ l ∧ n.id ≠ id := by simp [applied]

theorem nodup_applied (h : (l.map (·.id)).Nodup) (event : ChatEvent) : ((applied l event).map (·.id)).Nodup := by
  cases event with
  | posted m =>
    simp only [applied]
    split
    · exact h
    · rename_i hnew
      rw [List.map_append]
      exact List.Nodup.append h (List.nodup_singleton _) (List.disjoint_singleton.mpr hnew)
  | deleted id => exact h.sublist (List.filter_sublist.map _)

end Client

/-- What was still to be announced or retracted in `s` is so in `s'`. -/
structure DueKept (s s' : Service) : Prop where
  retraction : ∀ id, RetractionDue s id → RetractionDue s' id
  announcement : ∀ m, AnnouncementDue s m → AnnouncementDue s' m

section DueKept
variable {s s' : Service} {k : ℕ}

theorem DueKept.same (h : s'.calls = s.calls) : DueKept s s' := by
  constructor <;> rintro _ ⟨j,hj⟩ <;> exact ⟨j,h ▸ hj⟩

theorem DueKept.put {call : Call} (h : s'.calls = (s.put k call).calls) (hret : ∀ id, s.calls k ≠ some (.deleted id))
    (hann : ∀ m, s.calls k ≠ some (.appended m)) : DueKept s s' := by
  constructor
  · rintro id ⟨j,hj⟩
    exact ⟨j,h ▸ put_keeps hj (hret id)⟩
  · rintro m ⟨j,hj⟩
    exact ⟨j,h ▸ put_keeps hj (hann m)⟩

theorem DueKept.drop (h : s'.calls = (s.drop k).calls) (hret : ∀ id, s.calls k ≠ some (.deleted id))
    (hann : ∀ m, s.calls k ≠ some (.appended m)) : DueKept s s' := by
  constructor
  · rintro id ⟨j,hj⟩
    exact ⟨j,h ▸ drop_keeps hj (hret id)⟩
  · rintro m ⟨j,hj⟩
    exact ⟨j,h ▸ drop_keeps hj (hann m)⟩

end DueKept

namespace Tracked
variable {boundary : ℤ} {s s' : Service} {i : ℕ} {events : List ChatEvent}

/-- A step of which the stream is sent nothing: the store may take in a message still to be announced,
and lose one whose deletion is still to be announced. -/
theorem unsent (h : Tracked boundary s i events) (hg : Grows s s')
    (hkeep : ∀ m ∈ s.store.rows, m ∈ s'.store.rows ∨ RetractionDue s' m.id)
    (hnew : ∀ m ∈ s'.store.rows, m ∈ s.store.rows ∨ AnnouncementDue s' m) (hdue : DueKept s s')
    (hclient : s'.clients i = s.clients i) : Tracked boundary s' i events := by
  have hshown {m : Message} (hm : Shown boundary s m ∨ RetractionDue s m.id) :
      Shown boundary s' m ∨ RetractionDue s' m.id := by
    rcases hm with ⟨hstored,hsince⟩ | hret
    · exact (hkeep m hstored).imp (fun hm => ⟨hm,hsince⟩) id
    · exact .inr (hdue.retraction _ hret)
  refine ⟨fun m hm => hg.archive m (h.sent m hm),?_,fun m hm => hshown (h.survives m hm),?_,?_,?_,?_⟩
  · exact fun id hid => ⟨hg.archived (h.gone id hid).1,hg.not_stored (h.gone id hid).1 (h.gone id hid).2⟩
  · rw [hclient]
    exact fun l hl m hm => hg.archive m (h.known l hl m hm)
  · rw [hclient]
    exact h.nodup
  · rw [hclient]
    exact fun l hl m hm hnot => hshown (h.listed l hl m hm hnot)
  · rw [hclient]
    intro l hl m hm
    rcases hnew m hm.1 with hold | hann
    · exact (h.complete l hl m ⟨hold,hm.2⟩).imp id fun hrest => hrest.imp id (hdue.announcement m)
    · exact .inr (.inr hann)

/-- A step that moves a call, or another stream, and leaves the messages alone. -/
theorem unmoved (h : Tracked boundary s i events) (hstore : s'.store = s.store) (harchive : s'.archive = s.archive)
    (hdue : DueKept s s') (hclient : s'.clients i = s.clients i) : Tracked boundary s' i events := by
  refine h.unsent (.same harchive hstore) (fun m hm => .inl ?_) (fun m hm => .inl ?_) hdue hclient
  · rwa [hstore]
  · rwa [← hstore]

/-- A posted message is queued: what was due is sent. -/
theorem announce (h : Tracked boundary s i events) {k : ℕ} {m : Message} {bus : Bus} (hb : Books boundary s)
    (hk : s.calls k = some (.appended m)) (horder : InOrder s (.announce k)) :
    Tracked boundary (s.announced k m bus) i (events ++ [.posted m]) := by
  obtain ⟨harchived,hsince⟩ : m ∈ s.archive.rows ∧ boundary ≤ m.createdAt := hb.calls k _ hk
  have hret {id : ℕ} (hdue : RetractionDue s id) : RetractionDue (s.announced k m bus) id := by
    obtain ⟨j,hj⟩ := hdue
    have hne : s.calls k ≠ some (.deleted id) := by simp [hk]
    exact ⟨j,drop_keeps hj hne⟩
  have hshown {n : Message} (hn : Shown boundary s n ∨ RetractionDue s n.id) :
      Shown boundary (s.announced k m bus) n ∨ RetractionDue (s.announced k m bus) n.id := hn.imp id hret
  have hmem {e : ChatEvent} : e ∈ events ++ [.posted m] ↔ e ∈ events ∨ e = .posted m := by simp
  refine ⟨fun n hn => ?_,fun id hid => ?_,fun n hn => ?_,h.known,h.nodup,fun l hl n hn hnot => ?_,fun l hl n hn => ?_⟩
  · rcases hmem.mp hn with hold | hnew
    · exact h.sent n hold
    · cases hnew
      exact harchived
  · rcases hmem.mp hid with hold | hnew
    · exact h.gone id hold
    · cases hnew
  · rcases survives_snoc hn with rfl | hold
    · exact hshown ((horder n hk).imp (fun hstored => ⟨hstored,hsince⟩) id)
    · exact hshown (h.survives n hold)
  · exact hshown (h.listed l hl n hn fun hin => hnot (hmem.mpr (.inl hin)))
  · rcases h.complete l hl n hn with hl | hsent | ⟨j,hj⟩
    · exact .inl hl
    · exact .inr (.inl (hmem.mpr (.inl hsent)))
    · by_cases hnm : n = m
      · exact .inr (.inl (hmem.mpr (.inr (congrArg _ hnm))))
      · have hne : s.calls k ≠ some (.appended n) := by
          rw [hk]
          rintro ⟨⟩
          exact hnm rfl
        exact .inr (.inr ⟨j,drop_keeps hj hne⟩)

/-- A deletion is queued: its message is not stored, and the queue says so from now on. -/
theorem retract (h : Tracked boundary s i events) {k id : ℕ} {bus : Bus} (hb : Books boundary s)
    (hk : s.calls k = some (.deleted id)) :
    Tracked boundary { s.drop k with bus } i (events ++ [.deleted id]) := by
  obtain ⟨harchived,hgone⟩ : Archived s id ∧ ¬ Stored s id := hb.calls k _ hk
  have hshown {n : Message} (hne : n.id ≠ id) (hn : Shown boundary s n ∨ RetractionDue s n.id) :
      Shown boundary { s.drop k with bus } n ∨ RetractionDue { s.drop k with bus } n.id := by
    refine hn.imp (fun hshown => hshown) fun ⟨j,hj⟩ => ⟨j,drop_keeps hj ?_⟩
    rw [hk]
    rintro ⟨⟩
    exact hne rfl
  have hmem {e : ChatEvent} : e ∈ events ++ [.deleted id] ↔ e ∈ events ∨ e = .deleted id := by simp
  refine ⟨fun n hn => ?_,fun j hj => ?_,fun n hn => ?_,h.known,h.nodup,fun l hl n hn hnot => ?_,fun l hl n hn => ?_⟩
  · rcases hmem.mp hn with hold | hnew
    · exact h.sent n hold
    · cases hnew
  · rcases hmem.mp hj with hold | hnew
    · exact h.gone j hold
    · cases hnew
      exact ⟨harchived,hgone⟩
  · obtain ⟨hne,hold⟩ := survives_snoc_deleted hn
    exact hshown hne (h.survives n hold)
  · have hne : n.id ≠ id := by
      rintro rfl
      exact hnot (hmem.mpr (.inr rfl))
    exact hshown hne (h.listed l hl n hn fun hin => hnot (hmem.mpr (.inl hin)))
  · refine (h.complete l hl n hn).imp (fun hin => hin) fun hrest => hrest.imp (fun hsent => hmem.mpr (.inl hsent)) ?_
    rintro ⟨j,hj⟩
    have hne : s.calls k ≠ some (.appended n) := by simp [hk]
    exact ⟨j,drop_keeps hj hne⟩

/-- The client applies the oldest event of its queue. -/
theorem receive {event : ChatEvent} {l : List Message} {bus : Bus} (h : Tracked boundary s i (event :: events))
    (hb : Books boundary s) (hl : s.clients i = some l) :
    Tracked boundary { s.show_ i (applied l event) with bus } i events := by
  have hnow : ({ s.show_ i (applied l event) with bus } : Service).clients i = some (applied l event) :=
    Function.update_self _ _ _
  have hsurvives (n : Message) (hn : Survives events n) := h.survives n (hn.cons event)
  refine ⟨fun n hn => h.sent n (.tail _ hn),fun id hid => h.gone id (.tail _ hid),hsurvives,?_,?_,?_,?_⟩ <;>
    rw [hnow] <;> rintro _ ⟨⟩
  · intro n hn
    cases event with
    | posted m =>
      rcases of_mem_applied_posted hn with hold | rfl
      · exact h.known l hl n hold
      · exact h.sent n (.head _)
    | deleted id => exact h.known l hl n (mem_applied_deleted.mp hn).1
  · exact nodup_applied (h.nodup l hl) event
  · intro n hn hnot
    cases event with
    | posted m =>
      rcases of_mem_applied_posted hn with hold | rfl
      · exact h.listed l hl n hold (by simpa using hnot)
      · exact h.survives n (survives_head hnot)
    | deleted id =>
      obtain ⟨hold,hne⟩ := mem_applied_deleted.mp hn
      exact h.listed l hl n hold (by simpa [hne] using hnot)
  · intro n hn
    cases event with
    | posted m =>
      rcases h.complete l hl n hn with hold | hsent | hdue
      · exact .inl (mem_applied_posted hold)
      · rcases List.mem_cons.mp hsent with heq | hsent
        · cases heq
          obtain ⟨same,hsame,hid⟩ := exists_mem_applied_posted l n
          have heq : same = n := by
            rcases of_mem_applied_posted hsame with hold | hnew
            · exact Table.eq_of_key (h.known l hl same hold) (hb.archived n hn.1) hid
            · exact hnew
          rw [heq] at hsame
          exact .inl hsame
        · exact .inr (.inl hsent)
      · exact .inr (.inr hdue)
    | deleted id =>
      have hne : n.id ≠ id := by
        rintro rfl
        exact (h.gone n.id (.head _)).2 ⟨n,hn.1,rfl⟩
      rcases h.complete l hl n hn with hold | hsent | hdue
      · exact .inl (mem_applied_deleted.mpr ⟨hold,hne⟩)
      · exact .inr (.inl ((List.mem_cons.mp hsent).resolve_left (by simp)))
      · exact .inr (.inr hdue)

end Tracked

/-! ## The snapshot -/

section Snapshot
variable {maxListed : ℕ} {store : Store} {boundary : ℤ} {m : Message}

theorem mem_shownSince : m ∈ shownSince store boundary ↔ m ∈ store.rows ∧ boundary ≤ m.createdAt := by
  simp [shownSince]

theorem listSince_perm (h : (shownSince store boundary).length ≤ maxListed) :
    (listSince maxListed store boundary).Perm (shownSince store boundary) := by
  unfold listSince
  rw [List.take_of_length_le]
  · exact (List.reverse_perm _).trans (List.mergeSort_perm _ _)
  · rw [List.length_mergeSort]
    exact h

theorem Tracked.snapshot {s : Service} {i : ℕ} {events : List ChatEvent} (h : Tracked boundary s i events)
    (hb : Books boundary s) (hfits : (shownSince s.store boundary).length ≤ maxListedMessages) :
    Tracked boundary (s.show_ i (listSince maxListedMessages s.store boundary)) i events := by
  have hperm := listSince_perm hfits
  have hmem {m : Message} : m ∈ listSince maxListedMessages s.store boundary ↔ Shown boundary s m :=
    hperm.mem_iff.trans mem_shownSince
  have hnow : (s.show_ i (listSince maxListedMessages s.store boundary)).clients i = some _ :=
    Function.update_self _ _ _
  refine ⟨h.sent,h.gone,h.survives,?_,?_,?_,?_⟩ <;> rw [hnow] <;> rintro _ ⟨⟩
  · exact fun m hm => hb.archived m (hmem.mp hm).1
  · have hnodup : ((shownSince s.store boundary).map Message.id).Nodup :=
      s.store.nodup.sublist (List.filter_sublist.map Message.id)
    exact (hperm.map Message.id).nodup_iff.mpr hnodup
  · exact fun m hm _ => .inl (hmem.mp hm)
  · exact fun m hm => .inl (hmem.mpr hm)

end Snapshot

/-! ## Runs -/

/-- The books are kept, and every stream that is followed is tracked. -/
structure InStep (boundary : ℤ) (s : Service) : Prop where
  books : Books boundary s
  tracked : ∀ i events, Following s.bus i events → Tracked boundary s i events

section Step
variable {boundary : ℤ} {s s' : Service}

theorem Tracked.opened {i : ℕ} (h : s.clients i = none) : Tracked boundary s i [] := by
  refine ⟨fun _ hm => (List.not_mem_nil hm).elim,fun _ hid => (List.not_mem_nil hid).elim,
    fun _ hm => (not_survives_nil hm).elim,?_,?_,?_,?_⟩ <;> rw [h] <;> rintro _ ⟨⟩

theorem InStep.tracked_step (h : InStep boundary s) {move : Move} (hallowed : StaysInOrder boundary s move)
    (hstep : s.Step move s') (i : ℕ) (events : List ChatEvent) (hf : Following s'.bus i events) :
    Tracked boundary s' i events := by
  have hb := h.books
  cases hstep with
  | check k draft hk =>
    unfold Service.checked at hf ⊢
    split
    · rename_i hok
      rw [hok] at hf
      exact (h.tracked i events hf).unmoved rfl rfl (.put rfl (by simp [hk]) (by simp [hk])) rfl
    · rename_i e herror
      rw [herror] at hf
      exact h.tracked i events hf
  | @append k draft id hk hfresh =>
    obtain ⟨hg,hmem⟩ := grows_append (k := k) (m := draft.message id) hfresh hb.archived
    have hstored : s.store.get? id = none :=
      Table.get?_eq_none_iff.mpr fun n hn => Table.get?_eq_none_iff.mp hfresh n (hb.archived n hn)
    refine (h.tracked i events hf).unsent hg (fun m hm => ?_) (fun m hm => (hmem m hm).imp (fun hm => hm) ?_)
      (.put rfl (by simp [hk]) (by simp [hk])) rfl
    · exact .inl ((Table.mem_insert (a := draft.message id) hstored).mpr (.inl hm))
    · rintro rfl
      exact ⟨k,(put_calls s k _ k).trans (if_pos rfl)⟩
  | @appendFails k draft hk =>
    exact (h.tracked i events hf).unmoved rfl rfl (.drop rfl (by simp [hk]) (by simp [hk])) rfl
  | announce hk hbus =>
    obtain ⟨before,hbefore,rfl⟩ := following_publish hbus hf
    exact (h.tracked i before hbefore).announce hb hk hallowed.2
  | find k messageId subject admin hk =>
    unfold Service.found at hf ⊢
    split
    · rename_i hok
      rw [hok] at hf
      exact (h.tracked i events hf).unmoved rfl rfl (.put rfl (by simp [hk]) (by simp [hk])) rfl
    · rename_i e herror
      rw [herror] at hf
      exact h.tracked i events hf
  | @remove k messageId hk =>
    refine (h.tracked i events hf).unsent ⟨fun _ hm => hm,fun m hm => .inl (Table.mem_delete.mp hm).1⟩ (fun m hm => ?_)
      (fun m hm => .inl (Table.mem_delete.mp hm).1) (.put rfl (by simp [hk]) (by simp [hk])) rfl
    by_cases hid : m.id = messageId
    · exact .inr ⟨k,hid ▸ (put_calls s k _ k).trans (if_pos rfl)⟩
    · exact .inl (Table.mem_delete.mpr ⟨hm,hid⟩)
  | @removeFails k messageId hk =>
    exact (h.tracked i events hf).unmoved rfl rfl (.drop rfl (by simp [hk]) (by simp [hk])) rfl
  | retract hk hbus =>
    obtain ⟨before,hbefore,rfl⟩ := following_publish hbus hf
    exact (h.tracked i before hbefore).retract hb hk
  | subscribe hbus =>
    rcases following_subscribe hbus hf with ⟨_,rfl,hnone⟩ | ⟨_,hbefore⟩
    · exact .opened (hb.opened i hnone)
    · exact (h.tracked i events hbefore).unmoved rfl rfl (.same rfl) rfl
  | @snapshot j now _ _ =>
    obtain ⟨rfl,hfits⟩ := hallowed.1
    by_cases hij : i = j
    · subst hij
      exact (h.tracked i events hf).snapshot hb hfits
    · have hother : (s.show_ j (listSince maxListedMessages s.store (historyStart now))).clients i = s.clients i :=
        Function.update_of_ne hij _ _
      exact (h.tracked i events hf).unmoved rfl rfl (.same rfl) hother
  | @receive j event l bus hclient hbus =>
    rcases following_read hbus hf with ⟨rfl,hbefore⟩ | ⟨hij,hbefore⟩
    · exact (h.tracked i (event :: events) hbefore).receive hb hclient
    · have hother : (s.show_ j (applied l event)).clients i = s.clients i := Function.update_of_ne hij _ _
      exact (h.tracked i events hbefore).unmoved rfl rfl (.same rfl) hother
  | finish _ hbus =>
    have hbefore := h.tracked i events (following_closed hbus hf)
    exact hbefore.unmoved rfl rfl (.same rfl) rfl
  | unsubscribe hbus =>
    have hbefore := h.tracked i events (following_unsubscribe hbus hf)
    exact hbefore.unmoved rfl rfl (.same rfl) rfl

theorem inStep (h : Service.Reachable (StaysInOrder boundary) s) : InStep boundary s := by
  induction h with
  | start hs =>
    refine ⟨⟨hs.archived,?_,?_⟩,?_⟩
    · rw [hs.calls]
      exact fun _ _ hk => by cases hk
    · rw [hs.clients]
      exact fun _ _ => rfl
    · rintro i events ⟨hstream,_⟩
      rw [hs.bus] at hstream
      cases hstream
  | step _ hallowed hstep ih => exact ⟨ih.books.step hallowed.1 hstep,ih.tracked_step hallowed hstep⟩

end Step

/-- The client shows the messages stored in the window, each once. -/
def Converged (boundary : ℤ) (s : Service) (l : List Message) : Prop :=
  (∀ m, m ∈ l ↔ m ∈ s.store.rows ∧ boundary ≤ m.createdAt) ∧ (l.map (·.id)).Nodup

/-- Every call has finished, and the stream's client has applied all that was sent, without a drop. -/
structure Settled (s : Service) (i : ℕ) (l : List Message) : Prop where
  calls : ∀ k, s.calls k = none
  following : Following s.bus i []
  client : s.clients i = some l

theorem stream_converges {boundary : ℤ} {s : Service} (h : Service.Reachable (StaysInOrder boundary) s) {i : ℕ}
    {l : List Message} (hs : Settled s i l) : Converged boundary s l := by
  have ht := (inStep h).tracked i [] hs.following
  have hnothing {call : Call} {k : ℕ} : s.calls k ≠ some call := by simp [hs.calls k]
  refine ⟨fun m => ⟨fun hm => ?_,fun hm => ?_⟩,ht.nodup l hs.client⟩
  · rcases ht.listed l hs.client m hm List.not_mem_nil with hshown | ⟨k,hk⟩
    · exact hshown
    · exact absurd hk hnothing
  · rcases ht.complete l hs.client m hm with hin | hsent | ⟨k,hk⟩
    · exact hin
    · exact absurd hsent List.not_mem_nil
    · exact absurd hk hnothing

/-! ## A message deleted before it is announced -/

def firstHello : Message := (hello 0).message 1

/-- A stream has opened on an empty chat. -/
def opened : Service := { freshService with bus := freshService.bus.subscribe 0 }.show_ 0 []

/-- Alice's message is stored, and not yet announced. -/
def stored : Service := (opened.put 0 (.appending (hello 0))).append 0 firstHello

theorem reachable_stored : Service.Reachable (StaysInOrder (historyStart 0)) stored := by
  have hsub : Service.Reachable (StaysInOrder (historyStart 0))
      { freshService with bus := freshService.bus.subscribe 0 } := by
    refine (Service.Reachable.start freshService_starts).step ?_ (.subscribe (.subscribe 0 rfl))
    exact ⟨trivial,trivial⟩
  have hlist : listSince maxListedMessages freshService.store (historyStart 0) = [] := by
    simp [listSince,shownSince,freshService,Table.empty]
  have hopened : Service.Reachable (StaysInOrder (historyStart 0)) opened := by
    unfold opened
    rw [← hlist]
    refine hsub.step ?_ (.snapshot 0 (Option.some_ne_none _) rfl)
    exact ⟨⟨rfl,Nat.zero_le _⟩,trivial⟩
  have hchecked : Service.Reachable (StaysInOrder (historyStart 0)) (opened.put 0 (.appending (hello 0))) := by
    refine hopened.step ?_ (.check 0 (hello 0) rfl)
    exact ⟨rfl,trivial⟩
  refine hchecked.step ?_ (.append 1 rfl rfl)
  exact ⟨trivial,trivial⟩

theorem registered_order {b : Bus} (h : b.subscriptions = {0}) : InSomeOrder b.subscriptions [0] :=
  ⟨List.nodup_singleton 0,by simp [h]⟩

theorem stored_calls {k : ℕ} (h : k ≠ 0) : stored.calls k = none :=
  (put_calls _ 0 _ k).trans ((if_neg h).trans ((put_calls opened 0 _ k).trans (if_neg h)))

def announcedFirst : Service := stored.announced 0 firstHello (stored.bus.publish [0] (.posted firstHello))

def receivedFirst : Service :=
  { announcedFirst.show_ 0 (applied [] (.posted firstHello)) with bus := announcedFirst.bus.set 0 (live []) }

theorem stream_converges_receivedFirst : Converged (historyStart 0) receivedFirst [firstHello] := by
  have hannounced : Service.Reachable (StaysInOrder (historyStart 0)) announcedFirst := by
    refine reachable_stored.step ?_ (.announce rfl (.publish _ (registered_order rfl)))
    refine ⟨trivial,?_⟩
    rintro m ⟨⟩
    exact .inl (.head _)
  have hreceived : Service.Reachable (StaysInOrder (historyStart 0)) receivedFirst := by
    have hread : Step announcedFirst.bus (.read 0 (.event (.posted firstHello))) (announcedFirst.bus.set 0 (live [])) :=
      .read rfl rfl
    refine hannounced.step ?_ (.receive rfl hread)
    exact ⟨trivial,trivial⟩
  refine stream_converges hreceived ⟨fun k => ?_,⟨rfl,Finset.mem_insert_self 0 ∅⟩,rfl⟩
  by_cases hk : k = 0
  · exact (drop_calls stored 0 k).trans (if_pos hk)
  · exact (drop_calls stored 0 k).trans ((if_neg hk).trans (stored_calls hk))

/-- Deleted, and the deletion announced, while the post has yet to be. -/
def deletedFirst : Service := (stored.put 1 (.deleting 1)).remove 1 1

def retractedFirst : Service :=
  { deletedFirst.drop 1 with bus := deletedFirst.bus.publish [0] (.deleted 1) }

def announcedLast : Service :=
  retractedFirst.announced 0 firstHello (retractedFirst.bus.publish [0] (.posted firstHello))

/-- The client has applied both. -/
def receivedDeletion : Service :=
  { announcedLast.show_ 0 (applied [] (.deleted 1)) with
    bus := announcedLast.bus.set 0 (live [.posted firstHello]) }

def receivedBoth : Service :=
  { receivedDeletion.show_ 0 (applied [] (.posted firstHello)) with bus := receivedDeletion.bus.set 0 (live []) }

theorem reachable_receivedBoth : Service.Reachable (WindowStays (historyStart 0)) receivedBoth := by
  have hstored := reachable_stored.mono fun _ _ hallowed => hallowed.1
  have hfound : Service.Reachable (WindowStays (historyStart 0)) (stored.put 1 (.deleting 1)) := by
    refine hstored.step ?_ (.find 1 1 "alice" false rfl)
    exact trivial
  have hdeleted : Service.Reachable (WindowStays (historyStart 0)) deletedFirst := by
    refine hfound.step ?_ (.remove rfl)
    exact trivial
  have hretracted : Service.Reachable (WindowStays (historyStart 0)) retractedFirst := by
    refine hdeleted.step ?_ (.retract rfl (.publish _ (registered_order rfl)))
    exact trivial
  have hannounced : Service.Reachable (WindowStays (historyStart 0)) announcedLast := by
    refine hretracted.step ?_ (.announce rfl (.publish _ (registered_order rfl)))
    exact trivial
  have hfirst : Step announcedLast.bus (.read 0 (.event (.deleted 1)))
    (announcedLast.bus.set 0 (live [.posted firstHello])) := .read rfl rfl
  have hreceived : Service.Reachable (WindowStays (historyStart 0)) receivedDeletion := by
    refine hannounced.step ?_ (.receive rfl hfirst)
    exact trivial
  have hsecond : Step receivedDeletion.bus (.read 0 (.event (.posted firstHello)))
    (receivedDeletion.bus.set 0 (live [])) := .read rfl rfl
  refine hreceived.step ?_ (.receive rfl hsecond)
  exact trivial

theorem settled_receivedBoth : Settled receivedBoth 0 [firstHello] := by
  refine ⟨fun k => ?_,⟨rfl,Finset.mem_insert_self 0 ∅⟩,rfl⟩
  by_cases hk : k = 0
  · exact (drop_calls retractedFirst 0 k).trans (if_pos hk)
  · have hdrop : receivedBoth.calls k = (deletedFirst.drop 1).calls k :=
      (drop_calls retractedFirst 0 k).trans (if_neg hk)
    rw [hdrop,drop_calls]
    split
    · rfl
    · rename_i hone
      have hput := (put_calls (stored.put 1 (.deleting 1)) 1 (.deleted 1) k).trans (if_neg hone)
      exact hput.trans (((put_calls stored 1 _ k).trans (if_neg hone)).trans (stored_calls hk))

/-- The client shows a message that is deleted. -/
theorem deleted_still_shown : ¬ ∀ boundary s, Service.Reachable (WindowStays boundary) s → ∀ i l, Settled s i l →
    Converged boundary s l := by
  intro h
  have hconverged := h _ receivedBoth reachable_receivedBoth 0 [firstHello] settled_receivedBoth
  have hstored := (hconverged.1 firstHello).mp (.head _)
  exact absurd hstored.1 (by decide)

end Tag2now.Chat
