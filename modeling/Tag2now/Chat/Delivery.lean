import Mathlib.Data.List.Infix
import Tag2now.Chat.Bus

/-! # What the bus delivers

What a stream has yielded and what is still queued for it are, in order, the events published
while it is subscribed. A dropped stream loses what was queued, but nothing out of the middle:
it yields nothing more and ends.
-/
namespace Tag2now.Chat

/-! ## What a stream was sent and what it yielded -/

section Trace
variable (i : ℕ)

def publishedSince : List Action → List ChatEvent
  | [] => []
  | .publish event :: trace =>
    if .subscribe i ∈ trace then publishedSince trace ++ [event] else publishedSince trace
  | _ :: trace => publishedSince trace

/-- What was published between its subscribing and its unsubscribing. -/
def publishedWhile : List Action → List ChatEvent
  | [] => []
  | .publish event :: trace =>
    if .subscribe i ∈ trace ∧ .unsubscribe i ∉ trace then publishedWhile trace ++ [event]
    else publishedWhile trace
  | _ :: trace => publishedWhile trace

def yielded : List Action → List ChatEvent
  | [] => []
  | .read j (.event event) :: trace => if j = i then yielded trace ++ [event] else yielded trace
  | _ :: trace => yielded trace

end Trace

section Trace
variable {i : ℕ} {trace : List Action}

theorem publishedWhile_eq (h : .unsubscribe i ∉ trace) : publishedWhile i trace = publishedSince i trace := by
  induction trace with
  | nil => rfl
  | cons a trace ih =>
    obtain ⟨_,hrest⟩ := not_or.mp (mt List.mem_cons.mpr h)
    have hsame := ih hrest
    cases a with
    | publish event => simp only [publishedWhile,publishedSince,hsame,hrest,not_false_eq_true,and_true]
    | subscribe j => exact hsame
    | read j item => exact hsame
    | unsubscribe j => exact hsame

theorem publishedWhile_sublist_since (i : ℕ) (trace : List Action) :
    publishedWhile i trace <+: publishedSince i trace := by
  induction trace with
  | nil => exact List.prefix_rfl
  | cons a trace ih =>
    cases a with
    | publish event =>
      unfold publishedWhile publishedSince
      by_cases hsub : .subscribe i ∈ trace
      · by_cases hleft : .unsubscribe i ∈ trace
        · rw [if_neg (fun h => h.2 hleft),if_pos hsub]
          exact ih.trans (List.prefix_append _ _)
        · rw [if_pos ⟨hsub,hleft⟩,if_pos hsub,publishedWhile_eq hleft]
      · rw [if_neg (fun h => hsub h.1),if_neg hsub]
        exact ih
    | subscribe j => exact ih
    | read j item => exact ih
    | unsubscribe j => exact ih

theorem publishedWhile_of_not_mem (h : .subscribe i ∉ trace) : publishedWhile i trace = [] := by
  induction trace with
  | nil => rfl
  | cons a trace ih =>
    obtain ⟨_,hrest⟩ := not_or.mp (mt List.mem_cons.mpr h)
    cases a with
    | publish event =>
      unfold publishedWhile
      rw [if_neg (fun h => hrest h.1)]
      exact ih hrest
    | subscribe j => exact ih hrest
    | read j item => exact ih hrest
    | unsubscribe j => exact ih hrest

theorem yielded_cons_of_ne {a : Action} (h : ∀ event, a ≠ .read i (.event event)) :
    yielded i (a :: trace) = yielded i trace := by
  cases a with
  | read j item =>
    cases item with
    | event event => exact if_neg fun hji => h event (by rw [hji])
    | closed => rfl
  | subscribe j => rfl
  | publish event => rfl
  | unsubscribe j => rfl

end Trace

/-! ## The stations of a stream -/

def Subscription.events (s : Subscription) : List ChatEvent :=
  s.queue.filterMap fun item => match item with
    | .event event => some event
    | .closed => none

def queued (b : Bus) (i : ℕ) : List ChatEvent := ((b.streams i).map (·.events)).getD []

/-- The marker is in the queue, or has been read. -/
def Subscription.Dropped (s : Subscription) : Prop := s.ended = true ∨ .closed ∈ s.queue

def Dropped (b : Bus) (i : ℕ) : Prop := ∃ s, b.streams i = some s ∧ s.Dropped

/-- A stream that was not dropped: a queue of events, still to be read. -/
def live (events : List ChatEvent) : Subscription := ⟨events.map .event,false⟩

/-- A stream that was dropped: at the marker, or past it. -/
inductive Closed : Subscription → Prop
  | marked : Closed ⟨[.closed],false⟩
  | ended : Closed ⟨[],true⟩

inductive Stream (queueSize : ℕ) (b : Bus) (trace : List Action) (i : ℕ) : Prop
  | absent : b.streams i = none → i ∉ b.subscriptions → .subscribe i ∉ trace → .unsubscribe i ∉ trace →
      yielded i trace = [] → Stream queueSize b trace i
  | live (events : List ChatEvent) : b.streams i = some (live events) → events.length ≤ queueSize →
      .subscribe i ∈ trace → (i ∈ b.subscriptions ↔ .unsubscribe i ∉ trace) →
      yielded i trace ++ events = publishedWhile i trace → Stream queueSize b trace i
  | dropped (s : Subscription) : b.streams i = some s → Closed s → i ∉ b.subscriptions →
      .subscribe i ∈ trace → yielded i trace <+: publishedWhile i trace → Stream queueSize b trace i

section Stream
variable {s : Subscription} {events : List ChatEvent}

@[simp] theorem live_events (events : List ChatEvent) : (live events).events = events := by
  simp [live,Subscription.events,List.filterMap_map]

@[simp] theorem live_queue_length (events : List ChatEvent) : (live events).queue.length = events.length := by
  simp [live]

theorem live_not_dropped (events : List ChatEvent) : ¬ (live events).Dropped := by
  simp [live,Subscription.Dropped]

theorem Closed.dropped (h : Closed s) : s.Dropped := by
  cases h with
  | marked => exact .inr (.head _)
  | ended => exact .inl rfl

theorem live_offered_of_lt {size : ℕ} (h : events.length < size) (event : ChatEvent) :
    (live events).offered size event = live (events ++ [event]) := by
  have hlen : (live events).queue.length < size := by simpa using h
  rw [offered_of_lt hlen]
  simp [live]

theorem live_offered_of_le {size : ℕ} (h : size ≤ events.length) (event : ChatEvent) :
    (live events).offered size event = ⟨[.closed],false⟩ := by
  have hlen : size ≤ (live events).queue.length := by simpa using h
  rw [offered_of_le hlen]
  rfl

theorem live_next {item : Item} {s' : Subscription} (h : (live events).next = some (item,s')) :
    ∃ event rest, events = event :: rest ∧ item = .event event ∧ s' = live rest := by
  cases events with
  | nil => cases h
  | cons event rest =>
    cases h
    exact ⟨event,rest,rfl,rfl,rfl⟩

theorem Closed.next {item : Item} {s' : Subscription} (h : Closed s) (hn : s.next = some (item,s')) :
    item = .closed ∧ s' = ⟨[],true⟩ := by
  cases h with
  | marked =>
    cases hn
    exact ⟨rfl,rfl⟩
  | ended => cases hn

end Stream

theorem publishedWhile_cons (i : ℕ) (a : Action) (trace : List Action) :
    publishedWhile i trace <+: publishedWhile i (a :: trace) := by
  cases a with
  | publish event =>
    by_cases h : .subscribe i ∈ trace ∧ .unsubscribe i ∉ trace
    · have hsent : publishedWhile i (.publish event :: trace) = publishedWhile i trace ++ [event] := if_pos h
      rw [hsent]
      exact List.prefix_append _ _
    · have hsent : publishedWhile i (.publish event :: trace) = publishedWhile i trace := if_neg h
      rw [hsent]
  | subscribe j => exact List.prefix_rfl
  | read j item => exact List.prefix_rfl
  | unsubscribe j => exact List.prefix_rfl

section Steps
variable {q : ℕ} {b b' : Bus} {trace : List Action} {a : Action} {i : ℕ}

theorem Stream.unmoved (h : Stream q b trace i) (hs : b'.streams i = b.streams i)
    (hm : i ∈ b'.subscriptions ↔ i ∈ b.subscriptions) (hsub : a ≠ .subscribe i) (hunsub : a ≠ .unsubscribe i)
    (hread : ∀ event, a ≠ .read i (.event event))
    (hp : publishedWhile i (a :: trace) = publishedWhile i trace) : Stream q b' (a :: trace) i := by
  have hmemsub : .subscribe i ∈ a :: trace ↔ .subscribe i ∈ trace := by simp [hsub.symm]
  have hmemunsub : .unsubscribe i ∈ a :: trace ↔ .unsubscribe i ∈ trace := by simp [hunsub.symm]
  have hy : yielded i (a :: trace) = yielded i trace := yielded_cons_of_ne hread
  cases h with
  | absent hnone hout hnot hnotleft hnothing =>
    exact .absent (hs.trans hnone) (mt hm.mp hout) (mt hmemsub.mp hnot) (mt hmemunsub.mp hnotleft) (hy.trans hnothing)
  | live events hlive hlen hin hreg hall =>
    refine .live events (hs.trans hlive) hlen (hmemsub.mpr hin) ?_ ?_
    · rw [hm,hmemunsub]
      exact hreg
    · rw [hy,hp]
      exact hall
  | dropped s hsome hclosed hout hin hpre =>
    refine .dropped s (hs.trans hsome) hclosed (mt hm.mp hout) (hmemsub.mpr hin) ?_
    rw [hy,hp]
    exact hpre

theorem Stream.subscribe (h : Stream q b trace i) {j : ℕ} (hnone : b.streams j = none) :
    Stream q (b.subscribe j) (.subscribe j :: trace) i := by
  by_cases hji : j = i
  · subst hji
    have hstream : (b.subscribe j).streams j = some (Chat.live []) := by
      unfold Bus.subscribe
      exact (set_streams b j .open_ j).trans (if_pos rfl)
    cases h with
    | absent _ _ hnot hnotleft hnothing =>
      refine .live [] hstream (Nat.zero_le q) (.head _) ?_ ?_
      · simp [Bus.subscribe,hnotleft]
      · rw [yielded_cons_of_ne (by simp),hnothing]
        exact (publishedWhile_of_not_mem hnot).symm
    | live events hsome _ _ _ _ =>
      rw [hnone] at hsome
      cases hsome
    | dropped s hsome _ _ _ _ =>
      rw [hnone] at hsome
      cases hsome
  · have hstream : (b.subscribe j).streams i = b.streams i := by
      unfold Bus.subscribe
      exact (set_streams b j .open_ i).trans (if_neg (Ne.symm hji))
    have hmem : i ∈ (b.subscribe j).subscriptions ↔ i ∈ b.subscriptions := by
      simp [Bus.subscribe,Ne.symm hji]
    exact h.unmoved hstream hmem (by simpa using hji) (by simp) (by simp) rfl

theorem publish_live_of_lt (event : ChatEvent) {order : List ℕ} {events : List ChatEvent}
    (horder : InSomeOrder b.subscriptions order) (hreg : i ∈ b.subscriptions)
    (hlive : b.streams i = some (live events)) (hlt : events.length < b.queueSize) :
    (b.publish order event).streams i = some (live (events ++ [event])) ∧
      i ∈ (b.publish order event).subscriptions := by
  have hroom : ¬ Full b i := by
    rintro ⟨s,hs,hle⟩
    rw [hlive] at hs
    cases hs
    rw [live_queue_length] at hle
    omega
  refine ⟨?_,(mem_publish_of_order horder i).mpr ⟨hreg,hroom⟩⟩
  rw [publish_streams_of_order horder,if_pos hreg,hlive,Option.map_some,live_offered_of_lt hlt]

theorem publish_live_of_le (event : ChatEvent) {order : List ℕ} {events : List ChatEvent}
    (horder : InSomeOrder b.subscriptions order) (hreg : i ∈ b.subscriptions)
    (hlive : b.streams i = some (live events)) (hfull : b.queueSize ≤ events.length) :
    (b.publish order event).streams i = some ⟨[.closed],false⟩ ∧ i ∉ (b.publish order event).subscriptions := by
  have hover : Full b i := ⟨_,hlive,by rwa [live_queue_length]⟩
  refine ⟨?_,fun hi => ((mem_publish_of_order horder i).mp hi).2 hover⟩
  rw [publish_streams_of_order horder,if_pos hreg,hlive,Option.map_some,live_offered_of_le hfull]

theorem Stream.publish (h : Stream q b trace i) (hq : b.queueSize = q) (event : ChatEvent) {order : List ℕ}
    (horder : InSomeOrder b.subscriptions order) :
    Stream q (b.publish order event) (.publish event :: trace) i := by
  have hstream : (b.publish order event).streams i = _ := publish_streams_of_order horder i
  have hmem : i ∈ (b.publish order event).subscriptions ↔ _ := mem_publish_of_order horder i
  by_cases hreg : i ∈ b.subscriptions
  · cases h with
    | absent _ hout _ _ _ => exact absurd hreg hout
    | dropped _ _ _ hout _ _ => exact absurd hreg hout
    | live events hlive hlen hin hiff hall =>
      have hleft := hiff.mp hreg
      have hsent : publishedWhile i (.publish event :: trace) = publishedWhile i trace ++ [event] :=
        if_pos ⟨hin,hleft⟩
      have hy : yielded i (.publish event :: trace) = yielded i trace := yielded_cons_of_ne (by simp)
      rcases Nat.lt_or_ge events.length b.queueSize with hlt | hfull
      · obtain ⟨htaken,hstays⟩ := publish_live_of_lt event horder hreg hlive hlt
        refine .live (events ++ [event]) htaken ?_ (.tail _ hin) ?_ ?_
        · rw [List.length_append,← hq]
          exact hlt
        · simp [hstays,hleft]
        · rw [hy,hsent,← List.append_assoc,hall]
      · obtain ⟨hmarked,hout⟩ := publish_live_of_le event horder hreg hlive hfull
        refine .dropped _ hmarked .marked hout (.tail _ hin) ?_
        rw [hy,hsent,← hall,List.append_assoc]
        exact List.prefix_append _ _
  · rw [if_neg hreg] at hstream
    have hout : i ∉ (b.publish order event).subscriptions := fun hi => hreg (hmem.mp hi).1
    cases h with
    | dropped s hsome hclosed _ hin hpre =>
      refine .dropped s (hstream.trans hsome) hclosed hout (.tail _ hin) ?_
      exact hpre.trans (publishedWhile_cons i _ trace)
    | absent hnone hnotreg hnot hnotleft hnothing =>
      have hsent : publishedWhile i (.publish event :: trace) = publishedWhile i trace :=
        if_neg fun hin => hnot hin.1
      exact Stream.unmoved (.absent hnone hnotreg hnot hnotleft hnothing) hstream (iff_of_false hout hreg)
        (by simp) (by simp) (by simp) hsent
    | live events hlive hlen hin hiff hall =>
      have hsent : publishedWhile i (.publish event :: trace) = publishedWhile i trace :=
        if_neg fun hin => hreg (hiff.mpr hin.2)
      exact Stream.unmoved (.live events hlive hlen hin hiff hall) hstream (iff_of_false hout hreg)
        (by simp) (by simp) (by simp) hsent

theorem Stream.read (h : Stream q b trace i) {j : ℕ} {item : Item} {s s' : Subscription}
    (hs : b.streams j = some s) (hn : s.next = some (item,s')) :
    Stream q (b.set j s') (.read j item :: trace) i := by
  by_cases hji : j = i
  · subst hji
    have hstream : (b.set j s').streams j = some s' := (set_streams b j s' j).trans (if_pos rfl)
    cases h with
    | absent hnone _ _ _ _ =>
      rw [hs] at hnone
      cases hnone
    | live events hlive hlen hin hiff hall =>
      rw [hs] at hlive
      cases hlive
      obtain ⟨event,rest,rfl,rfl,rfl⟩ := live_next hn
      have hy : yielded j (.read j (.event event) :: trace) = yielded j trace ++ [event] := if_pos rfl
      refine .live rest hstream (Nat.le_of_succ_le hlen) (.tail _ hin) ?_ ?_
      · simpa [Bus.set] using hiff
      · rw [hy,List.append_assoc]
        exact hall
    | dropped s₀ hsome hclosed hout hin hpre =>
      rw [hs] at hsome
      cases hsome
      obtain ⟨rfl,rfl⟩ := hclosed.next hn
      exact .dropped _ hstream .ended hout (.tail _ hin) hpre
  · have hstream : (b.set j s').streams i = b.streams i := (set_streams b j s' i).trans (if_neg (Ne.symm hji))
    exact h.unmoved hstream .rfl (by simp) (by simp) (fun event heq => hji (Action.read.inj heq).1) rfl

theorem Stream.unsubscribe (h : Stream q b trace i) {j : ℕ} (hsome : b.streams j ≠ none) :
    Stream q (b.unsubscribe j) (.unsubscribe j :: trace) i := by
  by_cases hji : j = i
  · subst hji
    have hout : j ∉ (b.unsubscribe j).subscriptions := by simp [Bus.unsubscribe]
    cases h with
    | absent hnone _ _ _ _ => exact absurd hnone hsome
    | live events hlive hlen hin hiff hall =>
      exact .live events hlive hlen (.tail _ hin) (iff_of_false hout (not_not_intro (.head _))) hall
    | dropped s hs hclosed _ hin hpre => exact .dropped s hs hclosed hout (.tail _ hin) hpre
  · have hmem : i ∈ (b.unsubscribe j).subscriptions ↔ i ∈ b.subscriptions := by
      simp [Bus.unsubscribe,Ne.symm hji]
    exact h.unmoved rfl hmem (by simp) (by simpa using hji) (by simp) rfl

theorem Stream.step (h : Stream q b trace i) (hq : b.queueSize = q) (hstep : Step b a b') :
    Stream q b' (a :: trace) i := by
  cases hstep with
  | subscribe j hnone => exact h.subscribe hnone
  | publish event horder => exact h.publish hq event horder
  | read hs hn => exact h.read hs hn
  | unsubscribe j hsome => exact h.unsubscribe hsome

theorem Step.queueSize_eq (h : Step b a b') : b'.queueSize = b.queueSize := by
  cases h with
  | subscribe j _ => rfl
  | publish event _ => exact publish_queueSize b
  | read _ _ => rfl
  | unsubscribe j _ => rfl

end Steps

theorem Run.streams {q : ℕ} {b : Bus} {trace : List Action} (h : Run q b trace) :
    b.queueSize = q ∧ ∀ i, Stream q b trace i := by
  induction h with
  | start => exact ⟨rfl,fun i => .absent rfl (Finset.notMem_empty i) List.not_mem_nil List.not_mem_nil rfl⟩
  | step _ hstep ih => exact ⟨hstep.queueSize_eq.trans ih.1,fun i => (ih.2 i).step ih.1 hstep⟩

/-! ## Delivery -/

/-- The iteration is over: there is nothing more to read. -/
def Ended (b : Bus) (i : ℕ) : Prop := ∃ s, b.streams i = some s ∧ s.ended = true

/-- The stream stands the same on two buses, whatever the others do. -/
structure SameFor (i : ℕ) (b c : Bus) : Prop where
  size : b.queueSize = c.queueSize
  stream : b.streams i = c.streams i
  registered : i ∈ b.subscriptions ↔ i ∈ c.subscriptions

structure Delivery (queueSize : ℕ) (b : Bus) (trace : List Action) (i : ℕ) : Prop where
  inOrder : yielded i trace <+: publishedSince i trace
  complete : ¬ Dropped b i → .unsubscribe i ∉ trace → yielded i trace ++ queued b i = publishedSince i trace
  untilLeft : ¬ Dropped b i → yielded i trace ++ queued b i = publishedWhile i trace
  bounded : ∀ s, b.streams i = some s → s.queue.length ≤ queueSize
  /-- Only a publish that finds the queue full drops a stream. -/
  dropped : ¬ Dropped b i → ∀ {a b'}, Step b a b' → (Dropped b' i ↔ (∃ event, a = .publish event) ∧
    i ∈ b.subscriptions ∧ ∃ s, b.streams i = some s ∧ s.queue.length = queueSize)
  sent : i ∈ b.subscriptions → ∀ {event b'}, Step b (.publish event) b' → ¬ Dropped b' i →
    i ∈ b'.subscriptions ∧ queued b' i = queued b i ++ [event]
  reads : ∀ {event rest}, queued b i = event :: rest →
    ∃ b', Step b (.read i (.event event)) b' ∧ queued b' i = rest
  silent : Dropped b i → ∀ {a b'}, Step b a b' → Dropped b' i ∧ yielded i (a :: trace) = yielded i trace
  ends : Dropped b i → Ended b i ∨ ∃ b', Step b (.read i .closed) b' ∧ Ended b' i
  alone : ∀ {event b' c c'}, Step b (.publish event) b' → SameFor i b c → Step c (.publish event) c' →
    SameFor i b' c'

section Delivery
variable {q : ℕ} {b b' c c' : Bus} {trace : List Action} {a : Action} {i : ℕ} {event : ChatEvent}

theorem Stream.yielded_while (h : Stream q b trace i) : yielded i trace <+: publishedWhile i trace := by
  cases h with
  | absent _ _ _ _ hnothing =>
    rw [hnothing]
    exact List.nil_prefix
  | live events _ _ _ _ hall =>
    rw [← hall]
    exact List.prefix_append _ _
  | dropped _ _ _ _ _ hpre => exact hpre

theorem Stream.untilLeft (h : Stream q b trace i) (hd : ¬ Dropped b i) :
    yielded i trace ++ queued b i = publishedWhile i trace := by
  unfold queued
  cases h with
  | absent hnone _ hnot _ hnothing =>
    rw [hnothing,hnone]
    exact (publishedWhile_of_not_mem hnot).symm
  | live events hlive _ _ _ hall =>
    rw [hlive,Option.map_some,live_events]
    exact hall
  | dropped s hsome hclosed _ _ _ => exact absurd ⟨s,hsome,hclosed.dropped⟩ hd

theorem Stream.bounded (h : Stream q b trace i) (hq : 0 < q) {s : Subscription} (hs : b.streams i = some s) :
    s.queue.length ≤ q := by
  cases h with
  | absent hnone _ _ _ _ =>
    rw [hs] at hnone
    cases hnone
  | live events hlive hlen _ _ _ =>
    rw [hs] at hlive
    cases hlive
    rwa [live_queue_length]
  | dropped s' hsome hclosed _ _ _ =>
    rw [hs] at hsome
    cases hsome
    cases hclosed with
    | marked => exact hq
    | ended => exact Nat.zero_le q

theorem not_dropped_of_live {events : List ChatEvent} (hs : b.streams i = some (live events)) : ¬ Dropped b i := by
  rintro ⟨s,hsome,hd⟩
  rw [hs] at hsome
  cases hsome
  exact live_not_dropped events hd

theorem queued_of_live {events : List ChatEvent} (hs : b.streams i = some (live events)) : queued b i = events := by
  unfold queued
  rw [hs,Option.map_some,live_events]
  rfl

theorem dropped_congr (hs : b'.streams i = b.streams i) : Dropped b' i ↔ Dropped b i := by
  unfold Dropped
  rw [hs]

theorem Stream.registered (h : Stream q b trace i) (hreg : i ∈ b.subscriptions) :
    ∃ events, b.streams i = some (Chat.live events) ∧ events.length ≤ q := by
  cases h with
  | absent _ hout _ _ _ => exact absurd hreg hout
  | dropped _ _ _ hout _ _ => exact absurd hreg hout
  | live events hlive hlen _ _ _ => exact ⟨events,hlive,hlen⟩

theorem Stream.dropped_publish (h : Stream q b trace i) (hq : b.queueSize = q) (hd : ¬ Dropped b i)
    {order : List ℕ} (horder : InSomeOrder b.subscriptions order) :
    Dropped (b.publish order event) i ↔
      i ∈ b.subscriptions ∧ ∃ s, b.streams i = some s ∧ s.queue.length = q := by
  by_cases hreg : i ∈ b.subscriptions
  · obtain ⟨events,hlive,hlen⟩ := h.registered hreg
    rcases Nat.lt_or_ge events.length b.queueSize with hlt | hfull
    · obtain ⟨htaken,_⟩ := publish_live_of_lt event horder hreg hlive hlt
      refine iff_of_false (not_dropped_of_live htaken) ?_
      rintro ⟨_,s,hs,heq⟩
      rw [hlive] at hs
      cases hs
      rw [live_queue_length] at heq
      omega
    · obtain ⟨hmarked,_⟩ := publish_live_of_le event horder hreg hlive hfull
      refine iff_of_true ⟨_,hmarked,Closed.marked.dropped⟩ ⟨hreg,_,hlive,?_⟩
      rw [live_queue_length]
      omega
  · have hsame : (b.publish order event).streams i = b.streams i :=
      (publish_streams_of_order horder i).trans (if_neg hreg)
    exact iff_of_false (mt (dropped_congr hsame).mp hd) fun hfull => hreg hfull.1

theorem Stream.dropped_step (h : Stream q b trace i) (hq : b.queueSize = q) (hd : ¬ Dropped b i)
    (hstep : Step b a b') : Dropped b' i ↔ (∃ event, a = .publish event) ∧
      i ∈ b.subscriptions ∧ ∃ s, b.streams i = some s ∧ s.queue.length = q := by
  cases hstep with
  | publish event horder =>
    rw [h.dropped_publish hq hd horder]
    exact (and_iff_right ⟨event,rfl⟩).symm
  | unsubscribe j _ => exact iff_of_false hd (by rintro ⟨⟨_,heq⟩,_⟩; cases heq)
  | subscribe j hnone =>
    refine iff_of_false ?_ (by rintro ⟨⟨_,heq⟩,_⟩; cases heq)
    by_cases hij : i = j
    · have hopened : (b.subscribe j).streams i = some .open_ := (set_streams b j .open_ i).trans (if_pos hij)
      exact not_dropped_of_live (show _ = some (Chat.live []) from hopened)
    · exact mt (dropped_congr ((set_streams b j .open_ i).trans (if_neg hij))).mp hd
  | @read j item s s' hs hn =>
    refine iff_of_false ?_ (by rintro ⟨⟨_,heq⟩,_⟩; cases heq)
    by_cases hij : i = j
    · subst hij
      have hnow : (b.set i s').streams i = some s' := (set_streams b i s' i).trans (if_pos rfl)
      cases h with
      | absent hnone _ _ _ _ =>
        rw [hs] at hnone
        cases hnone
      | dropped _ hsome hclosed _ _ _ => exact absurd ⟨_,hsome,hclosed.dropped⟩ hd
      | live events hlive _ _ _ _ =>
        rw [hs] at hlive
        cases hlive
        obtain ⟨_,rest,_,_,rfl⟩ := live_next hn
        exact not_dropped_of_live hnow
    · exact mt (dropped_congr ((set_streams b j s' i).trans (if_neg hij))).mp hd

theorem Stream.sent (h : Stream q b trace i) (hreg : i ∈ b.subscriptions) (hstep : Step b (.publish event) b')
    (hd : ¬ Dropped b' i) : i ∈ b'.subscriptions ∧ queued b' i = queued b i ++ [event] := by
  cases hstep with
  | publish _ horder =>
    obtain ⟨events,hlive,_⟩ := h.registered hreg
    rcases Nat.lt_or_ge events.length b.queueSize with hlt | hfull
    · obtain ⟨htaken,hstays⟩ := publish_live_of_lt event horder hreg hlive hlt
      refine ⟨hstays,?_⟩
      rw [queued_of_live htaken,queued_of_live hlive]
    · obtain ⟨hmarked,_⟩ := publish_live_of_le event horder hreg hlive hfull
      exact absurd ⟨_,hmarked,Closed.marked.dropped⟩ hd

theorem Stream.reads (h : Stream q b trace i) {rest : List ChatEvent} (hq : queued b i = event :: rest) :
    ∃ b', Step b (.read i (.event event)) b' ∧ queued b' i = rest := by
  cases h with
  | absent hnone _ _ _ _ => simp [queued,hnone] at hq
  | dropped s hsome hclosed _ _ _ => cases hclosed <;> simp [queued,hsome,Subscription.events] at hq
  | live events hlive _ _ _ _ =>
    rw [queued_of_live hlive] at hq
    subst hq
    have hread : Step b (.read i (.event event)) (b.set i (Chat.live rest)) := .read hlive rfl
    exact ⟨_,hread,queued_of_live ((set_streams b i _ i).trans (if_pos rfl))⟩

/-- A dropped stream is at the marker or past it, and is offered nothing. -/
theorem Stream.closed (h : Stream q b trace i) (hd : Dropped b i) :
    ∃ s, b.streams i = some s ∧ Closed s ∧ i ∉ b.subscriptions := by
  obtain ⟨s,hs,hdrop⟩ := hd
  cases h with
  | absent hnone _ _ _ _ =>
    rw [hs] at hnone
    cases hnone
  | live events hlive _ _ _ _ =>
    rw [hs] at hlive
    cases hlive
    exact absurd hdrop (live_not_dropped events)
  | dropped s' hsome hclosed hout _ _ => exact ⟨s',hsome,hclosed,hout⟩

theorem Stream.silent (h : Stream q b trace i) (hd : Dropped b i) (hstep : Step b a b') :
    Dropped b' i ∧ yielded i (a :: trace) = yielded i trace := by
  obtain ⟨s,hs,hclosed,hout⟩ := h.closed hd
  have hkept {b' : Bus} (hsame : b'.streams i = b.streams i) : Dropped b' i := ⟨s,hsame.trans hs,hclosed.dropped⟩
  cases hstep with
  | subscribe j hnone =>
    have hne : i ≠ j := by
      rintro rfl
      rw [hs] at hnone
      cases hnone
    have hsame : (b.subscribe j).streams i = b.streams i := (set_streams b j .open_ i).trans (if_neg hne)
    exact ⟨hkept hsame,rfl⟩
  | publish event horder =>
    have hsame : (b.publish _ event).streams i = b.streams i :=
      (publish_streams_of_order horder i).trans (if_neg hout)
    exact ⟨hkept hsame,rfl⟩
  | unsubscribe j _ => exact ⟨hkept rfl,rfl⟩
  | @read j item s₁ s₂ hs₁ hn =>
    by_cases hij : i = j
    · subst hij
      rw [hs] at hs₁
      cases hs₁
      obtain ⟨rfl,rfl⟩ := hclosed.next hn
      exact ⟨⟨_,(set_streams b i _ i).trans (if_pos rfl),.inl rfl⟩,rfl⟩
    · have hsame : (b.set j s₂).streams i = b.streams i := (set_streams b j s₂ i).trans (if_neg hij)
      exact ⟨hkept hsame,yielded_cons_of_ne fun event heq => hij (Action.read.inj heq).1.symm⟩

theorem Stream.ends (h : Stream q b trace i) (hd : Dropped b i) :
    Ended b i ∨ ∃ b', Step b (.read i .closed) b' ∧ Ended b' i := by
  obtain ⟨s,hs,hclosed,_⟩ := h.closed hd
  cases hclosed with
  | ended => exact .inl ⟨_,hs,rfl⟩
  | marked =>
    have hread : Step b (.read i .closed) (b.set i ⟨[],true⟩) := .read hs rfl
    exact .inr ⟨_,hread,_,(set_streams b i _ i).trans (if_pos rfl),rfl⟩

theorem SameFor.publish (h : SameFor i b c) (hb : Step b (.publish event) b') (hc : Step c (.publish event) c') :
    SameFor i b' c' := by
  obtain ⟨hsize,hstream,hreg⟩ := h
  cases hb with
  | publish _ hb =>
    cases hc with
    | publish _ hc =>
      have hfull : Full b i ↔ Full c i := by
        unfold Full
        rw [hsize,hstream]
      refine ⟨?_,?_,?_⟩
      · rw [publish_queueSize,publish_queueSize,hsize]
      · rw [publish_streams_of_order hb,publish_streams_of_order hc,hsize,hstream]
        simp only [hreg]
      · rw [mem_publish_of_order hb,mem_publish_of_order hc,hreg,hfull]

end Delivery

/-- In every run and for every stream. -/
theorem bus_delivers {q : ℕ} (hq : 0 < q) {b : Bus} {trace : List Action} (h : Run q b trace) (i : ℕ) :
    Delivery q b trace i := by
  obtain ⟨hsize,hstreams⟩ := h.streams
  have hstream := hstreams i
  exact {
    inOrder := hstream.yielded_while.trans (publishedWhile_sublist_since i trace)
    complete := fun hd hleft => by rw [hstream.untilLeft hd,publishedWhile_eq hleft]
    untilLeft := hstream.untilLeft
    bounded := fun s => hstream.bounded hq
    dropped := fun hd => hstream.dropped_step hsize hd
    sent := fun hreg => hstream.sent hreg
    reads := hstream.reads
    silent := fun hd => hstream.silent hd
    ends := hstream.ends
    alone := fun hb hsame hc => hsame.publish hb hc }

/-! One stream reads what it is sent, the other lets its queue of one overflow. -/

def oneReads : List Action :=
  [.read 1 (.event (.deleted 1)),.publish (.deleted 1),.subscribe 1,.subscribe 0]

theorem run_oneReads : ∃ b, Run 1 b oneReads ∧ b.subscriptions = {0,1} ∧
    b.streams 0 = some (live [.deleted 1]) ∧ b.streams 1 = some (live []) := by
  have hstart : Run 1 (.empty 1) [] := .start
  have hboth := (hstart.step (.subscribe 0 rfl)).step (.subscribe 1 rfl)
  have horder : InSomeOrder (((Bus.empty 1).subscribe 0).subscribe 1).subscriptions [0,1] :=
    ⟨by decide,by simp [Bus.subscribe,Bus.set,Bus.empty,or_comm]⟩
  have hsent := hboth.step (.publish (.deleted 1) horder)
  exact ⟨_,hsent.step (@Step.read _ _ _ (live [.deleted 1]) (live []) rfl rfl),by decide,rfl,rfl⟩

theorem bus_delivers_overflow : ∃ b b', Run 1 b oneReads ∧ Step b (.publish (.deleted 2)) b' ∧
    yielded 1 oneReads = [.deleted 1] ∧ queued b' 1 = [.deleted 2] ∧ ¬ Dropped b' 1 ∧ Dropped b' 0 := by
  obtain ⟨b,hrun,hsubs,hzero,hone⟩ := run_oneReads
  have horder : InSomeOrder b.subscriptions [0,1] := ⟨by decide,by simp [hsubs]⟩
  have hstep : Step b (.publish (.deleted 2)) _ := .publish (.deleted 2) horder
  have hslow := bus_delivers Nat.one_pos hrun 0
  have hquick := bus_delivers Nat.one_pos hrun 1
  have hkept : ¬ Dropped (b.publish [0,1] (.deleted 2)) 1 := by
    intro hd
    obtain ⟨_,_,s,hs,hlen⟩ := (hquick.dropped (not_dropped_of_live hone) hstep).mp hd
    rw [hone] at hs
    cases hs
    cases hlen
  have hover := (hslow.dropped (not_dropped_of_live hzero) hstep).mpr ⟨⟨_,rfl⟩,by simp [hsubs],_,hzero,rfl⟩
  obtain ⟨_,hqueued⟩ := hquick.sent (by simp [hsubs]) hstep hkept
  rw [queued_of_live hone] at hqueued
  exact ⟨b,_,hrun,hstep,rfl,hqueued,hkept,hover⟩

/-! A stream that leaves before the first event. -/

def leftEarly : List Action := [.publish (.deleted 1),.unsubscribe 0,.subscribe 0]

theorem run_leftEarly : ∃ b, Run 1 b leftEarly ∧ b.streams 0 = some (live []) := by
  have hstart : Run 1 (.empty 1) [] := .start
  have hsub := hstart.step (.subscribe 0 rfl)
  have hunsub := hsub.step (.unsubscribe 0 (by simp [Bus.subscribe]))
  have hnobody : InSomeOrder (((Bus.empty 1).subscribe 0).unsubscribe 0).subscriptions [] :=
    ⟨List.nodup_nil,by simp [Bus.unsubscribe,Bus.subscribe,Bus.empty]⟩
  exact ⟨_,hunsub.step (.publish (.deleted 1) hnobody),rfl⟩

/-- It was not dropped, and misses what is published after it left. -/
theorem left_incomplete : ¬ ∀ q, 0 < q → ∀ b trace, Run q b trace → ∀ i, ¬ Dropped b i →
    yielded i trace ++ queued b i = publishedSince i trace := by
  intro h
  obtain ⟨b,hrun,hlive⟩ := run_leftEarly
  have hall := h 1 Nat.one_pos b leftEarly hrun 0 (not_dropped_of_live hlive)
  rw [queued_of_live hlive] at hall
  exact absurd hall (by decide)

end Tag2now.Chat
