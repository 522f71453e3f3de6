import Tag2now.Matching.Tracker

/-! # Fetching the room list, several calls at once

A call that misses the cache fetches the rooms under the shared client's lock and feeds them
to the tracker afterwards, in a thread of its own. The lock orders the fetches but not the
feeding, so a call may feed rooms older than those the tracker has.
-/
namespace Tag2now.Matching
open Collections

structure Groups where
  playerMatch : List RoomInfoDTO
  rankMatch : List RoomInfoDTO

def groupRoomsByType (rooms : List RoomInfoDTO) : Groups where
  playerMatch := rooms.filter (·.roomType = .playerMatch)
  rankMatch := rooms.filter (·.roomType = .rankMatch)

/-- The rooms as the tracker is fed them. -/
def allRoomDtos (rooms : List RoomInfoDTO) : List RoomInfoDTO :=
  (groupRoomsByType rooms).playerMatch ++ (groupRoomsByType rooms).rankMatch

def sortRank (room : RoomInfoDTO) : ℤ :=
  match room.rankInfo with
  | none => -1
  | some rank => rank

/-- The rooms with the phantoms among the rank matches, by rank. -/
def withPhantoms (rooms phantoms : List RoomInfoDTO) : Groups where
  playerMatch := (groupRoomsByType rooms).playerMatch
  rankMatch := ((groupRoomsByType rooms).rankMatch ++ phantoms).mergeSort fun a b => sortRank a ≤ sortRank b

structure Answer where
  /-- Which fetch was the call's own, in the order of the lock. -/
  fetch : ℕ
  now : ℤ
  phantoms : List RoomInfoDTO
  groups : Groups

structure Fetches where
  /-- What the fetches observed, in the order of the lock. -/
  observed : List (List RoomInfoDTO)
  /-- The fetches whose calls have yet to feed the tracker. -/
  waiting : List ℕ
  tracker : Tracker
  /-- Newest first. -/
  answers : List Answer

def Fetches.start : Fetches := ⟨[],[],.start,[]⟩

variable (ttl : ℤ) (may : Fetches → ℕ → Prop)

/-- One step of some call; `may` says which may feed the tracker next. -/
inductive Fetches.Step (s : Fetches) : Fetches → Prop
  | fetch (rooms : List RoomInfoDTO) :
      Step s { s with observed := s.observed ++ [rooms], waiting := s.waiting ++ [s.observed.length] }
  | feed {k : ℕ} {rooms phantoms : List RoomInfoDTO} {now : ℤ} {tracker : Tracker} : k ∈ s.waiting → may s k →
      s.observed[k]? = some rooms → s.tracker.Updates ttl ⟨now,allRoomDtos rooms⟩ phantoms tracker →
        Step s { s with
          waiting := s.waiting.erase k, tracker
          answers := ⟨k,now,phantoms,withPhantoms rooms phantoms⟩ :: s.answers }

inductive Fetches.Run : Fetches → Prop
  | start : Run .start
  | step {s s' : Fetches} : Run s → s.Step ttl may s' → Run s'

variable {ttl may}

/-- The answer is the tracker's, fed all that was observed up to the call's own fetch in that order. -/
def InObservedOrder (ttl : ℤ) (observed : List (List RoomInfoDTO)) (a : Answer) : Prop :=
  ∃ snaps t, Tracker.Fed ttl snaps a.phantoms t ∧
    snaps.map (·.rooms) = (observed.take (a.fetch + 1)).map allRoomDtos ∧ snaps.getLast?.map (·.now) = some a.now

/-- No answer shows a player as searching whom the newest rooms fed by then show in one of them. -/
def NoneOutdated (observed : List (List RoomInfoDTO)) (answers : List Answer) : Prop :=
  ∀ a earlier, a :: earlier <:+ answers → ∀ b ∈ a :: earlier, (∀ c ∈ a :: earlier, c.fetch ≤ b.fetch) →
    ∀ rooms, observed[b.fetch]? = some rooms → (rooms.map (·.roomId)).Nodup →
      ∀ phantom ∈ a.phantoms, ∀ room ∈ rooms, ∀ user ∈ room.users, user.npid ≠ phantom.ownerNpid

structure Fetches.Honest (ttl : ℤ) (s : Fetches) : Prop where
  ordered : ∀ a ∈ s.answers, InObservedOrder ttl s.observed a
  current : NoneOutdated s.observed s.answers

/-- A call feeds the tracker only when no fetch before its own waits. -/
def Fetches.InTurn (s : Fetches) (k : ℕ) : Prop := ∀ j ∈ s.waiting, k ≤ j

/-! ## What the tracker answers is not outdated -/

theorem mem_allRoomDtos {rooms : List RoomInfoDTO} {room : RoomInfoDTO} : room ∈ allRoomDtos rooms ↔ room ∈ rooms := by
  unfold allRoomDtos groupRoomsByType
  simp only [List.mem_append,List.mem_filter,decide_eq_true_eq]
  cases room.roomType <;> simp

theorem nodup_allRoomDtos {rooms : List RoomInfoDTO} (h : (rooms.map (·.roomId)).Nodup) :
    ((allRoomDtos rooms).map (·.roomId)).Nodup := by
  have hrank : rooms.filter (fun room => room.roomType = .rankMatch) =
      rooms.filter fun room => !decide (room.roomType = .playerMatch) := by
    apply List.filter_congr
    intro room _
    cases room.roomType <;> rfl
  have hperm : (allRoomDtos rooms).Perm rooms := by
    unfold allRoomDtos groupRoomsByType
    rw [hrank]
    exact List.filter_append_perm _ _
  exact (hperm.map _).nodup_iff.mpr h

theorem lookup_foldl_sendToSearching {now : ℤ} {gone : List RoomInfoDTO} {players : Dict String SearchingPlayer}
    (h : ∀ npid p, players.lookup npid = some p → p.npid = npid) {npid : String} {p : SearchingPlayer}
    (hp : (gone.foldl (sendToSearching now) players).lookup npid = some p) : p.npid = npid := by
  rw [foldl_sendToSearching] at hp
  rcases of_lookup_setAll hp with ⟨q,_,hq,rfl⟩ | hold
  · exact hq
  · exact h npid p hold

theorem Tracker.Updates.keyed {ttl : ℤ} {t t' : Tracker} {s : Snapshot} {phantoms : List RoomInfoDTO}
    (h : t.Updates ttl s phantoms t') (ht : ∀ npid p, t.searchingPlayers.lookup npid = some p → p.npid = npid)
    {npid : String} {p : SearchingPlayer} (hp : t'.searchingPlayers.lookup npid = some p) : p.npid = npid := by
  unfold Tracker.Updates at h
  cases hprev : t.prevRooms with
  | none =>
    rw [hprev] at h
    obtain ⟨_,rfl⟩ := h
    exact ht npid p hp
  | some prev =>
    rw [hprev] at h
    obtain ⟨gone,_,rfl,_⟩ := h
    have hentered := (lookup_popAll.mp (lookup_keep.mp hp).2).2
    exact lookup_foldl_sendToSearching ht hentered

theorem Tracker.Fed.keyed {ttl : ℤ} {snaps : List Snapshot} {phantoms : List RoomInfoDTO} {t : Tracker}
    (h : Tracker.Fed ttl snaps phantoms t) {npid : String} {p : SearchingPlayer}
    (hp : t.searchingPlayers.lookup npid = some p) : p.npid = npid := by
  induction h generalizing npid p with
  | start => cases hp
  | next _ hnext ih => exact hnext.keyed (fun _ _ => ih) hp

/-- Whoever is in a room of the snapshot fed is not among its phantoms. -/
theorem Tracker.Updates.visible {ttl now : ℤ} {t t' : Tracker} {rooms phantoms : List RoomInfoDTO}
    (h : t.Updates ttl ⟨now,rooms⟩ phantoms t') (ht : ∀ npid p, t.searchingPlayers.lookup npid = some p → p.npid = npid)
    (hrooms : (rooms.map (·.roomId)).Nodup) {phantom room : RoomInfoDTO} {user : RoomUser}
    (hphantom : phantom ∈ phantoms)
    (hroom : room ∈ rooms) (huser : user ∈ room.users) : user.npid ≠ phantom.ownerNpid := by
  intro hsame
  have hkeyed := @Tracker.Updates.keyed ttl t t' _ phantoms h ht
  unfold Tracker.Updates at h
  cases hprev : t.prevRooms with
  | none =>
    rw [hprev] at h
    obtain ⟨rfl,_⟩ := h
    cases hphantom
  | some prev =>
    rw [hprev] at h
    obtain ⟨gone,_,rfl,hphantoms⟩ := h
    obtain ⟨p,hp,rfl⟩ := List.mem_map.mp (hphantoms.mem_iff.mp hphantom)
    obtain ⟨npid,hlookup⟩ := mem_values.mp hp
    have hnpid := hkeyed hlookup
    have hunseen := (lookup_popAll.mp (lookup_keep.mp hlookup).2).1
    apply hunseen
    rw [← hnpid,show p.npid = user.npid from hsame.symm]
    exact List.mem_map_of_mem (List.mem_flatMap.mpr ⟨room,(mem_values_byId hrooms).mpr hroom,huser⟩)

/-! ## Feeding in turn -/

/-- The tracker has been fed the first fetches, and the calls of all the others wait. -/
def Fetches.Lined (ttl : ℤ) (s : Fetches) : Prop :=
  ∃ snaps last, Tracker.Fed ttl snaps last s.tracker ∧ snaps.length ≤ s.observed.length ∧
    s.waiting = List.range' snaps.length (s.observed.length - snaps.length) ∧
    snaps.map (·.rooms) = (s.observed.take snaps.length).map allRoomDtos ∧ ∀ a ∈ s.answers, a.fetch < snaps.length

theorem InObservedOrder.append {ttl : ℤ} {observed : List (List RoomInfoDTO)} {a : Answer}
    (h : InObservedOrder ttl observed a) (ha : a.fetch < observed.length) (rooms : List RoomInfoDTO) :
    InObservedOrder ttl (observed ++ [rooms]) a := by
  obtain ⟨snaps,t,hfed,hrooms,hnow⟩ := h
  refine ⟨snaps,t,hfed,?_,hnow⟩
  rw [hrooms,List.take_append_of_le_length (by omega)]

theorem NoneOutdated.append {observed : List (List RoomInfoDTO)} {answers : List Answer}
    (h : NoneOutdated observed answers) (ha : ∀ a ∈ answers, a.fetch < observed.length) (rooms : List RoomInfoDTO) :
    NoneOutdated (observed ++ [rooms]) answers := by
  intro a earlier hsuffix b hb hnewest rooms' hrooms'
  have hlt := ha b (hsuffix.subset hb)
  rw [List.getElem?_append_left hlt] at hrooms'
  exact h a earlier hsuffix b hb hnewest rooms' hrooms'

/-- An answer later in the order than all before it is current as soon as it is right about its own fetch. -/
theorem NoneOutdated.cons {observed : List (List RoomInfoDTO)} {answers : List Answer} {a : Answer}
    (h : NoneOutdated observed answers) (hnewest : ∀ b ∈ answers, b.fetch < a.fetch)
    (hown : ∀ rooms, observed[a.fetch]? = some rooms → (rooms.map (·.roomId)).Nodup →
      ∀ phantom ∈ a.phantoms, ∀ room ∈ rooms, ∀ user ∈ room.users, user.npid ≠ phantom.ownerNpid) :
    NoneOutdated observed (a :: answers) := by
  intro a' earlier hsuffix b hb hlast rooms hrooms
  rcases List.suffix_cons_iff.mp hsuffix with heq | hsuffix
  · obtain ⟨rfl,rfl⟩ := List.cons.inj heq
    obtain rfl : b = a' := by
      rcases List.mem_cons.mp hb with hsame | hmem
      · exact hsame
      · exact absurd (hlast _ List.mem_cons_self) (Nat.not_le_of_lt (hnewest b hmem))
    exact hown rooms hrooms
  · exact h a' earlier hsuffix b hb hlast rooms hrooms

/-! The calls that wait are those of the fetches from some number on. -/

theorem range'_append_next {n m : ℕ} (h : n ≤ m) :
    List.range' n (m - n) ++ [m] = List.range' n (m + 1 - n) := by
  rw [Nat.sub_add_comm h,List.range'_1_concat,Nat.add_sub_cancel' h]

theorem first_mem_range' {n k m : ℕ} (hk : k ∈ List.range' n (m - n)) : n ∈ List.range' n (m - n) := by
  rw [List.mem_range'_1] at hk ⊢
  omega

theorem range'_erase_first {n m : ℕ} (h : n < m) :
    (List.range' n (m - n)).erase n = List.range' (n + 1) (m - (n + 1)) := by
  rw [show m - n = m - (n + 1) + 1 by omega,List.range'_succ,List.erase_cons_head]

theorem Fetches.Step.honest {ttl : ℤ} {s s' : Fetches} (hstep : s.Step ttl Fetches.InTurn s') (hl : s.Lined ttl)
    (h : s.Honest ttl) : s'.Lined ttl ∧ s'.Honest ttl := by
  obtain ⟨snaps,last,hfed,hlength,hwaiting,hrooms,hanswers⟩ := hl
  cases hstep with
  | fetch rooms =>
    have hall : ∀ a ∈ s.answers, a.fetch < s.observed.length := fun a ha => Nat.lt_of_lt_of_le (hanswers a ha) hlength
    refine ⟨⟨snaps,last,hfed,?_,?_,?_,hanswers⟩,?_,h.current.append hall rooms⟩
    · simp only [List.length_append,List.length_singleton]
      omega
    · simp only [List.length_append,List.length_singleton]
      rw [hwaiting,range'_append_next hlength]
    · rw [hrooms,List.take_append_of_le_length hlength]
    · exact fun a ha => (h.ordered a ha).append (hall a ha) rooms
  | @feed k rooms phantoms now tracker hk hturn hrooms' hupdates =>
    rw [hwaiting] at hk
    -- the call whose turn it is has the first of the fetches not fed
    have hfirst := hturn _ (hwaiting ▸ first_mem_range' hk)
    rw [List.mem_range'_1] at hk
    obtain rfl : k = snaps.length := by omega
    have hfed' : Tracker.Fed ttl (snaps ++ [⟨now,allRoomDtos rooms⟩]) phantoms tracker := hfed.next hupdates
    have htake : (snaps ++ [(⟨now,allRoomDtos rooms⟩ : Snapshot)]).map (·.rooms) =
        (s.observed.take (snaps.length + 1)).map allRoomDtos := by
      rw [List.take_add_one,hrooms',List.map_append,List.map_append,hrooms]
      rfl
    refine ⟨⟨snaps ++ [⟨now,allRoomDtos rooms⟩],phantoms,hfed',?_,?_,?_,?_⟩,?_,h.current.cons hanswers ?_⟩
    · simp only [List.length_append,List.length_singleton]
      omega
    · simp only [List.length_append,List.length_singleton]
      rw [hwaiting,range'_erase_first (by omega)]
    · rw [htake]
      simp only [List.length_append,List.length_singleton]
    · intro a ha
      simp only [List.length_append,List.length_singleton]
      rcases List.mem_cons.mp ha with rfl | ha
      · exact Nat.lt_succ_self _
      · exact Nat.lt_succ_of_lt (hanswers a ha)
    · intro a ha
      rcases List.mem_cons.mp ha with rfl | ha
      · exact ⟨_,_,hfed',htake,by simp⟩
      · exact h.ordered a ha
    · intro rooms'' hrooms'' hnodup phantom hphantom room hroom user huser
      rw [hrooms',Option.some.injEq] at hrooms''
      subst hrooms''
      exact hupdates.visible (fun _ _ => hfed.keyed) (nodup_allRoomDtos hnodup) hphantom (mem_allRoomDtos.mpr hroom)
        huser

/-- Where calls feed the tracker in the order of their fetches, every answer is as if the rooms had been
observed and fed at once. -/
theorem answers_honest {ttl : ℤ} {s : Fetches} (h : Fetches.Run ttl Fetches.InTurn s) : s.Honest ttl := by
  have hboth : s.Lined ttl ∧ s.Honest ttl := by
    induction h with
    | start =>
      refine ⟨⟨[],[],.start,Nat.le_refl _,rfl,rfl,nofun⟩,nofun,?_⟩
      intro a earlier hsuffix
      cases List.suffix_nil.mp hsuffix
    | step _ hstep ih => exact hstep.honest ih.1 ih.2
  exact hboth.2

/-! Two calls on a fresh server: the first finds it empty, the second finds Alice hosting. -/

def aliceRoom : RoomInfoDTO := ⟨1,"alice","Alice",1,2,some 10,[⟨"Alice","","alice"⟩]⟩

def bothFetched : Fetches := ⟨[[],[aliceRoom]],[0,1],.start,[]⟩

def firstFed : Fetches :=
  ⟨[[],[aliceRoom]],[1],⟨some ∅,∅⟩,[⟨0,30,[],withPhantoms [] []⟩]⟩

def secondFed : Fetches :=
  ⟨[[],[aliceRoom]],[0],⟨some (byId [aliceRoom]),∅⟩,[⟨1,30,[],withPhantoms [aliceRoom] []⟩]⟩

def aliceTwice : Fetches :=
  let alice : SearchingPlayer := ⟨"alice","Alice",some 10,60⟩
  ⟨[[],[aliceRoom]],[],⟨some ∅,AList.singleton "alice" alice⟩,
    ⟨0,60,[.phantom alice],withPhantoms [] [.phantom alice]⟩ :: secondFed.answers⟩

theorem run_bothFetched (may : Fetches → ℕ → Prop) : Fetches.Run 60 may bothFetched :=
  .step (.step .start (.fetch [])) (.fetch [aliceRoom])

theorem answers_honest_firstFed : firstFed.Honest 60 :=
  answers_honest (.step (run_bothFetched _)
    (@Fetches.Step.feed 60 Fetches.InTurn bothFetched 0 [] [] 30 ⟨some ∅,∅⟩ (by decide) (fun j _ => Nat.zero_le j)
      rfl ⟨rfl,rfl⟩))

theorem run_aliceTwice : Fetches.Run 60 (fun _ _ => True) aliceTwice :=
  .step (.step (run_bothFetched _)
    (@Fetches.Step.feed 60 (fun _ _ => True) bothFetched 1 [aliceRoom] [] 30 ⟨some (byId [aliceRoom]),∅⟩ (by decide)
      trivial rfl ⟨rfl,rfl⟩))
    (@Fetches.Step.feed 60 (fun _ _ => True) secondFed 0 [] [.phantom ⟨"alice","Alice",some 10,60⟩] 60
      ⟨some ∅,AList.singleton "alice" ⟨"alice","Alice",some 10,60⟩⟩ (by decide) trivial rfl
      ⟨[aliceRoom],List.Perm.refl _,rfl,List.Perm.refl _⟩)

/-- Fed the other way round, Alice is searching and in her room at once. -/
theorem alice_listed_twice : ¬ ∀ s, Fetches.Run 60 (fun _ _ => True) s → s.Honest 60 := by
  intro h
  have hhonest := h aliceTwice run_aliceTwice
  have hoff := hhonest.current _ _ (List.suffix_refl _) ⟨1,30,[],withPhantoms [aliceRoom] []⟩
    (List.mem_cons_of_mem _ (List.mem_singleton.mpr rfl)) (by
      intro c hc
      rcases List.mem_cons.mp hc with rfl | hc
      · exact Nat.zero_le _
      · rw [List.mem_singleton.mp hc]) [aliceRoom] rfl (by decide)
  exact hoff _ (List.mem_singleton.mpr rfl) aliceRoom (List.mem_singleton.mpr rfl) ⟨"Alice","","alice"⟩
    (List.mem_singleton.mpr rfl) rfl

end Tag2now.Matching
