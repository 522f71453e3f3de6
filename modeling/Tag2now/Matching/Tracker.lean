import Mathlib.Data.List.Flatten
import Tag2now.Collections.Dict
import Tag2now.Matching.Rooms

/-! # Searching players

A player whose rank room disappears between two snapshots is taken to be searching and is
shown as a phantom room until they are seen in a room again or have been unseen for too
long. The tracker does this with the last snapshot and a dictionary; what it answers is
told here by the snapshots alone.
-/
namespace Tag2now.Matching
open Collections

structure SearchingPlayer where
  npid : String
  onlineName : String
  /-- Of the room that disappeared, which was a rank match. -/
  rankInfo : Option ℕ
  lastSeen : ℤ
  deriving DecidableEq

/-- A room for a player who has none. -/
def RoomInfoDTO.phantom (p : SearchingPlayer) : RoomInfoDTO where
  roomId := 0
  ownerNpid := p.npid
  ownerOnlineName := p.onlineName
  currentMembers := 1
  maxSlots := 2
  rankInfo := p.rankInfo
  users := [⟨p.onlineName,"",p.npid⟩]

structure Tracker where
  /-- None before the first snapshot. -/
  prevRooms : Option (Dict ℕ RoomInfoDTO)
  searchingPlayers : Dict String SearchingPlayer

def Tracker.start : Tracker := ⟨none,∅⟩

structure Snapshot where
  now : ℤ
  rooms : List RoomInfoDTO

def byId (rooms : List RoomInfoDTO) : Dict ℕ RoomInfoDTO := setAll (·.roomId) id rooms ∅

def searching (room : RoomInfoDTO) (now : ℤ) (user : RoomUser) : SearchingPlayer :=
  ⟨user.npid,user.onlineName,room.rankInfo,now⟩

def sendToSearching (now : ℤ) (players : Dict String SearchingPlayer) (room : RoomInfoDTO) :
    Dict String SearchingPlayer :=
  if room.roomType = .playerMatch then players else setAll (·.npid) (searching room now) room.users players

/-- Who is searching once the rooms `gone` are gone and the rooms `current` are there. -/
def nowSearching (ttl now : ℤ) (gone current : List RoomInfoDTO) (players : Dict String SearchingPlayer) :
    Dict String SearchingPlayer :=
  let entered := gone.foldl (sendToSearching now) players
  let unseen := popAll ((current.flatMap (·.users)).map (·.npid)) entered
  keep (fun p => ¬ ttl < now - p.lastSeen) unseen

/-- One snapshot: the phantoms it is answered with and the tracker after it. Sets have no order, so the
rooms that are gone come in any. -/
def Tracker.Updates (ttl : ℤ) (t : Tracker) (s : Snapshot) (phantoms : List RoomInfoDTO) (t' : Tracker) : Prop :=
  match t.prevRooms with
  | none => phantoms = [] ∧ t' = { t with prevRooms := some (byId s.rooms) }
  | some prev =>
    ∃ gone, gone.Perm ((values prev).filter fun room => room.roomId ∉ byId s.rooms) ∧
      t' = ⟨some (byId s.rooms),nowSearching ttl s.now gone (values (byId s.rooms)) t.searchingPlayers⟩ ∧
      phantoms.Perm ((values t'.searchingPlayers).map .phantom)

/-- A tracker fed snapshots one after another, and its last answer. -/
inductive Tracker.Fed (ttl : ℤ) : List Snapshot → List RoomInfoDTO → Tracker → Prop
  | start : Fed ttl [] [] .start
  | next {snaps : List Snapshot} {s : Snapshot} {before phantoms : List RoomInfoDTO} {t t' : Tracker} :
      Fed ttl snaps before t → t.Updates ttl s phantoms t' → Fed ttl (snaps ++ [s]) phantoms t'

/-! ## What the snapshots say -/

def Snapshot.npids (s : Snapshot) : List String := (s.rooms.flatMap (·.users)).map (·.npid)

/-- Distinct rooms, and every player in at most one of them. -/
structure Snapshot.Plain (s : Snapshot) : Prop where
  rooms : (s.rooms.map (·.roomId)).Nodup
  npids : s.npids.Nodup

/-- Between snapshots `a` and `b` the player's rank room disappeared. -/
def Leaves (a b : Snapshot) (p : SearchingPlayer) : Prop :=
  ∃ room ∈ a.rooms, room.roomType = .rankMatch ∧ room.roomId ∉ b.rooms.map (·.roomId) ∧
    ∃ user ∈ room.users, p = searching room b.now user

/-- The player's rank room disappeared before some snapshot `i`, and from it on the player was in
no room and the time to live has not passed. -/
def Searching (ttl : ℤ) (snaps : List Snapshot) (p : SearchingPlayer) : Prop :=
  ∃ i a b last, snaps[i]? = some a ∧ snaps[i + 1]? = some b ∧ Leaves a b p ∧
    (∀ j s, i + 1 ≤ j → snaps[j]? = some s → p.npid ∉ s.npids) ∧
    snaps.getLast? = some last ∧ last.now - b.now ≤ ttl

/-! ## One snapshot -/

theorem lookup_byId {rooms : List RoomInfoDTO} (h : (rooms.map (·.roomId)).Nodup) {roomId : ℕ} {room : RoomInfoDTO} :
    (byId rooms).lookup roomId = some room ↔ room ∈ rooms ∧ room.roomId = roomId := by
  unfold byId
  rw [lookup_setAll h]
  simp only [id_eq,AList.lookup_empty,reduceCtorEq,and_false,or_false]
  constructor
  · rintro ⟨room',hroom,hid,rfl⟩
    exact ⟨hroom,hid⟩
  · rintro ⟨hroom,hid⟩
    exact ⟨room,hroom,hid,rfl⟩

theorem mem_values_byId {rooms : List RoomInfoDTO} (h : (rooms.map (·.roomId)).Nodup) {room : RoomInfoDTO} :
    room ∈ values (byId rooms) ↔ room ∈ rooms := by
  rw [mem_values]
  simp only [lookup_byId h,exists_eq_right']

theorem mem_byId {rooms : List RoomInfoDTO} (h : (rooms.map (·.roomId)).Nodup) {roomId : ℕ} :
    roomId ∈ byId rooms ↔ roomId ∈ rooms.map (·.roomId) := by
  rw [← AList.lookup_isSome,Option.isSome_iff_exists,List.mem_map]
  simp only [lookup_byId h]

def entrants (now : ℤ) (gone : List RoomInfoDTO) : List SearchingPlayer :=
  gone.flatMap fun room => if room.roomType = .playerMatch then [] else room.users.map (searching room now)

theorem foldl_sendToSearching (now : ℤ) (gone : List RoomInfoDTO) (players : Dict String SearchingPlayer) :
    gone.foldl (sendToSearching now) players = setAll (·.npid) id (entrants now gone) players := by
  induction gone generalizing players with
  | nil => rfl
  | cons room gone ih =>
    have hcons : entrants now (room :: gone) =
        (if room.roomType = .playerMatch then [] else room.users.map (searching room now)) ++ entrants now gone :=
      List.flatMap_cons ..
    rw [List.foldl_cons,ih,hcons,setAll_append]
    congr 1
    unfold sendToSearching
    split
    · rfl
    · unfold setAll
      rw [List.foldl_map]
      rfl

theorem mem_entrants {now : ℤ} {gone : List RoomInfoDTO} {p : SearchingPlayer} :
    p ∈ entrants now gone ↔ ∃ room ∈ gone, room.roomType = .rankMatch ∧
      ∃ user ∈ room.users, p = searching room now user := by
  unfold entrants
  rw [List.mem_flatMap]
  refine exists_congr fun room => and_congr_right fun _ => ?_
  cases room.roomType with
  | playerMatch => simp
  | rankMatch => simp [eq_comm]

theorem npids_entrants (now : ℤ) (gone : List RoomInfoDTO) :
    ((entrants now gone).map (·.npid)).Sublist ((gone.flatMap (·.users)).map (·.npid)) := by
  unfold entrants
  rw [List.map_flatMap,List.map_flatMap]
  apply List.Sublist.flatMap_right
  intro room _
  split
  · exact List.nil_sublist _
  · rw [List.map_map]
    exact List.Sublist.refl _

section
variable {a b : Snapshot} {gone : List RoomInfoDTO}

theorem mem_gone (ha : a.Plain) (hb : b.Plain)
    (hgone : gone.Perm ((values (byId a.rooms)).filter fun room => room.roomId ∉ byId b.rooms)) {room : RoomInfoDTO} :
    room ∈ gone ↔ room ∈ a.rooms ∧ room.roomId ∉ b.rooms.map (·.roomId) := by
  rw [hgone.mem_iff,List.mem_filter,mem_values_byId ha.rooms,decide_eq_true_iff,mem_byId hb.rooms]

theorem nodup_entrants (ha : a.Plain) (hb : b.Plain)
    (hgone : gone.Perm ((values (byId a.rooms)).filter fun room => room.roomId ∉ byId b.rooms)) (now : ℤ) :
    ((entrants now gone).map (·.npid)).Nodup := by
  have hvalues : (values (byId a.rooms)).Nodup :=
    List.Nodup.of_map _ (nodup_values (f := RoomInfoDTO.roomId) fun id room h => ((lookup_byId ha.rooms).mp h).2)
  have hnodup : gone.Nodup := hgone.nodup_iff.mpr (hvalues.filter _)
  have hsubset : gone ⊆ a.rooms := fun room hroom => ((mem_gone ha hb hgone).mp hroom).1
  obtain ⟨rooms,hperm,hsub⟩ := List.subperm_of_subset hnodup hsubset
  have hnpids : ((rooms.flatMap (·.users)).map (·.npid)).Nodup := ha.npids.sublist ((hsub.flatMap _).map _)
  have hall : ((gone.flatMap (·.users)).map (·.npid)).Nodup :=
    ((hperm.flatMap_right _).map _).nodup_iff.mp hnpids
  exact hall.sublist (npids_entrants now gone)

theorem mem_entrants_iff_leaves (ha : a.Plain) (hb : b.Plain)
    (hgone : gone.Perm ((values (byId a.rooms)).filter fun room => room.roomId ∉ byId b.rooms)) {p : SearchingPlayer} :
    p ∈ entrants b.now gone ↔ Leaves a b p := by
  rw [mem_entrants]
  unfold Leaves
  constructor
  · rintro ⟨room,hroom,hrank,huser⟩
    obtain ⟨hmem,hid⟩ := (mem_gone ha hb hgone).mp hroom
    exact ⟨room,hmem,hrank,hid,huser⟩
  · rintro ⟨room,hmem,hrank,hid,huser⟩
    exact ⟨room,(mem_gone ha hb hgone).mpr ⟨hmem,hid⟩,hrank,huser⟩

theorem npids_byId (hb : b.Plain) (npid : String) :
    npid ∈ ((values (byId b.rooms)).flatMap (·.users)).map (·.npid) ↔ npid ∈ b.npids := by
  unfold Snapshot.npids
  simp only [List.mem_map,List.mem_flatMap,mem_values_byId hb.rooms]

/-- Who is searching after a snapshot: those who leave a room now, and those who were. -/
theorem lookup_nowSearching (ha : a.Plain) (hb : b.Plain)
    (hgone : gone.Perm ((values (byId a.rooms)).filter fun room => room.roomId ∉ byId b.rooms)) {ttl : ℤ}
    {players : Dict String SearchingPlayer} {npid : String} {p : SearchingPlayer} :
    (nowSearching ttl b.now gone (values (byId b.rooms)) players).lookup npid = some p ↔
      b.now - p.lastSeen ≤ ttl ∧ npid ∉ b.npids ∧ ((Leaves a b p ∧ p.npid = npid) ∨
        ((∀ q, Leaves a b q → q.npid ≠ npid) ∧ players.lookup npid = some p)) := by
  unfold nowSearching
  simp only
  rw [lookup_keep,lookup_popAll,foldl_sendToSearching,lookup_setAll (nodup_entrants ha hb hgone _),npids_byId hb]
  simp only [mem_entrants_iff_leaves ha hb hgone,decide_eq_true_iff,Int.not_lt,id_eq]
  refine and_congr_right fun _ => and_congr_right fun _ => or_congr_left ?_
  constructor
  · rintro ⟨q,hq,hnpid,rfl⟩
    exact ⟨hq,hnpid⟩
  · rintro ⟨hp,hnpid⟩
    exact ⟨p,hp,hnpid,rfl⟩

end

/-! ## All snapshots -/
section
variable {ttl : ℤ} {snaps : List Snapshot} {a b : Snapshot} {p : SearchingPlayer}

theorem Leaves.lastSeen (h : Leaves a b p) : p.lastSeen = b.now := by
  obtain ⟨room,_,_,_,user,_,rfl⟩ := h
  rfl

theorem Leaves.npid_mem (h : Leaves a b p) : p.npid ∈ a.npids := by
  obtain ⟨room,hroom,_,_,user,huser,rfl⟩ := h
  exact List.mem_map_of_mem (List.mem_flatMap.mpr ⟨room,hroom,huser⟩)

theorem getElem?_last (ha : snaps.getLast? = some a) : snaps[snaps.length - 1]? = some a := by
  rw [← List.getLast?_eq_getElem?]
  exact ha

theorem length_pos (ha : snaps.getLast? = some a) : 0 < snaps.length := by
  apply List.length_pos_iff.mpr
  rintro rfl
  cases ha

theorem Searching.not_mem (h : Searching ttl snaps p) (ha : snaps.getLast? = some a) : p.npid ∉ a.npids := by
  obtain ⟨i,x,y,last,hx,hy,hleaves,hunseen,hlast,hlive⟩ := h
  have hi : i + 1 < snaps.length := (List.getElem?_eq_some_iff.mp hy).1
  exact hunseen (snaps.length - 1) a (by omega) (getElem?_last ha)

theorem searching_nil : ¬ Searching ttl [] p := by
  rintro ⟨i,x,y,last,hx,_⟩
  simp at hx

theorem getElem?_snoc {i : ℕ} {s : Snapshot} :
    (snaps ++ [b])[i]? = some s ↔ snaps[i]? = some s ∨ (i = snaps.length ∧ s = b) := by
  rcases Nat.lt_trichotomy i snaps.length with hi | rfl | hi
  · rw [List.getElem?_append_left hi]
    constructor
    · exact .inl
    · rintro (h | ⟨rfl,_⟩)
      · exact h
      · omega
  · simp [eq_comm]
  · rw [List.getElem?_append_right (by omega),List.getElem?_eq_none (by simp; omega),List.getElem?_eq_none (by omega)]
    simp
    omega

/-- What one more snapshot changes. -/
theorem searching_snoc (ha : snaps.getLast? = some a) (htime : a.now ≤ b.now) :
    Searching ttl (snaps ++ [b]) p ↔
      b.now - p.lastSeen ≤ ttl ∧ p.npid ∉ b.npids ∧ (Leaves a b p ∨ Searching ttl snaps p) := by
  have hpos := length_pos ha
  have hlast : (snaps ++ [b]).getLast? = some b := by
    rw [List.getLast?_append_of_ne_nil _ (List.cons_ne_nil _ _),List.getLast?_singleton]
  constructor
  · rintro ⟨i,x,y,last,hx,hy,hleaves,hunseen,hlast',hlive⟩
    obtain rfl : b = last := Option.some.inj (hlast.symm.trans hlast')
    have hvisible : p.npid ∉ b.npids := by
      have hi : i + 1 < (snaps ++ [b]).length := (List.getElem?_eq_some_iff.mp hy).1
      rw [List.length_append,List.length_singleton] at hi
      exact hunseen snaps.length b (by omega) (getElem?_snoc.mpr (.inr ⟨rfl,rfl⟩))
    refine ⟨by rw [hleaves.lastSeen]; exact hlive,hvisible,?_⟩
    rcases getElem?_snoc.mp hy with hy | ⟨hi,rfl⟩
    · have hi : i + 1 < snaps.length := (List.getElem?_eq_some_iff.mp hy).1
      have hx : snaps[i]? = some x := (getElem?_snoc.mp hx).resolve_right (by omega)
      refine .inr ⟨i,x,y,a,hx,hy,hleaves,?_,ha,by omega⟩
      exact fun j s hj hs => hunseen j s hj (getElem?_snoc.mpr (.inl hs))
    · have hx : snaps[i]? = some x := (getElem?_snoc.mp hx).resolve_right (by omega)
      have hend := getElem?_last ha
      rw [← hi,Nat.add_sub_cancel,hx,Option.some.injEq] at hend
      exact .inl (hend ▸ hleaves)
  · rintro ⟨hlive,hvisible,hleaves | ⟨i,x,y,last,hx,hy,hleaves,hunseen,_,_⟩⟩
    · rw [hleaves.lastSeen] at hlive
      refine ⟨snaps.length - 1,a,b,b,getElem?_snoc.mpr (.inl (getElem?_last ha)),?_,hleaves,?_,hlast,hlive⟩
      · exact getElem?_snoc.mpr (.inr ⟨Nat.sub_add_cancel hpos,rfl⟩)
      · intro j s hj hs
        rcases getElem?_snoc.mp hs with hs | ⟨_,rfl⟩
        · have hj' : j < snaps.length := (List.getElem?_eq_some_iff.mp hs).1
          omega
        · exact hvisible
    · rw [hleaves.lastSeen] at hlive
      refine ⟨i,x,y,b,getElem?_snoc.mpr (.inl hx),getElem?_snoc.mpr (.inl hy),hleaves,?_,hlast,hlive⟩
      intro j s hj hs
      rcases getElem?_snoc.mp hs with hs | ⟨_,rfl⟩
      · exact hunseen j s hj hs
      · exact hvisible

end

/-- The tracker's memory holds what the snapshots say. -/
structure Tracks (ttl : ℤ) (snaps : List Snapshot) (phantoms : List RoomInfoDTO) (t : Tracker) : Prop where
  prevRooms : t.prevRooms = snaps.getLast?.map (byId ·.rooms)
  searching : ∀ npid p, t.searchingPlayers.lookup npid = some p ↔ Searching ttl snaps p ∧ p.npid = npid
  phantoms : phantoms.Perm ((values t.searchingPlayers).map .phantom)

theorem tracks_start (ttl : ℤ) : Tracks ttl [] [] .start := by
  refine ⟨rfl,fun npid p => ?_,List.Perm.refl _⟩
  simp [Tracker.start,searching_nil]

theorem Tracks.next {ttl : ℤ} {snaps : List Snapshot} {s : Snapshot} {before phantoms : List RoomInfoDTO}
    {t t' : Tracker} (h : Tracks ttl snaps before t) (hplain : ∀ x ∈ snaps ++ [s], x.Plain)
    (htimes : ((snaps ++ [s]).map (·.now)).Pairwise (· ≤ ·)) (hnext : t.Updates ttl s phantoms t') :
    Tracks ttl (snaps ++ [s]) phantoms t' := by
  have hs : s.Plain := hplain s (by simp)
  have hlast : (snaps ++ [s]).getLast? = some s := by
    rw [List.getLast?_append_of_ne_nil _ (List.cons_ne_nil _ _),List.getLast?_singleton]
  unfold Tracker.Updates at hnext
  rw [h.prevRooms] at hnext
  cases ha : snaps.getLast? with
  | none =>
    -- the first snapshot
    obtain rfl : snaps = [] := List.getLast?_eq_none_iff.mp ha
    rw [ha] at hnext
    obtain ⟨rfl,rfl⟩ := hnext
    have hnone : ∀ npid, t.searchingPlayers.lookup npid = none := by
      intro npid
      cases hp : t.searchingPlayers.lookup npid with
      | none => rfl
      | some p => exact absurd ((h.searching npid p).mp hp).1 searching_nil
    refine ⟨by rw [hlast]; rfl,fun npid p => ?_,?_⟩
    · simp only [hnone,reduceCtorEq,false_iff]
      rintro ⟨⟨i,x,y,last,_,hy,_⟩,_⟩
      simp at hy
    · have hempty : values t.searchingPlayers = [] := by
        apply List.eq_nil_iff_forall_not_mem.mpr
        intro p hp
        obtain ⟨npid,hlookup⟩ := mem_values.mp hp
        rw [hnone] at hlookup
        cases hlookup
      rw [hempty]
      exact List.Perm.refl _
  | some a =>
    rw [ha] at hnext
    obtain ⟨gone,hgone,rfl,hphantoms⟩ := hnext
    have haPlain : a.Plain := hplain a (List.mem_append_left _ (List.mem_of_getLast? ha))
    have htime : a.now ≤ s.now := by
      rw [List.map_append,List.pairwise_append] at htimes
      exact htimes.2.2 a.now (List.mem_map_of_mem (List.mem_of_getLast? ha)) s.now (by simp)
    refine ⟨by rw [hlast]; rfl,fun npid p => ?_,hphantoms⟩
    rw [lookup_nowSearching haPlain hs hgone,searching_snoc ha htime,h.searching]
    constructor
    · rintro ⟨hlive,hvisible,⟨hleaves,rfl⟩ | ⟨_,hsearching,rfl⟩⟩
      · exact ⟨⟨hlive,hvisible,.inl hleaves⟩,rfl⟩
      · exact ⟨⟨hlive,hvisible,.inr hsearching⟩,rfl⟩
    · rintro ⟨⟨hlive,hvisible,hleaves | hsearching⟩,rfl⟩
      · exact ⟨hlive,hvisible,.inl ⟨hleaves,rfl⟩⟩
      · -- who was searching already was in no room of the last snapshot, so leaves none now
        refine ⟨hlive,hvisible,.inr ⟨?_,hsearching,rfl⟩⟩
        intro q hq hnpid
        exact hsearching.not_mem ha (hnpid ▸ hq.npid_mem)

theorem Tracker.Fed.tracks {ttl : ℤ} {snaps : List Snapshot} {phantoms : List RoomInfoDTO} {t : Tracker}
    (h : Tracker.Fed ttl snaps phantoms t) (hplain : ∀ s ∈ snaps, s.Plain)
    (htimes : (snaps.map (·.now)).Pairwise (· ≤ ·)) : Tracks ttl snaps phantoms t := by
  induction h with
  | start => exact tracks_start ttl
  | next _ hnext ih =>
    have hbefore := ih (fun s hs => hplain s (List.mem_append_left _ hs)) (by
      rw [List.map_append,List.pairwise_append] at htimes
      exact htimes.1)
    exact hbefore.next hplain htimes hnext

/-- The phantoms are one for each player the snapshots say is searching, with the rank of the room
they left last. -/
theorem phantoms_searching {ttl : ℤ} {snaps : List Snapshot} {phantoms : List RoomInfoDTO} {t : Tracker}
    (h : Tracker.Fed ttl snaps phantoms t) (hplain : ∀ s ∈ snaps, s.Plain)
    (htimes : (snaps.map (·.now)).Pairwise (· ≤ ·)) :
    (phantoms.map (·.ownerNpid)).Nodup ∧ (∀ room, room ∈ phantoms ↔ ∃ p, Searching ttl snaps p ∧ room = .phantom p) ∧
      (∀ s, snaps.getLast? = some s → ∀ room ∈ phantoms, room.ownerNpid ∉ s.npids) ∧
      (snaps.length ≤ 1 → phantoms = []) := by
  have htracks := h.tracks hplain htimes
  have hmem : ∀ room, room ∈ phantoms ↔ ∃ p, Searching ttl snaps p ∧ room = .phantom p := by
    intro room
    rw [htracks.phantoms.mem_iff,List.mem_map]
    constructor
    · rintro ⟨p,hp,rfl⟩
      obtain ⟨npid,hlookup⟩ := mem_values.mp hp
      exact ⟨p,((htracks.searching npid p).mp hlookup).1,rfl⟩
    · rintro ⟨p,hp,rfl⟩
      exact ⟨p,mem_values.mpr ⟨p.npid,(htracks.searching _ p).mpr ⟨hp,rfl⟩⟩,rfl⟩
  refine ⟨?_,hmem,?_,?_⟩
  · have hvalues : ((values t.searchingPlayers).map (·.npid)).Nodup :=
      nodup_values fun npid p hp => ((htracks.searching npid p).mp hp).2
    have howners := htracks.phantoms.map (·.ownerNpid)
    rw [List.map_map] at howners
    exact howners.nodup_iff.mpr hvalues
  · intro s hs room hroom
    obtain ⟨p,hp,rfl⟩ := (hmem room).mp hroom
    exact hp.not_mem hs
  · intro hlength
    apply List.eq_nil_iff_forall_not_mem.mpr
    intro room hroom
    obtain ⟨p,⟨i,_,_,_,_,hy,_⟩,_⟩ := (hmem room).mp hroom
    have hi : i + 1 < snaps.length := (List.getElem?_eq_some_iff.mp hy).1
    omega

/-! Alice hosts a room and is gone half a minute later. -/

def aliceHosts : Snapshot := ⟨0,[⟨1,"alice","Alice",1,2,some 10,[⟨"Alice","","alice"⟩]⟩]⟩

def aliceGone : Snapshot := ⟨30,[]⟩

def aliceSearching : SearchingPlayer := ⟨"alice","Alice",some 10,30⟩

theorem fed_aliceGone : Tracker.Fed 60 [aliceHosts,aliceGone] [.phantom aliceSearching]
    ⟨some ∅,AList.singleton "alice" aliceSearching⟩ :=
  .next (.next .start ⟨rfl,rfl⟩) ⟨aliceHosts.rooms,List.Perm.refl _,rfl,List.Perm.refl _⟩

theorem phantoms_searching_aliceGone :
    ([RoomInfoDTO.phantom aliceSearching].map (·.ownerNpid)).Nodup ∧
      (∀ room, room ∈ [RoomInfoDTO.phantom aliceSearching] ↔
        ∃ p, Searching 60 [aliceHosts,aliceGone] p ∧ room = .phantom p) ∧
      (∀ s, [aliceHosts,aliceGone].getLast? = some s →
        ∀ room ∈ [RoomInfoDTO.phantom aliceSearching], room.ownerNpid ∉ s.npids) ∧
      ([aliceHosts,aliceGone].length ≤ 1 → [RoomInfoDTO.phantom aliceSearching] = []) :=
  phantoms_searching fed_aliceGone
    (by intro s hs; rcases List.mem_pair.mp hs with rfl | rfl <;> exact ⟨by decide,by decide⟩) (by decide)

end Tag2now.Matching
