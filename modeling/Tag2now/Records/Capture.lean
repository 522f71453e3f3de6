import Tag2now.Records.Service
import Tag2now.Records.States

/-! # Capturing a player's saves

Saves are delivered several times and late. Only one that is later than all before it changes
anything, and the matches found account for every win and loss the merged jumps leave.
-/
namespace Tag2now.Records
open ReadCommitted

/-! ## The tables and the capture -/

def MatchEventRow.saveKey (row : MatchEventRow) : String × ℤ := (row.npid,row.dataId)

/-- The tables of the capture. The ids of events are drawn in order, also for an insert that conflicts. -/
structure CaptureStore where
  states : Table SaveStateRow.npid
  queue : Store
  nextEventId : ℕ
  unique : (queue.events.rows.map MatchEventRow.saveKey).Nodup
  drawn : ∀ row ∈ queue.events.rows, row.id < nextEventId

/-- None for a player not seen before, and the read itself fails when the row does not hold a save. -/
def lockState (npid : String) (db : CaptureStore) : Option (Option PlayerSave) := (db.states.get? npid).map toSave

/-- `INSERT .. ON CONFLICT (npid) DO UPDATE`. -/
def saveState (save : PlayerSave) (merged : Bool) (db : CaptureStore) : CaptureStore :=
  { db with states := match db.states.get? save.npid with
    | none => db.states.insert (stateRow save 0)
    | some _ => db.states.modify save.npid
      (fun row => { stateRow save (row.mergedCount + if merged then 1 else 0) with npid := row.npid }) fun _ => rfl }

def newEvent (id : ℕ) (save : PlayerSave) (played : PlayerMatch) (now : ℤ) : MatchEventRow where
  id := id
  npid := save.npid
  dataId := save.dataId
  result := played.outcome
  chars := played.chars
  ranks := some played.ranks
  savedAt := save.savedAt
  status := .pending
  attempts := 0
  availableAt := now
  lastError := none

theorem CaptureStore.free (db : CaptureStore) (save : PlayerSave) (played : PlayerMatch) (now : ℤ) :
    db.queue.events.get? (newEvent db.nextEventId save played now).id = none := by
  rw [Table.get?_eq_none_iff]
  intro row hrow
  exact Nat.ne_of_lt (db.drawn row hrow)

/-- `INSERT .. ON CONFLICT ON CONSTRAINT uq_match_events_save DO NOTHING`. -/
def insertEvent (save : PlayerSave) (played : PlayerMatch) (now : ℤ) (db : CaptureStore) : CaptureStore :=
  let row := newEvent db.nextEventId save played now
  if h : (save.npid,save.dataId) ∈ db.queue.events.rows.map MatchEventRow.saveKey then
    { db with
      nextEventId := db.nextEventId + 1
      drawn := fun row hrow => Nat.lt_succ_of_lt (db.drawn row hrow) }
  else
    { db with
      queue := addEvent row db.queue
      nextEventId := db.nextEventId + 1
      unique := by
        have hrows := Table.insert_rows (db.free save played now)
        unfold addEvent
        rw [hrows,List.map_append]
        refine List.nodup_append.mpr ⟨db.unique,List.nodup_singleton _,?_⟩
        intro key hkey other hother heq
        subst heq
        rw [List.mem_singleton.mp hother] at hkey
        exact h hkey
      drawn := by
        intro old hold
        rcases (Table.mem_insert (db.free save played now)).mp hold with hold | rfl
        · exact Nat.lt_succ_of_lt (db.drawn old hold)
        · exact Nat.lt_succ_self _ }

/-- `_compare`, one transaction under the lock of the player's state. Nothing stays of one that fails. -/
def captureOne (save : PlayerSave) (now : ℤ) (db : CaptureStore) : CaptureStore :=
  match lockState save.npid db with
  | none => saveState save false db
  | some none => db
  | some (some before) =>
    if save.dataId ≤ before.dataId then db
    else
      let comparison := compare before save
      let saved := saveState save comparison.merged db
      match comparison.found with
      | none => saved
      | some played => insertEvent save played now saved

structure Delivered where
  answer : SaveAnswer
  now : ℤ

def Delivered.save (d : Delivered) : PlayerSave := .ofAnswer d.answer

def captureAll (ds : List Delivered) (db : CaptureStore) : CaptureStore :=
  ds.foldl (fun db d => captureOne d.save d.now db) db

/-- The deliveries later than all before them. -/
def exceeding (earlier : List ℤ) : List Delivered → List Delivered
  | [] => []
  | d :: ds =>
    if ∀ id ∈ earlier, id < d.answer.dataId then d :: exceeding (d.answer.dataId :: earlier) ds
    else exceeding (d.answer.dataId :: earlier) ds

/-! ## What the statements do -/

section Statements
variable {save : PlayerSave} {now : ℤ} {merged : Bool} {played : PlayerMatch} {db : CaptureStore}

@[simp] theorem saveState_queue : (saveState save merged db).queue = db.queue := rfl

@[simp] theorem insertEvent_states : (insertEvent save played now db).states = db.states := by
  simp only [insertEvent]
  split <;> rfl

theorem saveState_new (h : db.states.get? save.npid = none) :
    (saveState save merged db).states.get? save.npid = some (stateRow save 0) := by
  have hget := Table.get?_insert (a := stateRow save 0) h save.npid
  unfold saveState
  rw [h]
  exact hget.trans (if_pos rfl)

theorem saveState_next {row : SaveStateRow} (h : db.states.get? save.npid = some row) :
    (saveState save merged db).states.get? save.npid =
      some (stateRow save (row.mergedCount + if merged then 1 else 0)) := by
  unfold saveState
  simp only [h]
  rw [Table.get?_modify,if_pos rfl,h]
  have hnpid : row.npid = save.npid := Table.key_of_get? h
  simp only [Option.map_some,hnpid]
  rfl

theorem not_mem_keys (h : ∀ event ∈ db.queue.events.rows, event.saveKey ≠ (save.npid,save.dataId)) :
    (save.npid,save.dataId) ∉ db.queue.events.rows.map MatchEventRow.saveKey := by
  intro hmem
  obtain ⟨event,hevent,heq⟩ := List.mem_map.mp hmem
  exact h event hevent heq

theorem insertEvent_rows (h : ∀ event ∈ db.queue.events.rows, event.saveKey ≠ (save.npid,save.dataId)) :
    (insertEvent save played now db).queue.events.rows =
      db.queue.events.rows ++ [newEvent db.nextEventId save played now] := by
  unfold insertEvent
  rw [dif_neg (not_mem_keys h)]
  exact Table.insert_rows (db.free save played now)

theorem captureOne_new (h : lockState save.npid db = none) : captureOne save now db = saveState save false db := by
  unfold captureOne
  rw [h]

theorem captureOne_unreadable (h : lockState save.npid db = some none) : captureOne save now db = db := by
  unfold captureOne
  rw [h]

theorem captureOne_seen {before : PlayerSave} (h : lockState save.npid db = some (some before))
    (hle : save.dataId ≤ before.dataId) : captureOne save now db = db := by
  unfold captureOne
  rw [h]
  exact if_pos hle

theorem captureOne_next {before : PlayerSave} (h : lockState save.npid db = some (some before))
    (hlt : ¬ save.dataId ≤ before.dataId) : captureOne save now db =
      match (compare before save).found with
      | none => saveState save (compare before save).merged db
      | some played => insertEvent save played now (saveState save (compare before save).merged db) := by
  unfold captureOne
  rw [h]
  exact if_neg hlt

theorem captureOne_states {before : PlayerSave} (h : lockState save.npid db = some (some before))
    (hlt : ¬ save.dataId ≤ before.dataId) :
    (captureOne save now db).states = (saveState save (compare before save).merged db).states := by
  rw [captureOne_next h hlt]
  split
  · rfl
  · exact insertEvent_states

end Statements

/-! ## Replays change nothing -/

section Replays
variable {npid : String} {earlier : List ℤ} {db : CaptureStore} {ds : List Delivered} {d : Delivered}

theorem lockState_of_stateRow {save : PlayerSave} {k : ℤ} (h : db.states.get? npid = some (stateRow save k)) :
    ∃ back, lockState npid db = some (some back) ∧ back.Same save := by
  obtain ⟨back,hback,hsame⟩ := toSave_stateRow save k
  refine ⟨back,?_,hsame⟩
  unfold lockState
  rw [h,Option.map_some,hback]

/-- The player's state, when it can be read, is from none of these or later. -/
def Covers (npid : String) (earlier : List ℤ) (db : CaptureStore) : Prop :=
  ∀ id ∈ earlier, ∃ state, lockState npid db = some state ∧ ∀ before, state = some before → id ≤ before.dataId

theorem Covers.replay (h : Covers npid earlier db) (hd : d.answer.npid = npid)
    (hnot : ¬ ∀ id ∈ earlier, id < d.answer.dataId) :
    captureOne d.save d.now db = db ∧ Covers npid (d.answer.dataId :: earlier) db := by
  simp only [not_forall,Int.not_lt] at hnot
  obtain ⟨id,hid,hle⟩ := hnot
  obtain ⟨state,hstate,hlater⟩ := h id hid
  have hnpid : d.save.npid = npid := hd
  constructor
  · cases state with
    | none => exact captureOne_unreadable (hnpid ▸ hstate)
    | some before => exact captureOne_seen (hnpid ▸ hstate) (hle.trans (hlater before rfl))
  · intro other hother
    rcases List.mem_cons.mp hother with rfl | hother
    · exact ⟨state,hstate,fun before hbefore => hle.trans (hlater before hbefore)⟩
    · exact h other hother

theorem Covers.captureOne (h : Covers npid earlier db) (hd : d.answer.npid = npid)
    (hlater : ∀ id ∈ earlier, id < d.answer.dataId) :
    Covers npid (d.answer.dataId :: earlier) (captureOne d.save d.now db) := by
  have hnpid : d.save.npid = npid := hd
  subst hnpid
  have hle : ∀ id ∈ d.answer.dataId :: earlier, id ≤ d.save.dataId := by
    intro id hid
    rcases List.mem_cons.mp hid with rfl | hid
    · exact Int.le_refl _
    · exact Int.le_of_lt (hlater id hid)
  have hstored {db' : CaptureStore} {k : ℤ} (hrow : db'.states.get? d.save.npid = some (stateRow d.save k)) :
      Covers d.save.npid (d.answer.dataId :: earlier) db' := by
    obtain ⟨back,hback,hsame⟩ := lockState_of_stateRow hrow
    intro id hid
    refine ⟨_,hback,?_⟩
    rintro before hbefore
    cases hbefore
    rw [hsame.dataId]
    exact hle id hid
  cases hstate : lockState d.save.npid db with
  | none =>
    rw [captureOne_new hstate]
    exact hstored (saveState_new (Option.map_eq_none_iff.mp hstate))
  | some state =>
    cases state with
    | none =>
      rw [captureOne_unreadable hstate]
      intro id _
      exact ⟨none,hstate,by simp⟩
    | some before =>
      by_cases hseen : d.save.dataId ≤ before.dataId
      · rw [captureOne_seen hstate hseen]
        intro id hid
        refine ⟨_,hstate,?_⟩
        rintro other hother
        cases hother
        exact (hle id hid).trans hseen
      · obtain ⟨row,hrow,_⟩ := Option.map_eq_some_iff.mp hstate
        apply hstored
        rw [captureOne_states hstate hseen]
        exact saveState_next hrow

theorem captureAll_exceeding (hone : ∀ d ∈ ds, d.answer.npid = npid) (h : Covers npid earlier db) :
    captureAll ds db = captureAll (exceeding earlier ds) db := by
  induction ds generalizing earlier db with
  | nil => rfl
  | cons d ds ih =>
    have hd := hone d (List.mem_cons_self ..)
    have hds : ∀ d ∈ ds, d.answer.npid = npid := fun d hd => hone d (List.mem_cons_of_mem _ hd)
    unfold captureAll at ih ⊢
    rw [List.foldl_cons,exceeding]
    split
    · rename_i hlater
      rw [List.foldl_cons]
      exact ih hds (h.captureOne hd hlater)
    · rename_i hnot
      obtain ⟨hsame,hcovers⟩ := h.replay hd hnot
      rw [hsame]
      exact ih hds hcovers

theorem mem_exceeding (h : d ∈ exceeding earlier ds) : d ∈ ds ∧ ∀ id ∈ earlier, id < d.answer.dataId := by
  induction ds generalizing earlier with
  | nil => cases h
  | cons e ds ih =>
    rw [exceeding] at h
    split at h
    · rename_i hlater
      rcases List.mem_cons.mp h with rfl | h
      · exact ⟨List.mem_cons_self ..,hlater⟩
      · obtain ⟨hmem,hids⟩ := ih h
        exact ⟨List.mem_cons_of_mem _ hmem,fun id hid => hids id (List.mem_cons_of_mem _ hid)⟩
    · obtain ⟨hmem,hids⟩ := ih h
      exact ⟨List.mem_cons_of_mem _ hmem,fun id hid => hids id (List.mem_cons_of_mem _ hid)⟩

theorem exceeding_sorted : (exceeding earlier ds).Pairwise fun d e => d.answer.dataId < e.answer.dataId := by
  induction ds generalizing earlier with
  | nil => exact .nil
  | cons d ds ih =>
    rw [exceeding]
    split
    · refine List.pairwise_cons.mpr ⟨?_,ih⟩
      intro e he
      exact (mem_exceeding he).2 _ (List.mem_cons_self ..)
    · exact ih

end Replays

/-! ## The matches and the merged jumps of a run -/

def MatchEventRow.shown (row : MatchEventRow) : ℤ × ℤ × MatchOutcome × List ℤ × Option (List (Option ℤ)) :=
  (row.dataId,row.savedAt,row.result,row.chars,row.ranks)

def shownBy (f : PlayerSave × PlayerMatch) : ℤ × ℤ × MatchOutcome × List ℤ × Option (List (Option ℤ)) :=
  (f.1.dataId,f.1.savedAt,f.2.outcome,f.2.chars,some f.2.ranks)

def CaptureStore.eventsOf (db : CaptureStore) (npid : String) : List MatchEventRow :=
  db.queue.events.rows.filter fun row => row.npid = npid

/-- The tables after a player's saves up to this one, with these jumps between them. -/
structure Tracks (npid : String) (last : PlayerSave) (js : List (PlayerSave × PlayerSave)) (db : CaptureStore) :
    Prop where
  owner : last.npid = npid
  state : db.states.get? npid = some (stateRow last (mergedJumps js).length)
  queued : (db.eventsOf npid).map MatchEventRow.shown = (found js).map shownBy
  behind : ∀ event ∈ db.queue.events.rows, event.npid = npid → event.dataId ≤ last.dataId

section Runs
variable {npid : String} {first last save : PlayerSave} {now : ℤ}
  {js : List (PlayerSave × PlayerSave)} {db : CaptureStore}

theorem mergedJumps_concat (j : PlayerSave × PlayerSave) : ((mergedJumps (js ++ [j])).length : ℤ) =
    (mergedJumps js).length + if (compare j.1 j.2).merged then 1 else 0 := by
  unfold mergedJumps
  rw [List.filter_append,List.length_append,List.filter_singleton]
  cases (compare j.1 j.2).merged <;> simp

theorem found_concat (j : PlayerSave × PlayerSave) :
    found (js ++ [j]) = found js ++ ((compare j.1 j.2).found.map fun played => (j.2,played)).toList := by
  unfold found
  rw [List.filterMap_append]
  cases hfound : (compare j.1 j.2).found <;> simp [hfound]

theorem tracks_first (hnpid : first.npid = npid) (hstate : db.states.get? npid = none)
    (hevents : ∀ event ∈ db.queue.events.rows, event.npid ≠ npid) :
    Tracks npid first [] (captureOne first now db) := by
  subst hnpid
  have hlock : lockState first.npid db = none := by
    unfold lockState
    rw [hstate,Option.map_none]
  rw [captureOne_new hlock]
  refine ⟨rfl,saveState_new hstate,?_,?_⟩
  · have hnone : (saveState first false db).eventsOf first.npid = [] := by
      apply List.filter_eq_nil_iff.mpr
      intro event hevent
      simpa using hevents event hevent
    rw [hnone]
    rfl
  · intro event hevent hnpid
    exact absurd hnpid (hevents event hevent)

theorem Tracks.captureOne (h : Tracks npid last js db) (hnpid : save.npid = npid)
    (hlt : last.dataId < save.dataId) :
    Tracks npid save (js ++ [(last,save)]) (captureOne save now db) := by
  subst hnpid
  obtain ⟨back,hback,hsame⟩ := lockState_of_stateRow h.state
  have hlater : ¬ save.dataId ≤ back.dataId := by
    rw [hsame.dataId]
    omega
  have hcompare : compare back save = compare last save := hsame.compare_eq save
  have hnext := @captureOne_next save now db back hback hlater
  rw [hcompare] at hnext
  have hstates := @captureOne_states save now db back hback hlater
  rw [hcompare] at hstates
  have hold : ∀ event ∈ db.queue.events.rows, event.npid = save.npid → event.dataId < save.dataId := by
    intro event hevent heq
    have hbehind := h.behind event hevent heq
    omega
  have hstate : (Records.captureOne save now db).states.get? save.npid =
      some (stateRow save (mergedJumps (js ++ [(last,save)])).length) := by
    rw [hstates,saveState_next h.state,mergedJumps_concat]
    rfl
  have hqueued := h.queued
  cases hfound : (compare last save).found with
  | none =>
    rw [hfound] at hnext
    have hqueue : (Records.captureOne save now db).queue = db.queue := by rw [hnext,saveState_queue]
    refine ⟨rfl,hstate,?_,?_⟩
    · unfold CaptureStore.eventsOf at hqueued ⊢
      rw [hqueue,hqueued,found_concat,hfound]
      simp
    · intro event hevent heq
      rw [hqueue] at hevent
      exact Int.le_of_lt (hold event hevent heq)
  | some played =>
    rw [hfound] at hnext
    have hfree : ∀ event ∈ db.queue.events.rows, event.saveKey ≠ (save.npid,save.dataId) := by
      intro event hevent hkey
      have hdataId := hold event hevent (congrArg Prod.fst hkey)
      exact absurd (congrArg Prod.snd hkey) (Int.ne_of_lt hdataId)
    have hrows : (Records.captureOne save now db).queue.events.rows =
        db.queue.events.rows ++ [newEvent db.nextEventId save played now] := by
      rw [hnext]
      exact insertEvent_rows hfree
    refine ⟨rfl,hstate,?_,?_⟩
    · have hone : [newEvent db.nextEventId save played now].filter (fun row => row.npid = save.npid) =
          [newEvent db.nextEventId save played now] := by simp [newEvent]
      unfold CaptureStore.eventsOf at hqueued ⊢
      rw [hrows,List.filter_append,List.map_append,hqueued,hone,found_concat,hfound,List.map_append]
      rfl
    · intro event hevent heq
      rw [hrows] at hevent
      rcases List.mem_append.mp hevent with hevent | hevent
      · exact Int.le_of_lt (hold event hevent heq)
      · rw [List.mem_singleton.mp hevent]
        exact Int.le_refl _

theorem Tracks.captureAll {ds : List Delivered} (h : Tracks npid last js db) (hone : ∀ d ∈ ds, d.save.npid = npid)
    (hsorted : (last :: ds.map Delivered.save).Pairwise fun a b => a.dataId < b.dataId) :
    Tracks npid ((ds.map Delivered.save).getLastD last) (js ++ jumps (last :: ds.map Delivered.save))
      (captureAll ds db) := by
  induction ds generalizing last js db with
  | nil =>
    unfold Records.captureAll
    simpa [jumps] using h
  | cons d ds ih =>
    rw [List.map_cons,List.pairwise_cons] at hsorted
    have hstep : Tracks npid d.save (js ++ [(last,d.save)]) (Records.captureOne d.save d.now db) :=
      h.captureOne (hone d (List.mem_cons_self ..)) (hsorted.1 d.save (List.mem_cons_self ..))
    have hrun := ih hstep (fun e he => hone e (List.mem_cons_of_mem _ he)) hsorted.2
    unfold Records.captureAll at hrun ⊢
    rw [List.foldl_cons,List.map_cons,List.getLastD_cons,jumps]
    rw [List.append_assoc,List.singleton_append] at hrun
    exact hrun

theorem Tracks.events_count (h : Tracks npid last js db) (outcome : MatchOutcome) :
    ((db.eventsOf npid).filter fun row => row.result = outcome).length =
      ((found js).filter fun f => f.2.outcome = outcome).length := by
  have hmapped := congrArg (List.countP fun shown => shown.2.2.1 = outcome) h.queued
  rw [List.countP_map,List.countP_map] at hmapped
  rw [← List.countP_eq_length_filter,← List.countP_eq_length_filter]
  exact hmapped

end Runs

/-! ## Idempotent and conserving -/

/-- However a player's saves are delivered, the tables are those of the saves later than all before
them. The wins and losses between the first and the last state are the matches queued and the rises
of the merged jumps, and the state read back is the last save. -/
theorem capture_conserves {npid : String} {ds : List Delivered} {db : CaptureStore}
    (hone : ∀ d ∈ ds, d.answer.npid = npid) :
    captureAll ds db = captureAll (exceeding [] ds) db ∧
    (db.states.get? npid = none → (∀ event ∈ db.queue.events.rows, event.npid ≠ npid) →
      ∀ first rest, (exceeding [] ds).map Delivered.save = first :: rest →
        (∀ outcome, rise outcome first (rest.getLastD first) =
          (((captureAll ds db).eventsOf npid).filter fun event => event.result = outcome).length +
            ((mergedJumps (jumps (first :: rest))).map fun j => rise outcome j.1 j.2).sum) ∧
        ((captureAll ds db).eventsOf npid).map MatchEventRow.shown = (found (jumps (first :: rest))).map shownBy ∧
        (∃ row, (captureAll ds db).states.get? npid = some row ∧
          row.mergedCount = (mergedJumps (jumps (first :: rest))).length) ∧
        ∃ back, lockState npid (captureAll ds db) = some (some back) ∧ back.Same (rest.getLastD first)) ∧
    ∀ event ∈ (captureAll ds db).queue.events.rows, ∀ other ∈ (captureAll ds db).queue.events.rows,
      event.npid = other.npid → event.dataId = other.dataId → event = other := by
  have hreplays : captureAll ds db = captureAll (exceeding [] ds) db :=
    captureAll_exceeding hone fun id hid => absurd hid (List.not_mem_nil)
  refine ⟨hreplays,?_,?_⟩
  · intro hstate hevents first rest hkept
    obtain ⟨d,kept,hcons,rfl,rfl⟩ := List.map_eq_cons_iff.mp hkept
    have hmem : ∀ e ∈ d :: kept, e.save.npid = npid := by
      intro e he
      rw [← hcons] at he
      exact hone e (mem_exceeding he).1
    have hsorted : ((d :: kept).map Delivered.save).Pairwise fun a b => a.dataId < b.dataId := by
      rw [← hcons]
      exact List.pairwise_map.mpr exceeding_sorted
    have hfirst : Tracks npid d.save [] (captureOne d.save d.now db) :=
      tracks_first (hmem d (List.mem_cons_self ..)) hstate hevents
    have htracks := hfirst.captureAll (fun e he => hmem e (List.mem_cons_of_mem _ he)) hsorted
    have hafter : captureAll kept (captureOne d.save d.now db) = captureAll ds db := by
      rw [hreplays,hcons]
      rfl
    rw [hafter,List.nil_append] at htracks
    refine ⟨?_,htracks.queued,⟨_,htracks.state,rfl⟩,lockState_of_stateRow htracks.state⟩
    intro outcome
    rw [htracks.events_count outcome,← rises_conserved,rises_sum]
  · intro event hevent other hother hnpid hdataId
    exact List.inj_on_of_nodup_map (captureAll ds db).unique hevent hother (Prod.ext hnpid hdataId)

def CaptureStore.empty : CaptureStore where
  states := .empty
  queue := .empty
  nextEventId := 1
  unique := List.nodup_nil
  drawn := fun _ hrow => absurd hrow List.not_mem_nil

/-- A start save, the win that followed, the start save again, and two losses at once. -/
def deliveredTwice : List Delivered :=
  let saved (dataId wins losses : ℤ) (ownChars : List ℤ) : Delivered :=
    ⟨⟨"alice",dataId,dataId * second,wins,losses,
      [⟨4,wins,losses,some 12⟩,⟨17,wins,losses,none⟩],ownChars⟩,dataId * second⟩
  [saved 5 0 0 [17,4],saved 6 1 0 [],saved 5 0 0 [17,4],saved 9 1 2 []]

theorem capture_conserves_deliveredTwice :
    captureAll deliveredTwice .empty = captureAll (exceeding [] deliveredTwice) .empty ∧
      (exceeding [] deliveredTwice).map (·.answer.dataId) = [5,6,9] ∧
      ((captureAll deliveredTwice .empty).eventsOf "alice").map MatchEventRow.shown =
        [(6,6 * second,.win,[17,4],some [none,some 12])] ∧
      ∃ row, (captureAll deliveredTwice .empty).states.get? "alice" = some row ∧ row.mergedCount = 1 := by
  have hone : ∀ d ∈ deliveredTwice, d.answer.npid = "alice" := by decide
  obtain ⟨hreplays,hconserves,_⟩ := @capture_conserves _ _ .empty hone
  obtain ⟨_,hevents,hrow,_⟩ := hconserves rfl (by simp [CaptureStore.empty,Store.empty,Table.empty]) _ _ rfl
  exact ⟨hreplays,by decide,hevents,hrow⟩

end Tag2now.Records
