import Tag2now.Records.Capture
import Tag2now.Streams.CatchUp

/-! # What the captures to come get to

A capture reads the latest saves from a little behind the newest it has compared, and no more than
a limit. A save that could not be compared is read again only while it is not too far behind, and
saves that cannot be compared at all stay in the way of those after them. Once nothing else fails,
the latest saves are all compared exactly when none is behind and none is cut off.
-/
namespace Tag2now.Records
open ReadCommitted Collections

def captureLimit : ℕ := 200

/-- data_ids are handed out before their row commits, so a lower id can appear after a higher one. -/
def captureOverlap : ℤ := 16

/-- Each player's latest save, as save-admin lists them. -/
structure Feed where
  saves : List SaveAnswer
  ascending : saves.Pairwise fun a b => a.dataId < b.dataId
  players : (saves.map SaveAnswer.npid).Nodup

/-- The first `limit` saves past `after`. -/
def Feed.readChanged (feed : Feed) (after : ℤ) (limit : ℕ) : List SaveAnswer :=
  (feed.saves.filter fun answer => after < answer.dataId).take limit

/-- `COALESCE(MAX(data_id), 0)`. -/
def latestDataId (db : CaptureStore) : ℤ := ((db.states.rows.map SaveStateRow.dataId).max?).getD 0

/-- One call, in which some comparisons fail. A failure is logged, and the next save is taken. -/
def capture (fails : SaveAnswer → Bool) (now : SaveAnswer → ℤ) (feed : Feed) (db : CaptureStore) : CaptureStore :=
  (feed.readChanged (max (latestDataId db - captureOverlap) 0) captureLimit).foldl
    (fun db answer => if fails answer then db else captureOne (.ofAnswer answer) (now answer) db) db

/-- Every stored state can be read back. -/
def Readable (db : CaptureStore) : Prop := ∀ npid row, db.states.get? npid = some row → ∃ save, toSave row = some save

/-- The runs of the capture, with any comparisons failing, while upstream changes. -/
inductive Captured : Feed → CaptureStore → Prop
  | init (feed : Feed) {db : CaptureStore} : Readable db → Captured feed db
  | change {feed : Feed} {db : CaptureStore} (feed' : Feed) : Captured feed db → Captured feed' db
  | capture {feed : Feed} {db : CaptureStore} (fails : SaveAnswer → Bool) (now : SaveAnswer → ℤ) : Captured feed db →
      Captured feed (capture fails now feed db)

/-- Further calls, in which only the bad saves fail. -/
def captures (bad : SaveAnswer → Bool) (now : ℕ → SaveAnswer → ℤ) (feed : Feed) (db : CaptureStore) : ℕ → CaptureStore
  | 0 => db
  | n + 1 => capture bad (now n) feed (captures bad now feed db n)

def stored (db : CaptureStore) (npid : String) : Option ℤ := (db.states.get? npid).map SaveStateRow.dataId

def Compared (answer : SaveAnswer) (db : CaptureStore) : Prop := stored db answer.npid = some answer.dataId

instance (answer : SaveAnswer) (db : CaptureStore) : Decidable (Compared answer db) :=
  inferInstanceAs (Decidable (_ = _))

/-- The player's stored state is from this save or a later one. -/
def Covered (answer : SaveAnswer) (db : CaptureStore) : Prop :=
  ∃ id, stored db answer.npid = some id ∧ answer.dataId ≤ id

def Ahead (answer : SaveAnswer) (db : CaptureStore) : Prop := ∃ id, stored db answer.npid = some id ∧ answer.dataId < id

theorem compared_iff {answer : SaveAnswer} {db : CaptureStore} :
    Compared answer db ↔ Covered answer db ∧ ¬ Ahead answer db := by
  unfold Compared Covered Ahead
  cases stored db answer.npid with
  | none => simp
  | some id =>
    simp only [Option.some.injEq,exists_eq_left']
    omega

/-! ## One comparison -/

section One
variable {save : PlayerSave} {now : ℤ} {merged : Bool} {db : CaptureStore} {npid : String}

theorem get?_saveState : ∃ k, (saveState save merged db).states.get? npid =
    if npid = save.npid then some (stateRow save k) else db.states.get? npid := by
  cases hrow : db.states.get? save.npid with
  | none =>
    have hget := Table.get?_insert (a := stateRow save 0) hrow npid
    refine ⟨0,?_⟩
    unfold saveState
    rw [hrow]
    exact hget
  | some row =>
    refine ⟨row.mergedCount + if merged then 1 else 0,?_⟩
    by_cases hown : npid = save.npid
    · rw [hown,if_pos rfl,saveState_next hrow]
    · rw [if_neg hown]
      unfold saveState
      simp only [hrow]
      rw [Table.get?_modify,if_neg hown]

/-- A comparison takes its own player's state to its save, if that is later. -/
theorem stored_captureOne (save : PlayerSave) (now : ℤ) (hdb : Readable db) : Readable (captureOne save now db) ∧
    ∀ npid, stored (captureOne save now db) npid =
      if npid = save.npid then some (max ((stored db save.npid).getD save.dataId) save.dataId) else stored db npid := by
  have hsaved (merged : Bool) : Readable (saveState save merged db) ∧
      ∀ npid, stored (saveState save merged db) npid =
        if npid = save.npid then some save.dataId else stored db npid := by
    constructor
    · intro npid row hrow
      obtain ⟨k,hget⟩ := @get?_saveState save merged db npid
      rw [hget] at hrow
      split at hrow
      · cases hrow
        obtain ⟨back,hback,_⟩ := toSave_stateRow save k
        exact ⟨back,hback⟩
      · exact hdb npid row hrow
    · intro npid
      obtain ⟨k,hget⟩ := @get?_saveState save merged db npid
      unfold stored
      rw [hget]
      split <;> rfl
  cases hlock : lockState save.npid db with
  | none =>
    have hnone : stored db save.npid = none := by
      unfold stored
      rw [Option.map_eq_none_iff]
      exact Option.map_eq_none_iff.mp hlock
    rw [captureOne_new hlock,hnone,Option.getD_none,max_self]
    exact hsaved false
  | some found =>
    obtain ⟨row,hrow,hfound⟩ := Option.map_eq_some_iff.mp hlock
    obtain ⟨before,hbefore⟩ := hdb _ _ hrow
    rw [hbefore] at hfound
    subst hfound
    have hstored : stored db save.npid = some before.dataId := by
      unfold stored
      rw [hrow,toSave_dataId hbefore]
      rfl
    rw [hstored,Option.getD_some]
    by_cases hle : save.dataId ≤ before.dataId
    · rw [captureOne_seen hlock hle,max_eq_left hle]
      refine ⟨hdb,fun npid => ?_⟩
      split
      · rename_i hnpid
        rw [hnpid,hstored]
      · rfl
    · have hstates := @captureOne_states _ now _ _ hlock hle
      rw [max_eq_right (not_le.mp hle).le]
      have hlater := hsaved (compare before save).merged
      unfold Readable stored at hlater ⊢
      rw [hstates]
      exact hlater

end One

/-! ## A capture is a read from behind the mark -/

def behind (mark : ℤ) : ℤ := max (mark - captureOverlap) 0

def reader : CatchUp.Reader ℤ where
  back := behind
  limit := captureLimit
  mono := by
    intro a b hab
    simp only [behind,captureOverlap]
    omega
  behind := by
    intro m p x hpx hmx
    simp only [behind,captureOverlap] at hmx ⊢
    omega

def mark (db : CaptureStore) : ℤ := max (latestDataId db) 0

def progress (feed : Feed) (db : CaptureStore) : CatchUp.Progress SaveAnswer ℤ where
  mark := mark db
  done := {answer | answer ∈ feed.saves ∧ Covered answer db}

theorem mark_le_iff {db : CaptureStore} {m : ℤ} :
    mark db ≤ m ↔ 0 ≤ m ∧ ∀ npid id, stored db npid = some id → id ≤ m := by
  have hrows : (∀ npid id, stored db npid = some id → id ≤ m) ↔
      ∀ id ∈ db.states.rows.map SaveStateRow.dataId, id ≤ m := by
    constructor
    · intro h id hid
      obtain ⟨row,hrow,rfl⟩ := List.mem_map.mp hid
      have hstored : stored db row.npid = some row.dataId := by
        unfold stored
        rw [Table.get?_of_mem hrow]
        rfl
      exact h _ _ hstored
    · intro h npid id hid
      obtain ⟨row,hrow,rfl⟩ := Option.map_eq_some_iff.mp hid
      exact h _ (List.mem_map_of_mem (Table.mem_of_get? hrow))
  unfold mark latestDataId
  rw [max_le_iff,hrows]
  cases hmax : (db.states.rows.map SaveStateRow.dataId).max? with
  | none =>
    have hnil := List.max?_eq_none_iff.mp hmax
    simp [hnil]
  | some latest =>
    rw [Option.getD_some,List.max?_le_iff hmax]
    exact and_comm

theorem behind_mark (db : CaptureStore) : behind (mark db) = max (latestDataId db - captureOverlap) 0 := by
  simp only [behind,mark,captureOverlap]
  omega

/-- What one comparison after another does, of saves of different players. -/
theorem stored_foldl {bad : SaveAnswer → Bool} {now : SaveAnswer → ℤ} {answers : List SaveAnswer} {db : CaptureStore}
    (hdb : Readable db) (hplayers : (answers.map SaveAnswer.npid).Nodup) :
    let after := answers.foldl (fun db answer =>
        if bad answer then db else captureOne (.ofAnswer answer) (now answer) db) db
    Readable after ∧
      (∀ answer ∈ answers, bad answer = false →
        stored after answer.npid = some (max ((stored db answer.npid).getD answer.dataId) answer.dataId)) ∧
      ∀ npid, (∀ answer ∈ answers, bad answer = false → answer.npid ≠ npid) → stored after npid = stored db npid := by
  induction answers generalizing db with
  | nil => exact ⟨hdb,nofun,fun _ _ => rfl⟩
  | cons first rest ih =>
    rw [List.map_cons,List.nodup_cons] at hplayers
    obtain ⟨hfirst,hrest⟩ := hplayers
    have hother : ∀ answer ∈ rest, answer.npid ≠ first.npid := by
      intro answer hanswer hsame
      exact hfirst (hsame ▸ List.mem_map_of_mem hanswer)
    simp only [List.foldl_cons]
    by_cases hbad : bad first = true
    · rw [if_pos hbad]
      obtain ⟨hreadable,hone,hkept⟩ := ih hdb hrest
      refine ⟨hreadable,?_,fun npid hnone => hkept npid fun answer hanswer =>
        hnone answer (List.mem_cons_of_mem _ hanswer)⟩
      intro answer hanswer hgood
      rcases List.mem_cons.mp hanswer with rfl | hanswer
      · rw [hbad] at hgood
        cases hgood
      · exact hone answer hanswer hgood
    · rw [if_neg hbad]
      obtain ⟨hdb₁,hstored⟩ := stored_captureOne (.ofAnswer first) (now first) hdb
      obtain ⟨hreadable,hone,hkept⟩ := ih hdb₁ hrest
      refine ⟨hreadable,?_,?_⟩
      · intro answer hanswer hgood
        rcases List.mem_cons.mp hanswer with rfl | hanswer
        · rw [hkept _ fun other hother' _ => hother other hother',hstored]
          exact if_pos rfl
        · have hne : answer.npid ≠ (PlayerSave.ofAnswer first).npid := hother answer hanswer
          rw [hone answer hanswer hgood,hstored,if_neg hne]
      · intro npid hnone
        have hnpid : npid ≠ first.npid := (hnone first List.mem_cons_self (by simpa using hbad)).symm
        rw [hkept npid fun answer hanswer => hnone answer (List.mem_cons_of_mem _ hanswer),hstored]
        exact if_neg hnpid

section Capture
variable {feed : Feed} {bad : SaveAnswer → Bool} {now : SaveAnswer → ℤ} {db : CaptureStore} {answer : SaveAnswer}

def read (feed : Feed) (db : CaptureStore) : List SaveAnswer :=
  CatchUp.window reader SaveAnswer.dataId feed.saves (mark db)

theorem readChanged_eq (feed : Feed) (db : CaptureStore) :
    feed.readChanged (max (latestDataId db - captureOverlap) 0) captureLimit = read feed db := by
  rw [← behind_mark]
  rfl

theorem eq_of_npid {other : SaveAnswer} (hanswer : answer ∈ feed.saves) (hother : other ∈ feed.saves)
    (h : other.npid = answer.npid) : other = answer := List.inj_on_of_nodup_map feed.players hother hanswer h

/-- A capture compares the good saves it reads. -/
theorem stored_capture (bad : SaveAnswer → Bool) (now : SaveAnswer → ℤ) (feed : Feed) (hdb : Readable db) :
    Readable (capture bad now feed db) ∧
    (∀ answer ∈ read feed db, bad answer = false →
      stored (capture bad now feed db) answer.npid =
        some (max ((stored db answer.npid).getD answer.dataId) answer.dataId)) ∧
    ∀ npid, (∀ answer ∈ read feed db, bad answer = false → answer.npid ≠ npid) →
      stored (capture bad now feed db) npid = stored db npid := by
  have hsub : ((read feed db).map SaveAnswer.npid).Sublist (feed.saves.map SaveAnswer.npid) :=
    ((List.take_sublist _ _).trans List.filter_sublist).map _
  unfold capture
  rw [readChanged_eq]
  exact stored_foldl hdb (feed.players.sublist hsub)

theorem read_sub (h : answer ∈ read feed db) : answer ∈ feed.saves := CatchUp.mem_items_of_window h

/-- The state of a player whose latest save is not compared stays. -/
theorem stored_capture_of_not (hdb : Readable db) (hanswer : answer ∈ feed.saves)
    (hnot : ¬ (answer ∈ read feed db ∧ bad answer = false)) :
    stored (capture bad now feed db) answer.npid = stored db answer.npid := by
  apply (stored_capture bad now feed hdb).2.2
  intro other hother hgood hnpid
  have hsame := eq_of_npid hanswer (read_sub hother) hnpid
  exact hnot ⟨hsame ▸ hother,hsame ▸ hgood⟩

theorem covered_capture_iff (hdb : Readable db) (hanswer : answer ∈ feed.saves) :
    Covered answer (capture bad now feed db) ↔ Covered answer db ∨ (answer ∈ read feed db ∧ bad answer = false) := by
  by_cases hread : answer ∈ read feed db ∧ bad answer = false
  · have hstored := (stored_capture bad now feed hdb).2.1 answer hread.1 hread.2
    exact iff_of_true ⟨_,hstored,le_max_right _ _⟩ (.inr hread)
  · unfold Covered
    rw [stored_capture_of_not hdb hanswer hread,or_iff_left hread]

theorem ahead_capture_iff (hdb : Readable db) (hanswer : answer ∈ feed.saves) :
    Ahead answer (capture bad now feed db) ↔ Ahead answer db := by
  unfold Ahead
  by_cases hread : answer ∈ read feed db ∧ bad answer = false
  · rw [(stored_capture bad now feed hdb).2.1 answer hread.1 hread.2]
    cases stored db answer.npid with
    | none => simp
    | some id => simp
  · rw [stored_capture_of_not hdb hanswer hread]

theorem mark_capture (hdb : Readable db) : mark (capture bad now feed db) =
    CatchUp.last SaveAnswer.dataId (mark db) ((read feed db).filter fun answer => !bad answer) := by
  apply eq_of_forall_ge_iff
  intro m
  obtain ⟨_,hone,hkept⟩ := stored_capture bad now feed hdb
  rw [CatchUp.last_le_iff,mark_le_iff,mark_le_iff]
  constructor
  · rintro ⟨hpos,hall⟩
    refine ⟨⟨hpos,fun npid id hid => ?_⟩,fun answer hanswer => ?_⟩
    · by_cases hread : ∃ answer ∈ read feed db, bad answer = false ∧ answer.npid = npid
      · obtain ⟨answer,hanswer,hgood,rfl⟩ := hread
        have hle := hall _ _ (hone answer hanswer hgood)
        rw [hid,Option.getD_some] at hle
        exact (le_max_left _ _).trans hle
      · refine hall npid id ((hkept npid fun answer hanswer hgood hnpid => ?_).trans hid)
        exact hread ⟨answer,hanswer,hgood,hnpid⟩
    · obtain ⟨hread,hgood⟩ := List.mem_filter.mp hanswer
      have hle := hall _ _ (hone answer hread (by simpa using hgood))
      exact (le_max_right _ _).trans hle
  · rintro ⟨⟨hpos,hall⟩,hread⟩
    refine ⟨hpos,fun npid id hid => ?_⟩
    by_cases hnpid : ∃ answer ∈ read feed db, bad answer = false ∧ answer.npid = npid
    · obtain ⟨answer,hanswer,hgood,rfl⟩ := hnpid
      have hle := hread answer (List.mem_filter.mpr ⟨hanswer,by simpa using hgood⟩)
      rw [hone answer hanswer hgood] at hid
      cases hid
      refine max_le ?_ hle
      cases hbefore : stored db answer.npid with
      | none => exact hle
      | some id => exact hall _ _ hbefore
    · refine hall npid id ((hkept npid fun answer hanswer hgood hsame => ?_).symm.trans hid)
      exact hnpid ⟨answer,hanswer,hgood,hsame⟩

/-- The refinement: a capture is one read. -/
theorem progress_capture (hdb : Readable db) : progress feed (capture bad now feed db) =
    CatchUp.step reader SaveAnswer.dataId feed.saves (fun answer => !bad answer) (progress feed db) := by
  have hdone : {answer | answer ∈ feed.saves ∧ Covered answer (capture bad now feed db)} =
      {answer | answer ∈ feed.saves ∧ Covered answer db} ∪
        {answer | answer ∈ read feed db ∧ (!bad answer) = true} := by
    ext answer
    constructor
    · rintro ⟨hanswer,hcovered⟩
      rcases (covered_capture_iff hdb hanswer).mp hcovered with hold | ⟨hread,hgood⟩
      · exact .inl ⟨hanswer,hold⟩
      · exact .inr ⟨hread,by simpa using hgood⟩
    · rintro (⟨hanswer,hcovered⟩ | ⟨hread,hgood⟩)
      · exact ⟨hanswer,(covered_capture_iff hdb hanswer).mpr (.inl hcovered)⟩
      · exact ⟨read_sub hread,(covered_capture_iff hdb (read_sub hread)).mpr (.inr ⟨hread,by simpa using hgood⟩)⟩
  unfold progress CatchUp.step
  rw [hdone,mark_capture hdb]
  rfl

/-- A read holds more saves than it reads again. -/
theorem feed_ordered (feed : Feed) : CatchUp.Ordered reader SaveAnswer.dataId feed.saves where
  ascending := feed.ascending
  overlap m := by
    have hascending := feed.ascending.sublist
      (List.filter_sublist (p := fun answer => behind m < answer.dataId ∧ answer.dataId ≤ m))
    have hids : ((feed.saves.filter fun answer => behind m < answer.dataId ∧ answer.dataId ≤ m).map
        SaveAnswer.dataId).Nodup := by
      apply List.Pairwise.map _ _ hascending
      intro a b hlt
      exact hlt.ne
    have hsub : ((feed.saves.filter fun answer => behind m < answer.dataId ∧ answer.dataId ≤ m).map
        SaveAnswer.dataId).toFinset ⊆ Finset.Ioc (behind m) m := by
      intro id hid
      obtain ⟨answer,hanswer,rfl⟩ := List.mem_map.mp (List.mem_toFinset.mp hid)
      have hin : behind m < answer.dataId ∧ answer.dataId ≤ m := by simpa using (List.mem_filter.mp hanswer).2
      exact Finset.mem_Ioc.mpr hin
    have hcard := Finset.card_le_card hsub
    rw [List.toFinset_card_of_nodup hids,List.length_map,Int.card_Ioc] at hcard
    have hfew : (m - behind m).toNat ≤ captureLimit := by
      simp only [behind,captureOverlap,captureLimit]
      omega
    exact hcard.trans hfew

theorem progress_behind (feed : Feed) (db : CaptureStore) : CatchUp.Behind SaveAnswer.dataId (progress feed db) := by
  rintro answer ⟨_,id,hstored,hle⟩
  exact hle.trans ((mark_le_iff.mp le_rfl).2 _ _ hstored)

theorem captures_spec (bad : SaveAnswer → Bool) (now : ℕ → SaveAnswer → ℤ) (feed : Feed) (hdb : Readable db)
    (n : ℕ) : Readable (captures bad now feed db n) ∧
    progress feed (captures bad now feed db n) =
      (CatchUp.step reader SaveAnswer.dataId feed.saves fun answer => !bad answer)^[n] (progress feed db) ∧
    ∀ answer ∈ feed.saves, Ahead answer (captures bad now feed db n) ↔ Ahead answer db := by
  induction n with
  | zero => exact ⟨hdb,rfl,fun _ _ => Iff.rfl⟩
  | succ n ih =>
    obtain ⟨hreadable,hprogress,hahead⟩ := ih
    rw [Function.iterate_succ_apply',← hprogress]
    refine ⟨(stored_capture bad (now n) feed hreadable).1,progress_capture hreadable,fun answer hanswer => ?_⟩
    exact (ahead_capture_iff hreadable hanswer).trans (hahead answer hanswer)

end Capture

/-- No good save is older than its player's state, and the captures to come get to each. -/
def InReach (bad : SaveAnswer → Bool) (feed : Feed) (db : CaptureStore) : Prop :=
  (∀ answer ∈ feed.saves, bad answer = false → ¬ Ahead answer db) ∧
    CatchUp.Clear reader SaveAnswer.dataId feed.saves (fun answer => !bad answer) (progress feed db)

theorem compared_all_iff {feed : Feed} {db : CaptureStore} (hdb : Readable db) (bad : SaveAnswer → Bool)
    (now : ℕ → SaveAnswer → ℤ) :
    (∃ n, ∀ answer ∈ feed.saves, bad answer = false → Compared answer (captures bad now feed db n)) ↔
      InReach bad feed db := by
  have hall := CatchUp.all_done_iff (feed_ordered feed) (fun answer => !bad answer) (progress_behind feed db)
  unfold InReach
  rw [← hall]
  constructor
  · rintro ⟨n,hcompared⟩
    obtain ⟨_,hprogress,hahead⟩ := captures_spec bad now feed hdb n
    constructor
    · intro answer hanswer hgood
      have hsplit := compared_iff.mp (hcompared answer hanswer hgood)
      exact fun h => hsplit.2 ((hahead answer hanswer).mpr h)
    · refine ⟨n,fun answer hanswer hgood => ?_⟩
      have hsplit := compared_iff.mp (hcompared answer hanswer (by simpa using hgood))
      rw [← hprogress]
      exact ⟨hanswer,hsplit.1⟩
  · rintro ⟨hnot,n,hdone⟩
    obtain ⟨_,hprogress,hahead⟩ := captures_spec bad now feed hdb n
    refine ⟨n,fun answer hanswer hgood => compared_iff.mpr ⟨?_,fun h => ?_⟩⟩
    · have hmem := hdone answer hanswer (by simpa using hgood)
      rw [← hprogress] at hmem
      exact hmem.2
    · exact hnot answer hanswer hgood ((hahead answer hanswer).mp h)

/-- Bad saves that fill a whole read hold up every save behind them. -/
theorem not_compared_of_stuck {feed : Feed} {db : CaptureStore} {bad : SaveAnswer → Bool} (hdb : Readable db)
    (hstuck : ∀ answer ∈ read feed db, bad answer = true) {answer : SaveAnswer} (hanswer : answer ∈ feed.saves)
    (hopen : ¬ Covered answer db) (now : ℕ → SaveAnswer → ℤ) (n : ℕ) :
    ¬ Compared answer (captures bad now feed db n) := by
  have hsame : CatchUp.step reader SaveAnswer.dataId feed.saves (fun answer => !bad answer) (progress feed db) =
      progress feed db := by
    apply CatchUp.step_of_stuck
    intro other hother
    rw [hstuck other hother]
    rfl
  have hprogress := (captures_spec bad now feed hdb n).2.1
  rw [Function.iterate_fixed hsame] at hprogress
  intro hcompared
  have hdone : answer ∈ (progress feed db).done := by
    rw [← hprogress]
    exact ⟨hanswer,(compared_iff.mp hcompared).1⟩
  exact hopen hdone.2

theorem Captured.readable {feed : Feed} {db : CaptureStore} (h : Captured feed db) : Readable db := by
  induction h with
  | init _ hdb => exact hdb
  | change _ _ ih => exact ih
  | capture _ _ _ ih => exact (stored_capture _ _ _ ih).1

/-- Once only the bad saves fail, the latest saves are all compared some time exactly when they are in reach. -/
theorem capture_misses_none {feed : Feed} {db : CaptureStore} (h : Captured feed db) (bad : SaveAnswer → Bool)
    (now : ℕ → SaveAnswer → ℤ) :
    (∃ n, ∀ answer ∈ feed.saves, bad answer = false → Compared answer (captures bad now feed db n)) ↔
      InReach bad feed db := compared_all_iff h.readable bad now

/-! One capture of two new players' saves, the first of which fails: it is read again when it is close to the other. -/

def firstSave (npid : String) (dataId : ℤ) : SaveAnswer := ⟨npid,dataId,dataId * second,0,0,[],[]⟩

def Feed.ofTwo (id id' : ℤ) (h : id < id') : Feed where
  saves := [firstSave "alice" id,firstSave "bob" id']
  ascending := by simpa [firstSave] using h
  players := by simp [firstSave]

def aliceFails (answer : SaveAnswer) : Bool := answer.npid = "alice"

def afterFailure (feed : Feed) : CaptureStore := capture aliceFails SaveAnswer.savedUtc feed .empty

theorem captured_afterFailure (feed : Feed) : Captured feed (afterFailure feed) := by
  have hempty : Readable .empty := by
    intro npid row hrow
    cases hrow
  exact .capture aliceFails SaveAnswer.savedUtc (.init feed hempty)

theorem capture_misses_none_close : ∃ n, ∀ answer ∈ (Feed.ofTwo 10 20 (by decide)).saves, false = false →
    Compared answer (captures (fun _ => false) (fun _ => SaveAnswer.savedUtc) (.ofTwo 10 20 (by decide))
      (afterFailure (.ofTwo 10 20 (by decide))) n) := by
  have hcaptured := captured_afterFailure (.ofTwo 10 20 (by decide))
  have hmark : mark (afterFailure (.ofTwo 10 20 (by decide))) = 20 := by decide
  have halice : stored (afterFailure (.ofTwo 10 20 (by decide))) "alice" = none := by decide
  have hbob : stored (afterFailure (.ofTwo 10 20 (by decide))) "bob" = some 20 := by decide
  have hnotAhead (answer : SaveAnswer) (hanswer : answer ∈ [firstSave "alice" 10,firstSave "bob" 20]) :
      ¬ Ahead answer (afterFailure (.ofTwo 10 20 (by decide))) := by
    rintro ⟨id,hid,hlt⟩
    simp only [List.mem_cons,List.not_mem_nil,or_false] at hanswer
    rcases hanswer with rfl | rfl
    · cases halice.symm.trans hid
    · cases hbob.symm.trans hid
      exact absurd hlt (by decide)
  have hnear : ∀ answer ∈ [firstSave "alice" 10,firstSave "bob" 20],
      behind 20 < answer.dataId ∧ answer.dataId ≤ 20 := by
    decide
  refine (capture_misses_none hcaptured (fun _ => false) fun _ => SaveAnswer.savedUtc).mpr ⟨?_,?_⟩
  · exact fun answer hanswer _ => hnotAhead answer hanswer
  · intro answer hanswer _
    obtain ⟨hback,hle⟩ := hnear answer hanswer
    rw [← hmark] at hback hle
    exact ⟨fun _ => .inr hback,fun hnew => absurd hnew (not_lt.mpr hle)⟩

/-- The save of a player whose comparison failed once lies too far behind the other's. -/
theorem capture_misses_one : ¬ ∀ feed db, Captured feed db → ∀ (bad : SaveAnswer → Bool) (now : ℕ → SaveAnswer → ℤ),
    ∃ n, ∀ answer ∈ feed.saves, bad answer = false → Compared answer (captures bad now feed db n) := by
  intro h
  have hcaptured := captured_afterFailure (.ofTwo 1 20 (by decide))
  have hall := h _ _ hcaptured (fun _ => false) fun _ => SaveAnswer.savedUtc
  obtain ⟨_,hclear⟩ := (compared_all_iff hcaptured.readable _ _).mp hall
  have hmark : mark (afterFailure (.ofTwo 1 20 (by decide))) = 20 := by decide
  have hstored : stored (afterFailure (.ofTwo 1 20 (by decide))) "alice" = none := by decide
  have hreached := (hclear (firstSave "alice" 1) List.mem_cons_self rfl).old
  rcases hreached (by show (1 : ℤ) ≤ mark _; rw [hmark]; decide) with ⟨_,id,hid,_⟩ | hback
  · exact Option.some_ne_none id (hid.symm.trans hstored)
  · revert hback
    show ¬ behind (mark _) < 1
    rw [hmark]
    decide

end Tag2now.Records
