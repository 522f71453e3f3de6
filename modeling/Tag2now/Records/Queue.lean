import Tag2now.Records.Service
import Tag2now.Transactions.Alone

/-! # The queue handles every event exactly once

The discipline the consumers keep while they hold their locks, what each of their
transactions does to the committed tables at its commit, and the invariant that ties
the status of an event to the match rows: an event is done exactly when one side of
one match is its own. The attempts are tied to the log, where every committed failure
is an answer.
-/
namespace Tag2now.Records
open History ReadCommitted

def reportedSide (event : MatchEvent) (room : Option RankRoom) : Side := sideOf room event.npid
def reportedWinner (event : MatchEvent) (room : Option RankRoom) : Side :=
  winner (reportedSide event room) event.outcome

def Seen (db : Store) (m : MatchRow) (side : Side) (event : ℕ) : Prop :=
  m ∈ db.matchRows.rows ∧ m.eventId side = some event

structure Consistent (db : Store) : Prop where
  done_of_seen : ∀ {m side event}, Seen db m side event →
    ∃ row, db.events.get? event = some row ∧ row.status = .done
  once : ∀ {m n side side' event}, Seen db m side event → Seen db n side' event → m = n ∧ side = side'
  seen_of_done : ∀ {row}, row ∈ db.events.rows → row.status = .done → ∃ m side, Seen db m side row.id

/-- What the holder of these locks can count on. -/
structure Rely (L : Set Lock) (s t : Store) : Prop where
  event : ∀ {id row}, Lock.event id ∈ L → s.events.get? id = some row → t.events.get? id = some row
  room : ∀ {rid row}, Lock.room rid ∈ L → row.roomSnapshotId = some rid →
    (row ∈ t.matchRows.rows ↔ row ∈ s.matchRows.rows)
  matchRow : ∀ {id}, Lock.matchRow id ∈ L → t.matchRows.get? id = s.matchRows.get? id

/-- What resolving the event did: a row of its own, or its side of an open row. -/
inductive Attached (event : MatchEvent) (room : Option RankRoom) (L : Set Lock) (s t : Store) : Prop
  | added (id : ℕ) : s.matchRows.get? id = none → Lock.matchRow id ∈ L →
      (∀ r, room = some r → Lock.room r.roomSnapshotId ∈ L ∧
        Unfillable s event r (reportedSide event room) (reportedWinner event room)) →
      t = insertMatch (newMatch id event room (reportedSide event room) (reportedWinner event room)) s →
      Attached event room L s t
  | filled (r : RankRoom) (row : MatchRow) : room = some r → Lock.room r.roomSnapshotId ∈ L →
      Lock.matchRow row.id ∈ L →
      Nearest s event r (reportedSide event room) (reportedWinner event room) row →
      t = setMatch row.id (reportedSide event room) event.id s → Attached event room L s t

variable (resolves : MatchEvent → Option RankRoom → Prop)

/-- The transaction's effect, seen from the database it committed on. -/
inductive Commit (L : Set Lock) (s : Store) : Processed → Store → Prop
  | idle : Commit L s .idle s
  | finished {row : MatchEventRow} {room : Option RankRoom} {t : Store} :
      s.events.get? row.id = some row → row.status = .pending → Lock.event row.id ∈ L →
      resolves (toEvent row) room → Attached (toEvent row) room L s t →
      Commit L s (.finished row.id) (setEvent row.id finished finished_id t)
  | failed {row : MatchEventRow} (error : String) (now : ℤ) :
      s.events.get? row.id = some row → row.status = .pending → Lock.event row.id ∈ L →
      Commit L s (.failed row.id)
        (setEvent row.id (failed (toEvent row) error now) (failed_id _ error now) s)

/-! ## What an attachment adds -/

section Attach
variable {event : MatchEvent} {room : Option RankRoom} {L : Set Lock} {s t : Store}

@[simp] theorem setEvent_matchRows (id f hf) (db : Store) :
    (setEvent id f hf db).matchRows = db.matchRows := rfl
@[simp] theorem insertMatch_events (row) (db : Store) : (insertMatch row db).events = db.events := rfl
@[simp] theorem setMatch_events (id side event) (db : Store) :
    (setMatch id side event db).events = db.events := rfl
attribute [simp] setEventId_id
@[simp] theorem setEventId_room (m : MatchRow) (side event) :
    (m.setEventId side event).roomSnapshotId = m.roomSnapshotId := by cases side <;> rfl
@[simp] theorem setEventId_winner (m : MatchRow) (side event) :
    (m.setEventId side event).winner = m.winner := by cases side <;> rfl
@[simp] theorem setEventId_playedAt (m : MatchRow) (side event) :
    (m.setEventId side event).playedAt = m.playedAt := by cases side <;> rfl

theorem setEvent_get? (id : ℕ) (f hf) (db : Store) (k : ℕ) : (setEvent id f hf db).events.get? k =
    if k = id then (db.events.get? k).map f else db.events.get? k := Table.get?_modify _ _ _ hf

theorem mem_setEvent {id : ℕ} {f hf} {db : Store} {row : MatchEventRow} :
    row ∈ (setEvent id f hf db).events.rows ↔
      ∃ old ∈ db.events.rows, (if old.id = id then f old else old) = row := @Table.mem_modify _ _ _ _ _ _ f hf _

theorem eventId_setEventId (m : MatchRow) (side side' : Side) (event : ℕ) :
    (m.setEventId side event).eventId side' = if side' = side then some event else m.eventId side' := by
  cases side <;> cases side' <;> rfl

theorem eventId_newMatch (id : ℕ) (event : MatchEvent) (room : Option RankRoom) (side winner side') :
    (newMatch id event room side winner).eventId side' = if side' = side then some event.id else none := by
  cases side <;> cases side' <;> rfl

theorem mem_setMatch {id : ℕ} {side : Side} {event : ℕ} {m : MatchRow} :
    m ∈ (setMatch id side event s).matchRows.rows ↔
      ∃ n ∈ s.matchRows.rows, (if n.id = id then n.setEventId side event else n) = m :=
  @Table.mem_modify _ _ _ _ _ _ _ (setEventId_id side event) _

theorem mem_insertMatch {row m : MatchRow} (h : s.matchRows.get? row.id = none) :
    m ∈ (insertMatch row s).matchRows.rows ↔ m ∈ s.matchRows.rows ∨ m = row :=
  Table.mem_insert h

theorem Attached.events (h : Attached event room L s t) : t.events = s.events := by
  cases h with
  | added id _ _ _ ht => rw [ht,insertMatch_events]
  | filled r row _ _ _ _ ht => rw [ht,setMatch_events]

theorem Attached.keeps (h : Attached event room L s t) {m : MatchRow} {side : Side} {id : ℕ}
    (hm : Seen s m side id) : ∃ n, Seen t n side id ∧ n.id = m.id := by
  cases h with
  | added new hnew _ _ ht =>
    subst ht
    exact ⟨m,⟨(mem_insertMatch hnew).mpr (.inl hm.1),hm.2⟩,rfl⟩
  | filled r row _ _ _ hrow ht =>
    subst ht
    refine ⟨_,⟨mem_setMatch.mpr ⟨m,hm.1,rfl⟩,?_⟩,by split <;> simp⟩
    split
    · rename_i hid
      have hmr := Table.eq_of_key hm.1 hrow.1.1 hid
      subst hmr
      rw [eventId_setEventId,if_neg ?_]
      · exact hm.2
      · intro hside
        have hopen := hrow.1.2.2.2.1
        rw [← hside,hm.2] at hopen
        cases hopen
    · exact hm.2

/-- What is seen afterwards is the event on its side, or was seen before. -/
theorem Attached.seen (h : Attached event room L s t) {m : MatchRow} {side : Side} {id : ℕ}
    (hm : Seen t m side id) :
    (id = event.id ∧ side = reportedSide event room) ∨ ∃ n, Seen s n side id ∧ n.id = m.id := by
  obtain ⟨hmem,hid⟩ := hm
  cases h with
  | added new hnew _ _ ht =>
    subst ht
    rcases (mem_insertMatch hnew).mp hmem with hold | rfl
    · exact .inr ⟨m,⟨hold,hid⟩,rfl⟩
    · rw [eventId_newMatch] at hid
      split at hid
      · cases hid
        exact .inl ⟨rfl,by assumption⟩
      · cases hid
  | filled r row _ _ _ hrow ht =>
    subst ht
    obtain ⟨n,hn,rfl⟩ := mem_setMatch.mp hmem
    split at hid
    · rw [eventId_setEventId] at hid
      split at hid
      · cases hid
        exact .inl ⟨rfl,by assumption⟩
      · exact .inr ⟨n,⟨hn,hid⟩,by split <;> simp⟩
    · exact .inr ⟨n,⟨hn,hid⟩,by split <;> simp⟩

/-- The one row that took the event. -/
theorem Attached.target (h : Attached event room L s t) (hnew : ∀ m side, ¬ Seen s m side event.id) :
    ∃ m, Seen t m (reportedSide event room) event.id ∧ ∀ n side, Seen t n side event.id → n = m := by
  cases h with
  | added new hfresh _ _ ht =>
    subst ht
    refine ⟨_,⟨(mem_insertMatch hfresh).mpr (.inr rfl),by rw [eventId_newMatch,if_pos rfl]⟩,?_⟩
    intro n side hn
    rcases (mem_insertMatch hfresh).mp hn.1 with hold | h
    · exact absurd ⟨hold,hn.2⟩ (hnew n side)
    · exact h
  | filled r row _ _ _ hrow ht =>
    subst ht
    refine ⟨row.setEventId _ _,⟨mem_setMatch.mpr ⟨row,hrow.1.1,if_pos rfl⟩,?_⟩,?_⟩
    · rw [eventId_setEventId,if_pos rfl]
    · intro n side hn
      obtain ⟨n',hn',rfl⟩ := mem_setMatch.mp hn.1
      by_cases hid : n'.id = row.id
      · rw [if_pos hid,Table.eq_of_key hn' hrow.1.1 hid]
      · rw [if_neg hid] at hn
        exact absurd ⟨hn',hn.2⟩ (hnew n' side)

end Attach

/-! ## The invariant -/

theorem Consistent.rewrite {db : Store} (h : Consistent db) {id : ℕ}
    {f : MatchEventRow → MatchEventRow} {hf}
    (hdone : ∀ row, db.events.get? id = some row → ((f row).status = .done ↔ row.status = .done)) :
    Consistent (setEvent id f hf db) := by
  constructor
  · intro m side event hm
    obtain ⟨row,hrow,hst⟩ := h.done_of_seen hm
    by_cases hid : event = id
    · subst hid
      exact ⟨f row,by rw [setEvent_get?,if_pos rfl,hrow]; rfl,(hdone row hrow).mpr hst⟩
    · exact ⟨row,by rw [setEvent_get?,if_neg hid,hrow],hst⟩
  · exact fun hm hn => h.once hm hn
  · intro row hrow hst
    obtain ⟨old,hold,rfl⟩ := mem_setEvent.mp hrow
    by_cases hid : old.id = id
    · subst hid
      rw [if_pos rfl] at hst ⊢
      rw [hf]
      exact h.seen_of_done hold ((hdone old (Table.get?_of_mem hold)).mp hst)
    · rw [if_neg hid] at hst ⊢
      exact h.seen_of_done hold hst

/-- Attaching a pending event and finishing it keeps the books. -/
theorem Consistent.finish {event : MatchEvent} {room : Option RankRoom} {L : Set Lock} {s t : Store}
    (h : Consistent s) (ha : Attached event room L s t) {row : MatchEventRow}
    (hrow : s.events.get? event.id = some row) (hpending : row.status = .pending) :
    Consistent (setEvent event.id finished finished_id t) := by
  have hnew : ∀ m side, ¬ Seen s m side event.id := by
    intro m side hm
    obtain ⟨row',hrow',hst⟩ := h.done_of_seen hm
    rw [hrow] at hrow'
    cases hrow'
    rw [hpending] at hst
    cases hst
  have hget (k : ℕ) : (setEvent event.id finished finished_id t).events.get? k =
      if k = event.id then (s.events.get? k).map finished else s.events.get? k := by
    rw [← ha.events,setEvent_get?]
  obtain ⟨target,htarget,huniq⟩ := ha.target hnew
  constructor
  · intro m side id hm
    by_cases hid : id = event.id
    · subst hid
      exact ⟨finished row,by rw [hget,if_pos rfl,hrow]; rfl,rfl⟩
    · rcases ha.seen hm with ⟨hid',_⟩ | ⟨n,hn,_⟩
      · exact absurd hid' hid
      · obtain ⟨old,hold,hst⟩ := h.done_of_seen hn
        exact ⟨old,by rw [hget,if_neg hid,hold],hst⟩
  · intro m n side side' id hm hn
    rcases ha.seen hm with ⟨rfl,hside⟩ | ⟨m',hm',hmid⟩
    · rcases ha.seen hn with ⟨_,hside'⟩ | ⟨n',hn',_⟩
      · exact ⟨(huniq m _ hm).trans (huniq n _ hn).symm,hside.trans hside'.symm⟩
      · exact absurd hn' (hnew n' _)
    · rcases ha.seen hn with ⟨rfl,_⟩ | ⟨n',hn',hnid⟩
      · exact absurd hm' (hnew m' _)
      · obtain ⟨rfl,hside⟩ := h.once hm' hn'
        exact ⟨Table.eq_of_key hm.1 hn.1 (hmid.symm.trans hnid),hside⟩
  · intro row' hrow' hst
    obtain ⟨old,hold,rfl⟩ := mem_setEvent.mp hrow'
    rw [ha.events] at hold
    by_cases hid : old.id = event.id
    · rw [if_pos hid]
      exact ⟨target,_,by rw [show (finished old).id = event.id from hid]; exact htarget⟩
    · rw [if_neg hid] at hst ⊢
      obtain ⟨m,side,hm⟩ := h.seen_of_done hold hst
      obtain ⟨n,hn,_⟩ := ha.keeps hm
      exact ⟨n,side,hn⟩

theorem Commit.consistent {resolves} {L : Set Lock} {s t : Store} {p : Processed}
    (h : Commit resolves L s p t) (hs : Consistent s) : Consistent t := by
  cases h with
  | idle => exact hs
  | finished hrow hpending _ _ ha => exact hs.finish ha hrow hpending
  | @failed row error now hrow hpending _ =>
    refine hs.rewrite fun row' hrow' => ?_
    rw [hrow] at hrow'
    cases hrow'
    simp only [hpending,Records.failed,reduceCtorEq,iff_false]
    split <;> decide

/-! ## The discipline -/

section Frame
variable {event : MatchEvent} {room : Option RankRoom} {L : Set Lock} {s t : Store}

/-- The matches of a room the event did not resolve to stay as they are. -/
theorem Attached.other_room (h : Attached event room L s t) {rid : ℕ} {m : MatchRow}
    (hother : ∀ r, room = some r → r.roomSnapshotId ≠ rid) (hm : m.roomSnapshotId = some rid) :
    m ∈ t.matchRows.rows ↔ m ∈ s.matchRows.rows := by
  cases h with
  | added new hnew _ hroom ht =>
    subst ht
    rw [mem_insertMatch hnew,or_iff_left]
    rintro rfl
    cases room with
    | none => cases hm
    | some r =>
      cases hm
      exact hother r rfl rfl
  | filled r row hr _ _ hrow ht =>
    subst ht
    rw [mem_setMatch]
    constructor
    · rintro ⟨n,hn,rfl⟩
      split at hm
      · rename_i hid
        rw [Table.eq_of_key hn hrow.1.1 hid,setEventId_room,hrow.1.2.1] at hm
        cases hm
        exact absurd rfl (hother r hr)
      · rw [if_neg (by assumption)]
        exact hn
    · intro hn
      refine ⟨m,hn,if_neg fun hid => ?_⟩
      rw [Table.eq_of_key hn hrow.1.1 hid,hrow.1.2.1] at hm
      cases hm
      exact hother r hr rfl

theorem Attached.room_locked (h : Attached event room L s t) {r : RankRoom} (hr : room = some r) :
    Lock.room r.roomSnapshotId ∈ L := by
  cases h with
  | added _ _ _ hroom _ => exact (hroom r hr).1
  | filled r' _ hr' hlock _ _ _ =>
    rw [hr] at hr'
    cases hr'
    exact hlock

theorem Attached.matchRow_frame (h : Attached event room L s t) {id : ℕ}
    (hfree : Lock.matchRow id ∉ L) : t.matchRows.get? id = s.matchRows.get? id := by
  cases h with
  | added new hnew hlock _ ht =>
    subst ht
    refine (Table.get?_insert hnew id).trans (if_neg ?_)
    rintro rfl
    exact hfree hlock
  | filled r row _ _ hlock _ ht =>
    subst ht
    refine (Table.get?_modify _ _ _ (setEventId_id _ _)).trans (if_neg ?_)
    rintro rfl
    exact hfree hlock

theorem Rely.unfillable (h : Rely L s t) {r : RankRoom} (hlock : Lock.room r.roomSnapshotId ∈ L)
    {side winner : Side} (hs : Unfillable s event r side winner) :
    Unfillable t event r side winner := by
  intro row hrow hfill
  exact hs row ((h.room hlock hfill.1).mp hrow) hfill

theorem Rely.nearest (h : Rely L s t) {r : RankRoom} (hlock : Lock.room r.roomSnapshotId ∈ L)
    {side winner : Side} {row : MatchRow} (hs : Nearest s event r side winner row) :
    Nearest t event r side winner row :=
  ⟨⟨(h.room hlock hs.1.2.1).mpr hs.1.1,hs.1.2⟩,fun other hother hfill =>
    hs.2 other ((h.room hlock hfill.1).mp hother) hfill⟩

end Frame

theorem Commit.rely {resolves} {K L : Set Lock} {s t : Store} {p : Processed}
    (h : Commit resolves L s p t) (hdisj : Disjoint K L) : Rely K s t := by
  have hfree {l : Lock} (hk : l ∈ K) : l ∉ L := Set.disjoint_left.mp hdisj hk
  cases h with
  | idle => exact ⟨fun _ h => h,fun _ _ => Iff.rfl,fun _ => rfl⟩
  | @finished row room t _ _ hlock _ ha =>
    refine ⟨fun {id row'} hk hrow => ?_,fun hk hm => ha.other_room ?_ hm,
      fun hk => ha.matchRow_frame (hfree hk)⟩
    rotate_left
    · rintro r hr rfl
      exact hfree hk (ha.room_locked hr)
    rw [setEvent_get?,if_neg,ha.events,hrow]
    rintro rfl
    exact hfree hk hlock
  | @failed row error now _ _ hlock =>
    refine ⟨fun {id row'} hk hrow => ?_,fun _ _ => Iff.rfl,fun _ => rfl⟩
    rw [setEvent_get?,if_neg,hrow]
    rintro rfl
    exact hfree hk hlock

def discipline : Discipline Store Lock Unit String Processed where
  Inv := Consistent
  Rely := Rely
  Commit _ p L s t := Commit resolves L s p t
  Fail _ _ _ := False
  rely_refl _ _ := ⟨fun _ h => h,fun _ _ => Iff.rfl,fun _ => rfl⟩
  rely_trans h k := ⟨fun hl hrow => k.event hl (h.event hl hrow),
    fun hl hm => (k.room hl hm).trans (h.room hl hm),fun hl => (k.matchRow hl).trans (h.matchRow hl)⟩
  rely_mono hsub h := ⟨fun hl => h.event (hsub hl),fun hl => h.room (hsub hl),
    fun hl => h.matchRow (hsub hl)⟩
  inv_commit hi h := h.consistent hi
  rely_commit _ h hd := h.rely hd

theorem mem_of_oldestDue {db : Store} {now : ℤ} {skipped : ℕ → Bool} {row : MatchEventRow}
    (h : oldestDue db now skipped = some row) : row ∈ db.events.rows ∧ Due now row := by
  have hmem := List.argmin_mem h
  simp only [List.mem_filter,decide_eq_true_eq] at hmem
  exact ⟨hmem.1,hmem.2.1⟩

/-- The attached event is finished under the same locks, and the savepoint released. -/
theorem safe_finish {row : MatchEventRow} {room : Option RankRoom} {h : Held Store Lock} {s : Store}
    (hrow : s.events.get? row.id = some row) (hpending : row.status = .pending)
    (hlock : Lock.event row.id ∈ h.locks) (hroom : resolves (toEvent row) room)
    (hatt : ∀ s', Rely h.locks s s' → Attached (toEvent row) room h.locks s' (h.pending s')) :
    Safe (discipline resolves).toAgreement () (finishEvent row.id >>= fun _ =>
      .release (.ret (.finished row.id))) h s := by
  unfold finishEvent
  rw [safe_execute]
  intro s₁ hr₁ _ s₂ hr₂ _ _
  have hlocks : h.locks ∪ {Lock.event row.id} = h.locks := by simpa using hlock
  have hr : Rely h.locks s s₂ :=
    (discipline resolves).rely_trans hr₁ ((discipline resolves).rely_mono Set.subset_union_left hr₂)
  simp only [hlocks]
  exact .finished (hr.event hlock hrow) hpending hlock hroom (hatt s₂ hr)

/-- Once the event is held, the rest of the transaction keeps to the discipline:
its savepoint either attaches and finishes the event or records one failure. -/
theorem safe_attempt {row : MatchEventRow} {s : Store} (now : ℤ)
    (hrow : s.events.get? row.id = some row) (hpending : row.status = .pending) :
    Safe (discipline resolves).toAgreement () (attempt resolves (toEvent row) now)
      ⟨id,{.event row.id},fun _ => True⟩ s := by
  unfold attempt
  rw [safe_nested]
  constructor
  · intro error
    unfold failEvent
    rw [safe_execute]
    intro s₁ hr₁ _ s₂ hr₂ _ _
    have hrow₁ := hr₁.event rfl hrow
    have hrow₂ := hr₂.event (.inl rfl) hrow₁
    exact .failed error now hrow₂ hpending (.inl rfl)
  · unfold resolve rankRoom
    simp only [Prog.bind_assoc,safe_choose]
    intro s₁ hr₁ _ room hroom
    have hrow₁ := hr₁.event rfl hrow
    cases room with
    | none =>
      unfold addMatch
      simp only [safe_perform]
      rintro s₂ hr₂ _ o ⟨id,hid,rfl⟩
      have hrow₂ := hr₂.event rfl hrow₁
      refine safe_finish resolves hrow₂ hpending (.inl rfl) hroom fun s₃ hr₃ => ?_
      exact .added id ((hr₃.matchRow (.inr rfl)).trans hid) (.inr rfl) (by simp) rfl
    | some r =>
      unfold lockRoom fillSide selectFillable
      simp only [Prog.bind_assoc,safe_execute,safe_choose]
      intro s₂ hr₂ _ s₃ hr₃ _ answer hanswer
      have hrow₂ := hr₂.event rfl hrow₁
      have hrow₃ := hr₃.event (.inl rfl) hrow₂
      cases answer with
      | none =>
        unfold addMatch
        simp only [Prog.pure_bind]
        rintro s₄ hr₄ _ o ⟨id,hid,rfl⟩
        have hrow₄ := hr₄.event (.inl rfl) hrow₃
        have hopen := hr₄.unfillable (.inr rfl) hanswer
        refine safe_finish resolves hrow₄ hpending (.inl (.inl rfl)) hroom fun s₅ hr₅ => ?_
        refine .added id ((hr₅.matchRow (.inr rfl)).trans hid) (.inr rfl) ?_ rfl
        rintro _ ⟨⟩
        exact ⟨.inl (.inr rfl),hr₅.unfillable (.inl (.inr rfl)) hopen⟩
      | some id =>
        obtain ⟨m,hm,rfl⟩ := hanswer
        simp only [Prog.bind_assoc,safe_execute]
        intro s₄ hr₄ _
        have hrow₄ := hr₄.event (.inl rfl) hrow₃
        have hm₄ := hr₄.nearest (.inr rfl) hm
        refine safe_finish resolves hrow₄ hpending (.inl (.inl rfl)) hroom fun s₅ hr₅ => ?_
        exact .filled r m rfl (.inl (.inr rfl)) (.inr rfl) (hr₅.nearest (.inl (.inr rfl)) hm₄) rfl

theorem safe_processNext (s : Store) :
    Safe (discipline resolves).toAgreement () (processNext resolves) .empty s := by
  unfold processNext
  rw [safe_choose]
  intro s₁ _ _ now _
  unfold claimEvent
  rw [safe_perform]
  rintro s₂ _ _ o ⟨skipped,rfl⟩
  simp only [show (Held.empty : Held Store Lock).pending s₂ = s₂ from rfl]
  cases h : oldestDue s₂ now skipped with
  | none =>
    intro s₃ _ _ _
    exact .idle
  | some row =>
    obtain ⟨hmem,hdue⟩ := mem_of_oldestDue h
    have hsafe := safe_attempt resolves now (Table.get?_of_mem hmem) hdue.1
    simpa [Held.after,Held.empty] using hsafe

theorem addEvent_get? {row : MatchEventRow} {s : Store} (h : s.events.get? row.id = none) (id : ℕ) :
    (addEvent row s).events.get? id = if id = row.id then some row else s.events.get? id :=
  Table.get?_insert h id

theorem discipline_sound : (discipline resolves).Sound (queue resolves) (· = Store.empty) where
  init := by
    rintro _ rfl
    exact ⟨fun hm => absurd hm.1 (by simp [Store.empty,Table.empty]),
      fun hm => absurd hm.1 (by simp [Store.empty,Table.empty]),by simp [Store.empty,Table.empty]⟩
  env := by
    rintro s _ hs ⟨row,⟨hfresh,hpending,_,_⟩,rfl⟩
    have hkeep {id : ℕ} {old : MatchEventRow} (h : s.events.get? id = some old) :
        (addEvent row s).events.get? id = some old := by
      rw [addEvent_get? hfresh,if_neg,h]
      rintro rfl
      rw [hfresh] at h
      cases h
    refine ⟨⟨fun hm => ?_,hs.once,fun hrow hst => ?_⟩,fun L => ⟨fun _ h => hkeep h,fun _ _ => .rfl,fun _ => rfl⟩⟩
    · obtain ⟨old,hold,hst⟩ := hs.done_of_seen hm
      exact ⟨old,hkeep hold,hst⟩
    · rcases (Table.mem_insert hfresh).mp hrow with hrow | rfl
      · exact hs.seen_of_done hrow hst
      · rw [hpending] at hst
        cases hst
  body _ := safe_processNext resolves

/-! ## What an event shows -/

/-- What an event showed when it was queued stays as it was. -/
def Persists (s t : Store) : Prop := ∀ ⦃id row⦄, s.events.get? id = some row →
  ∃ new, t.events.get? id = some new ∧ new.npid = row.npid ∧ new.result = row.result ∧
    new.savedAt = row.savedAt

theorem persists_setEvent {s t : Store} (ht : t.events = s.events) {id : ℕ}
    {f : MatchEventRow → MatchEventRow} {hf} (h : ∀ row, (f row).npid = row.npid ∧
      (f row).result = row.result ∧ (f row).savedAt = row.savedAt) : Persists s (setEvent id f hf t) := by
  intro k row hrow
  rw [setEvent_get?,ht,hrow]
  split
  · exact ⟨f row,rfl,h row⟩
  · exact ⟨row,rfl,rfl,rfl,rfl⟩

theorem Commit.persists {resolves} {L : Set Lock} {s t : Store} {p : Processed} (h : Commit resolves L s p t) :
    Persists s t := by
  cases h with
  | idle => exact fun _ row hrow => ⟨row,hrow,rfl,rfl,rfl⟩
  | finished _ _ _ _ ha => exact persists_setEvent ha.events fun _ => ⟨rfl,rfl,rfl⟩
  | failed _ _ _ _ _ => exact persists_setEvent rfl fun _ => ⟨rfl,rfl,rfl⟩

theorem Queued.persists {s : Store} {row : MatchEventRow} (h : Queued s row) :
    Persists s (addEvent row s) := by
  intro id old hold
  rw [addEvent_get? h.1,if_neg]
  · exact ⟨old,hold,rfl,rfl,rfl⟩
  · rintro rfl
    rw [h.1] at hold
    cases hold

/-! ## Exactly once -/

abbrev Log := List (Unit × Except String Processed)

def isFailure (event : ℕ) : Unit × Except String Processed → Bool
  | (_,.ok p) => p = .failed event
  | (_,.error _) => false

/-- The attempts at the event that failed and committed their failure. -/
def failures (log : Log) (event : ℕ) : ℕ := log.countP (isFailure event)

structure RowAccounted (log : Log) (row : MatchEventRow) : Prop where
  attempts : row.attempts = failures log row.id
  bound : row.attempts ≤ maxAttempts
  dead : row.status = .dead ↔ row.attempts = maxAttempts

structure Accounted (db : Store) (log : Log) : Prop where
  fresh : ∀ {id}, db.events.get? id = none → failures log id = 0
  rows : ∀ {row}, row ∈ db.events.rows → RowAccounted log row

@[simp] theorem failures_idle (log : Log) (id : ℕ) : failures (((),.ok .idle) :: log) id = failures log id := by
  simp [failures,isFailure]
@[simp] theorem failures_finished (log : Log) (event id : ℕ) :
    failures (((),.ok (.finished event)) :: log) id = failures log id := by simp [failures,isFailure]
@[simp] theorem failures_failed (log : Log) (event id : ℕ) :
    failures (((),.ok (.failed event)) :: log) id = failures log id + if id = event then 1 else 0 := by
  simp [failures,isFailure,List.countP_cons,eq_comm]

theorem fresh_of_setEvent {db : Store} {id k : ℕ} {f hf} (h : (setEvent id f hf db).events.get? k = none) :
    db.events.get? k = none := by
  rw [setEvent_get?] at h
  split at h
  · simpa using h
  · exact h

/-- Finishing a pending row leaves its attempts, and it was not dead. -/
theorem Accounted.finish {db : Store} {log : Log} (hs : Accounted db log) {row : MatchEventRow}
    (hrow : db.events.get? row.id = some row) (hpending : row.status = .pending) :
    Accounted (setEvent row.id finished finished_id db) (((),.ok (.finished row.id)) :: log) := by
  refine ⟨fun h => ?_,fun h => ?_⟩
  · rw [failures_finished]
    exact hs.fresh (fresh_of_setEvent h)
  · obtain ⟨old,hold,rfl⟩ := mem_setEvent.mp h
    obtain ⟨hattempts,hbound,hdead⟩ := hs.rows hold
    split
    · rename_i hid
      have hor := Table.eq_of_key hold (Table.mem_of_get? hrow) hid
      subst hor
      refine ⟨by rw [failures_finished]; exact hattempts,hbound,?_⟩
      rw [hpending] at hdead
      simpa [finished] using hdead
    · exact ⟨by rw [failures_finished]; exact hattempts,hbound,hdead⟩

/-- A committed failure adds one to the attempts and to the count, and the last one buries the row. -/
theorem Accounted.fail {db : Store} {log : Log} (hs : Accounted db log) {row : MatchEventRow}
    {error : String} {now : ℤ} (hrow : db.events.get? row.id = some row)
    (hpending : row.status = .pending) :
    Accounted (setEvent row.id (failed (toEvent row) error now) (failed_id _ error now) db)
      (((),.ok (.failed row.id)) :: log) := by
  refine ⟨fun {id} h => ?_,fun h => ?_⟩
  · have hnone := fresh_of_setEvent h
    have hne : id ≠ row.id := by
      rintro rfl
      rw [hrow] at hnone
      cases hnone
    rw [failures_failed,if_neg hne,hs.fresh hnone]
  · obtain ⟨old,hold,rfl⟩ := mem_setEvent.mp h
    obtain ⟨hattempts,hbound,hdead⟩ := hs.rows hold
    split
    · rename_i hid
      have hor := Table.eq_of_key hold (Table.mem_of_get? hrow) hid
      subst hor
      have hlt : old.attempts < maxAttempts := by
        rw [hpending] at hdead
        have hne : old.attempts ≠ maxAttempts := fun h => by cases hdead.mpr h
        omega
      refine ⟨?_,hlt,?_⟩
      · rw [failed_id,failures_failed,if_pos rfl,← hattempts]
        rfl
      · change (if maxAttempts ≤ old.attempts + 1 then EventStatus.dead else .pending) = .dead ↔
          old.attempts + 1 = maxAttempts
        split
        · simp only [true_iff]
          omega
        · simp only [reduceCtorEq,false_iff]
          omega
    · rename_i hid
      exact ⟨by rw [failures_failed,if_neg hid,hattempts]; rfl,hbound,hdead⟩

theorem Accounted.commit {resolves} {L : Set Lock} {s t : Store} {p : Processed} {log : Log}
    (h : Commit resolves L s p t) (hs : Accounted s log) : Accounted t (((),.ok p) :: log) := by
  cases h with
  | idle =>
    refine ⟨fun h => (failures_idle log _).trans (hs.fresh h),fun h => ?_⟩
    obtain ⟨hattempts,hbound,hdead⟩ := hs.rows h
    exact ⟨hattempts.trans (failures_idle log _).symm,hbound,hdead⟩
  | finished hrow hpending _ _ ha =>
    rw [← ha.events] at hrow
    have ht : Accounted _ log := ⟨by rw [ha.events]; exact hs.fresh,by rw [ha.events]; exact hs.rows⟩
    exact ht.finish hrow hpending
  | failed error now hrow hpending _ => exact hs.fail hrow hpending

theorem Accounted.queue {s : Store} {log : Log} (hs : Accounted s log) {row : MatchEventRow}
    (h : Queued s row) : Accounted (addEvent row s) log := by
  obtain ⟨hfresh,hpending,hattempts,_⟩ := h
  refine ⟨fun h => ?_,fun h => ?_⟩
  · rw [addEvent_get? hfresh] at h
    split at h
    · cases h
    · exact hs.fresh h
  · rcases (Table.mem_insert hfresh).mp h with h | rfl
    · exact hs.rows h
    · refine ⟨hattempts.trans (hs.fresh hfresh).symm,by rw [hattempts]; exact Nat.zero_le _,?_⟩
      rw [hpending,hattempts]
      simp [maxAttempts]

theorem accounted {db : Store} {log : Log} (h : Atomic (queue resolves) (fun _ _ _ => True)
    (discipline resolves) (· = Store.empty) db log) : Accounted db log := by
  induction h with
  | init h =>
    subst h
    exact ⟨fun _ => rfl,fun h => by simp [Store.empty,Table.empty] at h⟩
  | env _ _ henv ih =>
    obtain ⟨row,hrow,rfl⟩ := henv
    exact ih.queue hrow
  | commit _ _ _ hc ih => exact ih.commit hc
  | raise _ _ hf _ => exact hf.elim

/-- The open transaction `t` holds the row lock its claim took. -/
def Holds (s : State Store Lock Unit String Processed) (t event : ℕ) : Prop :=
  ∃ c r, s.running t = some (c,r) ∧ Lock.event event ∈ r.held.locks

/-- The books of the queue at one state of a run. -/
structure ExactlyOnce (s : State Store Lock Unit String Processed) : Prop where
  done : ∀ row ∈ s.db.events.rows, row.status = .done → ∃! p : MatchRow × Side, Seen s.db p.1 p.2 row.id
  notDone : ∀ row ∈ s.db.events.rows, row.status ≠ .done → ∀ m side, ¬ Seen s.db m side row.id
  attempts : ∀ row ∈ s.db.events.rows,
    row.attempts = failures s.log row.id ∧ failures s.log row.id ≤ maxAttempts
  dead : ∀ row ∈ s.db.events.rows, row.status = .dead ↔ failures s.log row.id = maxAttempts
  held : ∀ t u event, Holds s t event → Holds s u event → t = u

theorem queue_exactlyOnce {s : State Store Lock Unit String Processed}
    (h : Reachable (queue resolves) (fun _ _ _ => True) (· = Store.empty) s) : ExactlyOnce s := by
  obtain ⟨hatom,hcons,_⟩ := h.refines (discipline_sound resolves)
  have hacc := accounted resolves hatom
  constructor
  · intro row hrow hst
    obtain ⟨m,side,hm⟩ := hcons.seen_of_done hrow hst
    refine ⟨(m,side),hm,fun p hp => ?_⟩
    obtain ⟨hrow,hside⟩ := hcons.once hp hm
    exact Prod.ext hrow hside
  · intro row hrow hst m side hm
    obtain ⟨row',hrow',hdone⟩ := hcons.done_of_seen hm
    rw [Table.get?_of_mem hrow] at hrow'
    cases hrow'
    exact hst hdone
  · intro row hrow
    obtain ⟨hattempts,hbound,_⟩ := hacc.rows hrow
    exact ⟨hattempts,hattempts ▸ hbound⟩
  · intro row hrow
    obtain ⟨hattempts,_,hdead⟩ := hacc.rows hrow
    rw [hdead,hattempts]
  · rintro t u event ⟨ct,rt,ht,hlt⟩ ⟨cu,ru,hu,hlu⟩
    exact h.holder_unique ht hu hlt hlu

/-! ## A run of two events -/

/-- Alice beat Bob in room 9, and each save shows it. -/
def aliceWon : MatchEventRow := ⟨1,"alice",11,.win,[],none,0,.pending,0,0,none⟩
def bobLost : MatchEventRow := ⟨2,"bob",12,.loss,[],none,4 * second,.pending,0,0,none⟩
def room9 : RankRoom := ⟨9,"alice","bob"⟩
def inRoom9 (event : MatchEvent) (room : Option RankRoom) : Prop :=
  room = if event.id = 1 ∨ event.id = 2 then some room9 else none

def queuedBoth : Store := addEvent bobLost (addEvent aliceWon .empty)
def aliceResolved : Store :=
  setEvent 1 finished finished_id (insertMatch (newMatch 5 (toEvent aliceWon) (some room9) .p1 .p1) queuedBoth)
def bothResolved : Store := setEvent 2 finished finished_id (setMatch 5 .p2 2 aliceResolved)

section Run
variable {resolves}

theorem runs_aliceWon (h : resolves (toEvent aliceWon) (some room9)) :
    Runs (processNext resolves) queuedBoth (.ok (.finished 1)) aliceResolved := by
  refine .stmt ⟨0,∅,id⟩ ⟨0,trivial,rfl⟩ ?_
  refine .stmt ⟨some (toEvent aliceWon),{.event 1},id⟩ ⟨fun _ => false,rfl⟩ ?_
  refine .savepoint (.stmt ⟨some room9,∅,id⟩ ⟨_,h,rfl⟩ ?_)
  refine .stmt ⟨(),{.room 9},id⟩ rfl (.stmt ⟨none,∅,id⟩ ⟨none,nofun,rfl⟩ ?_)
  exact .stmt ⟨(),{.matchRow 5},_⟩ ⟨5,rfl,rfl⟩ (.stmt ⟨(),{.event 1},_⟩ rfl (.release (.ret trivial)))

theorem runs_bobLost (h : resolves (toEvent bobLost) (some room9)) :
    Runs (processNext resolves) aliceResolved (.ok (.finished 2)) bothResolved := by
  refine .stmt ⟨0,∅,id⟩ ⟨0,trivial,rfl⟩ ?_
  refine .stmt ⟨some (toEvent bobLost),{.event 2},id⟩ ⟨fun _ => false,rfl⟩ ?_
  refine .savepoint (.stmt ⟨some room9,∅,id⟩ ⟨_,h,rfl⟩ ?_)
  refine .stmt ⟨(),{.room 9},id⟩ rfl (.stmt ⟨some 5,∅,id⟩ ⟨some 5,?_,rfl⟩ ?_)
  · refine ⟨newMatch 5 (toEvent aliceWon) (some room9) .p1 .p1,⟨⟨List.mem_singleton.mpr rfl,by decide⟩,?_⟩,rfl⟩
    intro other hother _
    cases List.mem_singleton.mp hother
    exact le_rfl
  · exact .stmt ⟨(),{.matchRow 5},_⟩ rfl (.stmt ⟨(),{.event 2},_⟩ rfl (.release (.ret trivial)))

def afterBoth : State Store Lock Unit String Processed :=
  ⟨bothResolved,fun _ => none,[((),.ok (.finished 2)),((),.ok (.finished 1))]⟩

theorem reachable_afterBoth (halice : resolves (toEvent aliceWon) (some room9))
    (hbob : resolves (toEvent bobLost) (some room9)) :
    Reachable (queue resolves) (fun _ _ _ => True) (· = Store.empty) afterBoth := by
  have hempty : Reachable (queue resolves) (fun _ _ _ => True) (· = Store.empty)
    ⟨Store.empty,fun _ => none,[]⟩ := .init rfl
  have hfirst := hempty.environment (addEvent aliceWon .empty) ⟨aliceWon,⟨rfl,rfl,rfl,nofun⟩,rfl⟩
  have hboth := hfirst.environment queuedBoth ⟨bobLost,⟨rfl,rfl,rfl,by decide⟩,rfl⟩
  have hfound := hboth.call (fun _ => rfl) (c := ()) (runs_aliceWon halice) fun _ _ => trivial
  exact hfound.call (fun _ => rfl) (c := ()) (runs_bobLost hbob) fun _ _ => trivial

end Run

theorem queue_exactlyOnce_afterBoth : ExactlyOnce afterBoth :=
  queue_exactlyOnce inRoom9 (reachable_afterBoth rfl rfl)

end Tag2now.Records
