import Tag2now.Reservation.Moves
import Tag2now.Reservation.Writes

/-! # Which reservations a commit touches

A third discipline of the service, on whatever it runs and punctual or not: the holder of a
reservation's lock counts on its row, and nothing else is agreed. A commit leaves a reservation,
makes it, or changes one that is live and locked; so a cancelled reservation is never touched.
-/
namespace Tag2now.Reservations
open ReadCommitted Idempotency

structure Settles (c : Request) (L : Set Lock) (s t : Store) : Prop where
  row : ∀ id, t.reservations.get? id = s.reservations.get? id ∨ (Lock.reservation id ∈ L ∧
    t.reservations.get? id ≠ none ∧ ∀ row, s.reservations.get? id = some row → Live row.status)
  cancels : ∀ {id subject}, c = .cancel id subject →
    ∃ row, t.reservations.get? id = some row ∧ row.status = .cancelled

def RowsHeld (L : Set Lock) (s t : Store) : Prop :=
  ∀ id, Lock.reservation id ∈ L → t.reservations.get? id = s.reservations.get? id

def standing : Discipline Store Lock Request ReservationError Answer where
  Inv _ := True
  Rely := RowsHeld
  Commit c _ L s t := Settles c L s t
  Fail _ _ _ := True
  rely_refl _ _ _ _ := rfl
  rely_trans h k id hl := (k id hl).trans (h id hl)
  rely_mono hsub h id hl := h id (hsub hl)
  inv_commit _ _ := trivial
  rely_commit _ h hdisj id hl := by
    rcases h.row id with hsame | ⟨hlock,_⟩
    · exact hsame
    · exact absurd hlock (Set.disjoint_left.mp hdisj hl)

theorem standing_lenient {c : Request} : standing.Lenient c := fun _ _ => trivial

/-- A write that makes locked reservations, and leaves those there are. -/
def Makes (L : Set Lock) (f : Store → Store) : Prop :=
  ∀ s id, (f s).reservations.get? id = s.reservations.get? id ∨
    (Lock.reservation id ∈ L ∧ s.reservations.get? id = none ∧ (f s).reservations.get? id ≠ none)

theorem Makes.comp {K L : Set Lock} {f g : Store → Store} (hf : Makes K f) (hg : Makes L g) :
    Makes (K ∪ L) (g ∘ f) := by
  intro s id
  rcases hf s id with hsame | ⟨hl,hnone,hmade⟩
  · rcases hg (f s) id with hsame' | ⟨hl,hnone,hmade⟩
    · exact .inl (hsame'.trans hsame)
    · exact .inr ⟨.inr hl,hsame ▸ hnone,hmade⟩
  · rcases hg (f s) id with hsame' | ⟨hl',hnone',_⟩
    · exact .inr ⟨.inl hl,hnone,fun h => hmade (hsame'.symm.trans h)⟩
    · exact absurd hnone' hmade

theorem makes_same {f : Store → Store} (L : Set Lock) (h : ∀ s, (f s).reservations = s.reservations) : Makes L f :=
  fun s id => .inl (by rw [h])

structure Within (id : ℕ) (_ : Set Lock) (f : Store → Store) : Prop where
  other : ∀ s k, k ≠ id → (f s).reservations.get? k = s.reservations.get? k
  kept : ∀ s, s.reservations.get? id ≠ none → (f s).reservations.get? id ≠ none

theorem Within.comp {id : ℕ} {K L : Set Lock} {f g : Store → Store} (hf : Within id K f) (hg : Within id L g) :
    Within id (K ∪ L) (g ∘ f) :=
  ⟨fun s k hk => (hg.other _ k hk).trans (hf.other s k hk),fun s hs => hg.kept _ (hf.kept s hs)⟩

theorem within_same {id : ℕ} {f : Store → Store} (L : Set Lock) (h : ∀ s, (f s).reservations = s.reservations) :
    Within id L f :=
  ⟨fun s k _ => by rw [h],fun s hs => by rw [h]; exact hs⟩

theorem within_modifyRow {id : ℕ} (L : Set Lock) (f : ReservationRow → ReservationRow) (hf) :
    Within id L (modifyRow id f hf) := by
  refine ⟨fun s k hk => (get?_modifyRow f hf).trans (if_neg hk),fun s hs => ?_⟩
  rw [get?_modifyRow,if_pos rfl]
  simpa using hs

section Programs
variable {id : ℕ}

theorem within_query {β : Type} (f : Store → β) : Writes (Within id) (.query f : Program β) :=
  writes_query (within_same _ fun _ => rfl) f

theorem within_setRow (f : ReservationRow → ReservationRow) (hf) : Writes (Within id) (setRow id f hf) :=
  writes_execute fun _ => within_modifyRow _ f hf

theorem within_readOne (e : ReservationError) : Writes (Within id) (readOne id e) := by
  refine writes_bind (within_query _) fun found => ?_
  cases found <;> trivial

theorem within_addSeat (subject displayName : String) (ranks : List String) :
    Writes (Within id) (addSeat id subject displayName ranks) := by
  refine writes_bind (within_query _) fun taken => writes_bind (writes_ensure _ _) fun _ => writes_perform ?_
  rintro v _ ⟨_,_,_,rfl⟩
  exact within_same _ fun _ => rfl

end Programs

section Safety
variable {punctual : Prop} {c : Request} {h : Held Store Lock} {s : Store} {id : ℕ}

theorem standing_clock {k : ℤ → Program Answer}
    (hk : ∀ s now due, Safe standing.toAgreement c (k now) ⟨h.pending,h.locks,due⟩ s) :
    Safe standing.toAgreement c (clock punctual >>= k) h s := by
  unfold clock
  rw [Prog.bind_assoc,safe_query]
  exact fun s₁ _ _ => hk s₁ _ _

theorem standing_lockReservation {k : ReservationRow → Program Answer}
    (hview : ∀ s, (h.pending s).reservations = s.reservations)
    (hk : ∀ s row, s.reservations.get? id = some row →
      Safe standing.toAgreement c (k row) ⟨h.pending,h.locks ∪ {.reservation id},h.due⟩ s) :
    Safe standing.toAgreement c (lockReservation id >>= k) h s := by
  unfold lockReservation
  simp only [Prog.bind_assoc,safe_execute]
  intro s₁ _ _
  rw [hview s₁]
  cases hrow : s₁.reservations.get? id with
  | none => exact fun _ _ _ => trivial
  | some row => simpa using hk s₁ row hrow

/-- What is left of a call that has found a live reservation under its lock. -/
theorem safe_within {p : Program Answer} (hp : Writes (Within id) p) (hc : ∀ id subject, c ≠ .cancel id subject)
    {row : ReservationRow} (hrow : s.reservations.get? id = some row) (hlive : Live row.status)
    (hlock : Lock.reservation id ∈ h.locks) (hh : Within id h.locks h.pending) :
    Safe standing.toAgreement c p h s := by
  refine hp.safe_while standing_lenient (fun hf hg => hf.comp hg) (K := {.reservation id})
    (J := fun s => s.reservations.get? id = some row) (fun hr hs => (hr id rfl).trans hs) ?_
    (Set.singleton_subset_iff.mpr hlock) hh hrow
  intro a L f s hL hf _ hs
  refine ⟨fun k => ?_,fun hcancel => absurd hcancel (hc _ _)⟩
  by_cases hk : k = id
  · subst hk
    have hkept : (f s).reservations.get? k ≠ none := hf.kept s (by rw [hs]; exact Option.some_ne_none row)
    refine .inr ⟨hL rfl,hkept,fun row' hrow' => ?_⟩
    rw [hs] at hrow'
    cases hrow'
    exact hlive
  · exact .inl (hf.other s k hk)

theorem standing_join (subject displayName : String) (ranks : List String) (s : Store) :
    Safe standing.toAgreement (.join id subject displayName ranks)
      (joinReservation punctual id subject displayName ranks)
      .empty s := by
  unfold joinReservation join
  refine standing_clock fun s₁ now due => ?_
  simp only [Prog.bind_assoc]
  refine standing_lockReservation (fun _ => rfl) fun s₂ row hrow => ?_
  unfold activeParticipantCount activeParticipation
  rw [safe_query]
  intro s₃ hr₃ _
  rw [safe_query]
  intro s₄ hr₄ _
  refine safe_ofExcept standing_lenient fun _ _ => safe_ofExcept standing_lenient fun _ hcheck => ?_
  have hrow₄ := (hr₄ id (.inr rfl)).trans ((hr₃ id (.inr rfl)).trans hrow)
  have hlive : Live row.status := .inl (ensureJoinable_ok.mp hcheck).1
  refine safe_within ?_ nofun hrow₄ hlive (.inr rfl) (within_same _ fun _ => rfl)
  refine writes_bind (within_setRow _ _) fun _ => writes_bind (within_addSeat _ _ _) fun seat => ?_
  exact writes_bind (within_readOne _) fun found => trivial

theorem standing_leave (subject : String) (s : Store) :
    Safe standing.toAgreement (.cancelParticipation id subject) (leaveReservation punctual id subject) .empty s := by
  unfold leaveReservation cancelParticipation
  refine standing_clock fun s₁ now due => ?_
  simp only [Prog.bind_assoc]
  refine standing_lockReservation (fun _ => rfl) fun s₂ row hrow => ?_
  unfold activeParticipation
  rw [safe_query]
  intro s₃ hr₃ _
  refine safe_ofExcept standing_lenient fun _ hcheck => ?_
  have hrow₃ := (hr₃ id (.inr rfl)).trans hrow
  have hlive : Live row.status := (ensureParticipationCancellable_ok.mp hcheck).1
  refine safe_within (writes_bind ?_ fun _ => trivial) nofun hrow₃ hlive (.inr rfl) (within_same _ fun _ => rfl)
  split
  · trivial
  · refine writes_bind (writes_execute fun _ => within_same _ fun _ => rfl) fun _ => ?_
    refine writes_bind (within_query _) fun count => writes_bind (within_setRow _ _) fun _ => within_readOne _

theorem standing_update (subject : String) (patch : UpdateRequest) (s : Store) :
    Safe standing.toAgreement (.update id subject patch) (updateReservation punctual id subject patch) .empty s := by
  have hedit {startAt : Option ℤ} {now : ℤ} {due : Store → Prop} {current : Reservation} (s : Store) :
      Safe standing.toAgreement (.update id subject patch)
        (update id subject now (patch.changes startAt) >>= fun result => .ret (.updated current result))
        ⟨fun s => s,∅,due⟩ s := by
    unfold update
    simp only [Prog.bind_assoc]
    refine standing_lockReservation (fun _ => rfl) fun s₁ row hrow => ?_
    refine safe_ofExcept standing_lenient fun _ _ => ?_
    unfold activeParticipantCount
    rw [safe_query]
    intro s₂ hr₂ _
    refine safe_ofExcept standing_lenient fun _ hcheck => ?_
    have hrow₂ := (hr₂ id (.inr rfl)).trans hrow
    have hlive : Live row.status := (ensureEditable_ok.mp hcheck).1
    refine safe_within ?_ nofun hrow₂ hlive (.inr rfl) (within_same _ fun _ => rfl)
    exact writes_bind (within_setRow _ _) fun _ => trivial
  unfold updateReservation Reservations.get readOne
  rw [Prog.bind_assoc,safe_query]
  intro s₁ _ _
  split
  · exact fun _ _ _ => trivial
  · refine safe_ofExcept standing_lenient fun _ _ => ?_
    unfold newStart
    split
    · exact standing_clock fun s₂ now due => hedit s₂
    · simp only [Prog.bind_assoc]
      refine standing_clock fun s₂ now due => safe_ofExcept standing_lenient fun x _ => ?_
      exact standing_clock fun s₃ now due => hedit s₃

theorem standing_cancel (subject : String) (s : Store) :
    Safe standing.toAgreement (.cancel id subject) (cancelReservation punctual id subject) .empty s := by
  unfold cancelReservation cancel
  refine standing_clock fun s₁ now due => ?_
  simp only [Prog.bind_assoc]
  refine standing_lockReservation (fun _ => rfl) fun s₂ row hrow => ?_
  refine safe_ofExcept standing_lenient fun _ hcheck => ?_
  have hlive : Live row.status := (ensureCancellable_ok.mp hcheck).2.1
  unfold setRow releaseParticipants releaseSeats
  rw [safe_execute]
  intro s₃ hr₃ _
  rw [safe_execute]
  intro s₄ hr₄ _ s₅ hr₅ _ _
  have hrow₃ := (hr₃ id (.inr rfl)).trans hrow
  have hrow₅ := (hr₅ id (.inl (.inr rfl))).trans ((hr₄ id (.inr rfl)).trans hrow₃)
  have hafter : (modifyRow id (cancelledRow now) (cancelledRow_id now) s₅).reservations.get? id =
      some (cancelledRow now row) := by
    rw [get?_modifyRow,if_pos rfl,hrow₅]
    rfl
  refine ⟨fun k => ?_,?_⟩
  · by_cases hk : k = id
    · subst hk
      refine .inr ⟨.inl (.inr rfl),?_,fun row' hrow' => ?_⟩
      · exact fun hnone => absurd (hafter.symm.trans hnone) (Option.some_ne_none _)
      · rw [hrow₅] at hrow'
        cases hrow'
        exact hlive
    · exact .inl ((get?_modifyRow (cancelledRow now) (cancelledRow_id now)).trans (if_neg hk))
  · rintro _ _ ⟨⟩
    exact ⟨_,hafter,rfl⟩

theorem standing_list (s : Store) :
    Safe standing.toAgreement .listReservations (listReservations punctual) .empty s := by
  unfold listReservations listUpcoming
  simp only [Prog.bind_assoc]
  refine standing_clock fun s₁ now due => ?_
  unfold expireFinished releaseSeats endFinished
  simp only [Prog.bind_assoc]
  rw [safe_execute]
  intro s₂ _ _
  rw [safe_execute]
  intro s₃ hr₃ _
  rw [safe_choose]
  intro s₄ hr₄ _ found _ s₅ hr₅ _ _
  refine ⟨fun id => ?_,nofun⟩
  generalize hpicks : isFinished now _ = picks at hr₄ hr₅ ⊢
  have hget : (endRows now picks s₅).reservations.get? id = (s₅.reservations.get? id).map (endIf now picks) :=
    get?_endRows
  by_cases hpick : picks id = true
  · have hlock : Lock.reservation id ∈ {l | ∃ k, picks k = true ∧ l = Lock.reservation k} := ⟨id,hpick,rfl⟩
    have hsame := (hr₅ id (.inr hlock)).trans (hr₄ id (.inr hlock))
    have hfound : (s₃.reservations.get? id).any (Finished now) = true := by
      rw [← hpicks] at hpick
      exact hpick
    obtain ⟨row,hrow,hfinished⟩ := Option.any_eq_true _ _ |>.mp hfound
    refine .inr ⟨.inr hlock,?_,fun row' hrow' => ?_⟩
    · refine fun hnone => ?_
      rw [hsame,hrow] at hget
      exact Option.some_ne_none _ (hget.symm.trans hnone)
    · rw [hsame,hrow] at hrow'
      cases hrow'
      exact (decide_eq_true_eq.mp hfinished).1
  · refine .inl (hget.trans ?_)
    cases hrow : s₅.reservations.get? id with
    | none => rfl
    | some row => rw [Option.map_some,endIf,Table.key_of_get? hrow,if_neg hpick]

theorem standing_create {fingerprint : String → CreateRequest → String} (subject displayName key : String)
    (request : CreateRequest) (s : Store) : Safe standing.toAgreement (.create subject displayName key request)
      (createReservation punctual fingerprint subject displayName key request) .empty s := by
  unfold createReservation
  refine safe_ofExcept standing_lenient fun _ _ => standing_clock fun s₁ now due => ?_
  refine safe_ofExcept standing_lenient fun startAt _ => ?_
  have hcreate : Writes Makes (create (request.values subject displayName startAt)) := by
    refine writes_perform ?_
    rintro v _ ⟨id,createdAt,_,rfl⟩ s k
    by_cases hnew : s.reservations.get? id = none
    · have hget := @get?_insertRow s k (newRow (request.values subject displayName startAt) id createdAt) hnew
      by_cases hk : k = id
      · subst hk
        refine .inr ⟨rfl,hnew,fun hnone => ?_⟩
        exact Option.some_ne_none _ ((hget.trans (if_pos rfl)).symm.trans hnone)
      · exact .inl (hget.trans (if_neg hk))
    · have hkey : id ∈ s.reservations.rows.map ReservationRow.id := by
        by_contra hkey
        exact hnew (Table.get?_eq_none_iff.mpr fun row hrow hid => hkey (hid ▸ List.mem_map_of_mem hrow))
      have hsame : s.reservations.insert (newRow (request.values subject displayName startAt) id createdAt) =
          s.reservations := dif_pos hkey
      exact .inl (congrArg (fun t => Table.get? t k) hsame)
  have honce : Writes Makes (runOnce keyStore fingerprint subject key createScope request
      (create (request.values subject displayName startAt))) := by
    refine writes_runOnce (fun L f hf => makes_same L fun s => ?_) hcreate
    rcases hf s with hsame | ⟨t,hput⟩
    · rw [hsame]
    · rw [hput]
      rfl
  have hbody : Writes Makes (runOnce keyStore fingerprint subject key createScope request
      (create (request.values subject displayName startAt)) >>= fun once => .ret (Answer.created once)) :=
    writes_bind honce fun once => trivial
  refine hbody.safe standing_lenient (fun hf hg => hf.comp hg) ?_
    (makes_same _ fun _ => rfl) s₁
  intro a L f s hf _
  refine ⟨fun id => ?_,nofun⟩
  rcases hf s id with hsame | ⟨hlock,hnone,hmade⟩
  · exact .inl hsame
  · refine .inr ⟨hlock,hmade,fun row hrow => ?_⟩
    rw [hnone] at hrow
    cases hrow

end Safety

section Runs
variable {punctual : Prop} {fingerprint : String → CreateRequest → String} {init : Store → Prop}

theorem standing_sound : standing.Sound (service punctual fingerprint) init where
  init _ := trivial
  env := by
    rintro s _ _ ⟨now,_,rfl⟩
    exact ⟨trivial,fun _ _ _ => rfl⟩
  body c s := by
    cases c with
    | create subject displayName key request => exact standing_create subject displayName key request s
    | update id subject patch => exact standing_update subject patch s
    | join id subject displayName ranks => exact standing_join subject displayName ranks s
    | cancelParticipation id subject => exact standing_leave subject s
    | cancel id subject => exact standing_cancel subject s
    | listReservations => exact standing_list s

variable {s s' : State Store Lock Request ReservationError Answer}

theorem row_stays (hs : Reachable (service punctual fingerprint) (fun _ _ _ => True) init s)
    (hstep : Step (service punctual fingerprint) (fun _ _ _ => True) s s') {id : ℕ} {row : ReservationRow}
    (hrow : s.db.reservations.get? id = some row) :
    ∃ row', s'.db.reservations.get? id = some row' ∧ (¬ Live row.status → row' = row) := by
  cases hstep with
  | env henv =>
    obtain ⟨now,_,rfl⟩ := henv
    exact ⟨row,hrow,fun _ => rfl⟩
  | @commit t c r a ht hp hdue _ =>
    have heffect : Settles c r.held.locks s.db (r.held.pending s.db) := hs.commits standing_sound ht hp hdue
    rcases heffect.row id with hsame | ⟨_,hthere,hlive⟩
    · exact ⟨row,hsame.trans hrow,fun _ => rfl⟩
    · obtain ⟨row',hrow'⟩ := Option.ne_none_iff_exists'.mp hthere
      exact ⟨row',hrow',fun hover => absurd (hlive row hrow) hover⟩
  | _ => exact ⟨row,hrow,fun _ => rfl⟩

/-- A reservation whose cancellation has answered is cancelled for good. -/
theorem cancelled_stays (hs : Reachable (service punctual fingerprint) (fun _ _ _ => True) init s) {id : ℕ}
    {subject : String} {a : Answer} (hlog : (.cancel id subject,.ok a) ∈ s.log) :
    ∃ row, s.db.reservations.get? id = some row ∧ row.status = .cancelled := by
  induction hs with
  | init _ => cases hlog
  | @step s s' hs hstep ih =>
    have hstays (hlog : (.cancel id subject,.ok a) ∈ s.log) :
        ∃ row, s'.db.reservations.get? id = some row ∧ row.status = .cancelled := by
      obtain ⟨row,hrow,hcancelled⟩ := ih hlog
      obtain ⟨row',hrow',hsame⟩ := row_stays hs hstep hrow
      rw [hsame (by rw [hcancelled]; exact not_live_cancelled)] at hrow'
      exact ⟨row,hrow',hcancelled⟩
    cases hstep with
    | raise _ _ _ =>
      rcases List.mem_cons.mp hlog with hnew | hold
      · cases hnew
      · exact hstays hold
    | @commit t c r a' ht hp hdue _ =>
      have heffect : Settles c r.held.locks s.db (r.held.pending s.db) := hs.commits standing_sound ht hp hdue
      rcases List.mem_cons.mp hlog with hnew | hold
      · cases hnew
        exact heffect.cancels rfl
      · exact hstays hold
    | _ => exact hstays hlog

end Runs
end Tag2now.Reservations
