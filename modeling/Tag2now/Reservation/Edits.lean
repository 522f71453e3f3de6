import Tag2now.Reservation.Writes

/-! # What creations and edits commit

A second discipline of the same service, punctual or not: the holder of a reservation's
lock counts on its row, and everybody on the keys. Besides creations and edits, every
operation writes nothing to the keys and leaves the conditions of every reservation alone.
-/
namespace Tag2now.Reservations
open ReadCommitted Idempotency

/-- What an edit and a creation are held to. -/
def conditions (row : ReservationRow) : MatchType × List String × ℕ :=
  (row.matchType,row.hostRanks,row.capacity)

/-- A write that leaves the keys and the conditions of every reservation alone. -/
structure Light (L : Set Lock) (f : Store → Store) : Prop where
  keys : ∀ s, (f s).keys = s.keys
  row : ∀ s id, (f s).reservations.get? id = s.reservations.get? id ∨
    (Lock.reservation id ∈ L ∧ ∃ row row', s.reservations.get? id = some row ∧
      (f s).reservations.get? id = some row' ∧ conditions row' = conditions row)

theorem light_id (L : Set Lock) : Light L id := ⟨fun _ => rfl,fun _ _ => .inl rfl⟩

theorem Light.comp {K L : Set Lock} {f g : Store → Store} (hf : Light K f) (hg : Light L g) :
    Light (K ∪ L) (g ∘ f) := by
  refine ⟨fun s => (hg.keys _).trans (hf.keys s),fun s id => ?_⟩
  rcases hf.row s id with hsame | ⟨hl,row,row',hrow,hrow',hcond⟩
  · rcases hg.row (f s) id with hsame' | ⟨hl,row,row',hrow,hrow',hcond⟩
    · exact .inl (hsame'.trans hsame)
    · exact .inr ⟨.inr hl,row,row',hsame ▸ hrow,hrow',hcond⟩
  · rcases hg.row (f s) id with hsame' | ⟨_,row₁,row₂,hrow₁,hrow₂,hcond'⟩
    · exact .inr ⟨.inl hl,row,row',hrow,hsame'.trans hrow',hcond⟩
    · rw [hrow'] at hrow₁
      cases hrow₁
      exact .inr ⟨.inl hl,row,row₂,hrow,hrow₂,hcond'.trans hcond⟩

theorem light_modifyRow {id : ℕ} {f : ReservationRow → ReservationRow} {hf}
    (hcond : ∀ row, conditions (f row) = conditions row) : Light {.reservation id} (modifyRow id f hf) := by
  refine ⟨fun _ => rfl,fun s k => ?_⟩
  rw [get?_modifyRow]
  split
  · subst k
    cases hrow : s.reservations.get? id with
    | none => exact .inl rfl
    | some row => exact .inr ⟨rfl,row,f row,rfl,rfl,hcond row⟩
  · exact .inl rfl

theorem light_endRows {now : ℤ} {ids : ℕ → Bool} {L : Set Lock}
    (hl : ∀ id, ids id = true → Lock.reservation id ∈ L) : Light L (endRows now ids) := by
  refine ⟨fun _ => rfl,fun s id => ?_⟩
  rw [get?_endRows]
  cases hrow : s.reservations.get? id with
  | none => exact .inl rfl
  | some row =>
    have hid := Table.key_of_get? hrow
    by_cases hend : ids id = true
    · refine .inr ⟨hl id hend,row,_,rfl,rfl,?_⟩
      unfold endIf
      split <;> rfl
    · refine .inl ?_
      rw [Option.map_some,endIf,hid,if_neg hend]

theorem light_participants {f : Store → Store} (L : Set Lock) (hkeys : ∀ s, (f s).keys = s.keys)
    (hrows : ∀ s, (f s).reservations = s.reservations) : Light L f :=
  ⟨hkeys,fun s _ => .inl (by rw [hrows])⟩

def Request.light : Request → Prop
  | .create .. => False
  | .update .. => False
  | _ => True

section Programs
variable {punctual : Prop}

theorem writes_clock : Writes Light (clock punctual) :=
  writes_bind (writes_query (light_id _) _) fun _ => trivial

theorem writes_readOne (id : ℕ) (e : ReservationError) : Writes Light (readOne id e) := by
  refine writes_bind (writes_query (light_id _) _) fun found => ?_
  cases found <;> trivial

theorem writes_lockReservation (id : ℕ) : Writes Light (lockReservation id) := by
  refine writes_bind (writes_execute fun _ => light_id _) fun found => ?_
  cases found <;> trivial

theorem writes_setRow {id : ℕ} {f : ReservationRow → ReservationRow} {hf}
    (hcond : ∀ row, conditions (f row) = conditions row) : Writes Light (setRow id f hf) :=
  writes_execute fun _ => light_modifyRow hcond

theorem writes_activeParticipation (id : ℕ) (subject : String) :
    Writes Light (activeParticipation id subject) := writes_query (light_id _) _

theorem writes_releaseSeats (now : ℤ) (picked : Store → ℕ → Bool) : Writes Light (releaseSeats now picked) :=
  writes_execute fun _ => light_participants _ (fun _ => rfl) fun _ => rfl

theorem writes_join (id : ℕ) (subject displayName : String) (ranks : List String) :
    Writes Light (joinReservation punctual id subject displayName ranks) := by
  refine writes_bind writes_clock fun now => writes_bind ?_ fun _ => trivial
  refine writes_bind (writes_lockReservation id) fun row => ?_
  refine writes_bind (writes_query (light_id _) _) fun count => ?_
  refine writes_bind (writes_activeParticipation id subject) fun found => ?_
  refine writes_bind (writes_ofExcept _) fun _ => writes_bind (writes_ofExcept _) fun _ => ?_
  refine writes_bind (writes_setRow fun _ => rfl) fun _ => writes_bind ?_ fun seat => ?_
  · refine writes_bind (writes_activeParticipation id subject) fun taken => ?_
    refine writes_bind (writes_ensure _ _) fun _ => writes_perform ?_
    rintro v _ ⟨_,_,_,rfl⟩
    exact light_participants _ (fun _ => rfl) fun _ => rfl
  · exact writes_bind (writes_readOne id _) fun _ => trivial

theorem writes_leave (id : ℕ) (subject : String) : Writes Light (leaveReservation punctual id subject) := by
  refine writes_bind writes_clock fun now => writes_bind ?_ fun _ => trivial
  refine writes_bind (writes_lockReservation id) fun row => ?_
  refine writes_bind (writes_activeParticipation id subject) fun found => ?_
  refine writes_bind (writes_ofExcept _) fun _ => ?_
  cases found with
  | none => trivial
  | some p =>
    refine writes_bind (writes_execute fun _ => light_participants _ (fun _ => rfl) fun _ => rfl) fun _ => ?_
    refine writes_bind (writes_query (light_id _) _) fun count => ?_
    exact writes_bind (writes_setRow fun _ => rfl) fun _ => writes_readOne id _

theorem writes_cancel (id : ℕ) (subject : String) : Writes Light (cancelReservation punctual id subject) := by
  refine writes_bind writes_clock fun now => writes_bind ?_ fun _ => trivial
  refine writes_bind (writes_lockReservation id) fun row => writes_bind (writes_ofExcept _) fun _ => ?_
  exact writes_bind (writes_setRow fun _ => rfl) fun _ => writes_releaseSeats _ _

theorem writes_list : Writes Light (listReservations punctual) := by
  refine writes_bind ?_ fun _ => trivial
  refine writes_bind writes_clock fun now => writes_bind ?_ fun _ => writes_choose (light_id _) _
  refine writes_bind (writes_releaseSeats _ _) fun _ => writes_execute fun v => light_endRows ?_
  exact fun id hid => ⟨id,hid,rfl⟩

end Programs

/-! ## The discipline -/

structure Kept (L : Set Lock) (s t : Store) : Prop where
  key : ∀ {o row}, s.keys.get? o = some row → t.keys.get? o = some row
  absent : ∀ {o}, Lock.key o ∈ L → s.keys.get? o = none → t.keys.get? o = none
  row : ∀ {id}, Lock.reservation id ∈ L → t.reservations.get? id = s.reservations.get? id

def Answered (s : Store) : Prop := ∀ ⦃o row⦄, s.keys.get? o = some row → ∃ response, row.response = some response

variable (fingerprint : String → CreateRequest → String)

/-- What each operation leaves, seen from the database it committed on. -/
inductive Edit (L : Set Lock) (s : Store) : Request → Answer → Store → Prop
  | replayed {subject displayName key : String} {request : CreateRequest} {response : Reservation} :
      ensureConditionsValid request.matchType request.ranks request.capacity = .ok () →
      s.keys.get? (subject,key) = some (keyRow fingerprint subject key request response) →
      Edit L s (.create subject displayName key request) (.created ⟨response,false⟩) s
  | created {subject displayName key : String} {request : CreateRequest} {x : ℤ} {id : ℕ} {createdAt : ℤ} :
      ensureConditionsValid request.matchType request.ranks request.capacity = .ok () →
      s.keys.get? (subject,key) = none → Lock.key (subject,key) ∈ L →
      s.reservations.get? id = none → Lock.reservation id ∈ L →
      Edit L s (.create subject displayName key request)
        (.created ⟨reservation (newRow (request.values subject displayName x) id createdAt) 0 [],true⟩)
        (afterCreate fingerprint subject key request (request.values subject displayName x) id createdAt s)
  | updated {id : ℕ} {subject : String} {patch : UpdateRequest} {current result : Reservation}
      {row : ReservationRow} {startAt : Option ℤ} {now : ℤ} :
      s.reservations.get? id = some row → Lock.reservation id ∈ L → patch.ensureValid current = .ok () →
      Edit L s (.update id subject patch) (.updated current result)
        (modifyRow id ((patch.changes startAt).apply now) (Changes.apply_id _ now) s)
  | light {c : Request} {a : Answer} {f : Store → Store} : c.light → Light L f → Edit L s c a (f s)

variable {fingerprint} {K L : Set Lock} {s t : Store} {c : Request} {a : Answer}

theorem Edit.keys (h : Edit fingerprint L s c a t) (o : String × String) : t.keys.get? o = s.keys.get? o ∨
    (s.keys.get? o = none ∧ Lock.key o ∈ L ∧
      ∃ row response, t.keys.get? o = some row ∧ row.response = some response) := by
  cases h with
  | replayed => exact .inl rfl
  | @created subject displayName key request x id createdAt _ hnone hlock =>
    have hkeys := keys_afterCreate fingerprint request (request.values subject displayName x) id createdAt hnone o
    by_cases ho : o = (subject,key)
    · subst ho
      exact .inr ⟨hnone,hlock,_,_,hkeys.trans (if_pos rfl),rfl⟩
    · exact .inl (hkeys.trans (if_neg ho))
  | updated => exact .inl rfl
  | light _ hf => exact .inl (by rw [hf.keys])

theorem Edit.answered (h : Edit fingerprint L s c a t) (hs : Answered s) : Answered t := by
  intro o row hrow
  rcases h.keys o with hsame | ⟨_,_,row',response,hrow',hresponse⟩
  · exact hs (hsame ▸ hrow)
  · rw [hrow] at hrow'
    cases hrow'
    exact ⟨response,hresponse⟩

theorem Edit.kept (h : Edit fingerprint L s c a t) (hdisj : Disjoint K L) : Kept K s t where
  key {o row} hrow := Idempotency.writtenOnce_kept (h.keys o) hrow
  absent {o} hl hnone := Idempotency.writtenOnce_absent (h.keys o) (Set.disjoint_left.mp hdisj hl) hnone
  row {id} hl := by
    have hnot := Set.disjoint_left.mp hdisj hl
    cases h with
    | replayed => rfl
    | created _ _ _ hfree hlock =>
      rw [get?_afterCreate _ _ _ _ hfree,if_neg]
      rintro rfl
      exact hnot hlock
    | updated _ hlock _ =>
      rw [get?_modifyRow,if_neg]
      rintro rfl
      exact hnot hlock
    | light _ hf =>
      rcases hf.row s id with hsame | ⟨hlock,_⟩
      · exact hsame
      · exact absurd hlock hnot

variable (fingerprint)

def edits : Discipline Store Lock Request ReservationError Answer where
  Inv := Answered
  Rely := Kept
  Commit c a L s t := Edit fingerprint L s c a t
  Fail _ _ _ := True
  rely_refl _ _ := ⟨fun h => h,fun _ h => h,fun _ => rfl⟩
  rely_trans h k := ⟨fun hrow => k.key (h.key hrow),fun hl hnone => k.absent hl (h.absent hl hnone),
    fun hl => (k.row hl).trans (h.row hl)⟩
  rely_mono hsub h := ⟨h.key,fun hl => h.absent (hsub hl),fun hl => h.row (hsub hl)⟩
  inv_commit hs h := h.answered hs
  rely_commit _ h hdisj := h.kept hdisj

theorem edits_lenient {c : Request} : (edits fingerprint).Lenient c := fun _ _ => trivial

theorem edits_respects : Respects keyStore (edits fingerprint).toAgreement where
  kept h := h.key
  absent hl h := h.absent hl
  answered hi hrow := hi hrow

section Safety
variable {fingerprint} {punctual : Prop} {h : Held Store Lock}

theorem edits_clock {k : ℤ → Program Answer} (hk : ∀ s' now due, Kept h.locks s s' →
      Safe (edits fingerprint).toAgreement c (k now) ⟨h.pending,h.locks,due⟩ s') :
    Safe (edits fingerprint).toAgreement c (clock punctual >>= k) h s := by
  unfold clock
  rw [Prog.bind_assoc,safe_query]
  exact fun s₁ hr₁ _ => hk s₁ _ _ hr₁

theorem edits_lockReservation {k : ReservationRow → Program Answer} {id : ℕ}
    (hview : ∀ s, (h.pending s).reservations = s.reservations)
    (hk : ∀ s' row, s'.reservations.get? id = some row →
      Safe (edits fingerprint).toAgreement c (k row) ⟨h.pending,h.locks ∪ {.reservation id},h.due⟩ s') :
    Safe (edits fingerprint).toAgreement c (lockReservation id >>= k) h s := by
  unfold lockReservation
  simp only [Prog.bind_assoc,safe_execute]
  intro s₁ _ _
  rw [hview s₁]
  cases hrow : s₁.reservations.get? id with
  | none => exact fun _ _ _ => trivial
  | some row => simpa using hk s₁ row hrow

theorem safe_edit {id : ℕ} {subject : String} {patch : UpdateRequest} {current : Reservation}
    {startAt : Option ℤ} {now : ℤ} {due : Store → Prop} (hvalid : patch.ensureValid current = .ok ()) :
    Safe (edits fingerprint).toAgreement (.update id subject patch)
      (update id subject now (patch.changes startAt) >>= fun result => .ret (.updated current result))
      ⟨fun s => s,∅,due⟩ s := by
  unfold update
  simp only [Prog.bind_assoc]
  refine edits_lockReservation (fun _ => rfl) fun s₁ row hrow => ?_
  refine safe_ofExcept (edits_lenient fingerprint) fun _ _ => ?_
  unfold activeParticipantCount
  rw [safe_query]
  intro s₂ hr₂ _
  refine safe_ofExcept (edits_lenient fingerprint) fun _ _ => ?_
  unfold setRow
  rw [safe_execute]
  intro s₃ hr₃ _ s₄ hr₄ _ _
  have hrow₄ := (hr₄.row (.inl (.inr rfl))).trans ((hr₃.row (.inr rfl)).trans ((hr₂.row (.inr rfl)).trans hrow))
  exact .updated hrow₄ (.inr rfl) hvalid

theorem edits_update (id : ℕ) (subject : String) (patch : UpdateRequest) :
    Safe (edits fingerprint).toAgreement (.update id subject patch)
      (updateReservation punctual id subject patch) .empty s := by
  unfold updateReservation Reservations.get readOne
  rw [Prog.bind_assoc,safe_query]
  intro s₁ _ _
  cases ((Held.empty : Held Store Lock).pending s₁).reservations.get? id with
  | none => exact fun _ _ _ => trivial
  | some row =>
    refine safe_ofExcept (edits_lenient fingerprint) fun u hvalid => ?_
    unfold newStart
    cases patch.startTime with
    | none => exact edits_clock fun s₂ now due _ => safe_edit hvalid
    | some time =>
      simp only [Prog.bind_assoc]
      refine edits_clock fun s₂ now due _ => safe_ofExcept (edits_lenient fingerprint) fun x _ => ?_
      exact edits_clock fun s₃ now due _ => safe_edit hvalid

theorem edits_create (subject displayName key : String) (request : CreateRequest) :
    Safe (edits fingerprint).toAgreement (.create subject displayName key request)
      (createReservation punctual fingerprint subject displayName key request) .empty s := by
  unfold createReservation
  refine safe_ofExcept (edits_lenient fingerprint) fun u hvalid => edits_clock fun s₁ now due _ => ?_
  refine safe_ofExcept (edits_lenient fingerprint) fun x _ => ?_
  refine safe_runOnce (edits_respects fingerprint) (fun _ => rfl) ?_ (fun _ _ _ _ _ _ => trivial) ?_
  · intro s₂ row response _ _ hrow hfp hresponse s₃ hr₃ _ _
    have hkept := hr₃.key hrow
    have hkey := Table.key_of_get? hrow
    refine .replayed hvalid ?_
    cases row
    cases hkey
    cases hfp
    cases hresponse
    exact hkept
  · intro s₂ _ _ hnone
    unfold create complete
    simp only [safe_perform]
    rintro s₃ hr₃ _ o ⟨id,createdAt,hfree,rfl⟩
    simp only [safe_execute]
    intro s₄ hr₄ _ s₅ hr₅ _ _
    have hnone₃ := hr₃.absent (.inr rfl) hnone
    have hnone₅ := hr₅.absent (.inl (.inl (.inr rfl))) (hr₄.absent (.inl (.inr rfl)) hnone₃)
    have hfree₅ := (hr₅.row (.inl (.inr rfl))).trans ((hr₄.row (.inr rfl)).trans hfree)
    exact .created hvalid hnone₅ (.inl (.inl (.inr rfl))) hfree₅ (.inl (.inr rfl))

theorem safe_light {p : Program Answer} (hp : Writes Light p) (hc : c.light) :
    Safe (edits fingerprint).toAgreement c p .empty s :=
  hp.safe (edits_lenient fingerprint) (fun hf hg => hf.comp hg) (fun _ _ _ _ hf _ => .light hc hf)
    (light_id _) s

end Safety

variable (punctual : Prop)

theorem edits_sound : (edits fingerprint).Sound (service punctual fingerprint) Initial where
  init h := by
    intro o row hrow
    rw [h.2.2] at hrow
    cases hrow
  env := by
    rintro s _ hs ⟨now,_,rfl⟩
    exact ⟨hs,fun _ => ⟨fun h => h,fun _ h => h,fun _ => rfl⟩⟩
  body c s := by
    cases c with
    | create subject displayName key request => exact edits_create subject displayName key request
    | update id subject patch => exact edits_update id subject patch
    | join id subject displayName ranks => exact safe_light (writes_join id subject displayName ranks) trivial
    | cancelParticipation id subject => exact safe_light (writes_leave id subject) trivial
    | cancel id subject => exact safe_light (writes_cancel id subject) trivial
    | listReservations => exact safe_light writes_list trivial

end Tag2now.Reservations
