import Tag2now.Reservation.Alone
import Tag2now.Reservation.Comments
import Tag2now.Reservation.Standing

/-! # Comments and the end of a reservation

A comment is judged on a status read without the reservation's lock, so the reservation can be
cancelled between the judgement and the commit. Where no cancellation commits under a comment
that has begun, no comment commits after one.
-/
namespace Tag2now.Reservations
open ReadCommitted Idempotency

abbrev TalkState := State Talked (Lock ⊕ CommentLock) (Request ⊕ CommentRequest) ReservationError
    (Answer ⊕ CommentAnswer)

abbrev TalkEvent := (Request ⊕ CommentRequest) × Except ReservationError (Answer ⊕ CommentAnswer)

def CommentRequest.comments : CommentRequest → Option ℕ
  | .addComment reservationId _ _ _ => some reservationId
  | _ => none

def AddsComment (id : ℕ) : TalkEvent → Prop
  | (.inr (.addComment id' _ _ _),.ok _) => id' = id
  | _ => False

/-- This reservation's cancellation has committed. -/
def CancelsReservation (id : ℕ) : TalkEvent → Prop
  | (.inl (.cancel id' _),.ok _) => id' = id
  | _ => False

theorem AddsComment.eq {id : ℕ} {e : TalkEvent} (h : AddsComment id e) :
    ∃ subject displayName request a, e = (.inr (.addComment id subject displayName request),.ok a) := by
  obtain ⟨c | c,e | a⟩ := e
  · exact h.elim
  · exact h.elim
  · cases c <;> exact h.elim
  · cases c with
    | addComment id' subject displayName request =>
      cases (h : id' = id)
      exact ⟨subject,displayName,request,a,rfl⟩
    | _ => exact h.elim

theorem CancelsReservation.eq {id : ℕ} {e : TalkEvent} (h : CancelsReservation id e) :
    ∃ subject a, e = (.inl (.cancel id subject),.ok a) := by
  obtain ⟨c | c,e | a⟩ := e
  · cases c <;> exact h.elim
  · cases c with
    | cancel id' subject =>
      cases (h : id' = id)
      exact ⟨subject,a,rfl⟩
    | _ => exact h.elim
  · exact h.elim
  · exact h.elim

/-- No comment is logged, newest first, above the cancellation of its reservation. -/
def CommentsFirst (log : List TalkEvent) : Prop :=
  log.Pairwise fun later earlier => ∀ id, AddsComment id later → ¬ CancelsReservation id earlier

/-- The reservation is there, and not cancelled. -/
def Talkable (id : ℕ) (db : Talked) : Prop :=
  ∃ row, db.1.reservations.get? id = some row ∧ row.status ≠ .cancelled

/-- A commit that cancels a reservation finds no comment on it under way. -/
def Uncommented (s s' : TalkState) : Prop :=
  ∀ id, Talkable id s.db → ¬ Talkable id s'.db →
    ∀ t c r, s'.running t = some (.inr c,r) → c.comments = some id →
      r = ⟨commentBody c >>= fun a => .ret (.inr a),.empty,none⟩

/-! ## A comment is written on a reservation that can be talked about -/

def commenting (id : ℕ) :
    Agreement Talked (Lock ⊕ CommentLock) (Request ⊕ CommentRequest) ReservationError (Answer ⊕ CommentAnswer) where
  Inv _ := True
  Rely _ s t := Talkable id s → Talkable id t
  Commit _ _ _ s _ := Talkable id s
  Fail _ _ _ := True
  rely_refl _ _ h := h
  rely_trans h k hs := k (h hs)
  rely_mono _ h := h

/-- What each call is told: a comment, that its reservation can still be talked about. -/
def told : Request ⊕ CommentRequest →
    Agreement Talked (Lock ⊕ CommentLock) (Request ⊕ CommentRequest) ReservationError (Answer ⊕ CommentAnswer)
  | .inr (.addComment reservationId _ _ _) => commenting reservationId
  | _ => .anything

theorem commenting_lenient {id : ℕ} {c : Request ⊕ CommentRequest} : (commenting id).Lenient c := fun _ _ => trivial

variable {punctual : Prop} {fingerprint : String → CreateRequest → String} {init : Talked → Prop}

theorem safe_addComment {id : ℕ} {draft : CommentDraft} {c : Request ⊕ CommentRequest} (s : Talked) :
    Safe (commenting id) c
      (CommentRepo.addComment id draft >>= fun result => .ret (.inr (.added result))) .empty s := by
  unfold CommentRepo.addComment
  rw [Prog.bind_assoc,safe_query]
  intro s₁ _ _
  rw [Held.empty_pending]
  cases hfound : s₁.1.reservations.get? id with
  | none => exact fun _ _ _ => trivial
  | some row =>
    unfold CommentRepo.addCommentTo CommentRepo.insertComment
    rw [Prog.bind_assoc]
    refine safe_ofExcept commenting_lenient fun _ hcheck => ?_
    have hopen : Talkable id s₁ := ⟨row,hfound,ensureCommentable_ok.mp hcheck⟩
    rw [safe_perform]
    rintro s₂ hr₂ _ _ ⟨_,_,_,rfl⟩
    intro s₃ hr₃ _ _
    exact hr₃ (hr₂ hopen)

theorem safe_told (c : Request ⊕ CommentRequest) (s : Talked) :
    Safe (told c) c ((talk punctual fingerprint).body c) .empty s := by
  rcases c with c | c
  · exact safe_anything _ _ _ _
  · cases c with
    | addComment id subject displayName request =>
      have hbody : (talk punctual fingerprint).body (.inr (.addComment id subject displayName request)) =
          CommentRepo.addComment id (request.draft subject displayName) >>= fun result => .ret (.inr (.added result)) :=
        Prog.bind_assoc _ _ _
      rw [hbody]
      exact safe_addComment s
    | _ => exact safe_anything _ _ _ _

section Runs
variable {s s' : TalkState}

/-- Seen from the reservations, the run is one of their own. -/
theorem talk_mirrored (hs : Reachable (talk punctual fingerprint) (fun _ _ _ => True) init s) :
    ∃ s₀, Reachable (service punctual fingerprint) (fun _ _ _ => True) (fun _ => True) s₀ ∧ Mirrors s s₀ :=
  hs.mirrored (fun _ _ => trivial) aside_commentBody

/-- A reservation that is cancelled, and whose cancellation has answered, cannot be talked about any more. -/
theorem not_talkable_of_cancelled (hs : Reachable (talk punctual fingerprint) (fun _ _ _ => True) init s) {id : ℕ}
    {e : TalkEvent} (he : e ∈ s.log) (hcancel : CancelsReservation id e) : ¬ Talkable id s.db := by
  obtain ⟨s₀,hs₀,hmirrors⟩ := talk_mirrored hs
  obtain ⟨subject,a,rfl⟩ := hcancel.eq
  cases a with
  | inr a => exact (hmirrors.answers _ he).elim
  | inl a =>
    have hlog : (.cancel id subject,.ok a) ∈ s₀.log := by
      rw [hmirrors.log]
      exact List.mem_filterMap.mpr ⟨_,he,rfl⟩
    obtain ⟨row,hrow,hcancelled⟩ := cancelled_stays hs₀ hlog
    rintro ⟨row',hrow',hopen⟩
    rw [hmirrors.db,hrow'] at hrow
    cases hrow
    exact hopen hcancelled

theorem told_allSafe (hs : Along (talk punctual fingerprint) Uncommented init s) : AllSafe (fun _ => told) s := by
  obtain ⟨db,hdb,hfrom⟩ := hs
  have hinit : Reachable (talk punctual fingerprint) (fun _ _ _ => True) init ⟨db,fun _ => none,[]⟩ := .init hdb
  refine hfrom.allSafe hinit (fun t c r ht => by cases ht) ?_ (fun _ => safe_told) ?_
  · intro s' _ t c
    rcases c with c | c
    · trivial
    · cases c <;> trivial
  · intro s' s'' _ _ hquiet t c r _ ht'
    rcases c with c | c
    · exact .inl trivial
    · cases c with
      | addComment id subject displayName request =>
        by_cases hlost : Talkable id s'.db ∧ ¬ Talkable id s''.db
        · exact .inr (hquiet id hlost.1 hlost.2 t _ r ht' rfl)
        · exact .inl fun hopen => by_contra fun hnot => hlost ⟨hopen,hnot⟩
      | _ => exact .inl trivial

/-- A comment that commits is on a reservation that is not cancelled. -/
theorem talkable_of_comment (hs : Along (talk punctual fingerprint) Uncommented init s)
    (hstep : Step (talk punctual fingerprint) (fun _ _ _ => True) s s') {id : ℕ} {e : TalkEvent}
    (hlog : s'.log = e :: s.log) (he : AddsComment id e) : Talkable id s.db := by
  obtain ⟨subject,displayName,request,a,rfl⟩ := he.eq
  obtain ⟨t,r,ht,_,hlast⟩ := hstep.logged hlog
  rcases hlast with ⟨_,_,_,hout,_⟩ | ⟨b,hp,hdue,_,_⟩
  · cases hout
  · have hsafe : Safe (commenting id) _ r.prog r.held s.db := (told_allSafe hs t _ r ht).1
    rw [hp] at hsafe
    exact hsafe s.db (fun h => h) trivial hdue

end Runs

/-- No comment commits after the cancellation of its reservation. -/
theorem comments_first {s : TalkState} (hs : Along (talk punctual fingerprint) Uncommented init s) :
    CommentsFirst s.log := by
  obtain ⟨db,hdb,hfrom⟩ := hs
  induction hfrom with
  | here => exact .nil
  | @step s s' hfrom hstep hquiet ih =>
    have hbefore : Along (talk punctual fingerprint) Uncommented init s := ⟨db,hdb,hfrom⟩
    have hcons (e : TalkEvent) (hlog : s'.log = e :: s.log) : CommentsFirst s'.log := by
      rw [hlog]
      refine List.pairwise_cons.mpr ⟨fun earlier hmem id hadds hcancels => ?_,ih⟩
      have hopen := talkable_of_comment hbefore hstep hlog hadds
      exact not_talkable_of_cancelled hbefore.reachable hmem hcancels hopen
    cases hstep with
    | raise _ _ _ => exact hcons _ rfl
    | commit _ _ _ _ => exact hcons _ rfl
    | _ => exact ih

/-! Bob comments on Alice's reservation, before she cancels it and while she does. -/

section Alone
variable {db : Talked} {id : ℕ} {draft : CommentDraft} {row : ReservationRow}

/-- A comment once its reservation is read, whatever has become of that. -/
theorem eval_addCommentTo (commentId : ℕ) (createdAt : ℤ) (hopen : row.status ≠ .cancelled)
    (hfree : db.2.get? commentId = none) :
    Eval ⟨CommentRepo.addCommentTo id draft (some row) >>= fun result =>
        (.ret (.inr (.added result)) : Prog Talked (Lock ⊕ CommentLock) ReservationError (Answer ⊕ CommentAnswer)),
      .empty,none⟩ db (.ok (.inr (.added (comment (newComment id draft commentId createdAt)))))
      (insertCommentRow (newComment id draft commentId createdAt) db) := by
  unfold CommentRepo.addCommentTo CommentRepo.insertComment
  have hcheck : ensureCommentable row.status = .ok () := ensureCommentable_ok.mpr hopen
  rw [Prog.bind_assoc,hcheck,Prog.ofExcept_ok,Prog.ret_bind]
  exact eval_perform.mpr ⟨_,⟨commentId,createdAt,hfree,rfl⟩,eval_ret.mpr ⟨trivial,rfl,rfl⟩⟩

theorem addComment_body (punctual : Prop) (fingerprint : String → CreateRequest → String) (id : ℕ)
    (subject displayName : String) (request : CreateCommentRequest) :
    (talk punctual fingerprint).body (.inr (.addComment id subject displayName request)) =
      Prog.query (fun db => db.1.reservations.get? id) >>= fun found =>
        CommentRepo.addCommentTo id (request.draft subject displayName) found >>= fun result =>
          .ret (.inr (.added result)) := by
  have hassoc := Prog.bind_assoc (CommentRepo.addComment id (request.draft subject displayName))
    (fun result => .ret (.added result)) fun a =>
      (.ret (.inr a) : Prog Talked (Lock ⊕ CommentLock) ReservationError (Answer ⊕ CommentAnswer))
  refine hassoc.trans ?_
  unfold CommentRepo.addComment
  exact Prog.bind_assoc _ _ _

end Alone

def hello : CreateCommentRequest := ⟨"hello",by decide,by decide⟩

def bobsComment : CommentRow := newComment 1 (hello.draft "bob" "Bob") 1 0

def openedTalk : Talked := (opened,Table.empty)

def creation : TalkEvent :=
  (.inl (.create "alice" "Alice" "k" anyAtNoon),.ok (.inl (.created ⟨reservation noonRow 0 [],true⟩)))

def cancellation : TalkEvent := (.inl (.cancel 1 "alice"),.ok (.inl .cancelled))

def addition : TalkEvent := (.inr (.addComment 1 "bob" "Bob" hello),.ok (.inr (.added (comment bobsComment))))

theorem runs_opened : Runs ((talk True digest).body (.inl (.create "alice" "Alice" "k" anyAtNoon)))
    (nothingYet,Table.empty) creation.2 openedTalk := by
  have hnoon : startAtFrom noon nothingYet.now = .ok (3 * hour) := by decide
  exact (runs_create True digest 0 rfl hnoon rfl rfl).lift Table.empty

theorem runs_cancelled (comments : Table CommentRow.id) : Runs ((talk True digest).body (.inl (.cancel 1 "alice")))
    (opened,comments) cancellation.2 (afterCancel 1 opened,comments) := by
  have hcheck : ensureCancellable noonRow.hostSubject "alice" noonRow.status noonRow.startAt opened.now = .ok () := by
    decide
  exact (runs_cancel True opened_row hcheck).lift comments

theorem runs_added : Runs ((talk True digest).body (.inr (.addComment 1 "bob" "Bob" hello))) openedTalk addition.2
    (insertCommentRow bobsComment openedTalk) := by
  unfold Runs
  rw [addComment_body,eval_query]
  have hfound : openedTalk.1.reservations.get? 1 = some noonRow := opened_row
  rw [Held.empty_pending,hfound]
  exact eval_addCommentTo 1 0 nofun rfl

theorem uncommented_same (s s' : TalkState) (hdb : s'.db = s.db) : Uncommented s s' := by
  intro id hopen hover
  rw [hdb] at hover
  exact absurd hopen hover

theorem uncommented_quiet (s s' : TalkState) (hquiet : s'.Quiet) : Uncommented s s' := by
  intro id _ _ t c r ht
  rw [hquiet t] at ht
  cases ht

/-- The comment is first. -/
theorem comments_first_added : ∃ s : TalkState, Along (talk True digest) Uncommented InitialTalk s ∧
    s.log = [cancellation,addition,creation] ∧ CommentsFirst s.log := by
  have hempty : Along (talk True digest) Uncommented InitialTalk ⟨(nothingYet,Table.empty),fun _ => none,[]⟩ :=
    ⟨_,⟨⟨rfl,rfl,rfl⟩,rfl⟩,.here⟩
  have hfree (db : Talked) (log : List TalkEvent) : State.Lockless (⟨db,fun _ => none,log⟩ : TalkState) 1 :=
    fun _ _ _ _ ht => by cases ht
  have hopened := hempty.call uncommented_same (t := 1) rfl runs_opened (hfree _ _) fun _ _ =>
    uncommented_quiet _ _ fun _ => rfl
  have hadded := hopened.call uncommented_same (t := 1) rfl runs_added (hfree _ _) fun _ _ =>
    uncommented_quiet _ _ fun _ => rfl
  have hcancelled := hadded.call uncommented_same (t := 1) rfl (runs_cancelled _) (hfree _ _) fun _ _ =>
    uncommented_quiet _ _ fun _ => rfl
  exact ⟨_,hcancelled,rfl,comments_first hcancelled⟩

/-- Bob's comment has read the status and inserted nothing yet. -/
def bobReads : Running Talked (Lock ⊕ CommentLock) ReservationError (Answer ⊕ CommentAnswer) :=
  ⟨CommentRepo.addCommentTo 1 (hello.draft "bob" "Bob") (some noonRow) >>= fun result => .ret (.inr (.added result)),
    .empty,none⟩

def bobHasRead : TalkState := State.put ⟨openedTalk,fun _ => none,[creation]⟩ 1 addition.1 bobReads

theorem reachable_bobHasRead : Reachable (talk True digest) (fun _ _ _ => True) InitialTalk bobHasRead := by
  have hempty : Reachable (talk True digest) (fun _ _ _ => True) InitialTalk
      ⟨(nothingYet,Table.empty),fun _ => none,[]⟩ := .init ⟨⟨rfl,rfl,rfl⟩,rfl⟩
  have hopened := hempty.call (fun _ => rfl) runs_opened fun _ _ => trivial
  have hbody := addComment_body True digest 1 "bob" "Bob" hello
  have hread := hopened.opens (u := 1) rfl hbody
  have hfound : openedTalk.1.reservations.get? 1 = some noonRow := opened_row
  rw [hfound] at hread
  exact hread

/-- Bob's comment commits after Alice has cancelled. -/
theorem comments_late : ¬ ∀ s : TalkState, Reachable (talk True digest) (fun _ _ _ => True) InitialTalk s →
    CommentsFirst s.log := by
  intro h
  have hwaiting : bobHasRead.Lockless 2 := by
    intro t c r _ ht
    simp only [bobHasRead,State.put_running] at ht
    split at ht
    · cases ht
      rfl
    · cases ht
  have hruns : Runs ((talk True digest).body cancellation.1) bobHasRead.db cancellation.2
    (afterCancel 1 opened,Table.empty) := runs_cancelled Table.empty
  have hcancelled := Eval.finish hruns hwaiting (fun _ _ => trivial)
    (reachable_bobHasRead.step (.start cancellation.1 rfl))
  rw [State.drop_of_none rfl] at hcancelled
  have heval := @eval_addCommentTo (afterCancel 1 opened,Table.empty) 1 (hello.draft "bob" "Bob") noonRow 1 0 nofun rfl
  have hfree : State.Lockless
      (⟨(afterCancel 1 opened,Table.empty),fun _ => none,[cancellation,creation]⟩ : TalkState) 1 :=
    fun _ _ _ _ ht => by cases ht
  have hadded := Eval.finish heval hfree (fun _ _ => trivial) hcancelled
  have hfirst := List.pairwise_cons.mp (h _ hadded)
  exact hfirst.1 cancellation List.mem_cons_self 1 rfl rfl

end Tag2now.Reservations
