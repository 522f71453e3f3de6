import Tag2now.Community.Alone
import Tag2now.Community.Safety

/-! # The thumbs of a post

A vote is checked for, written and recounted under the lock of its post, so the counters are
those of the votes at every commit, and who has voted is told so.
-/
namespace Tag2now.Community
open ReadCommitted Idempotency

def thumbsOf (votes : List Thumb) (direction : ℤ) : ℕ := votes.countP fun t => t.direction = direction

theorem tally_eq (votes : List Thumb) (direction : ℤ) : tally votes direction = thumbsOf votes direction := by
  unfold tally thumbsOf
  induction votes with
  | nil => rfl
  | cons t votes ih =>
    rw [List.map_cons,List.sum_cons,ih,List.countP_cons]
    by_cases ht : t.direction = direction
    · simp [ht]
      omega
    · simp [ht]

def Voted (db : Store) (postId : ℕ) (voter : String) : Prop := ∃ t ∈ votes db postId, t.voter = voter

section Votes
variable {fingerprint : String → Asked → String} {L : Set Lock} {s t : Store} {c : Request} {a : Answer}

theorem Consistent.single_vote (hs : Consistent s) {v w : Thumb} (hv : v ∈ s.thumbs.rows) (hw : w ∈ s.thumbs.rows)
    (hpost : v.postId = w.postId) (hvoter : v.voter = w.voter) : v = w := by
  have hv : v ∈ votes s w.postId := mem_votes.mpr ⟨hv,hpost⟩
  have hw : w ∈ votes s w.postId := mem_votes.mpr ⟨hw,rfl⟩
  cases hfound : s.board.posts.get? w.postId with
  | none =>
    rw [hs.orphan hfound] at hv
    cases hv
  | some post => exact List.inj_on_of_nodup_map (hs.exact hfound).voters hv hw hvoter

theorem Effect.voted_stays (h : Effect fingerprint L s c a t) (hs : Consistent s) {postId : ℕ} {voter : String}
    (hpost : (t.board.posts.get? postId).isSome) (hvoted : Voted s postId voter) : Voted t postId voter := by
  obtain ⟨thumb,hthumb,hvoter⟩ := hvoted
  refine ⟨thumb,?_,hvoter⟩
  rcases h.post hs postId with ⟨_,hvotes⟩ | ⟨_,_,hmove⟩
  · rwa [hvotes]
  · generalize s.board.posts.get? postId = post?,t.board.posts.get? postId = post'?,votes s postId = taken,
      votes t postId = taken' at hmove hthumb hpost
    cases hmove with
    | created => cases hthumb
    | edited => exact hthumb
    | voted => exact List.mem_append_left _ hthumb
    | dropped => cases hpost

end Votes

/-- A second vote, from a state on in which the first is stored. -/
def refusing (postId : ℕ) (voter : String) : Agreement Store Lock Request CommunityError Answer where
  Inv s := Consistent s ∧ postId ∈ s.postIds ∧ ((s.board.posts.get? postId).isSome → Voted s postId voter)
  Rely := Rely
  Commit _ _ _ _ _ := False
  Fail _ e s := e = alreadyVoted ∨ (e = postNotFound ∧ s.board.posts.get? postId = none)
  rely_refl := Rely.refl
  rely_trans := Rely.trans
  rely_mono := Rely.mono

theorem safe_secondThumb (postId : ℕ) (voter : AuthUser) (direction : ℤ) (hd : direction = 1 ∨ direction = -1)
    (s : Store) : Safe (refusing postId voter.username) (.addThumb postId voter direction hd)
      (addThumb postId voter direction hd) .empty s := by
  unfold addThumb Repo.addThumb
  simp only [Prog.bind_assoc]
  refine safe_lockPost (fun _ => rfl) ?_ ?_
  · intro s₁ _ hi₁ hnone s₂ hr₂ _
    refine .inr ⟨rfl,?_⟩
    cases hpost : s₂.board.posts.get? postId with
    | none => rfl
    | some post =>
      obtain ⟨before,hbefore,_⟩ := hr₂.post hi₁.2.1 hpost
      rw [hnone] at hbefore
      cases hbefore
  · intro s₁ post _ _ hl
    rw [safe_query]
    intro s₂ hr₂ hi₂
    have hl := hl.rely hr₂
    obtain ⟨thumb,hthumb,hvoter⟩ := hi₂.2.2 (by rw [hl.post]; rfl)
    have hfound : ((votes s₂ postId).find? fun t => t.voter = voter.username) ≠ none := by
      intro hnone
      have hno := List.find?_eq_none.mp hnone thumb hthumb
      simp [hvoter] at hno
    have hview : votes ((Held.empty : Held Store Lock).pending s₂) postId = votes s₂ postId := rfl
    simp only [hview,hfound,ne_eq,not_false_eq_true,if_true]
    exact fun _ _ _ => .inl rfl

variable (fingerprint : String → Asked → String) {s : State Store Lock Request CommunityError Answer}

/-- A post with a vote keeps it to its end. -/
theorem refusing_step (hs : Reachable (service fingerprint) (fun _ _ _ => True) Initial s)
    {s' : State Store Lock Request CommunityError Answer} (hstep : Step (service fingerprint) (fun _ _ _ => True) s s')
    {postId : ℕ} {voter : String} (hi : (refusing postId voter).Inv s.db) : (refusing postId voter).Inv s'.db := by
  have hi' : Consistent s'.db := ((hs.step hstep).refines sound).2.1
  obtain ⟨hc,hid,hvoted⟩ := hi
  cases hstep with
  | env h => exact h.elim
  | commit ht hp hdue _ =>
    have heffect : Effect fingerprint _ s.db _ _ _ := hs.commits sound ht hp hdue
    refine ⟨hi',heffect.postIds_subset hid,fun hpost => heffect.voted_stays hc hpost (hvoted ?_)⟩
    obtain ⟨post',hpost'⟩ := Option.isSome_iff_exists.mp hpost
    obtain ⟨post,hbefore,_⟩ := (heffect.rely hc (Set.empty_disjoint _)).post hid hpost'
    rw [hbefore]
    rfl
  | _ => exact ⟨hi',hid,hvoted⟩

/-- What each call is told from `s` on: a second vote that begins later, that the first is there. -/
def told (s : State Store Lock Request CommunityError Answer) (postId : ℕ) (voter : String) (u : ℕ) :
    Request → Agreement Store Lock Request CommunityError Answer
  | .addThumb postId' voter' _ _ =>
    if postId' = postId ∧ voter'.username = voter ∧ (s.running u).isNone then refusing postId voter else .anything
  | _ => .anything

theorem told_or (s : State Store Lock Request CommunityError Answer) (postId : ℕ) (voter : String) (u : ℕ)
    (c : Request) :
    told s postId voter u c = .anything ∨ (told s postId voter u c = refusing postId voter ∧ s.running u = none ∧
      ∃ voter' direction hd, c = .addThumb postId voter' direction hd ∧ voter'.username = voter) := by
  cases c with
  | addThumb postId' voter' direction hd =>
    by_cases h : postId' = postId ∧ voter'.username = voter ∧ (s.running u).isNone
    · have htold : told s postId voter u (.addThumb postId' voter' direction hd) = refusing postId voter := if_pos h
      obtain ⟨rfl,hvoter,hnone⟩ := h
      exact .inr ⟨htold,Option.isNone_iff_eq_none.mp hnone,voter',direction,hd,rfl,hvoter⟩
    · exact .inl (if_neg h)
  | _ => exact .inl rfl

/-- From a state with the vote on, the calls of its voter that begin later are refused. -/
theorem told_allSafe (hs : Reachable (service fingerprint) (fun _ _ _ => True) Initial s) {postId : ℕ} {voter : String}
    (hi : (refusing postId voter).Inv s.db) {s₁ : State Store Lock Request CommunityError Answer}
    (hlater : From (service fingerprint) (fun _ _ => True) s s₁) :
    (refusing postId voter).Inv s₁.db ∧ AllSafe (told s postId voter) s₁ := by
  have hinv (s₁) (hlater : From (service fingerprint) (fun _ _ => True) s s₁) : (refusing postId voter).Inv s₁.db := by
    induction hlater with
    | here => exact hi
    | step hfrom hstep _ ih => exact refusing_step fingerprint (hfrom.reachable hs) hstep ih
  refine ⟨hinv s₁ hlater,hlater.allSafe hs ?_ ?_ ?_ ?_⟩
  · intro u c r hu
    rcases told_or s postId voter u c with hany | ⟨_,hnone,_⟩
    · rw [hany]
      exact ⟨safe_anything _ _ _ _,fun _ _ _ _ => safe_anything _ _ _ _⟩
    · rw [hnone] at hu
      cases hu
  · intro s' hfrom u c
    rcases told_or s postId voter u c with hany | ⟨hrefusing,_⟩
    · rw [hany]
      trivial
    · rw [hrefusing]
      exact hinv s' hfrom
  · intro u c db
    rcases told_or s postId voter u c with hany | ⟨hrefusing,_,voter',direction,hd,rfl,rfl⟩
    · rw [hany]
      exact safe_anything _ _ _ _
    · rw [hrefusing]
      exact safe_secondThumb postId voter' direction hd db
  · intro s' s'' hfrom hstep _ u c r hu hu'
    left
    rcases told_or s postId voter u c with hany | ⟨hrefusing,_⟩
    · rw [hany]
      trivial
    · rw [hrefusing]
      exact (hfrom.reachable hs).relies sound hstep hu hu'

/-- A vote that is answered is the first of its voter, and answers the counts with it. -/
theorem vote_added (hs : Reachable (service fingerprint) (fun _ _ _ => True) Initial s)
    {s' : State Store Lock Request CommunityError Answer} {postId : ℕ} {voter : AuthUser} {direction : ℤ}
    {hd : direction = 1 ∨ direction = -1} {a : Answer} (hstep : Step (service fingerprint) (fun _ _ _ => True) s s')
    (hlog : s'.log = (.addThumb postId voter direction hd,.ok a) :: s.log) : ¬ Voted s.db postId voter.username ∧
      a = .thumbs (thumbsOf (votes s'.db postId) 1) (thumbsOf (votes s'.db postId) (-1)) ∧
      ∃ id, s'.db.thumbs.rows = s.db.thumbs.rows ++ [⟨id,postId,voter.username,direction,hd⟩] := by
  obtain ⟨t,r,ht,_,⟨_,_,_,hout,_⟩ | ⟨a',hp,hdue,hout,hdb⟩⟩ := hstep.logged hlog
  · cases hout
  · cases hout
    have heffect : Effect fingerprint _ s.db _ _ _ := hs.commits sound ht hp hdue
    rw [← hdb] at heffect
    generalize s'.db = db' at heffect
    cases heffect with
    | replayed hc => exact hc.elim
    | @voted _ _ _ _ post id _ _ hfree hpost hvoter =>
      have hvotes : votes (addVote ⟨id,postId,voter.username,direction,hd⟩ s.db) postId =
          votes s.db postId ++ [⟨id,postId,voter.username,direction,hd⟩] := by
        rw [votes_addVote hfree,if_pos rfl]
      refine ⟨?_,?_,id,Table.insert_rows hfree⟩
      · rintro ⟨thumb,hthumb,hsame⟩
        exact hvoter thumb hthumb hsame
      · change _ = Answer.thumbs (thumbsOf (votes (addVote ⟨id,postId,voter.username,direction,hd⟩ s.db) postId) 1)
          (thumbsOf (votes (addVote ⟨id,postId,voter.username,direction,hd⟩ s.db) postId) (-1))
        rw [hvotes,tally_eq,tally_eq]

theorem vote_refused (hs : Reachable (service fingerprint) (fun _ _ _ => True) Initial s) {thumb : Thumb}
    (hthumb : thumb ∈ s.db.thumbs.rows) {s₁ s₂ : State Store Lock Request CommunityError Answer}
    (hlater : From (service fingerprint) (fun _ _ => True) s s₁)
    (hstep : Step (service fingerprint) (fun _ _ _ => True) s₁ s₂) {t : ℕ} {voter : AuthUser} {direction : ℤ}
    {hd : direction = 1 ∨ direction = -1} {r : Running Store Lock CommunityError Answer}
    {out : Except CommunityError Answer} (hvoter : voter.username = thumb.voter) (hnone : s.running t = none)
    (ht : s₁.running t = some (.addThumb thumb.postId voter direction hd,r)) (hend : s₂.running t = none)
    (hlog : s₂.log = (.addThumb thumb.postId voter direction hd,out) :: s₁.log) :
    s₂.db = s₁.db ∧ (out = .error alreadyVoted ∨
      (out = .error postNotFound ∧ s₁.db.board.posts.get? thumb.postId = none)) := by
  have hi : Consistent s.db := (hs.refines sound).2.1
  have hon : thumb ∈ votes s.db thumb.postId := mem_votes.mpr ⟨hthumb,rfl⟩
  have hpost : thumb.postId ∈ s.db.postIds := by
    cases hfound : s.db.board.posts.get? thumb.postId with
    | none =>
      rw [hi.orphan hfound] at hon
      cases hon
    | some post => exact hi.postIds hfound
  obtain ⟨hinv,hsafe⟩ := told_allSafe fingerprint hs ⟨hi,hpost,fun _ => ⟨thumb,hon,rfl⟩⟩ hlater
  have htold : told s thumb.postId thumb.voter t (.addThumb thumb.postId voter direction hd) =
      refusing thumb.postId thumb.voter := if_pos ⟨rfl,hvoter,by rw [hnone]; rfl⟩
  have hcall := (hsafe t _ r ht).1
  rw [htold] at hcall
  obtain ⟨t',r',ht',hrun,hout⟩ := hstep.logged hlog
  have hsame : t = t' := by
    by_contra hne
    rw [hrun,State.drop_running,if_neg hne,ht] at hend
    cases hend
  rw [← hsame,ht] at ht'
  cases ht'
  rcases hout with ⟨e,hp,_,rfl,hdb⟩ | ⟨a,hp,hdue,_⟩
  · rw [hp] at hcall
    refine ⟨hdb,?_⟩
    rcases hcall s₁.db (Rely.refl _ _) hinv with rfl | ⟨rfl,hgone⟩
    · exact .inl rfl
    · exact .inr ⟨rfl,hgone⟩
  · rw [hp] at hcall
    exact (hcall s₁.db (Rely.refl _ _) hinv hdue).elim

/-- The counters, the votes and the calls that vote, in any run. -/
theorem thumbs_exact (hs : Reachable (service fingerprint) (fun _ _ _ => True) Initial s) :
    (∀ post ∈ s.db.board.posts.rows, post.thumbsUp = thumbsOf (votes s.db post.id) 1 ∧
      post.thumbsDown = thumbsOf (votes s.db post.id) (-1)) ∧
    (∀ v ∈ s.db.thumbs.rows, ∀ w ∈ s.db.thumbs.rows, v.postId = w.postId → v.voter = w.voter → v = w) ∧
    -- a call that answers has added one vote, of one who had none, and answers the counts with it
    (∀ s' postId voter direction hd a, Step (service fingerprint) (fun _ _ _ => True) s s' →
      s'.log = (.addThumb postId voter direction hd,.ok a) :: s.log → ¬ Voted s.db postId voter.username ∧
        a = .thumbs (thumbsOf (votes s'.db postId) 1) (thumbsOf (votes s'.db postId) (-1)) ∧
        ∃ id, s'.db.thumbs.rows = s.db.thumbs.rows ++ [⟨id,postId,voter.username,direction,hd⟩]) ∧
    -- one that begins when its voter has voted is refused, and leaves everything as it is
    ∀ thumb ∈ s.db.thumbs.rows, ∀ s₁ s₂, From (service fingerprint) (fun _ _ => True) s s₁ →
      Step (service fingerprint) (fun _ _ _ => True) s₁ s₂ → ∀ t voter direction hd r out,
      voter.username = thumb.voter → s.running t = none →
      s₁.running t = some (.addThumb thumb.postId voter direction hd,r) → s₂.running t = none →
      s₂.log = (.addThumb thumb.postId voter direction hd,out) :: s₁.log →
        s₂.db = s₁.db ∧ (out = .error alreadyVoted ∨
          (out = .error postNotFound ∧ s₁.db.board.posts.get? thumb.postId = none)) := by
  have hi : Consistent s.db := (hs.refines sound).2.1
  refine ⟨?_,fun v hv w hw => hi.single_vote hv hw,?_,?_⟩
  · intro post hpost
    have hexact := hi.exact (Table.get?_of_mem hpost)
    exact ⟨hexact.up.trans (tally_eq _ _),hexact.down.trans (tally_eq _ _)⟩
  · intro s' postId voter direction hd a hstep hlog
    exact vote_added fingerprint hs hstep hlog
  · intro thumb hthumb s₁ s₂ hlater hstep t voter direction hd r out hvoter hnone ht hend hlog
    exact vote_refused fingerprint hs hthumb hlater hstep hvoter hnone ht hend hlog

/-! Bob likes the rules. -/

def liked : Store :=
  modifyPost 1 (counted 1 0) (counted_id 1 0) (addVote ⟨1,1,"bob",1,.inl rfl⟩ posted)

theorem reachable_liked : ∃ log, Reachable (service digest) (fun _ _ _ => True) Initial ⟨liked,fun _ => none,log⟩ := by
  have hruns : Runs (addThumb 1 bob 1 (.inl rfl)) posted _ liked :=
    runs_addThumb 1 rulesPost rfl nofun rfl
  exact ⟨_,reachable_posted.call (fun _ => rfl) (c := .addThumb 1 bob 1 (.inl rfl)) hruns fun _ _ => trivial⟩

/-- His second vote, either way, is refused. -/
theorem thumbs_exact_liked : (∀ post ∈ liked.board.posts.rows, post.thumbsUp = 1 ∧ post.thumbsDown = 0) ∧
    ∃ log, Reachable (service digest) (fun _ _ _ => True) Initial ⟨liked,fun _ => none,log⟩ ∧
      ∀ s' a, Step (service digest) (fun _ _ _ => True) ⟨liked,fun _ => none,log⟩ s' →
        s'.log ≠ (.addThumb 1 bob (-1) (.inr rfl),.ok a) :: log := by
  obtain ⟨log,hreach⟩ := reachable_liked
  have hexact := thumbs_exact digest hreach
  refine ⟨?_,log,hreach,?_⟩
  · intro post hpost
    have hid : post.id = 1 := by
      have hrows : liked.board.posts.rows = [counted 1 0 rulesPost] := by decide
      change post ∈ liked.board.posts.rows at hpost
      rw [hrows,List.mem_singleton] at hpost
      rw [hpost]
      rfl
    have hcount := hexact.1 post hpost
    rw [hid] at hcount
    exact hcount
  · intro s' a hstep hlog
    have hnot := (hexact.2.2.1 s' 1 bob (-1) (.inr rfl) a hstep hlog).1
    have hvote : ⟨1,1,"bob",1,.inl rfl⟩ ∈ votes liked 1 := by decide
    exact hnot ⟨_,hvote,rfl⟩

end Tag2now.Community
