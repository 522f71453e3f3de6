import Tag2now.Community.Alone
import Tag2now.Community.Safety

/-! # Who changes a post

An edit and a deletion are judged on a post read without its lock. An admin who is not its
author may manage it while it is a notice, and its author may end that between the judgement
and the commit. Where no commit does so under an admin who has begun, every change is by one
who may manage the version it replaces.
-/
namespace Tag2now.Community
open ReadCommitted Idempotency

def Request.manages : Request → Option (ℕ × AuthUser)
  | .updatePost postId user _ => some (postId,user)
  | .deletePost postId user => some (postId,user)
  | _ => none

def content (post : Post) : String × String × String × String × List String × Option String :=
  (post.author,post.title,post.body,post.postType,post.characters,post.youtubeVideoId)

variable (fingerprint : String → Asked → String)

/-- A commit that makes a notice an ordinary post finds no other edit or deletion of it under way
by an admin who is not its author. -/
def Undisturbed (s s' : State Store Lock Request CommunityError Answer) : Prop :=
  ∀ id post post', s.db.board.posts.get? id = some post → s'.db.board.posts.get? id = some post' →
    post.postType = noticePostType → post'.postType ≠ noticePostType →
    ∀ t c r user, s'.running t = some (c,r) → c.manages = some (id,user) → user.admin = true →
      post.author ≠ user.username → r = ⟨body fingerprint c,.empty,none⟩

/-- Who could manage the post still can, as long as it is there. -/
structure Keeps (id : ℕ) (user : AuthUser) (s t : Store) : Prop where
  postIds : s.postIds ⊆ t.postIds
  post : ∀ {post'}, id ∈ s.postIds → t.board.posts.get? id = some post' →
    ∃ post, s.board.posts.get? id = some post ∧ (CanManage post user → CanManage post' user)

theorem Keeps.trans {id : ℕ} {user : AuthUser} {s t u : Store} (h : Keeps id user s t) (k : Keeps id user t u) :
    Keeps id user s u := by
  refine ⟨fun _ hid => k.postIds (h.postIds hid),fun hid hpost' => ?_⟩
  obtain ⟨mid,hmid,hkeeps'⟩ := k.post (h.postIds hid) hpost'
  obtain ⟨post,hpost,hkeeps⟩ := h.post hid hmid
  exact ⟨post,hpost,fun hmay => hkeeps' (hkeeps hmay)⟩

/-- The post is written by one who may manage it. -/
def managing (id : ℕ) (user : AuthUser) : Agreement Store Lock Request CommunityError Answer where
  Inv := Consistent
  Rely _ := Keeps id user
  Commit _ _ _ s _ := ∀ post, s.board.posts.get? id = some post → CanManage post user
  Fail _ _ _ := True
  rely_refl _ _ := ⟨fun _ h => h,fun _ h => ⟨_,h,fun h => h⟩⟩
  rely_trans := Keeps.trans
  rely_mono _ h := h

theorem managing_lenient {id : ℕ} {user : AuthUser} {c : Request} : (managing id user).Lenient c :=
  fun _ _ => trivial

section Managing
variable {id : ℕ} {user : AuthUser} {c : Request} {s t : Store}

theorem Keeps.canManage (h : Keeps id user s t) (hi : Consistent s) {post : Post}
    (hpost : s.board.posts.get? id = some post) (hmay : CanManage post user) :
    ∀ post', t.board.posts.get? id = some post' → CanManage post' user := by
  intro post' hpost'
  obtain ⟨before,hbefore,hkeeps⟩ := h.post (hi.postIds hpost) hpost'
  cases hpost.symm.trans hbefore
  exact hkeeps hmay

theorem canManage_of_ok {post : Post} {u : Unit} (h : ensureCanManagePost post user = .ok u) : CanManage post user := by
  unfold ensureCanManagePost at h
  split at h
  · assumption
  · cases h

theorem safe_managing_update (edit : PostEdit) (s : Store) :
    Safe (managing id user) (.updatePost id user edit) (updatePost id user edit) .empty s := by
  unfold updatePost
  refine safe_ofExcept managing_lenient fun _ _ => ?_
  refine safe_getPost (fun _ => rfl) (fun _ _ _ _ _ _ _ => trivial) fun s₁ post _ hi₁ hpost => ?_
  refine safe_ofExcept managing_lenient fun _ hcheck => ?_
  have hmay := canManage_of_ok hcheck
  unfold Repo.updatePost Repo.setPost
  simp only [Prog.bind_assoc]
  refine safe_lockPost (fun _ => rfl) (fun _ _ _ _ _ _ _ => trivial) fun s₂ _ hr₂ _ _ => ?_
  rw [safe_execute]
  intro s₃ hr₃ _
  rw [safe_query]
  intro s₄ hr₄ _ s₅ hr₅ _ _
  have hkeeps : Keeps id user s₁ s₅ := ((hr₂.trans hr₃).trans hr₄).trans hr₅
  exact hkeeps.canManage hi₁ hpost hmay

theorem safe_managing_delete (s : Store) :
    Safe (managing id user) (.deletePost id user) (deletePost id user) .empty s := by
  unfold deletePost
  refine safe_getPost (fun _ => rfl) (fun _ _ _ _ _ _ _ => trivial) fun s₁ post _ hi₁ hpost => ?_
  refine safe_ofExcept managing_lenient fun _ hcheck => ?_
  have hmay := canManage_of_ok hcheck
  unfold Repo.deletePost
  simp only [Prog.bind_assoc]
  refine safe_getPost (fun _ => rfl) (fun _ _ _ _ _ _ _ => trivial) fun s₂ _ hr₂ _ _ => ?_
  rw [safe_execute]
  intro s₃ hr₃ _ s₄ hr₄ _ _
  have hkeeps : Keeps id user s₁ s₄ := (hr₂.trans hr₃).trans hr₄
  exact hkeeps.canManage hi₁ hpost hmay

end Managing

/-- What each call is told: an edit and a deletion, that the right to make it lasts. -/
def entrusted (c : Request) : Agreement Store Lock Request CommunityError Answer :=
  match c.manages with
  | some (id,user) => managing id user
  | none => .anything

theorem entrusted_eq {c : Request} {id : ℕ} {user : AuthUser} (hc : c.manages = some (id,user)) :
    entrusted c = managing id user := by
  unfold entrusted
  rw [hc]

theorem safe_entrusted (c : Request) (s : Store) : Safe (entrusted c) c (body fingerprint c) .empty s := by
  cases c with
  | updatePost id user edit => exact safe_managing_update edit s
  | deletePost id user => exact safe_managing_delete s
  | _ => exact safe_anything _ _ _ _

section Runs
variable {fingerprint} {s s' : State Store Lock Request CommunityError Answer}

theorem keeps_of_undisturbed (hs : Reachable (service fingerprint) (fun _ _ _ => True) Initial s)
    (hstep : Step (service fingerprint) (fun _ _ _ => True) s s') (hquiet : Undisturbed fingerprint s s') {t id : ℕ}
    {c : Request} {r : Running Store Lock CommunityError Answer} {user : AuthUser} (hc : c.manages = some (id,user))
    (ht : s.running t = some (c,r)) (ht' : s'.running t = some (c,r)) :
    Keeps id user s.db s'.db ∨ r = ⟨body fingerprint c,.empty,none⟩ := by
  have hrely : Rely r.held.locks s.db s'.db := hs.relies sound hstep ht ht'
  by_cases hlost : ∃ post post', s.db.board.posts.get? id = some post ∧ s'.db.board.posts.get? id = some post' ∧
      CanManage post user ∧ ¬ CanManage post' user
  · right
    obtain ⟨post,post',hpost,hpost',hmay,hnot⟩ := hlost
    have hid := (hs.refines sound).2.1.postIds hpost
    obtain ⟨before,hbefore,hauthor⟩ := hrely.post hid hpost'
    cases hpost.symm.trans hbefore
    have hother : post.author ≠ user.username := fun hmine => hnot (.inl (hauthor.trans hmine))
    obtain ⟨hnotice,hadmin⟩ := hmay.resolve_left hother
    have hends : post'.postType ≠ noticePostType := fun hstill => hnot (.inr ⟨hstill,hadmin⟩)
    exact hquiet id post post' hpost hpost' hnotice hends t c r user ht' hc hadmin hother
  · left
    refine ⟨hrely.postIds,fun hid hpost' => ?_⟩
    obtain ⟨post,hpost,_⟩ := hrely.post hid hpost'
    exact ⟨post,hpost,fun hmay => by_contra fun hnot => hlost ⟨post,_,hpost,hpost',hmay,hnot⟩⟩

theorem entrusted_allSafe (hs : Along (service fingerprint) (Undisturbed fingerprint) Initial s) :
    AllSafe (fun _ => entrusted) s := by
  obtain ⟨db,hdb,hfrom⟩ := hs
  have hinit : Reachable (service fingerprint) (fun _ _ _ => True) Initial ⟨db,fun _ => none,[]⟩ := .init hdb
  refine hfrom.allSafe hinit nofun ?_ (fun _ => safe_entrusted fingerprint) ?_
  · intro s' hfrom t c
    unfold entrusted
    split
    · exact ((hfrom.reachable hinit).refines sound).2.1
    · trivial
  · intro s' s'' hfrom hstep hquiet t c r ht ht'
    unfold entrusted
    split
    · rename_i hc
      exact keeps_of_undisturbed (hfrom.reachable hinit) hstep hquiet hc ht ht'
    · exact .inl trivial

theorem content_counted {db : Store} {postId id : ℕ} {post : Post} {up down : ℤ}
    (hpost : db.board.posts.get? id = some post) :
    ∃ post', (modifyPost postId (counted up down) (counted_id up down) db).board.posts.get? id = some post' ∧
      content post' = content post := by
  rw [get?_modifyPost,hpost]
  split
  · exact ⟨_,rfl,rfl⟩
  · exact ⟨_,rfl,rfl⟩

/-- A commit that takes a post away, or changes more than its counters, is an edit or a deletion of it. -/
theorem Effect.manages {L : Set Lock} {s t : Store} {c : Request} {a : Answer} (h : Effect fingerprint L s c a t)
    (hs : Consistent s) {id : ℕ} {post : Post} (hpost : s.board.posts.get? id = some post)
    (hchange : ∀ post', t.board.posts.get? id = some post' → content post' ≠ content post) :
    ∃ user, c.manages = some (id,user) := by
  cases h with
  | replayed => exact absurd rfl (hchange post hpost)
  | @posted author edit key k createdAt _ _ hid _ =>
    have hget : (addPost (Repo.newPost k author.username edit createdAt) s).board.posts.get? id = some post := by
      rw [get?_addPost (hs.freshPost hid),if_neg,hpost]
      rintro rfl
      exact hid (hs.postIds hpost)
    exact absurd rfl (hchange post hget)
  | @edited postId user edit _ _ _ _ =>
    by_cases hid : id = postId
    · exact ⟨user,by rw [hid]; rfl⟩
    · have hget := (get?_modifyPost (editPost edit) (editPost_id edit)).trans ((if_neg hid).trans hpost)
      exact absurd rfl (hchange post hget)
  | @dropped postId user _ =>
    by_cases hid : id = postId
    · exact ⟨user,by rw [hid]; rfl⟩
    · have hget := get?_dropPost.trans ((if_neg hid).trans hpost)
      exact absurd rfl (hchange post hget)
  | commented => exact absurd rfl (hchange post hpost)
  | marked => exact absurd rfl (hchange post hpost)
  | @voted postId voter direction hd _ k _ _ _ _ _ =>
    obtain ⟨post',hget,hsame⟩ := @content_counted (addVote ⟨k,postId,voter.username,direction,hd⟩ s) postId id post
      (tally (votes s postId ++ [⟨k,postId,voter.username,direction,hd⟩]) 1)
      (tally (votes s postId ++ [⟨k,postId,voter.username,direction,hd⟩]) (-1)) hpost
    exact absurd hsame (hchange post' hget)

end Runs

variable {s : State Store Lock Request CommunityError Answer}

/-- Every change and every deletion of a post is by one who may manage the version it replaces. -/
theorem posts_managed (hs : Along (service fingerprint) (Undisturbed fingerprint) Initial s)
    {s' : State Store Lock Request CommunityError Answer} (hstep : Step (service fingerprint) (fun _ _ _ => True) s s')
    {id : ℕ} {post : Post} (hpost : s.db.board.posts.get? id = some post)
    (hchange : ∀ post', s'.db.board.posts.get? id = some post' → content post' ≠ content post) :
    ∃ c a user, s'.log = (c,.ok a) :: s.log ∧ c.manages = some (id,user) ∧
      (post.author = user.username ∨ (post.postType = noticePostType ∧ user.admin = true)) := by
  have hreach := hs.reachable
  have hi : Consistent s.db := (hreach.refines sound).2.1
  have hsafe := entrusted_allSafe hs
  cases hstep with
  | env h => exact h.elim
  | @commit t c r a ht hp hdue _ =>
    have heffect : Effect fingerprint _ s.db _ _ _ := hreach.commits sound ht hp hdue
    obtain ⟨user,hc⟩ := heffect.manages hi hpost hchange
    have hcall : Safe (entrusted c) c r.prog r.held s.db := (hsafe t c r ht).1
    rw [entrusted_eq hc,hp] at hcall
    exact ⟨c,a,user,rfl,hc,hcall s.db ((managing id user).rely_refl _ _) hi hdue post hpost⟩
  | _ => exact absurd rfl (hchange post hpost)

/-! Alice makes her notice an ordinary post, alone and while Bob, an admin too, edits it. -/

def ordinary : PostEdit := { rules with postType := "자유" }

def amended : PostEdit := { ordinary with body := "or else", body_length := by decide }

def ordinaryPost : Post := editPost ordinary rulesPost

def madeOrdinary : Store := modifyPost 1 (editPost ordinary) (editPost_id _) posted

/-- A step that leaves the board disturbs nobody. -/
theorem undisturbed_same {fingerprint : String → Asked → String} (s s' : State Store Lock Request CommunityError Answer)
    (hdb : s'.db = s.db) : Undisturbed fingerprint s s' := by
  intro id post post' hpost hpost' hnotice hends
  rw [hdb,hpost] at hpost'
  cases hpost'
  exact absurd hnotice hends

/-- The author's own edit. -/
theorem posts_managed_author : ∃ s s', Along (service digest) (Undisturbed digest) Initial s ∧
    Step (service digest) (fun _ _ _ => True) s s' ∧ s'.db = madeOrdinary ∧
    ∃ c a user, s'.log = (c,.ok a) :: s.log ∧ c.manages = some (1,user) ∧
      (rulesPost.author = user.username ∨ (rulesPost.postType = noticePostType ∧ user.admin = true)) := by
  have hempty : Along (service digest) (Undisturbed digest) Initial ⟨noPosts,fun _ => none,[]⟩ :=
    ⟨noPosts,⟨rfl,rfl,rfl⟩,.here⟩
  have hposted : Runs (createPost digest alice rules "k1") noPosts _ posted :=
    runs_createPost digest 0 (by decide) rfl (by decide)
  have hafter := hempty.call undisturbed_same (t := 1) (c := Request.createPost alice rules "k1") rfl hposted
    (fun _ _ _ _ ht => by cases ht) (by
      intro s₁ hdb₁ id post _ hpost
      rw [hdb₁] at hpost
      cases hpost)
  have hruns : Runs (updatePost 1 alice ordinary) posted _ madeOrdinary :=
    runs_updatePost rulesPost (by decide) (by decide) rfl
  obtain ⟨s,hs,hdb,hlog,hstep⟩ :=
    hafter.start undisturbed_same (t := 1) (c := Request.updatePost 1 alice ordinary) rfl hruns
    fun _ _ _ _ ht => by cases ht
  have hfound : posted.board.posts.get? 1 = some rulesPost := rfl
  have hwritten : madeOrdinary.board.posts.get? 1 = some ordinaryPost := by decide
  refine ⟨s,_,hs,hstep,rfl,posts_managed digest hs hstep (hdb ▸ hfound) ?_⟩
  intro post' hpost'
  cases hwritten.symm.trans hpost'
  decide

/-- Bob's edit has read the notice and locked nothing yet. -/
def hasRead : Running Store Lock CommunityError Answer := ⟨afterRead 1 bob amended rulesPost,.empty,none⟩

def bobReads : State Store Lock Request CommunityError Answer :=
  State.put ⟨posted,fun _ => none,postedLog⟩ 1 (.updatePost 1 bob amended) hasRead

theorem reachable_bobReads : Reachable (service digest) (fun _ _ _ => True) Initial bobReads := by
  have htype : ensureCanUsePostType amended.postType bob = .ok () := by decide
  have hbody : ∃ k, (service digest).body (.updatePost 1 bob amended) =
      Prog.query (fun db => db.board.posts.get? 1) >>= k ∧ k (some rulesPost) = afterRead 1 bob amended rulesPost := by
    change ∃ k, updatePost 1 bob amended = _ ∧ _
    unfold updatePost
    rw [htype,Prog.ofExcept_ok,Prog.ret_bind]
    exact ⟨_,Prog.bind_assoc _ _ _,rfl⟩
  obtain ⟨k,hbody,hread⟩ := hbody
  have hopened := reachable_posted.opens (u := 1) rfl hbody
  have hfound : posted.board.posts.get? 1 = some rulesPost := rfl
  rw [hfound,hread] at hopened
  exact hopened

/-- Alice's edit commits meanwhile. -/
theorem reachable_madeOrdinary : ∃ log, Reachable (service digest) (fun _ _ _ => True) Initial
    (State.put ⟨madeOrdinary,fun _ => none,log⟩ 1 (.updatePost 1 bob amended) hasRead) := by
  have hruns : Runs (updatePost 1 alice ordinary) bobReads.db _ madeOrdinary :=
    runs_updatePost rulesPost (by decide) (by decide) rfl
  have hfree : bobReads.Lockless 2 := by
    intro t c r _ ht
    simp only [bobReads,State.put_running] at ht
    split at ht
    · cases ht
      rfl
    · cases ht
  have hend := Eval.finish hruns hfree (fun _ _ => trivial)
    (reachable_bobReads.step (.start (Request.updatePost 1 alice ordinary) rfl))
  rw [State.drop_of_none rfl] at hend
  exact ⟨_,hend⟩

/-- Bob's edit is written to a post that is no notice any more, and not his. -/
theorem posts_managed_late : ¬ ∀ s s' : State Store Lock Request CommunityError Answer,
    Reachable (service digest) (fun _ _ _ => True) Initial s → Step (service digest) (fun _ _ _ => True) s s' →
    ∀ id post, s.db.board.posts.get? id = some post →
      (∀ post', s'.db.board.posts.get? id = some post' → content post' ≠ content post) →
      ∃ c a user, s'.log = (c,.ok a) :: s.log ∧ c.manages = some (id,user) ∧
        (post.author = user.username ∨ (post.postType = noticePostType ∧ user.admin = true)) := by
  intro h
  obtain ⟨log,hreach⟩ := reachable_madeOrdinary
  have hfound : madeOrdinary.board.posts.get? 1 = some ordinaryPost := by decide
  have heval : Eval hasRead madeOrdinary _ (modifyPost 1 (editPost amended) (editPost_id _) madeOrdinary) :=
    eval_afterRead ordinaryPost (by decide) hfound
  have hfree : State.Lockless (⟨madeOrdinary,fun _ => none,log⟩ : State Store Lock Request CommunityError Answer) 1 :=
    fun _ _ _ _ ht => by cases ht
  obtain ⟨s,hs,hdb,hlog,hstep⟩ :=
    Eval.lastStep (fun _ _ hs hstep _ => Reachable.step hs hstep) (s := ⟨madeOrdinary,fun _ => none,log⟩) heval hfree
      (fun _ _ => trivial) hreach
  have hwritten : (modifyPost 1 (editPost amended) (editPost_id _) madeOrdinary).board.posts.get? 1 =
      some (editPost amended ordinaryPost) := by decide
  obtain ⟨c,a,user,hlog',hmanages,hmay⟩ := h s _ hs hstep 1 ordinaryPost (hdb ▸ hfound) (by
    intro post' hpost'
    cases hwritten.symm.trans hpost'
    decide)
  rw [hlog] at hlog'
  cases hlog'
  cases hmanages
  revert hmay
  decide

end Tag2now.Community
