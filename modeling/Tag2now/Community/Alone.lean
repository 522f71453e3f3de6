import Tag2now.Community.Discipline
import Tag2now.Transactions.Alone

/-! # The board's writes that run alone

How a creation, an edit, a deletion of a comment and a vote end when nothing else happens
meanwhile.
-/
namespace Tag2now.Community
open ReadCommitted Idempotency

section Statements
variable {h : Held Store Lock} {v : Option ((CommunityError → Program Answer) × Held Store Lock)} {db t : Store}
  {out : Except CommunityError Answer}

theorem eval_getPost {k : Post → Program Answer} {id : ℕ} {post : Post}
    (hpost : (h.pending db).board.posts.get? id = some post) :
    Eval ⟨Repo.getPost id >>= k,h,v⟩ db out t ↔ Eval ⟨k post,h,v⟩ db out t := by
  unfold Repo.getPost
  rw [Prog.bind_assoc,eval_query,hpost]
  rfl

theorem eval_lockPost {k : Post → Program Answer} {id : ℕ} {post : Post}
    (hpost : (h.pending db).board.posts.get? id = some post) :
    Eval ⟨Repo.lockPost id >>= k,h,v⟩ db out t ↔
      Eval ⟨k post,⟨h.pending,h.locks ∪ {.post id},h.due⟩,v⟩ db out t := by
  unfold Repo.lockPost
  rw [Prog.bind_assoc,eval_execute,hpost]
  rfl

end Statements

variable (fingerprint : String → Asked → String) {db : Store}

theorem runs_createPost {author : AuthUser} {edit : PostEdit} {key : String} {id : ℕ} (createdAt : ℤ)
    (hmay : ensureCanUsePostType edit.postType author = .ok ()) (hnone : db.keys.get? (author.username,key) = none)
    (hid : id ∉ db.postIds) : Runs (createPost fingerprint author edit key) db
      (.ok (.created ⟨.post (Repo.newPost id author.username edit createdAt),true⟩))
      (onceWritten keyStore fingerprint author.username key "community.post" (.post edit)
        (.post (Repo.newPost id author.username edit createdAt))
        (addPost (Repo.newPost id author.username edit createdAt)) db) := by
  unfold createPost Runs
  rw [hmay,Prog.ofExcept_ok,Prog.ret_bind]
  apply (eval_runOnce_new (S := keyStore) rfl hnone).mpr
  unfold Repo.createPost complete
  rw [Prog.bind_assoc]
  apply eval_perform.mpr
  refine ⟨_,⟨id,createdAt,hid,rfl⟩,?_⟩
  exact eval_execute.mpr (eval_ret.mpr ⟨trivial,rfl,rfl⟩)

/-- The parent, if one is named, is a live top-level comment on the post. -/
def Repliable (db : Board) (postId : ℕ) (parentId : Option ℕ) : Prop :=
  ∀ p ∈ parentId, ∃ row, db.comments.get? p = some row ∧ row.postId = postId ∧ row.deletedAt = none ∧
    row.parentId = none

theorem eval_createComment {draft : Repo.Draft} {id : ℕ} {h : Held Store Lock} {t : Store}
    {out : Except CommunityError Answer} {k : Comment → Program Answer} (createdAt : ℤ) (hne : id ≠ 0)
    (hid : id ∉ db.commentIds) (hpost : (db.board.posts.get? draft.postId).isSome)
    (hparent : Repliable db.board draft.postId draft.parentId) (hboard : (h.pending db).board = db.board)
    (hids : (h.pending db).commentIds = db.commentIds)
    (hk : Eval ⟨k (Repo.newComment draft id createdAt),
      ⟨addComment (Repo.newComment draft id createdAt) ∘ h.pending,h.locks ∪ {.comment id},
        fun db => h.due db ∧ Referenced (Repo.newComment draft id createdAt) db⟩,none⟩ db out t) :
    Eval ⟨Repo.createComment draft >>= k,h,none⟩ db out t := by
  have hrefers : Referenced (Repo.newComment draft id createdAt) (h.pending db) := by
    unfold Referenced
    rw [hboard]
    refine ⟨hpost,fun p hp => ?_⟩
    obtain ⟨row,hrow,_⟩ := hparent p hp
    rw [hrow]
    rfl
  have hinsert : Eval ⟨Repo.insertComment draft >>= k,h,none⟩ db out t := by
    unfold Repo.insertComment
    rw [Prog.bind_assoc]
    apply eval_perform.mpr
    refine ⟨_,⟨id,createdAt,hne,by rwa [hids],.inl ⟨hrefers,rfl⟩⟩,?_⟩
    exact eval_deadline.mpr hk
  have hfound : db.board.posts.get? draft.postId ≠ none := Option.isSome_iff_ne_none.mp hpost
  unfold Repo.createComment
  rw [Prog.bind_assoc]
  apply eval_query.mpr
  rw [hboard,if_neg hfound]
  generalize hnamed : draft.parentId = parentId at hparent
  cases parentId with
  | none => exact hinsert
  | some parent =>
    obtain ⟨row,hrow,hon,hlive,htop⟩ := hparent parent rfl
    have hlook : liveOn draft.postId (some row) = some row := by simp [liveOn,Option.filter,hon,hlive]
    change Eval ⟨(Repo.ensureRepliable draft.postId parent >>= fun _ => Repo.insertComment draft) >>= k,h,none⟩ _ _ _
    unfold Repo.ensureRepliable
    simp only [Prog.bind_assoc]
    apply eval_query.mpr
    rw [hboard,hrow,hlook]
    exact (eval_ensure htop).mpr hinsert

theorem runs_createComment {author : AuthUser} {key text : String} {postId id : ℕ} {parentId : Option ℕ}
    {hb : text.length ≤ 1000} (createdAt : ℤ) (hnone : db.keys.get? (author.username,key) = none) (hne : id ≠ 0)
    (hid : id ∉ db.commentIds) (hpost : (db.board.posts.get? postId).isSome)
    (hparent : Repliable db.board postId parentId) :
    Runs (createComment fingerprint author key ⟨postId,author.username,text,parentId,hb⟩) db
      (.ok (.created ⟨.comment (Repo.newComment ⟨postId,author.username,text,parentId,hb⟩ id createdAt),true⟩))
      (onceWritten keyStore fingerprint author.username key "community.comment" (.comment postId text parentId)
        (.comment (Repo.newComment ⟨postId,author.username,text,parentId,hb⟩ id createdAt))
        (addComment (Repo.newComment ⟨postId,author.username,text,parentId,hb⟩ id createdAt)) db) := by
  have hrefers : Referenced (Repo.newComment ⟨postId,author.username,text,parentId,hb⟩ id createdAt) db := by
    refine ⟨hpost,fun p hp => ?_⟩
    obtain ⟨row,hrow,_⟩ := hparent p hp
    rw [hrow]
    rfl
  unfold createComment Runs
  apply (eval_runOnce_new (S := keyStore) rfl hnone).mpr
  rw [Prog.bind_assoc]
  apply eval_createComment createdAt hne hid hpost hparent rfl rfl
  unfold complete
  exact eval_execute.mpr (eval_ret.mpr ⟨⟨trivial,hrefers⟩,rfl,rfl⟩)

theorem runs_deleteComment {postId commentId : ℕ} {user : AuthUser} (row : Comment) (now : ℤ)
    (hrow : db.board.comments.get? commentId = some row) (hon : row.postId = postId) (hlive : row.deletedAt = none)
    (hmay : ensureCanDeleteComment row user = .ok ()) :
    Runs (deleteComment postId commentId user) db (.ok .commentDeleted) (markDeleted commentId now db) := by
  have hlook : liveOn postId (some row) = some row := by simp [liveOn,Option.filter,hon,hlive]
  unfold deleteComment Repo.getComment Runs
  simp only [Prog.bind_assoc]
  apply eval_query.mpr
  rw [Held.empty_pending,hrow,hlook]
  simp only [Prog.pure_eq,Prog.ret_bind]
  rw [hmay,Prog.ofExcept_ok,Prog.ret_bind]
  exact eval_perform.mpr ⟨_,⟨now,rfl⟩,eval_ret.mpr ⟨trivial,rfl,rfl⟩⟩

/-- An edit after its unlocked read. -/
def afterRead (postId : ℕ) (user : AuthUser) (edit : PostEdit) (post : Post) : Program Answer := do
  .ofExcept (ensureCanManagePost post user)
  let post ← Repo.updatePost postId edit
  pure (.updated post)

/-- An edit is judged on its read, and writes to the row as it is now. -/
theorem eval_afterRead {postId : ℕ} {user : AuthUser} {edit : PostEdit} {read : Post} (post : Post)
    (hmay : CanManage read user) (hpost : db.board.posts.get? postId = some post) :
    Eval ⟨afterRead postId user edit read,.empty,none⟩ db
      (.ok (.updated ⟨editPost edit post,commentCount db.board postId⟩))
      (modifyPost postId (editPost edit) (editPost_id edit) db) := by
  unfold afterRead ensureCanManagePost Repo.updatePost
  rw [if_pos hmay,Prog.ofExcept_ok,Prog.ret_bind]
  simp only [Prog.bind_assoc]
  apply (eval_lockPost hpost).mpr
  exact eval_execute.mpr (eval_query.mpr (eval_ret.mpr ⟨trivial,rfl,rfl⟩))

theorem runs_updatePost {postId : ℕ} {user : AuthUser} {edit : PostEdit} (post : Post)
    (htype : ensureCanUsePostType edit.postType user = .ok ()) (hmay : CanManage post user)
    (hpost : db.board.posts.get? postId = some post) : Runs (updatePost postId user edit) db
      (.ok (.updated ⟨editPost edit post,commentCount db.board postId⟩))
      (modifyPost postId (editPost edit) (editPost_id edit) db) := by
  unfold updatePost Runs
  rw [htype,Prog.ofExcept_ok,Prog.ret_bind]
  exact (eval_getPost hpost).mpr (eval_afterRead post hmay hpost)

theorem runs_addThumb (id : ℕ) {postId : ℕ} {voter : AuthUser} {direction : ℤ} {hd : direction = 1 ∨ direction = -1}
    (post : Post) (hpost : db.board.posts.get? postId = some post)
    (hvoter : ∀ t ∈ votes db postId, t.voter ≠ voter.username) (hfree : db.thumbs.get? id = none) :
    Runs (addThumb postId voter direction hd) db
      (.ok (.thumbs (tally (votes db postId ++ [⟨id,postId,voter.username,direction,hd⟩]) 1)
        (tally (votes db postId ++ [⟨id,postId,voter.username,direction,hd⟩]) (-1))))
      (modifyPost postId (counted (tally (votes db postId ++ [⟨id,postId,voter.username,direction,hd⟩]) 1)
        (tally (votes db postId ++ [⟨id,postId,voter.username,direction,hd⟩]) (-1))) (counted_id _ _)
        (addVote ⟨id,postId,voter.username,direction,hd⟩ db)) := by
  have hnone : ((votes db postId).find? fun t => t.voter = voter.username) = none := by simpa using hvoter
  have hview : votes (addVote ⟨id,postId,voter.username,direction,hd⟩ db) postId =
      votes db postId ++ [⟨id,postId,voter.username,direction,hd⟩] := by
    rw [votes_addVote hfree,if_pos rfl]
  unfold addThumb Repo.addThumb Runs
  simp only [Prog.bind_assoc]
  apply (eval_lockPost hpost).mpr
  apply eval_query.mpr
  rw [Held.empty_pending,hnone]
  simp only [ne_eq,not_true,if_false]
  unfold Repo.insertThumb
  simp only [Prog.bind_assoc]
  apply eval_perform.mpr
  refine ⟨_,⟨id,hfree,.inl ⟨hnone,rfl⟩⟩,?_⟩
  apply eval_query.mpr
  apply eval_execute.mpr
  rw [← hview]
  exact eval_ret.mpr ⟨trivial,rfl,rfl⟩

/-! ## A first post -/

def noPosts : Store := ⟨⟨Table.empty,Table.empty⟩,Table.empty,Table.empty,[],[]⟩

def alice : AuthUser := ⟨"alice",true⟩
def bob : AuthUser := ⟨"bob",true⟩

def rules : PostEdit := ⟨"rules","be kind",noticePostType,[],none,by decide,by decide,Nat.zero_le _⟩

def rulesPost : Post := Repo.newPost 1 "alice" rules 0

def digest (scope : String) : Asked → String
  | .post edit => String.join [scope,edit.title,edit.body,edit.postType]
  | .comment postId body _ => String.join [scope,toString postId,body]

/-- A notice of Alice's. -/
def posted : Store :=
  onceWritten keyStore digest "alice" "k1" "community.post" (.post rules) (.post rulesPost) (addPost rulesPost) noPosts

def postedLog : List (Request × Except CommunityError Answer) :=
  [(.createPost alice rules "k1",.ok (.created ⟨.post rulesPost,true⟩))]

theorem reachable_posted : Reachable (service digest) (fun _ _ _ => True) Initial ⟨posted,fun _ => none,postedLog⟩ := by
  have hinit : Reachable (service digest) (fun _ _ _ => True) Initial ⟨noPosts,fun _ => none,[]⟩ := .init ⟨rfl,rfl,rfl⟩
  have hmay : ensureCanUsePostType rules.postType alice = .ok () := by decide
  have hruns : Runs (createPost digest alice rules "k1") noPosts _ posted :=
    runs_createPost digest 0 hmay rfl (by decide)
  exact hinit.call (fun _ => rfl) (c := .createPost alice rules "k1") hruns fun _ _ => trivial

end Tag2now.Community
