import Tag2now.Community.Service
import Tag2now.Idempotency.Rules

/-! # What a write of the board may count on

A post with its votes is a machine of four moves, and a comment one that is made, marked and
dropped with its post. The holder of a post's lock counts on its row and its votes; everybody
counts on an id naming one row for good.
-/
namespace Tag2now.Community
open ReadCommitted Idempotency

/-! ## One post and its votes -/

/-- The counters are those of the votes, and nobody has voted twice. -/
structure Exact (post : Post) (taken : List Thumb) : Prop where
  up : post.thumbsUp = tally taken 1
  down : post.thumbsDown = tally taken (-1)
  voters : (taken.map (·.voter)).Nodup

inductive PostMove : Option Post → List Thumb → Option Post → List Thumb → Prop
  | created {post : Post} : post.thumbsUp = 0 → post.thumbsDown = 0 → PostMove none [] (some post) []
  | edited {post : Post} {taken : List Thumb} (edit : PostEdit) :
      PostMove (some post) taken (some (editPost edit post)) taken
  | voted {post : Post} {taken : List Thumb} {thumb : Thumb} : (∀ t ∈ taken, t.voter ≠ thumb.voter) →
      PostMove (some post) taken
        (some (counted (tally (taken ++ [thumb]) 1) (tally (taken ++ [thumb]) (-1)) post)) (taken ++ [thumb])
  | dropped {post : Post} {taken : List Thumb} : PostMove (some post) taken none []

theorem PostMove.exact {post? post'? : Option Post} {taken taken' : List Thumb} (h : PostMove post? taken post'? taken')
    (hs : ∀ post, post? = some post → Exact post taken) : ∀ post', post'? = some post' → Exact post' taken' := by
  intro new hnew
  cases h with
  | created hup hdown =>
    cases hnew
    exact ⟨hup,hdown,List.nodup_nil⟩
  | edited edit =>
    cases hnew
    have hok := hs _ rfl
    exact ⟨hok.up,hok.down,hok.voters⟩
  | @voted post taken thumb hvoter =>
    cases hnew
    refine ⟨rfl,rfl,?_⟩
    rw [List.map_append,List.nodup_append]
    refine ⟨(hs _ rfl).voters,List.nodup_singleton _,?_⟩
    intro a ha b hb
    obtain ⟨t,ht,rfl⟩ := List.mem_map.mp ha
    rw [List.map_singleton,List.mem_singleton] at hb
    rw [hb]
    exact hvoter t ht
  | dropped => cases hnew

theorem PostMove.orphan {post? : Option Post} {taken taken' : List Thumb} (h : PostMove post? taken none taken') :
    taken' = [] := by
  cases h
  rfl

theorem PostMove.author {post? : Option Post} {post' : Post} {taken taken' : List Thumb}
    (h : PostMove post? taken (some post') taken') : post? = none ∨ ∃ post, post? = some post ∧
      post'.author = post.author := by
  cases h with
  | created => exact .inl rfl
  | edited => exact .inr ⟨_,rfl,rfl⟩
  | voted => exact .inr ⟨_,rfl,rfl⟩

/-! ## What the writes leave -/

section Writes
variable {db : Store} {id k : ℕ} {post : Post} {comment : Comment} {thumb : Thumb} {now : ℤ}

theorem mem_votes : thumb ∈ votes db k ↔ thumb ∈ db.thumbs.rows ∧ thumb.postId = k := by
  simp [votes]

theorem get?_addPost (hnew : db.board.posts.get? post.id = none) :
    (addPost post db).board.posts.get? k = if k = post.id then some post else db.board.posts.get? k :=
  Table.get?_insert hnew k

theorem get?_modifyPost (f hf) : (modifyPost id f hf db).board.posts.get? k =
    if k = id then (db.board.posts.get? k).map f else db.board.posts.get? k := Table.get?_modify _ _ _ hf

theorem get?_dropPost : (dropPost id db).board.posts.get? k = if k = id then none else db.board.posts.get? k :=
  Table.get?_delete _ _

theorem comments_dropPost : (dropPost id db).board.comments.get? k =
    (db.board.comments.get? k).filter fun c => !decide (c.postId = id) := Table.get?_discard _ _

theorem get?_addComment (hnew : db.board.comments.get? comment.id = none) :
    (addComment comment db).board.comments.get? k = if k = comment.id then some comment else db.board.comments.get? k :=
  Table.get?_insert hnew k

theorem get?_markDeleted : (markDeleted id now db).board.comments.get? k =
    if k = id then (db.board.comments.get? k).map (deletedRow now) else db.board.comments.get? k :=
  Table.get?_modify _ _ _ (deletedRow_id now)

theorem votes_addVote (hnew : db.thumbs.get? thumb.id = none) :
    votes (addVote thumb db) k = votes db k ++ if thumb.postId = k then [thumb] else [] := by
  have hrows : (addVote thumb db).thumbs.rows = db.thumbs.rows ++ [thumb] := Table.insert_rows hnew
  unfold votes
  rw [hrows,List.filter_append]
  congr 1
  by_cases hk : thumb.postId = k <;> simp [hk]

theorem votes_dropPost : votes (dropPost id db) k = if k = id then [] else votes db k := by
  have hrows : (dropPost id db).thumbs.rows = db.thumbs.rows.filter fun t => !decide (t.postId = id) := rfl
  unfold votes
  rw [hrows,List.filter_filter]
  split
  · rename_i hk
    rw [List.filter_eq_nil_iff]
    intro t _
    simp [hk]
  · rename_i hk
    apply List.filter_congr
    intro t _
    by_cases ht : t.postId = k
    · simp [ht,hk]
    · simp [ht]

end Writes

/-! ## The database between commits -/

structure Consistent (db : Store) : Prop where
  postIds : ∀ {id post}, db.board.posts.get? id = some post → id ∈ db.postIds
  commentIds : ∀ {id comment}, db.board.comments.get? id = some comment → id ∈ db.commentIds ∧ id ≠ 0
  onPost : ∀ {id comment}, db.board.comments.get? id = some comment → (db.board.posts.get? comment.postId).isSome
  head : ∀ {id comment parentId}, db.board.comments.get? id = some comment → comment.parentId = some parentId →
    IsHead db.board comment.postId parentId
  exact : ∀ {id post}, db.board.posts.get? id = some post → Exact post (votes db id)
  orphan : ∀ {id}, db.board.posts.get? id = none → votes db id = []
  answered : ∀ {o row}, db.keys.get? o = some row → ∃ response, row.response = some response

theorem Consistent.freshPost {db : Store} (h : Consistent db) {id : ℕ} (hid : id ∉ db.postIds) :
    db.board.posts.get? id = none := by
  cases hpost : db.board.posts.get? id with
  | none => rfl
  | some post => exact absurd (h.postIds hpost) hid

theorem Consistent.freshComment {db : Store} (h : Consistent db) {id : ℕ} (hid : id ∉ db.commentIds) :
    db.board.comments.get? id = none := by
  cases hcomment : db.board.comments.get? id with
  | none => rfl
  | some comment => exact absurd (h.commentIds hcomment).1 hid

structure Rely (L : Set Lock) (s t : Store) : Prop where
  kept : ∀ {o row}, s.keys.get? o = some row → t.keys.get? o = some row
  absent : ∀ {o}, Lock.key o ∈ L → s.keys.get? o = none → t.keys.get? o = none
  held : ∀ {id}, Lock.post id ∈ L → t.board.posts.get? id = s.board.posts.get? id ∧ votes t id = votes s id
  thumb : ∀ {id}, Lock.thumb id ∈ L → s.thumbs.get? id = none → t.thumbs.get? id = none
  postIds : s.postIds ⊆ t.postIds
  newPost : ∀ {id}, Lock.post id ∈ L → id ∉ s.postIds → id ∉ t.postIds
  commentIds : s.commentIds ⊆ t.commentIds
  newComment : ∀ {id}, Lock.comment id ∈ L → id ∉ s.commentIds → id ∉ t.commentIds
  /-- A post that is there was there before, as the same author's. -/
  post : ∀ {id post'}, id ∈ s.postIds → t.board.posts.get? id = some post' →
    ∃ post, s.board.posts.get? id = some post ∧ post'.author = post.author
  comment : ∀ {id comment'}, id ∈ s.commentIds → t.board.comments.get? id = some comment' →
    ∃ comment, s.board.comments.get? id = some comment ∧ comment'.postId = comment.postId ∧
      comment'.parentId = comment.parentId

theorem Rely.refl (L : Set Lock) (s : Store) : Rely L s s where
  kept h := h
  absent _ h := h
  held _ := ⟨rfl,rfl⟩
  thumb _ h := h
  postIds := fun _ h => h
  newPost _ h := h
  commentIds := fun _ h => h
  newComment _ h := h
  post _ h := ⟨_,h,rfl⟩
  comment _ h := ⟨_,h,rfl,rfl⟩

theorem Rely.trans {L : Set Lock} {s t u : Store} (h : Rely L s t) (k : Rely L t u) : Rely L s u where
  kept hr := k.kept (h.kept hr)
  absent hl ha := k.absent hl (h.absent hl ha)
  held hl := ⟨(k.held hl).1.trans (h.held hl).1,(k.held hl).2.trans (h.held hl).2⟩
  thumb hl ha := k.thumb hl (h.thumb hl ha)
  postIds := fun _ hid => k.postIds (h.postIds hid)
  newPost hl hid := k.newPost hl (h.newPost hl hid)
  commentIds := fun _ hid => k.commentIds (h.commentIds hid)
  newComment hl hid := k.newComment hl (h.newComment hl hid)
  post hid hpost := by
    obtain ⟨post',hpost',hauthor'⟩ := k.post (h.postIds hid) hpost
    obtain ⟨post,hpost,hauthor⟩ := h.post hid hpost'
    exact ⟨post,hpost,hauthor'.trans hauthor⟩
  comment hid hcomment := by
    obtain ⟨comment',hcomment',hon',hparent'⟩ := k.comment (h.commentIds hid) hcomment
    obtain ⟨comment,hcomment,hon,hparent⟩ := h.comment hid hcomment'
    exact ⟨comment,hcomment,hon'.trans hon,hparent'.trans hparent⟩

theorem Rely.mono {K L : Set Lock} {s t : Store} (hsub : K ⊆ L) (h : Rely L s t) : Rely K s t :=
  ⟨h.kept,fun hl => h.absent (hsub hl),fun hl => h.held (hsub hl),fun hl => h.thumb (hsub hl),h.postIds,
    fun hl => h.newPost (hsub hl),h.commentIds,fun hl => h.newComment (hsub hl),h.post,h.comment⟩

/-! ## What a commit does -/

def Request.Creates : Request → Prop
  | .createPost .. => True
  | .createComment .. => True
  | _ => False

variable (fingerprint : String → Asked → String)

/-- What each request does, and answers, on the database it commits on. -/
inductive Effect (L : Set Lock) (s : Store) : Request → Answer → Store → Prop
  | replayed {c : Request} {answer : Created} : c.Creates → Effect L s c (.created ⟨answer,false⟩) s
  | posted {author : AuthUser} {edit : PostEdit} {key : String} (id : ℕ) (createdAt : ℤ) :
      s.keys.get? (author.username,key) = none → Lock.key (author.username,key) ∈ L → id ∉ s.postIds →
      Lock.post id ∈ L → Effect L s (.createPost author edit key)
        (.created ⟨.post (Repo.newPost id author.username edit createdAt),true⟩)
        (onceWritten keyStore fingerprint author.username key "community.post" (.post edit)
          (.post (Repo.newPost id author.username edit createdAt))
          (addPost (Repo.newPost id author.username edit createdAt)) s)
  | edited {postId : ℕ} {user : AuthUser} {edit : PostEdit} {post : Post} (count : ℕ) : Lock.post postId ∈ L →
      s.board.posts.get? postId = some post → Effect L s (.updatePost postId user edit)
        (.updated ⟨editPost edit post,count⟩) (modifyPost postId (editPost edit) (editPost_id edit) s)
  | dropped {postId : ℕ} {user : AuthUser} : ((s.board.posts.get? postId).isSome → Lock.post postId ∈ L) →
      Effect L s (.deletePost postId user) .deleted (dropPost postId s)
  | commented {postId : ℕ} {author : AuthUser} {text : String} {parentId : Option ℕ} {key : String}
      {hb : text.length ≤ 1000} (id : ℕ) (createdAt : ℤ) : s.keys.get? (author.username,key) = none →
      Lock.key (author.username,key) ∈ L → id ≠ 0 → id ∉ s.commentIds → Lock.comment id ∈ L →
      (s.board.posts.get? postId).isSome → (∀ parent ∈ parentId, IsHead s.board postId parent) →
      Effect L s (.createComment postId author text parentId key hb)
        (.created ⟨.comment (Repo.newComment ⟨postId,author.username,text,parentId,hb⟩ id createdAt),true⟩)
        (onceWritten keyStore fingerprint author.username key "community.comment" (.comment postId text parentId)
          (.comment (Repo.newComment ⟨postId,author.username,text,parentId,hb⟩ id createdAt))
          (addComment (Repo.newComment ⟨postId,author.username,text,parentId,hb⟩ id createdAt)) s)
  | marked {postId commentId : ℕ} {user : AuthUser} (now : ℤ) :
      (∀ comment, s.board.comments.get? commentId = some comment → comment.postId = postId) →
        Effect L s (.deleteComment postId commentId user) .commentDeleted (markDeleted commentId now s)
  | voted {postId : ℕ} {voter : AuthUser} {direction : ℤ} {hd : direction = 1 ∨ direction = -1} {post : Post} (id : ℕ) :
      Lock.post postId ∈ L → Lock.thumb id ∈ L → s.thumbs.get? id = none → s.board.posts.get? postId = some post →
      (∀ t ∈ votes s postId, t.voter ≠ voter.username) →
      Effect L s (.addThumb postId voter direction hd)
        (.thumbs (tally (votes s postId ++ [⟨id,postId,voter.username,direction,hd⟩]) 1)
          (tally (votes s postId ++ [⟨id,postId,voter.username,direction,hd⟩]) (-1)))
        (modifyPost postId (counted (tally (votes s postId ++ [⟨id,postId,voter.username,direction,hd⟩]) 1)
          (tally (votes s postId ++ [⟨id,postId,voter.username,direction,hd⟩]) (-1))) (counted_id _ _)
          (addVote ⟨id,postId,voter.username,direction,hd⟩ s))

section Effect
variable {fingerprint} {L : Set Lock} {s t : Store} {c : Request} {a : Answer}

theorem Effect.keys (h : Effect fingerprint L s c a t) (o : String × String) : t.keys.get? o = s.keys.get? o ∨
    (s.keys.get? o = none ∧ Lock.key o ∈ L ∧ ∃ row response, t.keys.get? o = some row ∧
      row.response = some response) := by
  have hwritten {subject key scope : String} {request : Asked} {answer : Created} {write : Store → Store}
      (hwrite : ∀ db, (write db).keys = db.keys) (hnone : s.keys.get? (subject,key) = none)
      (hlock : Lock.key (subject,key) ∈ L)
      (ht : t = onceWritten keyStore fingerprint subject key scope request answer write s) :
      t.keys.get? o = s.keys.get? o ∨ (s.keys.get? o = none ∧ Lock.key o ∈ L ∧
        ∃ row response, t.keys.get? o = some row ∧ row.response = some response) := by
    have hlookup : t.keys.get? o = _ := ht ▸ lookup_onceWritten (S := keyStore) hwrite hnone o
    rw [hlookup]
    by_cases ho : o = (subject,key)
    · subst ho
      rw [if_pos rfl]
      exact .inr ⟨hnone,hlock,_,_,rfl,rfl⟩
    · rw [if_neg ho]
      exact .inl rfl
  cases h with
  | replayed => exact .inl rfl
  | posted id createdAt hnone hlock => exact @hwritten _ _ _ _ _ (addPost _) (fun _ => rfl) hnone hlock rfl
  | edited => exact .inl rfl
  | dropped => exact .inl rfl
  | commented id createdAt hnone hlock => exact @hwritten _ _ _ _ _ (addComment _) (fun _ => rfl) hnone hlock rfl
  | marked => exact .inl rfl
  | voted => exact .inl rfl

/-- One move of a post that leaves the others alone. -/
theorem single {s t : Store} {id : ℕ} (hlock : Lock.post id ∈ L)
    (hnew : s.board.posts.get? id = none → id ∉ s.postIds ∧ id ∈ t.postIds)
    (hmove : PostMove (s.board.posts.get? id) (votes s id) (t.board.posts.get? id) (votes t id))
    (hother : ∀ k, k ≠ id → t.board.posts.get? k = s.board.posts.get? k ∧ votes t k = votes s k) (k : ℕ) :
    (t.board.posts.get? k = s.board.posts.get? k ∧ votes t k = votes s k) ∨
      (Lock.post k ∈ L ∧ (s.board.posts.get? k = none → k ∉ s.postIds ∧ k ∈ t.postIds) ∧
        PostMove (s.board.posts.get? k) (votes s k) (t.board.posts.get? k) (votes t k)) := by
  by_cases hk : k = id
  · subst hk
    exact .inr ⟨hlock,hnew,hmove⟩
  · exact .inl (hother k hk)

theorem Effect.post (h : Effect fingerprint L s c a t) (hs : Consistent s) (k : ℕ) :
    (t.board.posts.get? k = s.board.posts.get? k ∧ votes t k = votes s k) ∨
      (Lock.post k ∈ L ∧ (s.board.posts.get? k = none → k ∉ s.postIds ∧ k ∈ t.postIds) ∧
        PostMove (s.board.posts.get? k) (votes s k) (t.board.posts.get? k) (votes t k)) := by
  cases h with
  | replayed => exact .inl ⟨rfl,rfl⟩
  | @posted author edit key id createdAt _ _ hid hlock =>
    have hnone := hs.freshPost hid
    have hget (k : ℕ) : (addPost (Repo.newPost id author.username edit createdAt) s).board.posts.get? k =
        if k = id then some (Repo.newPost id author.username edit createdAt) else s.board.posts.get? k :=
      get?_addPost hnone
    apply single hlock (fun _ => ⟨hid,List.mem_cons_self⟩) _ (fun k hk => ⟨(hget k).trans (if_neg hk),rfl⟩)
    have hvotes : votes s id = [] := hs.orphan hnone
    change PostMove _ _ ((addPost (Repo.newPost id author.username edit createdAt) s).board.posts.get? id) (votes s id)
    rw [hget,if_pos rfl,hnone,hvotes]
    exact .created rfl rfl
  | @edited postId user edit post count hlock hpost =>
    apply single hlock (fun hnone => by rw [hpost] at hnone; cases hnone) _
      (fun k hk => ⟨(get?_modifyPost _ _).trans (if_neg hk),rfl⟩)
    rw [get?_modifyPost,if_pos rfl,hpost]
    exact .edited edit
  | @dropped postId user hlock =>
    cases hpost : s.board.posts.get? postId with
    | none =>
      left
      rw [get?_dropPost,votes_dropPost]
      by_cases hk : k = postId
      · subst hk
        rw [if_pos rfl,if_pos rfl,hs.orphan hpost]
        exact ⟨hpost.symm,rfl⟩
      · rw [if_neg hk,if_neg hk]
        exact ⟨rfl,rfl⟩
    | some post =>
      have hlock := hlock (by rw [hpost]; rfl)
      apply single hlock (fun hnone => by rw [hpost] at hnone; cases hnone) _
        (fun k hk => ⟨get?_dropPost.trans (if_neg hk),votes_dropPost.trans (if_neg hk)⟩)
      rw [get?_dropPost,if_pos rfl,votes_dropPost,if_pos rfl,hpost]
      exact .dropped
  | commented => exact .inl ⟨rfl,rfl⟩
  | marked => exact .inl ⟨rfl,rfl⟩
  | @voted postId voter direction hd post id hlock _ hfree hpost hvoter =>
    have hvotes (k : ℕ) := @votes_addVote s k ⟨id,postId,voter.username,direction,hd⟩ hfree
    apply single hlock (fun hnone => by rw [hpost] at hnone; cases hnone) _ _
    · rw [get?_modifyPost,if_pos rfl]
      change PostMove _ _ ((s.board.posts.get? postId).map _) (votes (addVote _ s) postId)
      rw [hvotes,if_pos rfl,hpost]
      exact .voted hvoter
    · intro k hk
      refine ⟨(get?_modifyPost _ _).trans (if_neg hk),?_⟩
      change votes (addVote _ s) k = _
      rw [hvotes,if_neg (fun h => hk h.symm),List.append_nil]

theorem Effect.postIds (h : Effect fingerprint L s c a t) :
    t.postIds = s.postIds ∨ ∃ id, t.postIds = id :: s.postIds ∧ id ∉ s.postIds ∧ Lock.post id ∈ L := by
  cases h with
  | posted id createdAt _ _ hid hlock => exact .inr ⟨id,rfl,hid,hlock⟩
  | _ => exact .inl rfl

theorem Effect.commentIds (h : Effect fingerprint L s c a t) :
    t.commentIds = s.commentIds ∨ ∃ id, t.commentIds = id :: s.commentIds ∧ id ∉ s.commentIds ∧
      Lock.comment id ∈ L := by
  cases h with
  | commented id createdAt _ _ _ hid hlock => exact .inr ⟨id,rfl,hid,hlock⟩
  | _ => exact .inl rfl

/-- A comment is made, marked or dropped, or stays. -/
inductive CommentMove (s t : Store) (k : ℕ) : Option Comment → Option Comment → Prop
  | kept {comment? : Option Comment} : CommentMove s t k comment? comment?
  | created {comment : Comment} : k ≠ 0 → k ∉ s.commentIds → k ∈ t.commentIds →
      (s.board.posts.get? comment.postId).isSome → t.board.posts = s.board.posts →
      (∀ parent ∈ comment.parentId, IsHead s.board comment.postId parent) →
      CommentMove s t k none (some comment)
  | marked {comment : Comment} (now : ℤ) : CommentMove s t k (some comment) (some (deletedRow now comment))
  | dropped {comment : Comment} : t.board.posts.get? comment.postId = none → CommentMove s t k (some comment) none

theorem Effect.comment (h : Effect fingerprint L s c a t) (hs : Consistent s) (k : ℕ) :
    CommentMove s t k (s.board.comments.get? k) (t.board.comments.get? k) := by
  cases h with
  | replayed => exact .kept
  | posted => exact .kept
  | edited => exact .kept
  | @dropped postId =>
    rw [comments_dropPost]
    cases hk : s.board.comments.get? k with
    | none => exact .kept
    | some comment =>
      by_cases hon : comment.postId = postId
      · have hgone : (dropPost postId s).board.posts.get? comment.postId = none := by rw [get?_dropPost,if_pos hon]
        simpa [Option.filter,hon] using CommentMove.dropped (s := s) (k := k) hgone
      · simpa [Option.filter,hon] using CommentMove.kept
  | @commented postId author text parentId key hb id createdAt _ _ hne hid _ hpost hhead =>
    have hnone := hs.freshComment hid
    have hget :
        (addComment (Repo.newComment ⟨postId,author.username,text,parentId,hb⟩ id createdAt) s).board.comments.get? k =
        if k = id then some (Repo.newComment ⟨postId,author.username,text,parentId,hb⟩ id createdAt)
          else s.board.comments.get? k := get?_addComment hnone
    change CommentMove _ _ _ _
      ((addComment (Repo.newComment ⟨postId,author.username,text,parentId,hb⟩ id createdAt) s).board.comments.get? k)
    rw [hget]
    split
    · rename_i hk
      subst hk
      rw [hnone]
      exact .created hne hid (List.mem_cons_self) hpost rfl hhead
    · exact .kept
  | @marked postId commentId _ now _ =>
    rw [get?_markDeleted]
    split
    · cases s.board.comments.get? k with
      | none => exact .kept
      | some comment => exact .marked now
    · exact .kept
  | voted => exact .kept

theorem Effect.keeps_post (h : Effect fingerprint L s c a t) (hs : Consistent s) {id : ℕ}
    (hsome : (s.board.posts.get? id).isSome) : (t.board.posts.get? id).isSome ∨ t = dropPost id s := by
  have hmodify (s : Store) (k : ℕ) (f hf) (hsome : (s.board.posts.get? id).isSome) :
      ((modifyPost k f hf s).board.posts.get? id).isSome := by
    rw [get?_modifyPost]
    split
    · rwa [Option.isSome_map]
    · exact hsome
  cases h with
  | replayed => exact .inl hsome
  | @posted author edit key k createdAt _ _ hid _ =>
    have hget : ((addPost (Repo.newPost k author.username edit createdAt) s).board.posts.get? id).isSome := by
      rw [get?_addPost (hs.freshPost hid)]
      split
      · rfl
      · exact hsome
    exact .inl hget
  | edited => exact .inl (hmodify s _ _ _ hsome)
  | @dropped postId _ _ =>
    by_cases hid : id = postId
    · rw [hid]
      exact .inr rfl
    · rw [get?_dropPost,if_neg hid]
      exact .inl hsome
  | commented => exact .inl hsome
  | marked => exact .inl hsome
  | voted => exact .inl (hmodify _ _ _ _ hsome)

theorem Effect.onPost (h : Effect fingerprint L s c a t) (hs : Consistent s) {k : ℕ} {comment' : Comment}
    (hk : t.board.comments.get? k = some comment') : (t.board.posts.get? comment'.postId).isSome := by
  have hbefore : (s.board.posts.get? comment'.postId).isSome := by
    have hmove := h.comment hs k
    rw [hk] at hmove
    generalize hcomment : s.board.comments.get? k = comment? at hmove
    cases hmove with
    | kept => exact hs.onPost hcomment
    | created _ _ _ hpost => exact hpost
    | @marked comment now =>
      have hpost := hs.onPost hcomment
      exact hpost
  rcases h.keeps_post hs hbefore with hsome | ht
  · exact hsome
  · rw [ht,comments_dropPost,Option.filter_eq_some_iff] at hk
    simp at hk

theorem CommentMove.same {k : ℕ} {comment : Comment} {comment? : Option Comment}
    (h : CommentMove s t k (some comment) comment?) (hpost : (t.board.posts.get? comment.postId).isSome) :
    ∃ comment', comment? = some comment' ∧ comment'.postId = comment.postId ∧ comment'.parentId = comment.parentId := by
  cases h with
  | kept => exact ⟨_,rfl,rfl,rfl⟩
  | marked now => exact ⟨_,rfl,rfl,rfl⟩
  | dropped hgone =>
    rw [hgone] at hpost
    cases hpost

theorem Effect.head (h : Effect fingerprint L s c a t) (hs : Consistent s) {postId p : ℕ}
    (hpost : (t.board.posts.get? postId).isSome) (hhead : IsHead s.board postId p) : IsHead t.board postId p := by
  obtain ⟨q,hq,rfl,htop⟩ := hhead
  have hmove := h.comment hs p
  rw [hq] at hmove
  obtain ⟨q',hq',hon,hparent⟩ := hmove.same hpost
  exact ⟨q',hq',hon,hparent.trans htop⟩

theorem Effect.postIds_subset (h : Effect fingerprint L s c a t) : s.postIds ⊆ t.postIds := by
  rcases h.postIds with hids | ⟨id,hids,_⟩
  · rw [hids]
    exact List.Subset.refl _
  · rw [hids]
    exact List.subset_cons_self _ _

theorem Effect.commentIds_subset (h : Effect fingerprint L s c a t) : s.commentIds ⊆ t.commentIds := by
  rcases h.commentIds with hids | ⟨id,hids,_⟩
  · rw [hids]
    exact List.Subset.refl _
  · rw [hids]
    exact List.subset_cons_self _ _

/-- A comment that is there was there, marked since or not, or is new. -/
theorem Effect.comment_found (h : Effect fingerprint L s c a t) (hs : Consistent s) {id : ℕ} {comment : Comment}
    (hcomment : t.board.comments.get? id = some comment) :
    (∃ old, s.board.comments.get? id = some old ∧ old.postId = comment.postId ∧ old.parentId = comment.parentId) ∨
      (id ≠ 0 ∧ id ∉ s.commentIds ∧ id ∈ t.commentIds ∧
        ∀ parent ∈ comment.parentId, IsHead s.board comment.postId parent) := by
  have hmove := h.comment hs id
  rw [hcomment] at hmove
  generalize s.board.comments.get? id = comment? at hmove
  cases hmove with
  | kept => exact .inl ⟨comment,rfl,rfl,rfl⟩
  | created hne hold hnew _ _ hhead => exact .inr ⟨hne,hold,hnew,hhead⟩
  | @marked old now => exact .inl ⟨old,rfl,rfl,rfl⟩

theorem Effect.consistent (h : Effect fingerprint L s c a t) (hs : Consistent s) : Consistent t where
  postIds {id post} hpost := by
    rcases h.post hs id with ⟨hsame,_⟩ | ⟨_,hnew,hmove⟩
    · exact h.postIds_subset (hs.postIds (hsame ▸ hpost))
    · cases hbefore : s.board.posts.get? id with
      | none => exact (hnew hbefore).2
      | some post' => exact h.postIds_subset (hs.postIds hbefore)
  commentIds {id comment} hcomment := by
    rcases h.comment_found hs hcomment with ⟨old,hold,_⟩ | ⟨hne,_,hid,_⟩
    · exact ⟨h.commentIds_subset (hs.commentIds hold).1,(hs.commentIds hold).2⟩
    · exact ⟨hid,hne⟩
  onPost := h.onPost hs
  head {id comment parentId} hcomment hparent := by
    have hpost := h.onPost hs hcomment
    rcases h.comment_found hs hcomment with ⟨old,hold,hsame,hparent'⟩ | ⟨_,_,_,hhead⟩
    · have hbefore := hs.head hold (hparent'.trans hparent)
      rw [hsame] at hbefore
      exact h.head hs hpost hbefore
    · exact h.head hs hpost (hhead parentId hparent)
  exact {id post} hpost := by
    rcases h.post hs id with ⟨hsame,hvotes⟩ | ⟨_,_,hmove⟩
    · rw [hvotes]
      exact hs.exact (hsame ▸ hpost)
    · exact hmove.exact (fun _ => hs.exact) post hpost
  orphan {id} hnone := by
    rcases h.post hs id with ⟨hsame,hvotes⟩ | ⟨_,_,hmove⟩
    · rw [hvotes]
      exact hs.orphan (hsame ▸ hnone)
    · rw [hnone] at hmove
      exact hmove.orphan
  answered {o row} hrow := by
    rcases h.keys o with hsame | ⟨_,_,row',response,hrow',hresponse⟩
    · exact hs.answered (hsame ▸ hrow)
    · rw [hrow] at hrow'
      cases hrow'
      exact ⟨response,hresponse⟩

theorem Effect.thumb (h : Effect fingerprint L s c a t) {id : ℕ} (hlock : Lock.thumb id ∉ L)
    (hnone : s.thumbs.get? id = none) : t.thumbs.get? id = none := by
  cases h with
  | @dropped postId _ _ =>
    have hget : (dropPost postId s).thumbs.get? id = (s.thumbs.get? id).filter fun t => !decide (t.postId = postId) :=
      Table.get?_discard _ _
    rw [hget,hnone]
    rfl
  | @voted postId voter direction hd _ k _ hl hfree _ _ =>
    have hget : (addVote ⟨k,postId,voter.username,direction,hd⟩ s).thumbs.get? id =
        if id = k then some ⟨k,postId,voter.username,direction,hd⟩ else s.thumbs.get? id := Table.get?_insert hfree id
    have hne : id ≠ k := fun heq => hlock (heq ▸ hl)
    rw [if_neg hne,hnone] at hget
    exact hget
  | _ => exact hnone

/-- Another id is drawn than one whose lock is held. -/
theorem not_mem_drawn {K : Set Lock} {lock : ℕ → Lock} {ids ids' : List ℕ} {id : ℕ}
    (h : ids' = ids ∨ ∃ k, ids' = k :: ids ∧ k ∉ ids ∧ lock k ∈ L) (hdisj : Disjoint K L) (hl : lock id ∈ K)
    (hid : id ∉ ids) : id ∉ ids' := by
  rcases h with rfl | ⟨k,rfl,_,hlock⟩
  · exact hid
  · rw [List.mem_cons]
    rintro (rfl | hmem)
    · exact Set.disjoint_left.mp hdisj hl hlock
    · exact hid hmem

theorem Effect.rely {K : Set Lock} (h : Effect fingerprint L s c a t) (hs : Consistent s) (hdisj : Disjoint K L) :
    Rely K s t where
  kept {o row} hrow := Idempotency.writtenOnce_kept (h.keys o) hrow
  absent {o} hl hnone := Idempotency.writtenOnce_absent (h.keys o) (Set.disjoint_left.mp hdisj hl) hnone
  held {id} hl := by
    rcases h.post hs id with hsame | ⟨hlock,_⟩
    · exact hsame
    · exact absurd hlock (Set.disjoint_left.mp hdisj hl)
  thumb hl hnone := h.thumb (Set.disjoint_left.mp hdisj hl) hnone
  postIds := h.postIds_subset
  newPost hl hid := not_mem_drawn h.postIds hdisj hl hid
  commentIds := h.commentIds_subset
  newComment hl hid := not_mem_drawn h.commentIds hdisj hl hid
  post {id post'} hid hpost := by
    rcases h.post hs id with ⟨hsame,_⟩ | ⟨_,hnew,hmove⟩
    · exact ⟨post',hsame ▸ hpost,rfl⟩
    · rw [hpost] at hmove
      rcases hmove.author with hnone | hauthor
      · exact absurd hid (hnew hnone).1
      · exact hauthor
  comment {id comment'} hid hcomment := by
    obtain ⟨old,hold,hpost,hparent⟩ := (h.comment_found hs hcomment).resolve_right fun hnew => hnew.2.1 hid
    exact ⟨old,hold,hpost.symm,hparent.symm⟩

end Effect

def alreadyVoted : CommunityError := .alreadyVoted "이미 추천·비추천한 글입니다."

/-- An `add_thumb` is refused to who has voted, or it found no post. -/
def Fail : Request → CommunityError → Store → Prop
  | .addThumb postId voter _ _,e,s =>
    (e = alreadyVoted ∧ ∃ t ∈ votes s postId, t.voter = voter.username) ∨ e = postNotFound
  | _,_,_ => True

def discipline : Discipline Store Lock Request CommunityError Answer where
  Inv := Consistent
  Rely := Rely
  Commit c a L s t := Effect fingerprint L s c a t
  Fail := Fail
  rely_refl := Rely.refl
  rely_trans := Rely.trans
  rely_mono := Rely.mono
  inv_commit hs h := h.consistent hs
  rely_commit hs h hdisj := h.rely hs hdisj

theorem respects : Respects keyStore (discipline fingerprint).toAgreement where
  kept h := h.kept
  absent hl h := h.absent hl
  answered hi := hi.answered

end Tag2now.Community
