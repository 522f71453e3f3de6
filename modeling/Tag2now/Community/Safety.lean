import Tag2now.Community.Discipline

/-! # Every write of the board keeps to its discipline

So the interleaved service refines the one in which each call happens in one step.
-/
namespace Tag2now.Community
open ReadCommitted Idempotency

/-- What the holder of a post's lock has read stays true. -/
structure Locked (L : Set Lock) (s : Store) (id : ℕ) (post : Post) (taken : List Thumb) : Prop where
  lock : Lock.post id ∈ L
  post : s.board.posts.get? id = some post
  votes : votes s id = taken

theorem Locked.rely {L : Set Lock} {s t : Store} {id : ℕ} {post : Post} {taken : List Thumb}
    (h : Locked L s id post taken) (hr : Rely L s t) : Locked L t id post taken :=
  ⟨h.lock,(hr.held h.lock).1.trans h.post,(hr.held h.lock).2.trans h.votes⟩

theorem Locked.mono {K L : Set Lock} {s : Store} {id : ℕ} {post : Post} {taken : List Thumb}
    (h : Locked K s id post taken) (hsub : K ⊆ L) : Locked L s id post taken := ⟨hsub h.lock,h.post,h.votes⟩

section Rules
variable {A : Agreement Store Lock Request CommunityError Answer} {c : Request} {h : Held Store Lock} {s : Store}

theorem safe_getPost {k : Post → Program Answer} {postId : ℕ} (hview : ∀ s, (h.pending s).board = s.board)
    (hnone : ∀ s', A.Rely h.locks s s' → A.Inv s' → s'.board.posts.get? postId = none →
      Safe A c (.raise postNotFound) h s')
    (hk : ∀ s' post, A.Rely h.locks s s' → A.Inv s' → s'.board.posts.get? postId = some post →
      Safe A c (k post) h s') : Safe A c (Repo.getPost postId >>= k) h s := by
  unfold Repo.getPost
  simp only [Prog.bind_assoc,safe_query]
  intro s₁ hr₁ hi₁
  rw [hview s₁]
  cases hpost : s₁.board.posts.get? postId with
  | none => exact hnone s₁ hr₁ hi₁ hpost
  | some post => exact hk s₁ post hr₁ hi₁ hpost

theorem safe_lockPost {k : Post → Program Answer} {postId : ℕ} (hview : ∀ s, (h.pending s).board = s.board)
    (hnone : ∀ s', A.Rely h.locks s s' → A.Inv s' → s'.board.posts.get? postId = none →
      Safe A c (.raise postNotFound) h s')
    (hk : ∀ s' post, A.Rely h.locks s s' → A.Inv s' →
      Locked (h.locks ∪ {.post postId}) s' postId post (votes s' postId) →
      Safe A c (k post) ⟨h.pending,h.locks ∪ {.post postId},h.due⟩ s') :
    Safe A c (Repo.lockPost postId >>= k) h s := by
  unfold Repo.lockPost
  simp only [Prog.bind_assoc,safe_execute]
  intro s₁ hr₁ hi₁
  rw [hview s₁]
  cases hpost : s₁.board.posts.get? postId with
  | none => simpa using hnone s₁ hr₁ hi₁ hpost
  | some post => simpa using hk s₁ post hr₁ hi₁ ⟨.inr rfl,hpost,rfl⟩

end Rules

variable (fingerprint : String → Asked → String)

section Operations
variable {fingerprint} {c : Request} {s : Store}

/-- Every call but `add_thumb` may fail in any way. -/
theorem lenient (hc : ∀ postId voter direction hd, c ≠ .addThumb postId voter direction hd) :
    (discipline fingerprint).Lenient c := by
  intro e s
  cases c with
  | addThumb postId voter direction hd => exact absurd rfl (hc postId voter direction hd)
  | _ => trivial

theorem safe_updatePost (postId : ℕ) (user : AuthUser) (edit : PostEdit) (s : Store) :
    Safe (discipline fingerprint).toAgreement (.updatePost postId user edit)
      (updatePost postId user edit) .empty s := by
  have hD : (discipline fingerprint).Lenient (.updatePost postId user edit) := lenient fun _ _ _ _ h => by cases h
  unfold updatePost
  refine safe_ofExcept hD fun _ _ => safe_getPost (fun _ => rfl) (fun _ _ _ _ _ _ _ => hD _ _) fun s₁ _ _ _ _ => ?_
  refine safe_ofExcept hD fun _ _ => ?_
  unfold Repo.updatePost Repo.setPost
  simp only [Prog.bind_assoc]
  refine safe_lockPost (fun _ => rfl) (fun _ _ _ _ _ _ _ => hD _ _) fun s₂ post _ _ hl => ?_
  generalize votes s₂ postId = taken at hl
  rw [safe_execute]
  intro s₃ hr₃ _
  have hl := (hl.rely hr₃).mono (Set.subset_union_left (t := {Lock.post postId}))
  rw [safe_query]
  intro s₄ hr₄ _ s₅ hr₅ _ _
  have hl := (hl.rely hr₄).rely hr₅
  exact .edited _ hl.lock hl.post

theorem safe_deletePost (postId : ℕ) (user : AuthUser) (s : Store) :
    Safe (discipline fingerprint).toAgreement (.deletePost postId user) (deletePost postId user) .empty s := by
  have hD : (discipline fingerprint).Lenient (.deletePost postId user) := lenient fun _ _ _ _ h => by cases h
  unfold deletePost
  refine safe_getPost (fun _ => rfl) (fun _ _ _ _ _ _ _ => hD _ _) fun s₁ _ _ _ _ => ?_
  refine safe_ofExcept hD fun _ _ => ?_
  unfold Repo.deletePost
  simp only [Prog.bind_assoc]
  refine safe_getPost (fun _ => rfl) (fun _ _ _ _ _ _ _ => hD _ _) fun s₂ post _ hi₂ hpost => ?_
  rw [safe_execute]
  intro s₃ hr₃ hi₃ s₄ hr₄ _ _
  refine .dropped fun hsome => ?_
  -- a post that is there at the commit was there for the `DELETE`, since no id comes back
  obtain ⟨post₄,hpost₄⟩ := Option.isSome_iff_exists.mp hsome
  obtain ⟨post₃,hpost₃,_⟩ := hr₄.post (hr₃.postIds (hi₂.postIds hpost)) hpost₄
  have hfound : ((Held.empty : Held Store Lock).pending s₃).board.posts.get? postId = some post₃ := hpost₃
  rw [hfound]
  exact .inr rfl

/-- What a creation does once its key is taken. -/
theorem safe_once {author : AuthUser} {key scope : String} {request : Asked} {write : Program Created}
    (hc : c.Creates) (hrun : ∀ s', Consistent s' → s'.keys.get? (author.username,key) = none →
      Safe (discipline fingerprint).toAgreement c
        (write >>= fun answer => complete keyStore author.username key answer >>= fun _ =>
          .ret (.created ⟨answer,true⟩))
        ⟨keyStore.insert (claimed fingerprint author.username key scope request),
          {keyStore.lock (author.username,key)},fun _ => True⟩ s') :
    Safe (discipline fingerprint).toAgreement c
      (runOnce keyStore fingerprint author.username key scope request write >>= fun once => .ret (.created once))
      .empty s := by
  have hD : (discipline fingerprint).Lenient c := lenient (by rintro _ _ _ _ rfl; exact hc)
  refine safe_runOnce (respects fingerprint) (fun _ => rfl) ?_ (fun _ _ _ _ _ _ => hD _ _) ?_
  · intro s₁ row response _ _ _ _ _ s₂ _ _ _
    exact .replayed hc
  · intro s₁ _ hi₁ hnone
    have hrun := hrun s₁ hi₁ hnone
    simpa [Held.empty] using hrun

theorem safe_createPost (author : AuthUser) (edit : PostEdit) (key : String) (s : Store) :
    Safe (discipline fingerprint).toAgreement (.createPost author edit key) (createPost fingerprint author edit key)
      .empty s := by
  have hD : (discipline fingerprint).Lenient (.createPost author edit key) := lenient fun _ _ _ _ h => by cases h
  unfold createPost
  refine safe_ofExcept hD fun _ _ => safe_once trivial fun s₁ _ hnone => ?_
  unfold Repo.createPost complete
  simp only [Prog.bind_assoc,safe_perform]
  rintro s₂ hr₂ _ o ⟨id,createdAt,hid,rfl⟩
  simp only [Prog.pure_eq,Prog.ret_bind,safe_execute]
  intro s₃ hr₃ _ s₄ hr₄ _ _
  have hnone₂ := hr₂.absent rfl hnone
  have hnone₄ := hr₄.absent (.inl (.inl rfl)) (hr₃.absent (.inl rfl) hnone₂)
  have hid₄ := hr₄.newPost (.inl (.inr rfl)) (hr₃.newPost (.inr rfl) hid)
  exact .posted id createdAt hnone₄ (.inl (.inl rfl)) hid₄ (.inl (.inr rfl))

/-- The rows a comment refers to are kept until it commits, and it stays a reply to a top-level comment. -/
theorem safe_insertComment {postId : ℕ} {author : AuthUser} {text : String} {parentId : Option ℕ} {key : String}
    {hb : text.length ≤ 1000} {pending : Store → Store} (hboard : ∀ s, (pending s).board = s.board)
    (hids : ∀ s, (pending s).commentIds = s.commentIds)
    (hpending : pending = keyStore.insert
      (claimed fingerprint author.username key "community.comment" (.comment postId text parentId)))
    (hnone : s.keys.get? (author.username,key) = none)
    (hhead : ∀ parent ∈ parentId, parent ∈ s.commentIds ∧
      ∀ comment, s.board.comments.get? parent = some comment → comment.postId = postId ∧ comment.parentId = none) :
    Safe (discipline fingerprint).toAgreement (.createComment postId author text parentId key hb)
      (Repo.insertComment ⟨postId,author.username,text,parentId,hb⟩ >>= fun comment =>
        complete keyStore author.username key (.comment comment) >>= fun _ => .ret (.created ⟨.comment comment,true⟩))
      ⟨pending,{.key (author.username,key)},fun _ => True⟩ s := by
  have hD : (discipline fingerprint).Lenient (.createComment postId author text parentId key hb) :=
      lenient fun _ _ _ _ h => by cases h
  unfold Repo.insertComment complete
  simp only [Prog.bind_assoc,safe_perform]
  rintro s₁ hr₁ _ o ⟨id,createdAt,hne,hid,⟨_,rfl⟩ | ⟨_,rfl⟩⟩
  · simp only [Prog.pure_eq,Prog.deadline_bind,Prog.ret_bind]
    rw [hids] at hid
    rw [safe_deadline,safe_execute]
    intro s₂ hr₂ _ s₃ hr₃ _ hdue
    have hr := (hr₁.trans (hr₂.mono Set.subset_union_left)).trans
      (hr₃.mono (Set.subset_union_left.trans Set.subset_union_left))
    have hid₃ := hr₃.newComment (.inl (.inr rfl)) (hr₂.newComment (.inr rfl) hid)
    subst hpending
    refine .commented id createdAt (hr.absent rfl hnone) (.inl (.inl rfl)) hne hid₃ (.inl (.inr rfl)) hdue.2.1 ?_
    intro parent hparent
    obtain ⟨hknown,hhead⟩ := hhead parent hparent
    obtain ⟨row,hrow⟩ := Option.isSome_iff_exists.mp (hdue.2.2 parent hparent)
    obtain ⟨before,hbefore,hon,htop⟩ := hr.comment hknown hrow
    obtain ⟨hpost,hnoparent⟩ := hhead before hbefore
    exact ⟨row,hrow,hon.trans hpost,htop.trans hnoparent⟩
  · exact fun _ _ _ => hD _ _

theorem safe_createComment (postId : ℕ) (author : AuthUser) (text : String) (parentId : Option ℕ) (key : String)
    (hb : text.length ≤ 1000) (s : Store) :
    Safe (discipline fingerprint).toAgreement (.createComment postId author text parentId key hb)
      (createComment fingerprint author key ⟨postId,author.username,text,parentId,hb⟩) .empty s := by
  have hD : (discipline fingerprint).Lenient (.createComment postId author text parentId key hb) :=
      lenient fun _ _ _ _ h => by cases h
  unfold createComment
  refine safe_once trivial fun s₁ _ hnone => ?_
  unfold Repo.createComment
  simp only [Prog.bind_assoc,safe_query]
  intro s₂ hr₂ _
  have hnone₂ := hr₂.absent rfl hnone
  split
  · exact fun _ _ _ => hD _ _
  · cases parentId with
    | none =>
      simp only [Prog.pure_eq,Prog.ret_bind]
      exact safe_insertComment (fun _ => rfl) (fun _ => rfl) rfl hnone₂ fun _ hp => by cases hp
    | some parent =>
      unfold Repo.ensureRepliable
      simp only [Prog.bind_assoc,safe_query]
      intro s₃ hr₃ hi₃
      have hnone₃ := hr₃.absent rfl hnone₂
      split
      · exact fun _ _ _ => hD _ _
      · rename_i row hlive
        obtain ⟨hrow,hon⟩ := Option.filter_eq_some_iff.mp hlive
        refine safe_ensure hD fun htop => ?_
        refine safe_insertComment (fun _ => rfl) (fun _ => rfl) rfl hnone₃ fun p hp => ?_
        cases hp
        refine ⟨(Consistent.commentIds hi₃ hrow).1,fun comment hcomment => ?_⟩
        have hsame : comment = row := Option.some.inj (hcomment.symm.trans hrow)
        rw [hsame]
        exact ⟨(of_decide_eq_true hon).1,htop⟩

theorem safe_deleteComment (postId commentId : ℕ) (user : AuthUser) (s : Store) :
    Safe (discipline fingerprint).toAgreement (.deleteComment postId commentId user)
      (deleteComment postId commentId user) .empty s := by
  have hD : (discipline fingerprint).Lenient (.deleteComment postId commentId user) :=
      lenient fun _ _ _ _ h => by cases h
  unfold deleteComment Repo.getComment
  simp only [Prog.bind_assoc,safe_query]
  intro s₁ _ hi₁
  split
  · exact fun _ _ _ => hD _ _
  · rename_i row hlive
    obtain ⟨hrow,hon⟩ := Option.filter_eq_some_iff.mp hlive
    refine safe_ofExcept hD fun _ _ => ?_
    unfold Repo.deleteComment
    rw [safe_perform]
    rintro s₂ hr₂ _ o ⟨now,rfl⟩ s₃ hr₃ _ _
    refine .marked now fun comment hcomment => ?_
    have hr := hr₂.trans (hr₃.mono Set.subset_union_left)
    obtain ⟨before,hbefore,hsame,_⟩ := hr.comment (Consistent.commentIds hi₁ hrow).1 hcomment
    cases hbefore.symm.trans hrow
    exact hsame.trans (of_decide_eq_true hon).1

/-- The lock is taken before anything is counted. -/
theorem safe_addThumb (postId : ℕ) (voter : AuthUser) (direction : ℤ) (hd : direction = 1 ∨ direction = -1)
    (s : Store) :
    Safe (discipline fingerprint).toAgreement (.addThumb postId voter direction hd)
      (addThumb postId voter direction hd) .empty s := by
  unfold addThumb Repo.addThumb
  simp only [Prog.bind_assoc]
  refine safe_lockPost (fun _ => rfl) (fun _ _ _ _ _ _ _ => .inr rfl) fun s₁ post _ _ hl => ?_
  generalize votes s₁ postId = taken at hl
  rw [safe_query]
  intro s₂ hr₂ _
  have hl := hl.rely hr₂
  have hview : votes ((Held.empty : Held Store Lock).pending s₂) postId = taken := hl.votes
  simp only [hview]
  split
  · rename_i hvoted
    intro s₃ hr₃ _
    have hl := hl.rely hr₃
    obtain ⟨thumb,hthumb⟩ := Option.ne_none_iff_exists'.mp hvoted
    refine .inl ⟨rfl,thumb,?_,by simpa using List.find?_some hthumb⟩
    rw [hl.votes]
    exact List.mem_of_find?_eq_some hthumb
  · rename_i hvoted
    have hvoter : ∀ t ∈ taken, t.voter ≠ voter.username := by simpa using hvoted
    unfold Repo.insertThumb
    simp only [Prog.bind_assoc,safe_perform]
    rintro s₃ hr₃ _ o ⟨id,hfree,⟨_,rfl⟩ | ⟨htaken,_⟩⟩
    · have hl := (hl.rely hr₃).mono (Set.subset_union_left (t := {Lock.thumb id}))
      simp only [Prog.pure_eq,Prog.ret_bind]
      rw [safe_query]
      intro s₄ hr₄ _
      have hl := hl.rely hr₄
      have hfree := hr₄.thumb (.inr rfl) hfree
      generalize hthumb : (⟨id,postId,voter.username,direction,hd⟩ : Thumb) = thumb
      have hview : votes (addVote thumb s₄) postId = taken ++ [thumb] := by
        subst hthumb
        rw [votes_addVote hfree,if_pos rfl,hl.votes]
      change Safe _ _ (Repo.setPost postId (counted (tally (votes (addVote thumb s₄) postId) 1)
          (tally (votes (addVote thumb s₄) postId) (-1))) _ >>= fun _ =>
        .ret (Answer.thumbs (tally (votes (addVote thumb s₄) postId) 1)
          (tally (votes (addVote thumb s₄) postId) (-1)))) _ _
      simp only [hview]
      unfold Repo.setPost
      rw [safe_execute]
      intro s₅ hr₅ _ s₆ hr₆ _ _
      have hl := ((hl.rely hr₅).mono Set.subset_union_left).rely hr₆
      have hfree := hr₆.thumb (.inl (.inr rfl)) (hr₅.thumb (.inr rfl) hfree)
      have hvoter : ∀ t ∈ votes s₆ postId, t.voter ≠ voter.username := by rwa [hl.votes]
      have heffect := @Effect.voted fingerprint _ s₆ postId voter direction hd post id hl.lock (.inl (.inr rfl)) hfree
        hl.post hvoter
      rw [hl.votes,hthumb] at heffect
      exact heffect
    · have hview : votes ((Held.empty : Held Store Lock).pending s₃) postId = taken := (hl.rely hr₃).votes
      exact absurd (hview ▸ not_not.mp hvoted) htaken

theorem sound : (discipline fingerprint).Sound (service fingerprint) Initial where
  init := by
    rintro ⟨board,thumbs,keys,postIds,commentIds⟩ ⟨rfl,rfl,rfl⟩
    exact ⟨nofun,nofun,nofun,nofun,nofun,fun _ => rfl,nofun⟩
  env _ h := h.elim
  body c s := by
    cases c with
    | createPost author edit key => exact safe_createPost author edit key s
    | updatePost postId user edit => exact safe_updatePost postId user edit s
    | deletePost postId user => exact safe_deletePost postId user s
    | createComment postId author text parentId key hb => exact safe_createComment postId author text parentId key hb s
    | deleteComment postId commentId user => exact safe_deleteComment postId commentId user s
    | addThumb postId voter direction hd => exact safe_addThumb postId voter direction hd s

end Operations

/-- Past the new posts, what a call does to the board is one of the writes that the cached reads allow for. -/
theorem Effect.commits {L : Set Lock} {s t : Store} {c : Request} {a : Answer} (h : Effect fingerprint L s c a t)
    (hs : Consistent s) : t.board = s.board ∨ (∃ author edit key, c = .createPost author edit key) ∨
      ∃ write, Commits write s.board t.board := by
  cases h with
  | replayed => exact .inl rfl
  | posted => exact .inr (.inl ⟨_,_,_,rfl⟩)
  | @edited postId user edit post count _ hpost =>
    refine .inr (.inr ⟨.updatePost postId edit,?_,rfl⟩)
    rw [BoardWrite.postId,hpost]
    rfl
  | @dropped postId user _ =>
    cases hpost : s.board.posts.get? postId with
    | some post =>
      refine .inr (.inr ⟨.deletePost postId,?_,rfl,fun c => ?_⟩)
      · rw [BoardWrite.postId,hpost]
        rfl
      · exact Table.mem_discard.trans (by simp)
    | none =>
      have hcomments : s.board.comments.discard (fun c => c.postId = postId) = s.board.comments := by
        apply Table.ext
        apply List.filter_eq_self.mpr
        intro c hc
        have hon := hs.onPost (Table.get?_of_mem hc)
        have hne : c.postId ≠ postId := by
          rintro rfl
          rw [hpost] at hon
          cases hon
        simpa using hne
      left
      unfold dropPost
      rw [Table.delete_of_none hpost,hcomments]
  | @commented postId author text parentId key hb id createdAt _ _ _ hid _ hpost hhead =>
    exact .inr (.inr ⟨.createComment (Repo.newComment ⟨postId,author.username,text,parentId,hb⟩ id createdAt),hpost,
      hhead,rfl,hs.freshComment hid,rfl⟩)
  | @marked postId commentId user now hon =>
    cases hcomment : s.board.comments.get? commentId with
    | some comment =>
      have hpost := hs.onPost hcomment
      rw [hon comment hcomment] at hpost
      exact .inr (.inr ⟨.deleteComment postId commentId now,hpost,⟨comment,hcomment,hon comment hcomment⟩,rfl⟩)
    | none =>
      left
      unfold markDeleted
      rw [Table.modify_of_none hcomment]
  | @voted postId voter direction hd post id _ _ _ hpost _ =>
    refine .inr (.inr ⟨.addThumb postId _ _,?_,rfl⟩)
    rw [BoardWrite.postId,hpost]
    rfl

end Tag2now.Community
