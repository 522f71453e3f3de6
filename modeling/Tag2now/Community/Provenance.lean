import Tag2now.Community.Alone
import Tag2now.Community.Safety
import Tag2now.Shared.Basics

/-! # Where the board's texts come from

A request's model checks its fields before the service sees it. Creating a post keeps its title and
body as they were typed, editing one trims them. What is stored was in a request that its model let
through, so what is read fits the model of the answer too.
-/
namespace Tag2now.Community
open ReadCommitted Idempotency

/-! ## The models of the requests -/

def validPostTypes : List String := ["자유","건의","공략",noticePostType]

def characterNames : List String := ttt2Characters.filter fun name => name ≠ "" ∧ name ≠ "?"

def isVideoIdChar (c : Char) : Bool := c.isAlphanum || c = '_' || c = '-'

structure PostFields where
  title : String
  body : String
  postType : Option String
  characters : Option (List String)
  /-- Absent, null or a text. -/
  youtubeVideoId : Option (Option String)

structure Accepted (title body postType : String) (characters : List String) (youtubeVideoId : Option String) :
    Prop where
  title : 1 ≤ title.length ∧ title.length ≤ 100
  body : 1 ≤ body.length ∧ body.length ≤ 1000
  postType : postType ∈ validPostTypes
  count : characters.length ≤ maxPostCharacters
  known : ∀ name ∈ characters, name ∈ characterNames
  distinct : characters.Nodup
  video : ∀ id ∈ youtubeVideoId, id.length = 11 ∧ id.toList.all isVideoIdChar = true

instance (title body postType : String) (characters : List String) (youtubeVideoId : Option String) :
    Decidable (Accepted title body postType characters youtubeVideoId) :=
  decidable_of_iff ((1 ≤ title.length ∧ title.length ≤ 100) ∧ (1 ≤ body.length ∧ body.length ≤ 1000) ∧
      postType ∈ validPostTypes ∧ characters.length ≤ maxPostCharacters ∧
      (∀ name ∈ characters, name ∈ characterNames) ∧ characters.Nodup ∧
      ∀ id ∈ youtubeVideoId, id.length = 11 ∧ id.toList.all isVideoIdChar = true)
    ⟨fun ⟨h₁,h₂,h₃,h₄,h₅,h₆,h₇⟩ => ⟨h₁,h₂,h₃,h₄,h₅,h₆,h₇⟩,fun h => ⟨h.1,h.2,h.3,h.4,h.5,h.6,h.7⟩⟩

/-- Nothing where the request is refused. -/
def createPostRequest (fields : PostFields) : Option PostEdit :=
  let postType := fields.postType.getD "자유"
  let characters := fields.characters.getD []
  let youtubeVideoId := fields.youtubeVideoId.getD none
  if h : Accepted fields.title fields.body postType characters youtubeVideoId then
    some ⟨fields.title,fields.body,postType,characters,youtubeVideoId,h.title.2,h.body.2,h.count⟩
  else none

/-- The edit form submits all fields. -/
def updatePostRequest (fields : PostFields) : Option PostEdit := do
  let postType ← fields.postType
  let characters ← fields.characters
  let youtubeVideoId ← fields.youtubeVideoId
  if h : Accepted fields.title fields.body postType characters youtubeVideoId ∧ strip fields.title ≠ "" ∧
      strip fields.body ≠ "" then
    some ⟨strip fields.title,strip fields.body,postType,characters,youtubeVideoId,
      (strip_length_le _).trans h.1.title.2,(strip_length_le _).trans h.1.body.2,h.1.count⟩
  else none

def Parsed : Request → Prop
  | .createPost _ edit _ => ∃ fields, createPostRequest fields = some edit
  | .updatePost _ _ edit => ∃ fields, updatePostRequest fields = some edit
  | .createComment _ _ body _ _ _ => 1 ≤ body.length
  | _ => True

/-! ## What is stored -/

abbrev Log := List (Request × Except CommunityError Answer)

structure PostEdit.Gives (edit : PostEdit) (post : Post) : Prop where
  title : post.title = edit.title
  body : post.body = edit.body
  postType : post.postType = edit.postType
  characters : post.characters = edit.characters
  youtubeVideoId : post.youtubeVideoId = edit.youtubeVideoId

/-- This author asked for a post with this content, and was answered the new post of this id. -/
def Posted (log : Log) (id : ℕ) (author : AuthUser) (edit : PostEdit) : Prop :=
  ∃ key post, (Request.createPost author edit key,Except.ok (Answer.created ⟨.post post,true⟩)) ∈ log ∧ post.id = id

/-- The post is its author's, and its content that of the request that made it or of one that edited it. -/
structure Written (log : Log) (post : Post) : Prop where
  author : ∃ author edit, Posted log post.id author edit ∧ author.username = post.author
  content : ∃ edit : PostEdit, edit.Gives post ∧ ((∃ author, Posted log post.id author edit) ∨
    ∃ user answer, (Request.updatePost post.id user edit,Except.ok answer) ∈ log)

/-- The comment was made in one request, and nothing but its deletion changed it since. -/
def Noted (log : Log) (comment : Comment) : Prop :=
  ∃ author key hb made, (Request.createComment comment.postId author comment.body comment.parentId key hb,
    Except.ok (Answer.created ⟨.comment made,true⟩)) ∈ log ∧ made.id = comment.id ∧ author.username = comment.author

def Answer.madePost : Answer → Option ℕ
  | .created ⟨.post post,true⟩ => some post.id
  | _ => none

def Answer.madeComment : Answer → Option ℕ
  | .created ⟨.comment comment,true⟩ => some comment.id
  | _ => none

/-- The ids of the posts that creations were answered with; a replay answers an old one. -/
def madePosts (log : Log) : List ℕ := log.filterMap fun e => e.2.toOption.bind Answer.madePost

def madeComments (log : Log) : List ℕ := log.filterMap fun e => e.2.toOption.bind Answer.madeComment

def Trimmed (s : String) : Prop := s ≠ "" ∧ ∃ typed, s = strip typed

/-- What a reader is shown of a post fits the answer's model. -/
structure PostSound (log : Log) (post : Post) : Prop where
  accepted : Accepted post.title post.body post.postType post.characters post.youtubeVideoId
  written : Written log post
  trimmed : (∃ author edit, Posted log post.id author edit ∧ edit.Gives post) ∨
    Trimmed post.title ∧ Trimmed post.body

/-! ## The models -/

theorem length_pos_of_ne {s : String} (h : s ≠ "") : 1 ≤ s.length := by
  rw [Nat.one_le_iff_ne_zero]
  intro hzero
  exact h (String.length_eq_zero_iff.mp hzero)

theorem createPostRequest_accepted {fields : PostFields} {edit : PostEdit} (h : createPostRequest fields = some edit) :
    Accepted edit.title edit.body edit.postType edit.characters edit.youtubeVideoId := by
  unfold createPostRequest at h
  dsimp only at h
  split at h
  · rename_i haccepted
    obtain rfl := Option.some.inj h
    exact haccepted
  · cases h

theorem updatePostRequest_accepted {fields : PostFields} {edit : PostEdit} (h : updatePostRequest fields = some edit) :
    Accepted edit.title edit.body edit.postType edit.characters edit.youtubeVideoId ∧ Trimmed edit.title ∧
      Trimmed edit.body := by
  unfold updatePostRequest at h
  simp only [bind,Option.bind_eq_some_iff] at h
  obtain ⟨postType,-,characters,-,youtubeVideoId,-,h⟩ := h
  split at h
  · rename_i hfields
    obtain ⟨haccepted,htitle,hbody⟩ := hfields
    obtain rfl := Option.some.inj h
    refine ⟨{ haccepted with
      title := ⟨length_pos_of_ne htitle,(strip_length_le _).trans haccepted.title.2⟩
      body := ⟨length_pos_of_ne hbody,(strip_length_le _).trans haccepted.body.2⟩ },⟨htitle,_,rfl⟩,hbody,_,rfl⟩
  · cases h

theorem PostEdit.Gives.accepted {edit : PostEdit} {post : Post} (h : edit.Gives post)
    (haccepted : Accepted edit.title edit.body edit.postType edit.characters edit.youtubeVideoId) :
    Accepted post.title post.body post.postType post.characters post.youtubeVideoId := by
  rw [h.title,h.body,h.postType,h.characters,h.youtubeVideoId]
  exact haccepted

theorem Written.sound {log : Log} {post : Post} (h : Written log post) (hparsed : ∀ e ∈ log, Parsed e.1) :
    PostSound log post := by
  obtain ⟨edit,hgives,⟨author,hmade⟩ | ⟨user,answer,hlog⟩⟩ := h.content
  · obtain ⟨key,made,hlog,hid⟩ := id hmade
    obtain ⟨fields,hfields⟩ := hparsed _ hlog
    exact ⟨hgives.accepted (createPostRequest_accepted hfields),h,.inl ⟨author,edit,hmade,hgives⟩⟩
  · obtain ⟨fields,hfields⟩ := hparsed _ hlog
    obtain ⟨haccepted,htitle,hbody⟩ := updatePostRequest_accepted hfields
    refine ⟨hgives.accepted haccepted,h,.inr ?_⟩
    rw [hgives.title,hgives.body]
    exact ⟨htitle,hbody⟩

/-! ## What a call leaves -/

section
variable {fingerprint : String → Asked → String} {L : Set Lock} {s t : Store} {c : Request} {a : Answer} {log : Log}

theorem Posted.mono {id : ℕ} {author : AuthUser} {edit : PostEdit} (h : Posted log id author edit)
    (e : Request × Except CommunityError Answer) : Posted (e :: log) id author edit := by
  obtain ⟨key,post,hlog,hid⟩ := h
  exact ⟨key,post,List.mem_cons_of_mem e hlog,hid⟩

theorem Written.mono {post : Post} (h : Written log post) (e : Request × Except CommunityError Answer) :
    Written (e :: log) post := by
  obtain ⟨⟨author,edit,hmade,hauthor⟩,edit',hgives,hcontent⟩ := h
  refine ⟨⟨author,edit,hmade.mono e,hauthor⟩,edit',hgives,?_⟩
  rcases hcontent with ⟨author',hmade'⟩ | ⟨user,answer,hlog⟩
  · exact .inl ⟨author',hmade'.mono e⟩
  · exact .inr ⟨user,answer,List.mem_cons_of_mem e hlog⟩

theorem Noted.mono {comment : Comment} (h : Noted log comment) (e : Request × Except CommunityError Answer) :
    Noted (e :: log) comment := by
  obtain ⟨author,key,hb,made,hlog,hid,hauthor⟩ := h
  exact ⟨author,key,hb,made,List.mem_cons_of_mem e hlog,hid,hauthor⟩

structure Sourced (log : Log) (db : Store) : Prop where
  posts : ∀ {k post}, db.board.posts.get? k = some post → Written log post
  comments : ∀ {k comment}, db.board.comments.get? k = some comment → Noted log comment

theorem Sourced.mono (h : Sourced log s) (e : Request × Except CommunityError Answer) : Sourced (e :: log) s where
  posts hpost := (h.posts hpost).mono e
  comments hcomment := (h.comments hcomment).mono e

theorem Written.counted {post : Post} (h : Written log post) (up down : ℤ) : Written log (counted up down post) :=
  ⟨h.author,h.content.imp fun _ ⟨hgives,hlog⟩ => ⟨⟨hgives.1,hgives.2,hgives.3,hgives.4,hgives.5⟩,hlog⟩⟩

theorem Posted.written {id : ℕ} {author : AuthUser} {edit : PostEdit} (h : Posted log id author edit) (createdAt : ℤ) :
    Written log (Repo.newPost id author.username edit createdAt) :=
  ⟨⟨author,edit,h,rfl⟩,edit,⟨rfl,rfl,rfl,rfl,rfl⟩,.inl ⟨author,h⟩⟩

theorem Written.edited {post : Post} (h : Written log post) {user : AuthUser} {edit : PostEdit} {answer : Answer}
    (hlog : (Request.updatePost post.id user edit,Except.ok answer) ∈ log) : Written log (editPost edit post) :=
  ⟨h.author,edit,⟨rfl,rfl,rfl,rfl,rfl⟩,.inr ⟨user,answer,hlog⟩⟩

theorem Effect.sourced (h : Effect fingerprint L s c a t) (hs : Consistent s) (hsourced : Sourced log s) :
    Sourced ((c,.ok a) :: log) t := by
  have hkept : Sourced ((c,.ok a) :: log) s := hsourced.mono (c,.ok a)
  cases h with
  | replayed => exact hkept
  | @posted author edit key id createdAt _ _ hid _ =>
    refine ⟨fun {k post} hpost => ?_,hkept.comments⟩
    change (addPost (Repo.newPost id author.username edit createdAt) s).board.posts.get? k = some post at hpost
    rw [get?_addPost (hs.freshPost hid)] at hpost
    split at hpost
    · obtain rfl := Option.some.inj hpost
      have hmade : Posted ((.createPost author edit key,
          .ok (.created ⟨.post (Repo.newPost id author.username edit createdAt),true⟩)) :: log) id author edit :=
        ⟨key,_,List.mem_cons_self,rfl⟩
      exact hmade.written createdAt
    · exact hkept.posts hpost
  | @edited postId user edit before count _ hbefore =>
    refine ⟨fun {k post} hpost => ?_,hkept.comments⟩
    rw [get?_modifyPost] at hpost
    split at hpost
    · rename_i hk
      subst hk
      rw [hbefore] at hpost
      obtain rfl := Option.some.inj hpost
      obtain rfl : before.id = k := Table.key_of_get? hbefore
      exact (hkept.posts hbefore).edited List.mem_cons_self
    · exact hkept.posts hpost
  | @dropped postId user _ =>
    refine ⟨fun {k post} hpost => ?_,fun {k comment} hcomment => ?_⟩
    · rw [get?_dropPost] at hpost
      split at hpost
      · cases hpost
      · exact hkept.posts hpost
    · rw [comments_dropPost] at hcomment
      exact hkept.comments (Option.filter_eq_some_iff.mp hcomment).1
  | @commented postId author text parentId key hb id createdAt _ _ _ hid _ _ _ =>
    refine ⟨hkept.posts,fun {k comment} hcomment => ?_⟩
    change (addComment (Repo.newComment ⟨postId,author.username,text,parentId,hb⟩ id createdAt)
      s).board.comments.get? k = some comment at hcomment
    rw [get?_addComment (hs.freshComment hid)] at hcomment
    split at hcomment
    · obtain rfl := Option.some.inj hcomment
      exact ⟨author,key,hb,_,List.mem_cons_self,rfl,rfl⟩
    · exact hkept.comments hcomment
  | @marked postId commentId user now _ =>
    refine ⟨hkept.posts,fun {k comment} hcomment => ?_⟩
    rw [get?_markDeleted] at hcomment
    split at hcomment
    · obtain ⟨before,hbefore,rfl⟩ := Option.map_eq_some_iff.mp hcomment
      have hnoted : Noted ((.deleteComment postId commentId user,.ok .commentDeleted) :: log) before :=
        hkept.comments hbefore
      exact hnoted
    · exact hkept.comments hcomment
  | @voted postId voter direction hd before id _ _ _ _ _ =>
    refine ⟨fun {k post} hpost => ?_,hkept.comments⟩
    rw [get?_modifyPost] at hpost
    split at hpost
    · obtain ⟨found,hfound,rfl⟩ := Option.map_eq_some_iff.mp hpost
      exact (hkept.posts hfound).counted _ _
    · exact hkept.posts hpost

structure Once (log : Log) (db : Store) : Prop where
  posts : (madePosts log).Nodup
  postIds : madePosts log ⊆ db.postIds
  comments : (madeComments log).Nodup
  commentIds : madeComments log ⊆ db.commentIds

theorem Once.kept (h : Once log s) (hs : Effect fingerprint L s c a t) (hpost : a.madePost = none)
    (hcomment : a.madeComment = none) : Once ((c,.ok a) :: log) t := by
  have hposts : madePosts ((c,.ok a) :: log) = madePosts log := List.filterMap_cons_none hpost
  have hcomments : madeComments ((c,.ok a) :: log) = madeComments log := List.filterMap_cons_none hcomment
  constructor
  · rw [hposts]
    exact h.posts
  · rw [hposts]
    exact List.Subset.trans h.postIds hs.postIds_subset
  · rw [hcomments]
    exact h.comments
  · rw [hcomments]
    exact List.Subset.trans h.commentIds hs.commentIds_subset

theorem Effect.once (h : Effect fingerprint L s c a t) (honce : Once log s) : Once ((c,.ok a) :: log) t := by
  have hstep := id h
  cases h with
  | @posted author edit key id createdAt _ _ hid _ =>
    exact ⟨List.nodup_cons.mpr ⟨fun hmem => hid (honce.postIds hmem),honce.posts⟩,
      List.cons_subset_cons id honce.postIds,honce.comments,honce.commentIds⟩
  | @commented postId author text parentId key hb id createdAt _ _ _ hid _ _ _ =>
    exact ⟨honce.posts,honce.postIds,List.nodup_cons.mpr ⟨fun hmem => hid (honce.commentIds hmem),honce.comments⟩,
      List.cons_subset_cons id honce.commentIds⟩
  | @replayed c answer _ => exact honce.kept hstep (by cases answer <;> rfl) (by cases answer <;> rfl)
  | edited | dropped | marked | voted => exact honce.kept hstep rfl rfl

theorem once_of_atomic {db : Store} (h : Atomic (service fingerprint) (fun _ _ _ => True) (discipline fingerprint)
    Initial db log) : Once log db := by
  induction h with
  | init h => exact ⟨List.nodup_nil,List.nil_subset _,List.nodup_nil,List.nil_subset _⟩
  | env _ _ henv _ => exact henv.elim
  | commit _ _ _ hc ih => exact hc.once ih
  | raise _ _ _ ih => exact ⟨ih.posts,ih.postIds,ih.comments,ih.commentIds⟩

theorem sourced_of_atomic {db : Store} (h : Atomic (service fingerprint) (fun _ _ _ => True) (discipline fingerprint)
    Initial db log) : Sourced log db := by
  induction h with
  | init h =>
    obtain ⟨hboard,-⟩ := h
    constructor
    · intro k post hpost
      rw [hboard] at hpost
      cases hpost
    · intro k comment hcomment
      rw [hboard] at hcomment
      cases hcomment
  | env _ _ henv _ => exact henv.elim
  | commit _ hinv _ hc ih => exact hc.sourced hinv ih
  | raise _ _ _ ih => exact ih.mono _

end

/-- In every run of requests that their models let through, what is stored fits them and is one of them; no two
of them made the same post or comment. -/
theorem board_sourced {fingerprint : String → Asked → String} {s : State Store Lock Request CommunityError Answer}
    (h : Reachable (service fingerprint) (fun _ _ _ => True) Initial s) (hparsed : ∀ e ∈ s.log, Parsed e.1) :
    (∀ post ∈ s.db.board.posts.rows, PostSound s.log post) ∧
      (∀ comment ∈ s.db.board.comments.rows, Noted s.log comment ∧ 1 ≤ comment.body.length) ∧
      (madePosts s.log).Nodup ∧ (madeComments s.log).Nodup := by
  have hsourced : Sourced s.log s.db := sourced_of_atomic (h.refines sound).1
  have honce : Once s.log s.db := once_of_atomic (h.refines sound).1
  refine ⟨?_,?_,honce.posts,honce.comments⟩
  · intro post hpost
    exact (hsourced.posts (Table.get?_of_mem hpost)).sound hparsed
  · intro comment hcomment
    have hnoted : Noted s.log comment := hsourced.comments (Table.get?_of_mem hcomment)
    refine ⟨hnoted,?_⟩
    obtain ⟨author,key,hb,made,hlog,-⟩ := hnoted
    exact hparsed _ hlog

/-! Alice's notice, as she sent it. -/

def rulesFields : PostFields := ⟨"rules","be kind",some noticePostType,none,none⟩

theorem board_sourced_posted : Accepted rulesPost.title rulesPost.body rulesPost.postType [] none ∧
    Written postedLog rulesPost := by
  have haccepted : Accepted "rules" "be kind" noticePostType [] none := by decide
  have hparsed : ∀ e ∈ postedLog, Parsed e.1 := by
    intro e he
    obtain rfl := List.mem_singleton.mp he
    exact ⟨rulesFields,by simp [createPostRequest,rulesFields,rules,haccepted]⟩
  have hsound := (board_sourced reachable_posted hparsed).1 rulesPost (by decide)
  exact ⟨hsound.accepted,hsound.written⟩

end Tag2now.Community
