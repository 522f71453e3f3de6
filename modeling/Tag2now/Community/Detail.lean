import Tag2now.Caching.Misses
import Tag2now.Collections.Ordered
import Tag2now.Community.Listing

/-! # A post with its comments, and the board's cached reads

Deleted comments are hidden unless a live one replies to them, and replies are nested
under the comments they reply to.
-/
namespace Tag2now.Community
open Collections CacheMisses

structure CommentOut where
  id : ℕ
  postId : ℕ
  parentId : Option ℕ
  author : String
  body : String
  createdAt : ℤ
  deleted : Bool
  deriving DecidableEq

inductive CommentNode
  | mk (comment : CommentOut) (replies : List CommentNode)

/-- The parent a comment names; 0 names none. -/
def parentOf (parentId : Option ℕ) : Option ℕ := parentId.filter (· ≠ 0)

def commentOut (comment : Comment) : CommentOut :=
  ⟨comment.id,comment.postId,comment.parentId,comment.author,comment.body,comment.createdAt,false⟩

/-- Without its words. -/
def tombstone (comment : Comment) : CommentOut := { commentOut comment with body := "", deleted := true }

/-- A deleted comment stays only as the head of a live reply. -/
def hideDeleted (comments : List Comment) : List CommentOut :=
  let heads := (comments.filter fun c => c.deletedAt = none).filterMap fun c => parentOf c.parentId
  (comments.filter fun c => c.deletedAt = none ∨ c.id ∈ heads).map fun c =>
    if c.deletedAt = none then commentOut c else tombstone c

def byId (comments : List CommentOut) : Ordered ℕ CommentOut := .ofList (comments.map fun c => (c.id,c))

/-- The comment a comment is shown under. -/
def shownUnder (comments : Ordered ℕ CommentOut) (comment : CommentOut) : Option ℕ :=
  (parentOf comment.parentId).bind fun parent => (comments.get? parent).map CommentOut.id

/-- A comment with its replies, theirs, and so on to this depth. -/
def nested (comments : Ordered ℕ CommentOut) : ℕ → CommentOut → CommentNode
  | 0,comment => .mk comment []
  | depth + 1,comment => .mk comment
      ((comments.values.filter fun c => shownUnder comments c = some comment.id).map (nested comments depth))

/-- A reply whose parent is missing is shown as a top-level comment. No chain is longer than there are comments. -/
def nestReplies (comments : List CommentOut) : List CommentNode :=
  let comments := byId comments
  (comments.values.filter fun c => shownUnder comments c = none).map (nested comments comments.entries.length)

structure PostDetail where
  post : Post
  comments : List CommentNode

/-- What the repository answers in one session. What it raises is its own. -/
structure CommunityRepository (ε : Type) where
  listPosts : ℕ → ℕ → Option String → List String → Except ε (List ListedPost × ℕ)
  getPost : ℕ → Except ε Post
  getPostComments : ℕ → Except ε (List Comment)

def postDetail (post : Post) (comments : List Comment) : PostDetail := ⟨post,nestReplies (hideDeleted comments)⟩

/-- `community:posts:..` and `community:post:..`. -/
inductive Key
  | posts (key : String)
  | post (id : ℕ)
  deriving DecidableEq

abbrev Value : Key → Type
  | .posts _ => PostList
  | .post _ => PostDetail

section
variable {ε : Type} (repo : CommunityRepository ε)

def uncachedListPosts (q : ListQuery) : Except ε PostList :=
  (repo.listPosts q.page q.pageSize q.postType q.team).map q.answer

def cachedListPosts (q : ListQuery) : Call Value ε PostList :=
  readThrough (Key.posts q.key) (fun _ => true) (uncachedListPosts repo q)

def uncachedGetPost (postId : ℕ) : Except ε PostDetail := do
  let post ← repo.getPost postId
  let comments ← repo.getPostComments postId
  pure (postDetail post comments)

def cachedGetPost (postId : ℕ) : Call Value ε PostDetail :=
  readThrough (Key.post postId) (fun _ => true) (uncachedGetPost repo postId)

end

end Tag2now.Community
