import Tag2now.Community.Writes
import Tag2now.Transactions.RelyGuarantee

/-! # The board's tables and the statements run on them

Posts, comments and thumbs, the keys of their creation, and one program for each writing
method of the repository. A row lock is exclusive. The locks that a new row takes on the rows
it refers to only keep these from being deleted: the transaction commits while they are there.
-/
namespace Tag2now.Community
open ReadCommitted Idempotency

structure Thumb where
  id : ℕ
  postId : ℕ
  voter : String
  direction : ℤ
  direction_check : direction = 1 ∨ direction = -1
  deriving DecidableEq

inductive Created
  | post (post : Post)
  | comment (comment : Comment)
  deriving DecidableEq

structure Store where
  board : Board
  thumbs : Table Thumb.id
  keys : KeyTable Created
  /-- The ids that posts and comments have had. An identity column gives none of them again. -/
  postIds : List ℕ
  commentIds : List ℕ

inductive Lock
  | post (id : ℕ)
  | comment (id : ℕ)
  | thumb (id : ℕ)
  | key (owner : String × String)
  deriving DecidableEq

abbrev Program := Prog Store Lock CommunityError

def keyStore : KeyStore Store Lock CommunityError Created where
  get db := db.keys
  put t db := { db with keys := t }
  lock := .key
  raised := .key
  get_put _ _ := rfl

/-- The post's comments that are not deleted. -/
def commentCount (db : Board) (postId : ℕ) : ℕ :=
  (db.comments.rows.filter fun c => c.postId = postId ∧ c.deletedAt = none).length

def votes (db : Store) (postId : ℕ) : List Thumb := db.thumbs.rows.filter fun t => t.postId = postId

/-- The sum of `CASE WHEN direction = .. THEN 1 ELSE 0`. -/
def tally (votes : List Thumb) (direction : ℤ) : ℤ := (votes.map fun t => if t.direction = direction then 1 else 0).sum

/-- `_is_live_on`. -/
def liveOn (postId : ℕ) (comment : Option Comment) : Option Comment :=
  comment.filter fun c => c.postId = postId ∧ c.deletedAt = none

/-! ## Writes -/

def addPost (post : Post) (db : Store) : Store :=
  { db with board := { db.board with posts := db.board.posts.insert post }, postIds := post.id :: db.postIds }

def modifyPost (id : ℕ) (f : Post → Post) (hf : ∀ post, (f post).id = post.id) (db : Store) : Store :=
  { db with board := { db.board with posts := db.board.posts.modify id f hf } }

def dropPost (id : ℕ) (db : Store) : Store :=
  { db with
    board := ⟨db.board.posts.delete id,db.board.comments.discard fun c => c.postId = id⟩
    thumbs := db.thumbs.discard fun t => t.postId = id }

def addComment (comment : Comment) (db : Store) : Store :=
  { db with
    board := { db.board with comments := db.board.comments.insert comment }
    commentIds := comment.id :: db.commentIds }

def deletedRow (now : ℤ) (comment : Comment) : Comment := { comment with deletedAt := some now }

theorem deletedRow_id (now : ℤ) (comment : Comment) : (deletedRow now comment).id = comment.id := rfl

def markDeleted (id : ℕ) (now : ℤ) (db : Store) : Store :=
  { db with board := { db.board with comments := db.board.comments.modify id (deletedRow now) (deletedRow_id now) } }

def addVote (thumb : Thumb) (db : Store) : Store := { db with thumbs := db.thumbs.insert thumb }

def counted (up down : ℤ) (post : Post) : Post := { post with thumbsUp := up, thumbsDown := down }

theorem counted_id (up down : ℤ) (post : Post) : (counted up down post).id = post.id := rfl

theorem editPost_id (edit : PostEdit) (post : Post) : (editPost edit post).id = post.id := rfl

/-- The rows that a comment refers to are there. -/
def Referenced (comment : Comment) (db : Store) : Prop :=
  (db.board.posts.get? comment.postId).isSome ∧
    ∀ parentId ∈ comment.parentId, (db.board.comments.get? parentId).isSome

/-! ## Statements -/

namespace Repo

/-- The session keeps no row of an earlier read alive, so each `get` is a read. -/
def getPost (postId : ℕ) : Program Post := do
  match ← .query fun db => db.board.posts.get? postId with
  | none => .raise postNotFound
  | some post => pure post

def lockPost (postId : ℕ) : Program Post := do
  match ← .execute (fun db => db.board.posts.get? postId)
    (fun db => if (db.board.posts.get? postId).isSome then {.post postId} else ∅) (fun _ => id) with
  | none => .raise postNotFound
  | some post => pure post

def setPost (id : ℕ) (f : Post → Post) (hf : ∀ post, (f post).id = post.id) : Program Unit :=
  .execute (fun _ => ()) (fun _ => {.post id}) fun _ => modifyPost id f hf

def newPost (id : ℕ) (author : String) (edit : PostEdit) (createdAt : ℤ) : Post where
  id := id
  author := author
  title := edit.title
  body := edit.body
  postType := edit.postType
  characters := edit.characters
  youtubeVideoId := edit.youtubeVideoId
  thumbsUp := 0
  thumbsDown := 0
  createdAt := createdAt
  title_length := edit.title_length
  body_length := edit.body_length
  characters_length := edit.characters_length

def createPost (author : String) (edit : PostEdit) : Program Post :=
  .perform fun db o => ∃ id createdAt, id ∉ db.postIds ∧
    o = ⟨newPost id author edit createdAt,{.post id},addPost (newPost id author edit createdAt)⟩

def updatePost (postId : ℕ) (edit : PostEdit) : Program ListedPost := do
  let post ← lockPost postId
  setPost postId (editPost edit) (editPost_id edit)
  let count ← .query fun db => commentCount db.board postId
  pure ⟨editPost edit post,count⟩

def deletePost (postId : ℕ) : Program Unit := do
  let _ ← getPost postId
  .execute (fun _ => ()) (fun db => if (db.board.posts.get? postId).isSome then {.post postId} else ∅) fun _ =>
    dropPost postId

def ensureRepliable (postId parentId : ℕ) : Program Unit := do
  match liveOn postId (← .query fun db => db.board.comments.get? parentId) with
  | none => .raise (.commentNotFound "Parent comment not found")
  | some parent => .ensure (parent.parentId = none) (.nestingDepth "Cannot reply to a reply (max 1-depth nesting)")

structure Draft where
  postId : ℕ
  author : String
  body : String
  parentId : Option ℕ
  body_length : body.length ≤ 1000

def newComment (draft : Draft) (id : ℕ) (createdAt : ℤ) : Comment where
  id := id
  postId := draft.postId
  parentId := draft.parentId
  author := draft.author
  body := draft.body
  createdAt := createdAt
  deletedAt := none
  body_length := draft.body_length

/-- An identity column counts from 1. -/
def insertComment (draft : Draft) : Program Comment := do
  match ← .perform fun db o => ∃ id createdAt, id ≠ 0 ∧ id ∉ db.commentIds ∧
    let comment := newComment draft id createdAt
    (Referenced comment db ∧ o = ⟨some comment,{.comment id},addComment comment⟩) ∨
      (¬ Referenced comment db ∧ o = ⟨none,∅,fun db => db⟩) with
  | none => .raise .integrity
  | some comment => .deadline (Referenced comment) (pure comment)

def createComment (draft : Draft) : Program Comment := do
  if (← .query fun db => db.board.posts.get? draft.postId) = none then .raise postNotFound
  else
    match draft.parentId with
    | none => pure ()
    | some parentId => ensureRepliable draft.postId parentId
    insertComment draft

def getComment (postId commentId : ℕ) : Program Comment := do
  match liveOn postId (← .query fun db => db.board.comments.get? commentId) with
  | none => .raise (.commentNotFound "Comment not found")
  | some comment => pure comment

def deleteComment (commentId : ℕ) : Program Unit :=
  .perform fun _ o => ∃ now, o = ⟨(),{.comment commentId},markDeleted commentId now⟩

/-- One vote of a voter on a post; the unique constraint is the backstop of the check before it. -/
def insertThumb (postId : ℕ) (voter : String) (direction : ℤ) (hd : direction = 1 ∨ direction = -1) :
    Program Unit := do
  match ← .perform fun db o => ∃ id, db.thumbs.get? id = none ∧
    (((votes db postId).find? fun t => t.voter = voter) = none ∧
        o = ⟨some (),{.thumb id},addVote ⟨id,postId,voter,direction,hd⟩⟩ ∨
      ((votes db postId).find? fun t => t.voter = voter) ≠ none ∧ o = ⟨none,∅,fun db => db⟩) with
  | none => .raise .integrity
  | some () => pure ()

/-- Locks the post so concurrent votes recount one after another. -/
def addThumb (postId : ℕ) (voter : String) (direction : ℤ) (hd : direction = 1 ∨ direction = -1) :
    Program (ℤ × ℤ) := do
  let _ ← lockPost postId
  let voted ← .query fun db => (votes db postId).find? fun t => t.voter = voter
  if voted ≠ none then .raise (.alreadyVoted "이미 추천·비추천한 글입니다.")
  else
    insertThumb postId voter direction hd
    let (up,down) ← .query fun db => (tally (votes db postId) 1,tally (votes db postId) (-1))
    setPost postId (counted up down) (counted_id up down)
    pure (up,down)

end Repo
end Tag2now.Community
