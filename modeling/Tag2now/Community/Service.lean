import Tag2now.Community.Store

/-! # The board's writes

Each write of the service is one transaction: who may make it is judged on what the
transaction has read, and a creation runs once for its key.
-/
namespace Tag2now.Community
open ReadCommitted Idempotency

/-- Who the access token names. -/
structure AuthUser where
  username : String
  admin : Bool
  deriving DecidableEq

abbrev Check := Except CommunityError

/-- Only an admin may write a notice. -/
def ensureCanUsePostType (postType : String) (user : AuthUser) : Check Unit :=
  if postType = noticePostType ∧ user.admin = false then .error (.noticeAdminOnly "공지는 관리자만 작성할 수 있습니다.")
  else .ok ()

/-- A post is its author's to edit or delete; a notice is every admin's. -/
def CanManage (post : Post) (user : AuthUser) : Prop :=
  post.author = user.username ∨ (post.postType = noticePostType ∧ user.admin = true)

instance (post : Post) (user : AuthUser) : Decidable (CanManage post user) := inferInstanceAs (Decidable (_ ∨ _))

def ensureCanManagePost (post : Post) (user : AuthUser) : Check Unit :=
  if CanManage post user then .ok () else .error (.ownership "Not your post")

def ensureCanDeleteComment (comment : Comment) (user : AuthUser) : Check Unit :=
  if comment.author ≠ user.username ∧ user.admin = false then .error (.ownership "Not your comment") else .ok ()

/-- What a creation asks for, as its fingerprint sees it. -/
inductive Asked
  | post (edit : PostEdit)
  | comment (postId : ℕ) (body : String) (parentId : Option ℕ)

inductive Request
  | createPost (author : AuthUser) (edit : PostEdit) (key : String)
  | updatePost (postId : ℕ) (user : AuthUser) (edit : PostEdit)
  | deletePost (postId : ℕ) (user : AuthUser)
  | createComment (postId : ℕ) (author : AuthUser) (body : String) (parentId : Option ℕ) (key : String)
      (body_length : body.length ≤ 1000)
  | deleteComment (postId commentId : ℕ) (user : AuthUser)
  | addThumb (postId : ℕ) (voter : AuthUser) (direction : ℤ) (direction_check : direction = 1 ∨ direction = -1)

inductive Answer
  | created (once : Once Created)
  | updated (post : ListedPost)
  | deleted
  | commentDeleted
  | thumbs (up down : ℤ)

variable (fingerprint : String → Asked → String)

def createPost (author : AuthUser) (edit : PostEdit) (key : String) : Program Answer := do
  .ofExcept (ensureCanUsePostType edit.postType author)
  let once ← runOnce keyStore fingerprint author.username key "community.post" (.post edit) do
    let post ← Repo.createPost author.username edit
    pure (.post post)
  pure (.created once)

def updatePost (postId : ℕ) (user : AuthUser) (edit : PostEdit) : Program Answer := do
  .ofExcept (ensureCanUsePostType edit.postType user)
  let post ← Repo.getPost postId
  .ofExcept (ensureCanManagePost post user)
  let post ← Repo.updatePost postId edit
  pure (.updated post)

def deletePost (postId : ℕ) (user : AuthUser) : Program Answer := do
  let post ← Repo.getPost postId
  .ofExcept (ensureCanManagePost post user)
  Repo.deletePost postId
  pure .deleted

def createComment (author : AuthUser) (key : String) (draft : Repo.Draft) : Program Answer := do
  let once ← runOnce keyStore fingerprint author.username key "community.comment"
      (.comment draft.postId draft.body draft.parentId) do
    let comment ← Repo.createComment draft
    pure (.comment comment)
  pure (.created once)

def deleteComment (postId commentId : ℕ) (user : AuthUser) : Program Answer := do
  let comment ← Repo.getComment postId commentId
  .ofExcept (ensureCanDeleteComment comment user)
  Repo.deleteComment commentId
  pure .commentDeleted

def addThumb (postId : ℕ) (voter : AuthUser) (direction : ℤ) (hd : direction = 1 ∨ direction = -1) :
    Program Answer := do
  let (up,down) ← Repo.addThumb postId voter.username direction hd
  pure (.thumbs up down)

def body : Request → Program Answer
  | .createPost author edit key => createPost fingerprint author edit key
  | .updatePost postId user edit => updatePost postId user edit
  | .deletePost postId user => deletePost postId user
  | .createComment postId author body parentId key body_length =>
    createComment fingerprint author key ⟨postId,author.username,body,parentId,body_length⟩
  | .deleteComment postId commentId user => deleteComment postId commentId user
  | .addThumb postId voter direction hd => addThumb postId voter direction hd

/-- Nothing but the calls touches the board. -/
def service : System Store Lock Request CommunityError Answer where
  body := body fingerprint
  env _ _ := False

def Initial (s : Store) : Prop :=
  s.board = ⟨Table.empty,Table.empty⟩ ∧ s.thumbs = Table.empty ∧ s.keys = Table.empty

end Tag2now.Community
