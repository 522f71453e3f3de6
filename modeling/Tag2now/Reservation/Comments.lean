import Tag2now.Reservation.Service
import Tag2now.Transactions.Beside

/-! # Comments on a reservation

The comments lie beside the reservations, in a table of their own. Writing one reads the
status of its reservation without a lock, and inserts in a later statement. No statement
deletes a reservation, so the row that a comment refers to stays. A comment is deleted by a mark.
-/
namespace Tag2now.Reservations
open ReadCommitted

structure CommentRow where
  id : ℕ
  reservationId : ℕ
  author : String
  authorSubject : Option String
  body : String
  createdAt : ℤ
  deletedAt : Option ℤ
  body_check : body.length ≤ 500
  deriving DecidableEq

structure Comment where
  id : ℕ
  reservationId : ℕ
  author : String
  body : String
  createdAt : ℤ
  authorUsername : Option String
  deriving DecidableEq

abbrev Talked := Store × Table CommentRow.id

inductive CommentLock
  | comment (id : ℕ)
  deriving DecidableEq

abbrev TalkProgram := Prog Talked (Lock ⊕ CommentLock) ReservationError

def comment (row : CommentRow) : Comment where
  id := row.id
  reservationId := row.reservationId
  author := row.author
  body := row.body
  createdAt := row.createdAt
  authorUsername := row.authorSubject

def writtenBefore (c d : CommentRow) : Bool :=
  c.createdAt < d.createdAt ∨ (c.createdAt = d.createdAt ∧ c.id ≤ d.id)

def commentNotFound : ReservationError := .notFound "Comment not found"

def deletedComment (now : ℤ) (row : CommentRow) : CommentRow := { row with deletedAt := some now }

theorem deletedComment_id (now : ℤ) (row : CommentRow) : (deletedComment now row).id = row.id := rfl

def insertCommentRow (row : CommentRow) (db : Talked) : Talked := (db.1,db.2.insert row)

def markComment (id : ℕ) (now : ℤ) (db : Talked) : Talked :=
  (db.1,db.2.modify id (deletedComment now) (deletedComment_id now))

/-- A comment as the service hands it to the repository. -/
structure CommentDraft where
  authorSubject : String
  author : String
  body : String
  body_length : body.length ≤ 500

def newComment (reservationId : ℕ) (draft : CommentDraft) (id : ℕ) (createdAt : ℤ) : CommentRow where
  id := id
  reservationId := reservationId
  author := draft.author
  authorSubject := some draft.authorSubject
  body := draft.body
  createdAt := createdAt
  deletedAt := none
  body_check := draft.body_length

namespace CommentRepo

def listComments (reservationId : ℕ) : TalkProgram (List Comment) :=
  .query fun db => ((db.2.rows.filter fun row => row.reservationId = reservationId ∧ row.deletedAt = none).mergeSort
    writtenBefore).map comment

def insertComment (reservationId : ℕ) (draft : CommentDraft) : TalkProgram Comment :=
  .perform fun db o => ∃ id createdAt, db.2.get? id = none ∧
    o = ⟨comment (newComment reservationId draft id createdAt),{.inr (.comment id)},
      insertCommentRow (newComment reservationId draft id createdAt)⟩

def addCommentTo (reservationId : ℕ) (draft : CommentDraft) (found : Option ReservationRow) : TalkProgram Comment :=
  match found with
  | none => .raise notFound
  | some reservation => do
    .ofExcept (ensureCommentable reservation.status)
    insertComment reservationId draft

def addComment (reservationId : ℕ) (draft : CommentDraft) : TalkProgram Comment := do
  let found ← .query fun db => db.1.reservations.get? reservationId
  addCommentTo reservationId draft found

def deleteComment (reservationId commentId : ℕ) (subject : String) (now : ℤ) (admin : Bool) : TalkProgram Unit := do
  match ← .query fun db => db.2.get? commentId with
  | none => .raise commentNotFound
  | some row =>
    .ensure (row.reservationId = reservationId ∧ row.deletedAt = none) commentNotFound
    .ofExcept (ensureCommentDeletableBy row.authorSubject subject admin)
    .execute (fun _ => ()) (fun _ => {.inr (.comment commentId)}) fun _ => markComment commentId now

end CommentRepo

/-- The body the router admits, stripped already. -/
structure CreateCommentRequest where
  body : String
  body_pos : 1 ≤ body.length
  body_length : body.length ≤ 500

inductive CommentRequest
  | listComments (reservationId : ℕ)
  | addComment (reservationId : ℕ) (subject displayName : String) (request : CreateCommentRequest)
  | deleteComment (reservationId commentId : ℕ) (subject : String) (admin : Bool)

inductive CommentAnswer
  | listed (result : List Comment)
  | added (result : Comment)
  | deleted

def CreateCommentRequest.draft (request : CreateCommentRequest) (subject displayName : String) : CommentDraft where
  authorSubject := subject
  author := displayName
  body := strip request.body
  body_length := (strip_length_le _).trans request.body_length

def commentBody : CommentRequest → TalkProgram CommentAnswer
  | .listComments reservationId => do
    let result ← CommentRepo.listComments reservationId
    pure (.listed result)
  | .addComment reservationId subject displayName request => do
    let result ← CommentRepo.addComment reservationId (request.draft subject displayName)
    pure (.added result)
  | .deleteComment reservationId commentId subject admin => do
    let now ← .query fun db => db.1.now
    CommentRepo.deleteComment reservationId commentId subject now admin
    pure .deleted

def talk (punctual : Prop) (fingerprint : String → CreateRequest → String) :
    System Talked (Lock ⊕ CommentLock) (Request ⊕ CommentRequest) ReservationError (Answer ⊕ CommentAnswer) :=
  (service punctual fingerprint).beside commentBody

/-- No reservation has been made yet, and no comment written. -/
def InitialTalk (db : Talked) : Prop := Initial db.1 ∧ db.2 = Table.empty

theorem aside_commentBody (c : CommentRequest) : Writes Aside (commentBody c) := by
  cases c with
  | listComments reservationId => exact writes_bind (writes_query (aside_id _) _) fun _ => trivial
  | addComment reservationId subject displayName request =>
    refine writes_bind (writes_bind (writes_query (aside_id _) _) fun found => ?_) fun _ => trivial
    cases found with
    | none => trivial
    | some row =>
      refine writes_bind (writes_ofExcept _) fun _ => writes_perform ?_
      rintro v _ ⟨_,_,_,rfl⟩ s
      rfl
  | deleteComment reservationId commentId subject admin =>
    refine writes_bind (writes_query (aside_id _) _) fun now => writes_bind ?_ fun _ => trivial
    refine writes_bind (writes_query (aside_id _) _) fun found => ?_
    cases found with
    | none => trivial
    | some row =>
      refine writes_bind (writes_ensure _ _) fun _ => writes_bind (writes_ofExcept _) fun _ => ?_
      exact writes_execute fun _ _ => rfl

end Tag2now.Reservations
