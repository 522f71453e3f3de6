import Tag2now.Community.Alone
import Tag2now.Community.Safety
import Tag2now.Community.Tree

/-! # The tree of a post in any run

Between commits a reply is to a top-level comment of its own post, whichever of them are
deleted. So the tree that a read answers has every live comment in its place, and a deleted
one only over a live reply.
-/
namespace Tag2now.Community
open ReadCommitted Idempotency

section
variable {db : Store} {postId : ℕ} {comments : List Comment}

theorem mem_postComments (h : postComments db.board postId comments) {c : Comment} :
    c ∈ comments ↔ c ∈ db.board.comments.rows ∧ c.postId = postId := by
  rw [h.1.mem_iff]
  simp

/-- The rules of creation are those the two passes rest on. -/
theorem Consistent.rooted (hs : Consistent db) (h : postComments db.board postId comments) : Rooted comments where
  nodup := (h.1.map Comment.id).nodup_iff.mpr (db.board.comments.nodup.sublist (List.filter_sublist.map _))
  named c hc := (hs.commentIds (Table.get?_of_mem ((mem_postComments h).mp hc).1)).2
  head c hc p hp := by
    obtain ⟨hrow,hon⟩ := (mem_postComments h).mp hc
    obtain ⟨q,hq,hpost,htop⟩ := hs.head (Table.get?_of_mem hrow) hp
    exact ⟨q,(mem_postComments h).mpr ⟨Table.mem_of_get? hq,hpost.trans hon⟩,Table.key_of_get? hq,htop⟩

theorem Consistent.shows_iff (hs : Consistent db) (h : postComments db.board postId comments) {c : Comment}
    (hc : c ∈ comments) : Shows comments c ↔ c.deletedAt = none ∨
      ∃ r ∈ db.board.comments.rows, r.deletedAt = none ∧ r.parentId = some c.id := by
  obtain ⟨hrow,hon⟩ := (mem_postComments h).mp hc
  apply or_congr_right
  constructor
  · rintro ⟨r,hr,hreply⟩
    exact ⟨r,((mem_postComments h).mp hr).1,hreply⟩
  · rintro ⟨r,hr,hlive,hparent⟩
    obtain ⟨q,hq,hpost,_⟩ := hs.head (Table.get?_of_mem hr) hparent
    have hsame : q = c := Option.some.inj (hq.symm.trans (Table.get?_of_mem hrow))
    refine ⟨r,(mem_postComments h).mpr ⟨hr,?_⟩,hlive,hparent⟩
    rw [← hpost,hsame,hon]

theorem Consistent.mem_nodes (hs : Consistent db) (h : postComments db.board postId comments) (place : Option ℕ)
    (o : CommentOut) : (place,o) ∈ flat (nestReplies (hideDeleted comments)) ↔
      ∃ c ∈ db.board.comments.rows, c.postId = postId ∧ c.parentId = place ∧
        ((c.deletedAt = none ∧ o = commentOut c) ∨
          (c.deletedAt ≠ none ∧ (∃ r ∈ db.board.comments.rows, r.deletedAt = none ∧ r.parentId = some c.id) ∧
            o = { commentOut c with body := "", deleted := true })) := by
  rw [mem_flat (hs.rooted h)]
  constructor
  · rintro ⟨c,hc,hshows,hplace,rfl⟩
    obtain ⟨hrow,hon⟩ := (mem_postComments h).mp hc
    refine ⟨c,hrow,hon,hplace,?_⟩
    unfold shownAs
    by_cases hlive : c.deletedAt = none
    · rw [if_pos hlive]
      exact .inl ⟨hlive,rfl⟩
    · rw [if_neg hlive]
      have hreply := ((hs.shows_iff h hc).mp hshows).resolve_left hlive
      exact .inr ⟨hlive,hreply,rfl⟩
  · rintro ⟨c,hrow,hon,hplace,hshown⟩
    have hc := (mem_postComments h).mpr ⟨hrow,hon⟩
    refine ⟨c,hc,(hs.shows_iff h hc).mpr ?_,hplace,?_⟩
    · rcases hshown with ⟨hlive,_⟩ | ⟨_,hreply,_⟩
      · exact .inl hlive
      · exact .inr hreply
    · unfold shownAs
      rcases hshown with ⟨hlive,rfl⟩ | ⟨hdeleted,_,rfl⟩
      · exact if_pos hlive
      · exact if_neg hdeleted

theorem live_comments (h : postComments db.board postId comments) :
    (comments.filter fun c => c.deletedAt = none).length = commentCount db.board postId := by
  rw [(h.1.filter _).length_eq,List.filter_filter]
  unfold commentCount
  congr 1
  apply List.filter_congr
  intro c _
  rw [Bool.decide_and,Bool.and_comm]

end

variable (fingerprint : String → Asked → String) {s : State Store Lock Request CommunityError Answer}

/-- The tree of a post, in any run, as a read of it answers. -/
theorem comment_tree (hs : Reachable (service fingerprint) (fun _ _ _ => True) Initial s) {postId : ℕ} {db₁ : Board}
    {detail : PostDetail} (hread : Gives postId [db₁,s.db.board] (.ok detail)) :
    -- each comment that appears does once, a live one always, a deleted one over a live reply, and in its own place
    ((flat detail.comments).map fun e => e.2.id).Nodup ∧
    (∀ place o, (place,o) ∈ flat detail.comments ↔
      ∃ c ∈ s.db.board.comments.rows, c.postId = postId ∧ c.parentId = place ∧
        ((c.deletedAt = none ∧ o = commentOut c) ∨
          (c.deletedAt ≠ none ∧ (∃ r ∈ s.db.board.comments.rows, r.deletedAt = none ∧ r.parentId = some c.id) ∧
            o = { commentOut c with body := "", deleted := true }))) ∧
    (∀ n ∈ detail.comments, ∀ r ∈ n.replies, r.replies = []) ∧
    -- siblings in the order of their making
    detail.comments.Pairwise (fun m n => m.comment.createdAt ≤ n.comment.createdAt) ∧
    (∀ n ∈ detail.comments, n.replies.Pairwise fun m r => m.comment.createdAt ≤ r.comment.createdAt) ∧
    -- as many live nodes as the list counts, and as an edit counts under its own write
    (∀ page pageSize postType characters answer, listPosts s.db.board page pageSize postType characters answer →
      ∀ p ∈ answer.1, p.post.id = postId →
        p.commentCount = ((flat detail.comments).filter fun e => !e.2.deleted).length) ∧
    ∀ edit, commentCount (modifyPost postId (editPost edit) (editPost_id edit) s.db).board postId =
      ((flat detail.comments).filter fun e => !e.2.deleted).length := by
  have hi : Consistent s.db := (hs.refines sound).2.1
  obtain ⟨post,comments,_,hcomments,rfl⟩ := hread
  have hrooted := hi.rooted hcomments
  have hcount : ((flat (nestReplies (hideDeleted comments))).filter fun e => !e.2.deleted).length =
      commentCount s.db.board postId := (live_nodes hrooted).trans (live_comments hcomments)
  have hsorted := siblings_sorted hrooted hcomments.2
  refine ⟨flat_nodup hrooted,hi.mem_nodes hcomments,replies_flat hrooted,hsorted.1,hsorted.2,?_,fun edit => hcount.symm⟩
  rintro page pageSize postType characters answer ⟨rows,_,_,rfl⟩ p hp hid
  obtain ⟨post',_,rfl⟩ := List.mem_map.mp hp
  rw [← hid] at hcount
  exact hcount.symm

/-! A comment of Alice's post is answered and then deleted. -/

def first : Comment := Repo.newComment ⟨1,"alice","first",none,by decide⟩ 1 1

def reply : Comment := Repo.newComment ⟨1,"alice","reply",some 1,by decide⟩ 2 2

def commented : Store :=
  onceWritten keyStore digest "alice" "k2" "community.comment" (.comment 1 "first" none) (.comment first)
    (addComment first) posted

def replied : Store :=
  onceWritten keyStore digest "alice" "k3" "community.comment" (.comment 1 "reply" (some 1)) (.comment reply)
    (addComment reply) commented

def headless : Store := markDeleted 1 3 replied

theorem reachable_headless : ∃ log, Reachable (service digest) (fun _ _ _ => True) Initial
    ⟨headless,fun _ => none,log⟩ := by
  have hfirst : Runs (createComment digest alice "k2" ⟨1,"alice","first",none,by decide⟩) posted _ commented :=
    runs_createComment digest 1 (by decide) (by decide) (by decide) (by decide) nofun
  have hhead : Repliable commented.board 1 (some 1) := by
    rintro p ⟨⟩
    exact ⟨first,by decide,rfl,rfl,rfl⟩
  have hreply : Runs (createComment digest alice "k3" ⟨1,"alice","reply",some 1,by decide⟩) commented _ replied :=
    runs_createComment digest 2 (by decide) (by decide) (by decide) (by decide) hhead
  have hdelete : Runs (deleteComment 1 1 alice) replied _ headless :=
    runs_deleteComment first 3 (by decide) rfl rfl (by decide)
  have hcommented := reachable_posted.call (fun _ => rfl) (c := .createComment 1 alice "first" none "k2" (by decide))
    hfirst fun _ _ => trivial
  have hreplied := hcommented.call (fun _ => rfl) (c := .createComment 1 alice "reply" (some 1) "k3" (by decide))
    hreply fun _ _ => trivial
  exact ⟨_,hreplied.call (fun _ => rfl) (c := .deleteComment 1 1 alice) hdelete fun _ _ => trivial⟩

/-- The deleted comment keeps the place of its reply, without its words. -/
theorem comment_tree_headless : ∃ detail, Gives 1 [headless.board,headless.board] (.ok detail) ∧
    (none,{ commentOut first with body := "", deleted := true }) ∈ flat detail.comments ∧
      (some 1,commentOut reply) ∈ flat detail.comments := by
  obtain ⟨log,hreach⟩ := reachable_headless
  have hrows : headless.board.comments.rows = [deletedRow 3 first,reply] := by decide
  have hread : Gives 1 [headless.board,headless.board]
      (.ok (postDetail rulesPost [deletedRow 3 first,reply])) := by
    refine ⟨rulesPost,_,by decide,⟨?_,by decide⟩,rfl⟩
    rw [hrows]
    decide
  have htree := (comment_tree digest hreach hread).2.1
  refine ⟨_,hread,(htree none _).mpr ⟨deletedRow 3 first,?_,rfl,rfl,.inr ⟨nofun,⟨reply,?_,rfl,rfl⟩,rfl⟩⟩,
    (htree (some 1) _).mpr ⟨reply,?_,rfl,rfl,.inl ⟨rfl,rfl⟩⟩⟩
  · rw [hrows]
    exact List.mem_cons_self
  · rw [hrows]
    exact List.mem_cons_of_mem _ List.mem_cons_self
  · rw [hrows]
    exact List.mem_cons_of_mem _ List.mem_cons_self

end Tag2now.Community
