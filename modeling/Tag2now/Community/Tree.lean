import Tag2now.Community.Detail

/-! # The tree of a post's comments

Two passes make it, and they agree about which deleted comments stay because a reply is
always to a top-level comment of the same post.
-/
namespace Tag2now.Community
open Collections

def CommentNode.comment : CommentNode → CommentOut
  | .mk comment _ => comment

def CommentNode.replies : CommentNode → List CommentNode
  | .mk _ replies => replies

/-- What holds of a post's comments however they were made: ids are not 0, and each reply is to a
top-level comment among them. -/
structure Rooted (comments : List Comment) : Prop where
  nodup : (comments.map (·.id)).Nodup
  named : ∀ c ∈ comments, c.id ≠ 0
  head : ∀ c ∈ comments, ∀ p, c.parentId = some p → ∃ q ∈ comments, q.id = p ∧ q.parentId = none

/-- Live, or with a live reply. -/
def Shows (comments : List Comment) (c : Comment) : Prop :=
  c.deletedAt = none ∨ ∃ r ∈ comments, r.deletedAt = none ∧ r.parentId = some c.id

instance (comments : List Comment) (c : Comment) : Decidable (Shows comments c) :=
  inferInstanceAs (Decidable (_ ∨ _))

def shownAs (c : Comment) : CommentOut := if c.deletedAt = none then commentOut c else tombstone c

@[simp] theorem shownAs_id (c : Comment) : (shownAs c).id = c.id := by
  unfold shownAs
  split <;> rfl

@[simp] theorem shownAs_parentId (c : Comment) : (shownAs c).parentId = c.parentId := by
  unfold shownAs
  split <;> rfl

@[simp] theorem shownAs_createdAt (c : Comment) : (shownAs c).createdAt = c.createdAt := by
  unfold shownAs
  split <;> rfl

@[simp] theorem shownAs_deleted (c : Comment) : (shownAs c).deleted = decide (c.deletedAt ≠ none) := by
  unfold shownAs
  split
  · rename_i h
    simp [h,commentOut]
  · rename_i h
    simp [h,tombstone]

section
variable {comments : List Comment}

theorem Rooted.parentOf (h : Rooted comments) {c : Comment} (hc : c ∈ comments) : parentOf c.parentId = c.parentId := by
  unfold Community.parentOf
  cases hp : c.parentId with
  | none => rfl
  | some p =>
    obtain ⟨q,hq,rfl,_⟩ := h.head c hc p hp
    have hid := h.named q hq
    simp [hid]

theorem hideDeleted_shown (h : Rooted comments) :
    hideDeleted comments = (comments.filter fun c => Shows comments c).map shownAs := by
  have hheads (c : Comment) :
      c.id ∈ ((comments.filter fun c => c.deletedAt = none).filterMap fun c => Community.parentOf c.parentId) ↔
        ∃ r ∈ comments, r.deletedAt = none ∧ r.parentId = some c.id := by
    rw [List.mem_filterMap]
    constructor
    · rintro ⟨r,hr,hparent⟩
      obtain ⟨hr,hlive⟩ := List.mem_filter.mp hr
      rw [h.parentOf hr] at hparent
      exact ⟨r,hr,of_decide_eq_true hlive,hparent⟩
    · rintro ⟨r,hr,hlive,hparent⟩
      refine ⟨r,List.mem_filter.mpr ⟨hr,decide_eq_true hlive⟩,?_⟩
      rw [h.parentOf hr]
      exact hparent
  unfold hideDeleted
  simp only [hheads]
  rfl

/-- The comments that are shown, as they are shown. -/
def shown (comments : List Comment) : List CommentOut := (comments.filter fun c => Shows comments c).map shownAs

theorem shown_nodup (h : Rooted comments) : ((shown comments).map CommentOut.id).Nodup := by
  have hids : (shown comments).map CommentOut.id = (comments.filter fun c => Shows comments c).map (·.id) := by
    unfold shown
    rw [List.map_map]
    apply List.map_congr_left
    intro c _
    exact shownAs_id c
  rw [hids]
  exact h.nodup.sublist (List.filter_sublist.map _)

theorem byId_entries (h : Rooted comments) : (byId (shown comments)).entries = (shown comments).map fun c =>
    (c.id,c) := by
  apply Ordered.ofList_entries
  rw [List.map_map]
  exact shown_nodup h

theorem byId_values (h : Rooted comments) : (byId (shown comments)).values = shown comments := by
  unfold Ordered.values
  rw [byId_entries h,List.map_map]
  exact List.map_id _

theorem byId_get (h : Rooted comments) {c : Comment} (hc : c ∈ comments) (hshows : Shows comments c) :
    (byId (shown comments)).get? c.id = some (shownAs c) := by
  apply Ordered.get?_of_mem
  rw [byId_entries h,List.mem_map]
  refine ⟨shownAs c,List.mem_map_of_mem (List.mem_filter.mpr ⟨hc,decide_eq_true hshows⟩),?_⟩
  rw [shownAs_id]

theorem Rooted.live_reply (h : Rooted comments) {c : Comment} (hc : c ∈ comments) {p : ℕ} (hp : c.parentId = some p)
    (hshows : Shows comments c) : c.deletedAt = none := by
  rcases hshows with hlive | ⟨r,hr,_,hparent⟩
  · exact hlive
  · obtain ⟨q,hq,hid,htop⟩ := h.head r hr c.id hparent
    have hsame : q = c := List.inj_on_of_nodup_map h.nodup hq hc hid
    rw [hsame,hp] at htop
    cases htop

/-- So what it replies to is shown. -/
theorem Rooted.shows_head (h : Rooted comments) {c : Comment} (hc : c ∈ comments) {p : ℕ}
    (hp : c.parentId = some p) (hshows : Shows comments c) :
    ∃ q ∈ comments, q.id = p ∧ q.parentId = none ∧ Shows comments q := by
  obtain ⟨q,hq,hid,htop⟩ := h.head c hc p hp
  have hlive := h.live_reply hc hp hshows
  exact ⟨q,hq,hid,htop,.inr ⟨c,hc,hlive,by rw [hid]; exact hp⟩⟩

theorem shownUnder_parent (h : Rooted comments) {c : Comment} (hc : c ∈ comments) (hshows : Shows comments c) :
    shownUnder (byId (shown comments)) (shownAs c) = c.parentId := by
  unfold shownUnder
  rw [shownAs_parentId,h.parentOf hc]
  cases hp : c.parentId with
  | none => rfl
  | some p =>
    obtain ⟨q,hq,rfl,_,hqshows⟩ := h.shows_head hc hp hshows
    rw [Option.bind_some,byId_get h hq hqshows,Option.map_some,shownAs_id]

theorem values_under (h : Rooted comments) (place : Option ℕ) :
    (byId (shown comments)).values.filter (fun c => shownUnder (byId (shown comments)) c = place) =
      (comments.filter fun c => Shows comments c ∧ c.parentId = place).map shownAs := by
  rw [byId_values h]
  unfold shown
  rw [List.filter_map,List.filter_filter]
  congr 1
  apply List.filter_congr
  intro c hc
  by_cases hshows : Shows comments c
  · have hplace := shownUnder_parent h hc hshows
    unfold shown at hplace
    simp [hshows,hplace]
  · simp [hshows]

theorem nested_reply (h : Rooted comments) {c : Comment} (hc : c ∈ comments) {p : ℕ} (hp : c.parentId = some p)
    (depth : ℕ) : nested (byId (shown comments)) depth (shownAs c) = .mk (shownAs c) [] := by
  cases depth with
  | zero => rfl
  | succ depth =>
    have hnone : (comments.filter fun r => Shows comments r ∧ r.parentId = some c.id) = [] := by
      rw [List.filter_eq_nil_iff]
      intro r hr hboth
      obtain ⟨_,hparent⟩ := of_decide_eq_true hboth
      obtain ⟨q,hq,hid,htop⟩ := h.head r hr c.id hparent
      have hsame : q = c := List.inj_on_of_nodup_map h.nodup hq hc hid
      rw [hsame,hp] at htop
      cases htop
    unfold nested
    rw [shownAs_id,values_under h,hnone]
    rfl

/-- Top-level comments with their replies, and nothing deeper. -/
theorem nestReplies_rooted (h : Rooted comments) : nestReplies (hideDeleted comments) =
    (comments.filter fun t => Shows comments t ∧ t.parentId = none).map fun t => .mk (shownAs t)
      ((comments.filter fun r => Shows comments r ∧ r.parentId = some t.id).map fun r => .mk (shownAs r) []) := by
  have hhide : hideDeleted comments = shown comments := hideDeleted_shown h
  unfold nestReplies
  simp only
  rw [hhide,values_under h,List.map_map]
  apply List.map_congr_left
  intro t ht
  obtain ⟨htmem,hboth⟩ := List.mem_filter.mp ht
  obtain ⟨hshows,htop⟩ := of_decide_eq_true hboth
  obtain ⟨depth,hdepth⟩ : ∃ depth, (byId (shown comments)).entries.length = depth + 1 := by
    apply Nat.exists_eq_succ_of_ne_zero
    rw [byId_entries h,List.length_map]
    exact List.length_pos_of_mem (List.mem_map_of_mem (List.mem_filter.mpr ⟨htmem,decide_eq_true hshows⟩)) |>.ne'
  rw [Function.comp_apply,hdepth]
  unfold nested
  rw [shownAs_id,values_under h,List.map_map]
  congr 1
  apply List.map_congr_left
  intro r hr
  obtain ⟨hrmem,hboth⟩ := List.mem_filter.mp hr
  exact nested_reply h hrmem (of_decide_eq_true hboth).2 depth

/-! ## What the tree has, and where -/

/-- The nodes, each with the comment it is under. -/
def flat (tree : List CommentNode) : List (Option ℕ × CommentOut) :=
  tree.flatMap fun n => (none,n.comment) :: n.replies.map fun r => (some n.comment.id,r.comment)

/-- The top-level comment that a comment belongs to. -/
def root (c : Comment) : ℕ := c.parentId.getD c.id

theorem flat_ids (h : Rooted comments) : (flat (nestReplies (hideDeleted comments))).map (fun e => e.2.id) =
    (comments.filter fun t => Shows comments t ∧ t.parentId = none).flatMap fun t =>
      t.id :: (comments.filter fun r => Shows comments r ∧ r.parentId = some t.id).map (·.id) := by
  rw [nestReplies_rooted h]
  unfold flat
  rw [List.flatMap_map,List.map_flatMap]
  congr 1
  funext t
  simp [CommentNode.comment,CommentNode.replies,Function.comp_def]

theorem block_root {t c : Comment} (htop : t.parentId = none)
    (h : c.id ∈ t.id :: (comments.filter fun r => Shows comments r ∧ r.parentId = some t.id).map (·.id))
    (hnodup : (comments.map (·.id)).Nodup) (ht : t ∈ comments) (hc : c ∈ comments) : root c = t.id := by
  unfold root
  rcases List.mem_cons.mp h with hid | hid
  · have hsame : c = t := List.inj_on_of_nodup_map hnodup hc ht hid
    rw [hsame,htop]
    rfl
  · obtain ⟨r,hr,hid⟩ := List.mem_map.mp hid
    obtain ⟨hr,hboth⟩ := List.mem_filter.mp hr
    have hsame : r = c := List.inj_on_of_nodup_map hnodup hr hc hid
    rw [← hsame,(of_decide_eq_true hboth).2]
    rfl

theorem flat_nodup (h : Rooted comments) :
    ((flat (nestReplies (hideDeleted comments))).map fun e => e.2.id).Nodup := by
  rw [flat_ids h,List.nodup_flatMap]
  constructor
  · intro t ht
    obtain ⟨ht,hboth⟩ := List.mem_filter.mp ht
    obtain ⟨_,htop⟩ := of_decide_eq_true hboth
    rw [List.nodup_cons]
    refine ⟨fun hmem => ?_,h.nodup.sublist (List.filter_sublist.map _)⟩
    obtain ⟨r,hr,hid⟩ := List.mem_map.mp hmem
    obtain ⟨hr,hboth⟩ := List.mem_filter.mp hr
    have hsame : r = t := List.inj_on_of_nodup_map h.nodup hr ht hid
    have hparent := (of_decide_eq_true hboth).2
    rw [hsame,htop] at hparent
    cases hparent
  · have hids : (comments.filter fun t => Shows comments t ∧ t.parentId = none).Pairwise fun t t' => t.id ≠ t'.id :=
      List.pairwise_map.mp (h.nodup.sublist (List.filter_sublist.map _))
    apply hids.imp_of_mem
    intro t t' ht ht' hne x hx hx'
    obtain ⟨ht,hboth⟩ := List.mem_filter.mp ht
    obtain ⟨ht',hboth'⟩ := List.mem_filter.mp ht'
    obtain ⟨c,hc,rfl⟩ : ∃ c ∈ comments, c.id = x := by
      rcases List.mem_cons.mp hx with rfl | hx
      · exact ⟨t,ht,rfl⟩
      · obtain ⟨r,hr,hid⟩ := List.mem_map.mp hx
        exact ⟨r,(List.mem_filter.mp hr).1,hid⟩
    have hroot := block_root (of_decide_eq_true hboth).2 hx h.nodup ht hc
    have hroot' := block_root (of_decide_eq_true hboth').2 hx' h.nodup ht' hc
    exact hne (hroot.symm.trans hroot')

/-- Every comment that shows appears, and under its own parent. -/
theorem mem_flat (h : Rooted comments) {place : Option ℕ} {o : CommentOut} :
    (place,o) ∈ flat (nestReplies (hideDeleted comments)) ↔
      ∃ c ∈ comments, Shows comments c ∧ c.parentId = place ∧ shownAs c = o := by
  rw [nestReplies_rooted h]
  unfold flat
  rw [List.mem_flatMap]
  constructor
  · rintro ⟨n,hn,hmem⟩
    obtain ⟨t,ht,rfl⟩ := List.mem_map.mp hn
    obtain ⟨ht,hboth⟩ := List.mem_filter.mp ht
    obtain ⟨hshows,htop⟩ := of_decide_eq_true hboth
    rcases List.mem_cons.mp hmem with heq | hmem
    · cases heq
      exact ⟨t,ht,hshows,htop,rfl⟩
    · obtain ⟨n,hn,heq⟩ := List.mem_map.mp hmem
      obtain ⟨r,hr,rfl⟩ := List.mem_map.mp hn
      obtain ⟨hr,hboth⟩ := List.mem_filter.mp hr
      obtain ⟨hrshows,hparent⟩ := of_decide_eq_true hboth
      cases heq
      refine ⟨r,hr,hrshows,?_,rfl⟩
      rw [hparent]
      exact congrArg some (shownAs_id t).symm
  · rintro ⟨c,hc,hshows,rfl,rfl⟩
    cases hp : c.parentId with
    | none =>
      have htop : c ∈ comments.filter fun t => Shows comments t ∧ t.parentId = none :=
        List.mem_filter.mpr ⟨hc,decide_eq_true ⟨hshows,hp⟩⟩
      exact ⟨_,List.mem_map_of_mem htop,List.mem_cons_self⟩
    | some p =>
      obtain ⟨q,hq,rfl,htop,hqshows⟩ := h.shows_head hc hp hshows
      have hhead : q ∈ comments.filter fun t => Shows comments t ∧ t.parentId = none :=
        List.mem_filter.mpr ⟨hq,decide_eq_true ⟨hqshows,htop⟩⟩
      have hreply : c ∈ comments.filter fun r => Shows comments r ∧ r.parentId = some q.id :=
        List.mem_filter.mpr ⟨hc,decide_eq_true ⟨hshows,hp⟩⟩
      refine ⟨_,List.mem_map_of_mem hhead,List.mem_cons_of_mem _ ?_⟩
      rw [List.mem_map]
      refine ⟨_,List.mem_map_of_mem hreply,?_⟩
      simp only [CommentNode.comment,shownAs_id]

theorem live_nodes (h : Rooted comments) :
    ((flat (nestReplies (hideDeleted comments))).filter fun e => !e.2.deleted).length =
      (comments.filter fun c => c.deletedAt = none).length := by
  let places := (comments.filter fun c => Shows comments c).map fun c => (c.parentId,shownAs c)
  have hplaces : (places.map fun e => e.2.id).Nodup := by
    have hids : places.map (fun e => e.2.id) = (comments.filter fun c => Shows comments c).map (·.id) := by
      unfold places
      rw [List.map_map]
      apply List.map_congr_left
      intro c _
      exact shownAs_id c
    rw [hids]
    exact h.nodup.sublist (List.filter_sublist.map _)
  have hperm : (flat (nestReplies (hideDeleted comments))).Perm places := by
    rw [List.perm_ext_iff_of_nodup (flat_nodup h).of_map hplaces.of_map]
    rintro ⟨place,o⟩
    rw [mem_flat h,List.mem_map]
    constructor
    · rintro ⟨c,hc,hshows,rfl,rfl⟩
      exact ⟨c,List.mem_filter.mpr ⟨hc,decide_eq_true hshows⟩,rfl⟩
    · rintro ⟨c,hc,heq⟩
      obtain ⟨hc,hshows⟩ := List.mem_filter.mp hc
      cases heq
      exact ⟨c,hc,of_decide_eq_true hshows,rfl,rfl⟩
  rw [(hperm.filter _).length_eq]
  unfold places
  rw [List.filter_map,List.length_map,List.filter_filter]
  congr 1
  apply List.filter_congr
  intro c _
  by_cases hlive : c.deletedAt = none
  · simp [hlive,Shows]
  · simp [hlive]

theorem replies_flat (h : Rooted comments) :
    ∀ n ∈ nestReplies (hideDeleted comments), ∀ r ∈ n.replies, r.replies = [] := by
  rw [nestReplies_rooted h]
  intro n hn r hr
  obtain ⟨t,_,rfl⟩ := List.mem_map.mp hn
  obtain ⟨c,_,rfl⟩ := List.mem_map.mp hr
  rfl

theorem siblings_sorted (h : Rooted comments) (hsorted : comments.Pairwise fun c d => c.createdAt ≤ d.createdAt) :
    (nestReplies (hideDeleted comments)).Pairwise (fun m n => m.comment.createdAt ≤ n.comment.createdAt) ∧
      ∀ n ∈ nestReplies (hideDeleted comments),
        n.replies.Pairwise fun m r => m.comment.createdAt ≤ r.comment.createdAt := by
  rw [nestReplies_rooted h]
  constructor
  · rw [List.pairwise_map]
    apply (hsorted.sublist List.filter_sublist).imp
    intro c d hle
    simpa only [CommentNode.comment,shownAs_createdAt] using hle
  · intro n hn
    obtain ⟨t,_,rfl⟩ := List.mem_map.mp hn
    unfold CommentNode.replies
    rw [List.pairwise_map]
    apply (hsorted.sublist List.filter_sublist).imp
    intro c d hle
    simpa only [CommentNode.comment,shownAs_createdAt] using hle

end

end Tag2now.Community
