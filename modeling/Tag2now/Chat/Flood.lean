import Mathlib.Algebra.Order.Group.Unbundled.Int
import Tag2now.Chat.Service

/-! # One message a second

The check reads the last post before the awaited append, and the post is recorded after it.
Calls of one author that overlap are not compared with each other by the code; where they
are spaced anyway, and are recorded in the order of their clock readings, the limit holds of
all that was accepted.
-/
namespace Tag2now.Chat
open ReadCommitted

def Apart (t u : ℤ) : Prop := minPostInterval ≤ |t - u|

theorem Apart.symm {t u : ℤ} (h : Apart t u) : Apart u t := by
  unfold Apart at *
  rwa [abs_sub_comm]

/-- The author and the clock reading of a post that passed its check. -/
def Call.post : Call → Option (String × ℤ)
  | .appending draft => some (draft.authorUsername,draft.createdAt)
  | .appended m => some (m.authorUsername,m.createdAt)
  | .deleting _ => none
  | .deleted _ => none

/-- A post of the author, read from the clock at `t`, has passed its check and is not recorded yet. -/
def InFlight (s : Service) (k : ℕ) (author : String) (t : ℤ) : Prop :=
  ∃ call, s.calls k = some call ∧ call.post = some (author,t)

/-- A check that lets a post pass finds no unrecorded post of its author within the interval, and
a post is not recorded over a later one. -/
def Spaced (s : Service) : Move → Prop
  | .check _ draft => ensureNotFlooding (s.lastPost draft.authorUsername) draft.createdAt = .ok () →
      ∀ j t, InFlight s j draft.authorUsername t → Apart draft.createdAt t
  | .announce k => ∀ m last, s.calls k = some (.appended m) → s.lastPost m.authorUsername = some last →
      last ≤ m.createdAt
  | _ => True

/-! ## The invariant -/

/-- What keeps the accepted posts apart while others are on their way. -/
structure Limits (s : Service) : Prop where
  accepted : s.accepted.Pairwise fun m n => m.authorUsername = n.authorUsername → Apart m.createdAt n.createdAt
  inFlight : ∀ j k author t u, j ≠ k → InFlight s j author t → InFlight s k author u → Apart t u
  appending : ∀ k draft, s.calls k = some (.appending draft) → ∀ m ∈ s.accepted,
    m.authorUsername = draft.authorUsername → Apart draft.createdAt m.createdAt
  recorded : ∀ m ∈ s.accepted, (∃ last, s.lastPost m.authorUsername = some last ∧ m.createdAt ≤ last) ∨
    ∃ k, s.calls k = some (.appended m)

theorem ensureNotFlooding_ok {lastPost : Option ℤ} {now : ℤ} (h : ensureNotFlooding lastPost now = .ok ())
    {last : ℤ} (hlast : lastPost = some last) : last + minPostInterval ≤ now := by
  subst hlast
  unfold ensureNotFlooding at h
  dsimp only at h
  split at h
  · cases h
  · omega

theorem apart_of_le {t u last : ℤ} (hu : u ≤ last) (ht : last + minPostInterval ≤ t) : Apart t u := by
  unfold Apart
  have habs := le_abs_self (t - u)
  omega

section Calls
variable {s : Service} {k : ℕ}

/-- Posts in flight afterwards were in flight before, or are the one call that moved. -/
theorem inFlight_of_put {call : Call} {j : ℕ} {author : String} {t : ℤ}
    (h : InFlight (s.put k call) j author t) :
    (j = k ∧ call.post = some (author,t)) ∨ (j ≠ k ∧ InFlight s j author t) := by
  obtain ⟨c,hc,hpost⟩ := h
  rw [put_calls] at hc
  split at hc
  · cases hc
    exact .inl ⟨by assumption,hpost⟩
  · exact .inr ⟨by assumption,c,hc,hpost⟩

theorem inFlight_of_drop {j : ℕ} {author : String} {t : ℤ} (h : InFlight (s.drop k) j author t) :
    j ≠ k ∧ InFlight s j author t := by
  obtain ⟨c,hc,hpost⟩ := h
  rw [drop_calls] at hc
  split at hc
  · cases hc
  · exact ⟨by assumption,c,hc,hpost⟩

end Calls

namespace Limits
variable {s : Service}

/-- A call that gives up, or that is none of a post, takes nothing from the limits. -/
theorem of_calls (h : Limits s) {s' : Service} (hacc : s'.accepted = s.accepted) (hlast : s'.lastPost = s.lastPost)
    (hflight : ∀ {j author t}, InFlight s' j author t → InFlight s j author t)
    (happending : ∀ {j draft}, s'.calls j = some (.appending draft) → s.calls j = some (.appending draft))
    (happended : ∀ {j m}, s.calls j = some (.appended m) → s'.calls j = some (.appended m)) : Limits s' := by
  refine ⟨hacc ▸ h.accepted,?_,?_,?_⟩
  · exact fun j k author t u hne hj hk => h.inFlight j k author t u hne (hflight hj) (hflight hk)
  · rw [hacc]
    exact fun k draft hk => h.appending k draft (happending hk)
  · rw [hacc,hlast]
    exact fun m hm => (h.recorded m hm).imp id fun ⟨k,hk⟩ => ⟨k,happended hk⟩

theorem drop (h : Limits s) {k : ℕ} (hk : ∀ m, s.calls k ≠ some (.appended m)) : Limits (s.drop k) := by
  refine h.of_calls rfl rfl (fun hj => (inFlight_of_drop hj).2) (fun hj => of_drop hj) fun {j m} hj => ?_
  exact drop_keeps hj (hk m)

theorem put_other (h : Limits s) {k : ℕ} {call : Call} (hcall : call.post = none)
    (hk : ∀ m, s.calls k ≠ some (.appended m)) : Limits (s.put k call) := by
  refine h.of_calls rfl rfl (fun hj => ?_) (fun {j draft} hj => ?_) fun {j m} hj => ?_
  · rcases inFlight_of_put hj with ⟨_,hpost⟩ | ⟨_,hj⟩
    · rw [hcall] at hpost
      cases hpost
    · exact hj
  · rcases of_put hj with rfl | hj
    · cases hcall
    · exact hj
  · exact put_keeps hj (hk m)

/-- The post that passed its check is apart from those recorded and from those in flight. -/
theorem check (h : Limits s) {k : ℕ} {draft : Draft} (hk : s.calls k = none) (hspaced : Spaced s (.check k draft)) :
    Limits (s.checked k draft) := by
  unfold Service.checked
  cases hcheck : ensureNotFlooding (s.lastPost draft.authorUsername) draft.createdAt with
  | error e => exact h
  | ok _ =>
    have hnew := hspaced hcheck
    refine ⟨h.accepted,fun i j author t u hne hi hj => ?_,fun j d hj m hm hauthor => ?_,fun m hm => ?_⟩
    · rcases inFlight_of_put hi with ⟨hik,hpost⟩ | ⟨_,hi'⟩ <;>
        rcases inFlight_of_put hj with ⟨hjk,hpost'⟩ | ⟨_,hj'⟩
      · exact absurd (hik.trans hjk.symm) hne
      · cases hpost
        exact hnew j u hj'
      · cases hpost'
        exact (hnew i t hi').symm
      · exact h.inFlight i j author t u hne hi' hj'
    · have hcall : (s.put k (.appending draft)).calls j = some (.appending d) := hj
      rw [put_calls] at hcall
      split at hcall
      · cases hcall
        rcases h.recorded m hm with ⟨last,hlast,hle⟩ | ⟨i,hi⟩
        · rw [hauthor] at hlast
          exact apart_of_le hle (ensureNotFlooding_ok hcheck hlast)
        · exact hnew i m.createdAt ⟨_,hi,by rw [← hauthor]; rfl⟩
      · exact h.appending j d hcall m hm hauthor
    · have hne : s.calls k ≠ some (.appended m) := by simp [hk]
      exact (h.recorded m hm).imp id fun ⟨i,hi⟩ => ⟨i,put_keeps hi hne⟩

theorem append (h : Limits s) {k : ℕ} {draft : Draft} {id : ℕ} (hk : s.calls k = some (.appending draft)) :
    Limits (s.append k (draft.message id)) := by
  have hflight {j : ℕ} {author : String} {t : ℤ} (hj : InFlight (s.append k (draft.message id)) j author t) :
      InFlight s j author t := by
    have hput : InFlight (s.put k (.appended (draft.message id))) j author t := hj
    rcases inFlight_of_put hput with ⟨rfl,hpost⟩ | ⟨_,hj⟩
    · exact ⟨_,hk,hpost⟩
    · exact hj
  have hself : InFlight s k draft.authorUsername draft.createdAt := ⟨_,hk,rfl⟩
  refine ⟨List.pairwise_cons.mpr ⟨fun m hm heq => ?_,h.accepted⟩,?_,fun j d hj m hm hauthor => ?_,fun m hm => ?_⟩
  · exact h.appending k draft hk m hm heq.symm
  · exact fun i j author t u hne hi hj => h.inFlight i j author t u hne (hflight hi) (hflight hj)
  · have hcall : (s.put k (.appended (draft.message id))).calls j = some (.appending d) := hj
    rw [put_calls] at hcall
    split at hcall
    · cases hcall
    · rename_i hjk
      rcases List.mem_cons.mp hm with rfl | hm
      · have hauthor' : draft.authorUsername = d.authorUsername := hauthor
        exact h.inFlight j k d.authorUsername d.createdAt draft.createdAt hjk ⟨_,hcall,rfl⟩ (hauthor' ▸ hself)
      · exact h.appending j d hcall m hm hauthor
  · rcases List.mem_cons.mp hm with rfl | hm
    · exact .inr ⟨k,(put_calls s k _ k).trans (if_pos rfl)⟩
    · have hne : s.calls k ≠ some (.appended m) := by simp [hk]
      exact (h.recorded m hm).imp (fun hrec => hrec) fun ⟨i,hi⟩ => ⟨i,put_keeps hi hne⟩

theorem announce (h : Limits s) {k : ℕ} {m : Message} {bus : Bus} (hk : s.calls k = some (.appended m))
    (hspaced : Spaced s (.announce k)) : Limits (s.announced k m bus) := by
  have hflight {j : ℕ} {author : String} {t : ℤ} (hj : InFlight (s.announced k m bus) j author t) :
      InFlight s j author t := (inFlight_of_drop hj).2
  refine ⟨h.accepted,?_,fun j d hj => ?_,fun n hn => ?_⟩
  · exact fun i j author t u hne hi hj => h.inFlight i j author t u hne (hflight hi) (hflight hj)
  · have hcall : (s.drop k).calls j = some (.appending d) := hj
    rw [drop_calls] at hcall
    split at hcall
    · cases hcall
    · exact h.appending j d hcall
  · change (∃ last, Function.update s.lastPost m.authorUsername (some m.createdAt) n.authorUsername = some last ∧
      n.createdAt ≤ last) ∨ ∃ j, (s.drop k).calls j = some (.appended n)
    by_cases hauthor : n.authorUsername = m.authorUsername
    · rw [hauthor,Function.update_self]
      rcases h.recorded n hn with ⟨last,hlast,hle⟩ | ⟨j,hj⟩
      · rw [hauthor] at hlast
        exact .inl ⟨_,rfl,le_trans hle (hspaced m last hk hlast)⟩
      · by_cases hjk : j = k
        · subst hjk
          rw [hk] at hj
          cases hj
          exact .inl ⟨_,rfl,le_rfl⟩
        · exact .inr ⟨j,by rw [drop_calls,if_neg hjk]; exact hj⟩
    · rw [Function.update_of_ne hauthor]
      have hne : s.calls k ≠ some (.appended n) := by
        rw [hk]
        rintro ⟨⟩
        exact hauthor rfl
      exact (h.recorded n hn).imp (fun hrec => hrec) fun ⟨j,hj⟩ => ⟨j,drop_keeps hj hne⟩

theorem step (h : Limits s) {s' : Service} {move : Move} (hspaced : Spaced s move) (hstep : s.Step move s') :
    Limits s' := by
  have hsame {s' : Service} (hc : s'.calls = s.calls) (hacc : s'.accepted = s.accepted)
      (hlast : s'.lastPost = s.lastPost) : Limits s' := by
    refine h.of_calls hacc hlast (fun hj => ?_) (fun hj => hc ▸ hj) fun hj => hc ▸ hj
    unfold InFlight at hj
    rwa [hc] at hj
  cases hstep with
  | check k draft hk => exact h.check hk hspaced
  | append id hk _ => exact h.append hk
  | appendFails hk =>
    refine h.drop fun m hm => ?_
    rw [hk] at hm
    cases hm
  | announce hk _ => exact h.announce hk hspaced
  | find k messageId subject admin hk =>
    unfold Service.found
    split
    · refine h.put_other rfl fun m hm => ?_
      rw [hk] at hm
      cases hm
    · exact h
  | @remove k messageId hk =>
    have hput : Limits (s.put k (.deleted messageId)) := by
      refine h.put_other rfl fun m hm => ?_
      rw [hk] at hm
      cases hm
    exact ⟨hput.accepted,hput.inFlight,hput.appending,hput.recorded⟩
  | removeFails hk =>
    refine h.drop fun m hm => ?_
    rw [hk] at hm
    cases hm
  | @retract k messageId bus hk _ =>
    have hdrop : Limits (s.drop k) := by
      refine h.drop fun m hm => ?_
      rw [hk] at hm
      cases hm
    exact ⟨hdrop.accepted,hdrop.inFlight,hdrop.appending,hdrop.recorded⟩
  | subscribe _ => exact hsame rfl rfl rfl
  | snapshot now _ _ => exact hsame rfl rfl rfl
  | receive _ _ => exact hsame rfl rfl rfl
  | finish _ _ => exact hsame rfl rfl rfl
  | unsubscribe _ => exact hsame rfl rfl rfl

end Limits

theorem limits {s : Service} (h : Service.Reachable Spaced s) : Limits s := by
  induction h with
  | start hs =>
    refine ⟨?_,?_,?_,?_⟩
    · rw [hs.accepted]
      exact .nil
    · rintro j k author t u _ ⟨c,hc,_⟩
      rw [hs.calls] at hc
      cases hc
    · intro k draft hk
      rw [hs.calls] at hk
      cases hk
    · rw [hs.accepted]
      exact fun _ hm => by cases hm
  | step _ hspaced hstep ih => exact ih.step hspaced hstep

/-- Any two accepted messages of one author were posted at clock readings apart. -/
def FloodLimited (s : Service) : Prop := ∀ subject,
  (s.accepted.filter fun m => m.authorUsername = subject).Pairwise fun m n => Apart m.createdAt n.createdAt

theorem flood_limited {s : Service} (h : Service.Reachable Spaced s) : FloodLimited s := by
  intro subject
  have haccepted := (limits h).accepted.filter fun m => m.authorUsername = subject
  refine haccepted.imp_of_mem fun hm hn hapart => hapart ?_
  exact (of_decide_eq_true (List.mem_filter.mp hm).2).trans (of_decide_eq_true (List.mem_filter.mp hn).2).symm

/-! ## Two posts whose checks overlap -/

/-- Both posts pass their check before either is stored. -/
def bothChecked (now : ℤ) : Service := (freshService.put 0 (.appending (hello 0))).put 1 (.appending (hello now))

def bothStored (now : ℤ) : Service :=
  ((bothChecked now).append 0 ((hello 0).message 1)).append 1 ((hello now).message 2)

theorem reachable_bothStored {allowed : Service → Move → Prop} {now : ℤ}
    (hfirst : allowed freshService (.check 0 (hello 0)))
    (hsecond : allowed (freshService.put 0 (.appending (hello 0))) (.check 1 (hello now)))
    (happend : ∀ s k id, allowed s (.append k id)) : Service.Reachable allowed (bothStored now) := by
  have hzero := (Service.Reachable.start freshService_starts).step hfirst (.check 0 (hello 0) rfl)
  have hone := hzero.step hsecond (.check 1 (hello now) rfl)
  have hstored := hone.step (happend _ 0 1) (.append 1 rfl rfl)
  exact hstored.step (happend _ 1 2) (.append 2 rfl rfl)

theorem spaced_second : Spaced (freshService.put 0 (.appending (hello 0))) (.check 1 (hello (2 * second))) := by
  rintro _ j t hj
  rcases inFlight_of_put hj with ⟨_,hpost⟩ | ⟨_,call,hcall,_⟩
  · cases hpost
    unfold Apart
    decide
  · cases hcall

theorem flood_limited_bothStored : FloodLimited (bothStored (2 * second)) := by
  refine flood_limited (reachable_bothStored ?_ spaced_second fun _ _ _ => trivial)
  rintro _ j t ⟨call,hcall,_⟩
  cases hcall

theorem flooded : ¬ ∀ s, Service.Reachable anyMove s → FloodLimited s := by
  intro h
  have hlimited := h (bothStored 0) (reachable_bothStored trivial trivial fun _ _ _ => trivial) "alice"
  have hboth : (bothStored 0).accepted.filter (fun m => m.authorUsername = "alice") =
    [(hello 0).message 2,(hello 0).message 1] := by decide
  rw [hboth] at hlimited
  have hapart := List.rel_of_pairwise_cons hlimited (List.mem_singleton.mpr rfl)
  revert hapart
  unfold Apart
  decide

end Tag2now.Chat
