import Tag2now.Collections.Patterns
import Tag2now.Community.Writes
import Tag2now.Matching.Leaderboard
import Tag2now.Popup.Service

/-! # The keys of the cache

All services share one cache. Each of their cached reads joins its key from a text of its own
and its parameters; the parameters that come last are numbers where others come before them.
So the one cache answers as one cache for each read would.
-/
namespace Tag2now.CacheKeys
open Patterns

/-- Every read that is answered through the cache, with its parameters. -/
inductive CachedRead
  | posts (page pageSize : ℕ) (postType : Option String) (team : List String)
  | post (postId : ℕ)
  | servers (comId : String)
  | roomsAll (comId : String)
  | leaderboard (comId : String) (boardId : ℤ)
  | weeklyTop (limit : ℕ)
  | opponents (npid : String) (days : ℕ)
  | hourly (days : ℕ)
  | daily (days : ℕ)
  | playerStats (npid : String) (days : ℕ)
  | eventBoard
  | eventPlayer (npid : String)
  | playerSave (npid : String)
  | currentRank
  | holders (rank : ℕ)
  | streamChannels
  | live (channelId : String)
  | popups

inductive Kind
  | posts
  | post
  | servers
  | roomsAll
  | leaderboard
  | weeklyTop
  | opponents
  | hourly
  | daily
  | playerStats
  | eventBoard
  | eventPlayer
  | playerSave
  | currentRank
  | holders
  | streamChannels
  | live
  | popups

inductive Service
  | community
  | ttt2
  | records
  | history
  | event
  | saves
  | streaming
  | popups

def Service.text : Service → String
  | .community => "community:"
  | .ttt2 => "ttt2:"
  | .records => "records:"
  | .history => "history:"
  | .event => "event:"
  | .saves => "saves:"
  | .streaming => "streaming:"
  | .popups => "popups:"

def Kind.service : Kind → Service
  | posts | post => .community
  | servers | roomsAll | leaderboard => .ttt2
  | weeklyTop | opponents => .records
  | hourly | daily | playerStats => .history
  | eventBoard | eventPlayer => .event
  | playerSave | currentRank | holders => .saves
  | streamChannels | live => .streaming
  | popups => .popups

def Kind.name : Kind → String
  | posts => "posts:p"
  | post => "post:"
  | servers => "servers:"
  | roomsAll => "rooms_all:"
  | leaderboard => "leaderboard:"
  | weeklyTop => "weekly_top:"
  | opponents => "opponents:"
  | hourly => "hourly:"
  | daily => "daily:"
  | playerStats => "player_stats:"
  | eventBoard => "board"
  | eventPlayer => "player:"
  | playerSave => "player:"
  | currentRank => "current-rank-leaderboard"
  | holders => "current-rank-holders:"
  | streamChannels => "channels"
  | live => "live:"
  | popups => "active"

namespace CachedRead

def key (casefold : String → String) : CachedRead → String
  | posts page pageSize postType team => Community.listKey page pageSize postType team
  | post postId => Community.postKey postId
  | servers comId => "ttt2:servers:" ++ comId
  | roomsAll comId => "ttt2:rooms_all:" ++ comId
  | leaderboard comId boardId => Matching.leaderboardCacheKey comId boardId
  | weeklyTop limit => "records:weekly_top:" ++ toString limit
  | opponents npid days => "records:opponents:" ++ npid ++ ":" ++ toString days
  | hourly days => "history:hourly:" ++ toString days
  | daily days => "history:daily:" ++ toString days
  | playerStats npid days => "history:player_stats:" ++ npid ++ ":" ++ toString days
  | eventBoard => "event:board"
  | eventPlayer npid => "event:player:" ++ casefold npid
  | playerSave npid => "saves:player:" ++ casefold npid
  | currentRank => "saves:current-rank-leaderboard"
  | holders rank => "saves:current-rank-holders:" ++ toString rank
  | streamChannels => "streaming:channels"
  | live channelId => "streaming:live:" ++ channelId
  | popups => Popups.activeKey

def kind : CachedRead → Kind
  | posts .. => .posts
  | post .. => .post
  | servers .. => .servers
  | roomsAll .. => .roomsAll
  | leaderboard .. => .leaderboard
  | weeklyTop .. => .weeklyTop
  | opponents .. => .opponents
  | hourly .. => .hourly
  | daily .. => .daily
  | playerStats .. => .playerStats
  | eventBoard => .eventBoard
  | eventPlayer .. => .eventPlayer
  | playerSave .. => .playerSave
  | currentRank => .currentRank
  | holders .. => .holders
  | streamChannels => .streamChannels
  | live .. => .live
  | popups => .popups

/-- One read asks what the other asks; names are told apart up to case, and lists of posts by their keys. -/
def Same (casefold : String → String) : CachedRead → CachedRead → Prop
  | posts p s t c,posts p' s' t' c' => Community.listKey p s t c = Community.listKey p' s' t' c'
  | eventPlayer npid,eventPlayer npid' => casefold npid = casefold npid'
  | playerSave npid,playerSave npid' => casefold npid = casefold npid'
  | r,r' => r = r'

end CachedRead

/-! ## Texts before a last number -/

theorem append_cons_inj {α : Type} {a : α} {xs xs' ys ys' : List α} (hxs : a ∉ xs) (hxs' : a ∉ xs')
    (h : xs ++ a :: ys = xs' ++ a :: ys') : xs = xs' ∧ ys = ys' := by
  induction xs generalizing xs' with
  | nil =>
    cases xs' with
    | nil => simpa using h
    | cons x' xs' =>
      simp only [List.nil_append,List.cons_append,List.cons.injEq] at h
      simp [h.1] at hxs'
  | cons x xs ih =>
    cases xs' with
    | nil =>
      simp only [List.nil_append,List.cons_append,List.cons.injEq] at h
      simp [h.1] at hxs
    | cons x' xs' =>
      simp only [List.cons_append,List.cons.injEq] at h
      simp only [List.mem_cons,not_or] at hxs hxs'
      obtain ⟨rfl,rfl⟩ := ih hxs.2 hxs'.2 h.2
      exact ⟨by rw [h.1],rfl⟩

/-- What stands before and behind the last colon. -/
theorem append_colon_inj {s s' t t' : String} (ht : ':' ∉ t.toList) (ht' : ':' ∉ t'.toList)
    (h : s ++ ":" ++ t = s' ++ ":" ++ t') : s = s' ∧ t = t' := by
  have hlist : t.toList.reverse ++ ':' :: s.toList.reverse = t'.toList.reverse ++ ':' :: s'.toList.reverse := by
    simpa using congrArg (fun s : String => s.toList.reverse) h
  obtain ⟨htail,hhead⟩ := append_cons_inj (by simpa using ht) (by simpa using ht') hlist
  exact ⟨String.toList_inj.mp (List.reverse_injective hhead),String.toList_inj.mp (List.reverse_injective htail)⟩

theorem colon_notMem_nat (n : ℕ) : ':' ∉ (toString n).toList := by
  intro hmem
  have hdigits : ':' ∈ Nat.toDigits 10 n := by simpa [toString,Nat.repr] using hmem
  exact absurd (Nat.isDigit_of_mem_toDigits (by decide) (by decide) hdigits) (by decide)

theorem colon_notMem_int (n : ℤ) : ':' ∉ (toString n).toList := by
  cases n with
  | ofNat n => exact colon_notMem_nat n
  | negSucc n =>
    have h := colon_notMem_nat (n + 1)
    simpa [toString,Int.repr] using h

/-! ## Keys -/

/-- No service's text is the beginning of another's. -/
theorem service_of_begins {s s' : Service} (h : s.text.toList <+: s'.text.toList) : s = s' := by
  cases s <;> cases s' <;> simp [Service.text] at h ⊢

theorem kind_of_begins {k k' : Kind} (hservice : k.service = k'.service) (h : k.name.toList <+: k'.name.toList) :
    k = k' := by
  cases k <;> cases k' <;> first | (cases hservice; done) | simp [Kind.name] at h ⊢

section
variable {s t u : String}

theorem append_split (a : String) (h : s = t ++ u) : s ++ a = t ++ (u ++ a) := by
  rw [h,String.append_assoc]

theorem append_split_colon (a b : String) (h : s = t ++ u) : s ++ a ++ ":" ++ b = t ++ (u ++ (a ++ ":" ++ b)) := by
  rw [h]
  simp only [String.append_assoc]

theorem append_split_posts (a b c d : String) (h : s = t ++ u) :
    s ++ a ++ ":s" ++ b ++ ":t" ++ c ++ ":c" ++ d = t ++ (u ++ (a ++ ":s" ++ b ++ ":t" ++ c ++ ":c" ++ d)) := by
  rw [h]
  simp only [String.append_assoc]

end

/-- Of two texts that begin one text, one begins the other. -/
theorem prefix_or_prefix {s t rest rest' : String} (h : s ++ rest = t ++ rest') :
    s.toList <+: t.toList ∨ t.toList <+: s.toList := by
  have hlist : s.toList ++ rest.toList = t.toList ++ rest'.toList := by
    simpa using congrArg String.toList h
  exact List.prefix_or_prefix_of_prefix ⟨_,hlist⟩ (List.prefix_append _ _)

namespace CachedRead
variable {casefold : String → String}

/-- What follows the texts of the service and of the kind. -/
def rest (casefold : String → String) : CachedRead → String
  | posts page pageSize postType team => toString page ++ ":s" ++ toString pageSize ++ ":t" ++
      Community.orAll (postType.getD "") ++ ":c" ++ Community.orAll ("+".intercalate team)
  | post postId => toString postId
  | servers comId => comId
  | roomsAll comId => comId
  | leaderboard comId boardId => comId ++ ":" ++ toString boardId
  | weeklyTop limit => toString limit
  | opponents npid days => npid ++ ":" ++ toString days
  | hourly days => toString days
  | daily days => toString days
  | playerStats npid days => npid ++ ":" ++ toString days
  | eventPlayer npid => casefold npid
  | playerSave npid => casefold npid
  | holders rank => toString rank
  | live channelId => channelId
  | _ => ""

theorem key_eq (r : CachedRead) : r.key casefold = r.kind.service.text ++ (r.kind.name ++ r.rest casefold) := by
  cases r with
  | posts page pageSize postType team =>
    exact append_split_posts (toString page) (toString pageSize) (Community.orAll (postType.getD ""))
      (Community.orAll ("+".intercalate team)) rfl
  | post postId => exact append_split (toString postId) rfl
  | servers comId => exact append_split comId rfl
  | roomsAll comId => exact append_split comId rfl
  | leaderboard comId boardId => exact append_split_colon comId (toString boardId) rfl
  | weeklyTop limit => exact append_split (toString limit) rfl
  | opponents npid days => exact append_split_colon npid (toString days) rfl
  | hourly days => exact append_split (toString days) rfl
  | daily days => exact append_split (toString days) rfl
  | playerStats npid days => exact append_split_colon npid (toString days) rfl
  | eventBoard => rfl
  | eventPlayer npid => exact append_split (casefold npid) rfl
  | playerSave npid => exact append_split (casefold npid) rfl
  | currentRank => rfl
  | holders rank => exact append_split (toString rank) rfl
  | streamChannels => rfl
  | live channelId => exact append_split channelId rfl
  | popups => rfl

theorem kind_of_key {r r' : CachedRead} (h : r.key casefold = r'.key casefold) : r.kind = r'.kind := by
  rw [key_eq,key_eq] at h
  have hservice : r.kind.service = r'.kind.service := by
    rcases prefix_or_prefix h with hle | hle
    · exact service_of_begins hle
    · exact (service_of_begins hle).symm
  rw [hservice,String.append_right_inj] at h
  rcases prefix_or_prefix h with hle | hle
  · exact kind_of_begins hservice hle
  · exact (kind_of_begins hservice.symm hle).symm

theorem rest_of_key {r r' : CachedRead} (h : r.key casefold = r'.key casefold) :
    r.kind = r'.kind ∧ r.rest casefold = r'.rest casefold := by
  have hkind := kind_of_key h
  rw [key_eq,key_eq,hkind,String.append_right_inj,String.append_right_inj] at h
  exact ⟨hkind,h⟩

theorem key_eq_iff {r r' : CachedRead} : r.key casefold = r'.key casefold ↔ Same casefold r r' := by
  constructor
  · intro h
    obtain ⟨hkind,hrest⟩ := rest_of_key h
    cases r with
    | posts page pageSize postType team => cases r' <;> first | (cases hkind; done) | exact h
    | post postId => cases r' <;> first | (cases hkind; done) | exact congrArg post (toString_nat_injective hrest)
    | servers comId => cases r' <;> first | (cases hkind; done) | exact congrArg servers hrest
    | roomsAll comId => cases r' <;> first | (cases hkind; done) | exact congrArg roomsAll hrest
    | leaderboard comId boardId =>
      cases r' with
      | leaderboard comId' boardId' =>
        obtain ⟨rfl,hlast⟩ := append_colon_inj (colon_notMem_int _) (colon_notMem_int _) hrest
        exact congrArg (leaderboard _) (toString_int_injective hlast)
      | _ => cases hkind
    | weeklyTop limit =>
      cases r' <;> first | (cases hkind; done) | exact congrArg weeklyTop (toString_nat_injective hrest)
    | opponents npid days =>
      cases r' with
      | opponents npid' days' =>
        obtain ⟨rfl,hlast⟩ := append_colon_inj (colon_notMem_nat _) (colon_notMem_nat _) hrest
        exact congrArg (opponents _) (toString_nat_injective hlast)
      | _ => cases hkind
    | hourly days => cases r' <;> first | (cases hkind; done) | exact congrArg hourly (toString_nat_injective hrest)
    | daily days => cases r' <;> first | (cases hkind; done) | exact congrArg daily (toString_nat_injective hrest)
    | playerStats npid days =>
      cases r' with
      | playerStats npid' days' =>
        obtain ⟨rfl,hlast⟩ := append_colon_inj (colon_notMem_nat _) (colon_notMem_nat _) hrest
        exact congrArg (playerStats _) (toString_nat_injective hlast)
      | _ => cases hkind
    | eventBoard => cases r' <;> first | (cases hkind; done) | rfl
    | eventPlayer npid => cases r' <;> first | (cases hkind; done) | exact hrest
    | playerSave npid => cases r' <;> first | (cases hkind; done) | exact hrest
    | currentRank => cases r' <;> first | (cases hkind; done) | rfl
    | holders rank => cases r' <;> first | (cases hkind; done) | exact congrArg holders (toString_nat_injective hrest)
    | streamChannels => cases r' <;> first | (cases hkind; done) | rfl
    | live channelId => cases r' <;> first | (cases hkind; done) | exact congrArg live hrest
    | popups => cases r' <;> first | (cases hkind; done) | rfl
  · intro h
    unfold Same at h
    split at h
    · exact h
    · exact congrArg ("event:player:" ++ ·) h
    · exact congrArg ("saves:player:" ++ ·) h
    · rw [h]

end CachedRead

/-! ## Patterns -/

/-- The marks of `fnmatch` and of Redis; the patterns of the services have no bracket and no backslash. -/
def globMarks : Marks Char := ⟨'*','?','\\'⟩

def globMatch (pattern key : String) : Bool := (tokens globMarks pattern.toList).any fun ts => reads ts key.toList

def deletePattern {ν : Type} (store : DictCache ν) (pattern : String) : DictCache ν :=
  fun key => if globMatch pattern key then none else store key

theorem globMatch_star {text key : String} (h : ∀ c ∈ text.toList, ¬globMarks.Special c) :
    globMatch (text ++ "*") key = true ↔ text.toList <+: key.toList := by
  have htokens : tokens globMarks (text ++ "*").toList = some (before text.toList) := by
    simpa [globMarks] using tokens_before (k := globMarks) (by decide) h
  unfold globMatch
  rw [htokens,Option.any_some,reads_iff,reads_before]

namespace CachedRead
variable {casefold : String → String} {r : CachedRead}

theorem prefix_key_iff {service : Service} {name : String} :
    (service.text ++ name).toList <+: (r.key casefold).toList ↔
      r.kind.service = service ∧ name.toList <+: (r.kind.name ++ r.rest casefold).toList := by
  rw [key_eq,String.toList_append,String.toList_append]
  constructor
  · intro h
    have hservice : service = r.kind.service := by
      rcases List.prefix_or_prefix_of_prefix ((List.prefix_append _ _).trans h) (List.prefix_append _ _) with hle | hle
      · exact service_of_begins hle
      · exact (service_of_begins hle).symm
    subst hservice
    exact ⟨rfl,(List.prefix_append_right_inj _).mp h⟩
  · rintro ⟨rfl,h⟩
    exact (List.prefix_append_right_inj _).mpr h

theorem kind_name_begins {name : String} (h : name.toList <+: (r.kind.name ++ r.rest casefold).toList) :
    name.toList <+: r.kind.name.toList ∨ r.kind.name.toList <+: name.toList := by
  rw [String.toList_append] at h
  exact List.prefix_or_prefix_of_prefix h (List.prefix_append _ _)

theorem posts_match : globMatch "community:posts:*" (r.key casefold) = true ↔ r.kind = .posts := by
  have htext : "community:posts:*" = Service.community.text ++ "posts:" ++ "*" := by
    simp [Service.text]
  rw [htext,globMatch_star (by simp [Service.text,globMarks,Marks.Special]),prefix_key_iff]
  constructor
  · rintro ⟨hservice,hname⟩
    have hcases := kind_name_begins hname
    generalize r.kind = kind at hservice hcases
    cases kind <;> first | (cases hservice; done) | simp [Kind.name] at hcases ⊢
  · intro hkind
    rw [hkind,String.toList_append]
    have hname : "posts:".toList <+: Kind.posts.name.toList := ⟨['p'],rfl⟩
    exact ⟨rfl,hname.trans (List.prefix_append _ _)⟩

theorem daily_match : globMatch "history:daily:*" (r.key casefold) = true ↔ r.kind = .daily := by
  have htext : "history:daily:*" = Service.history.text ++ "daily:" ++ "*" := by
    simp [Service.text]
  rw [htext,globMatch_star (by simp [Service.text,globMarks,Marks.Special]),prefix_key_iff]
  constructor
  · rintro ⟨hservice,hname⟩
    have hcases := kind_name_begins hname
    generalize r.kind = kind at hservice hcases
    cases kind <;> first | (cases hservice; done) | simp [Kind.name] at hcases ⊢
  · intro hkind
    rw [hkind,String.toList_append]
    exact ⟨rfl,List.prefix_append _ _⟩

end CachedRead

/-! ## One cache, or one for each read -/

section
variable {σ τ κ ω : Type}

def answers (step : σ → κ → ω × σ) : σ → List κ → List ω
  | _,[] => []
  | s,call :: calls => (step s call).1 :: answers step (step s call).2 calls

theorem answers_eq {step : σ → κ → ω × σ} {step' : τ → κ → ω × τ} (view : σ → τ)
    (h : ∀ s call, step' (view s) call = ((step s call).1,view (step s call).2)) (s : σ) (calls : List κ) :
    answers step s calls = answers step' (view s) calls := by
  induction calls generalizing s with
  | nil => rfl
  | cons call calls ih =>
    simp only [answers,h]
    rw [ih]

end

/-- A call of a service, with the time it is made at. -/
inductive CacheCall (ν : Type)
  | get (r : CachedRead) (now : ℤ)
  | set (r : CachedRead) (value : ν) (now ttl : ℤ)
  | delete (r : CachedRead)
  | invalidateLists
  | invalidateDaily

def CacheCall.shared {ν : Type} (casefold : String → String) (store : DictCache ν) :
    CacheCall ν → Option ν × DictCache ν
  | get r now => store.get (r.key casefold) now
  | set r value now ttl => (none,store.set (r.key casefold) value now ttl)
  | delete r => (none,store.delete (r.key casefold))
  | invalidateLists => (none,deletePattern store "community:posts:*")
  | invalidateDaily => (none,deletePattern store "history:daily:*")

/-- What each read has of its own. -/
abbrev Separate (ν : Type) := CachedRead → Option (ν × ℤ)

namespace Separate
variable {ν : Type}

open Classical in
noncomputable def change (s : Separate ν) (changed : CachedRead → Prop) (entry : Option (ν × ℤ)) : Separate ν :=
  fun r => if changed r then entry else s r

noncomputable def get (casefold : String → String) (s : Separate ν) (r : CachedRead) (now : ℤ) :
    Option ν × Separate ν :=
  match s r with
  | none => (none,s)
  | some (value,expireAt) =>
    if expireAt ≤ now then (none,s.change (CachedRead.Same casefold r) none) else (some value,s)

noncomputable def step (casefold : String → String) (s : Separate ν) : CacheCall ν → Option ν × Separate ν
  | .get r now => s.get casefold r now
  | .set r value now ttl => (none,s.change (CachedRead.Same casefold r) (some (value,now + ttl)))
  | .delete r => (none,s.change (CachedRead.Same casefold r) none)
  | .invalidateLists => (none,s.change (·.kind = .posts) none)
  | .invalidateDaily => (none,s.change (·.kind = .daily) none)

end Separate

section
variable {ν : Type} (casefold : String → String)

def separate (store : DictCache ν) : Separate ν := fun r => store (r.key casefold)

variable {casefold} {store : DictCache ν}

theorem separate_update (r : CachedRead) (entry : Option (ν × ℤ)) :
    separate casefold (Function.update store (r.key casefold) entry) =
      (separate casefold store).change (CachedRead.Same casefold r) entry := by
  funext r'
  by_cases hkey : r.key casefold = r'.key casefold
  · simp [separate,Separate.change,← hkey,CachedRead.key_eq_iff.mp hkey]
  · have hne : r'.key casefold ≠ r.key casefold := Ne.symm hkey
    have hother : ¬CachedRead.Same casefold r r' := fun hsame => hkey (CachedRead.key_eq_iff.mpr hsame)
    simp [separate,Separate.change,Function.update_of_ne hne,hother]

theorem separate_deletePattern {pattern : String} {kind : Kind}
    (h : ∀ r : CachedRead, globMatch pattern (r.key casefold) = true ↔ r.kind = kind) :
    separate casefold (deletePattern store pattern) = (separate casefold store).change (·.kind = kind) none := by
  funext r
  unfold separate deletePattern Separate.change
  by_cases hkind : r.kind = kind
  · rw [if_pos hkind,if_pos ((h r).mpr hkind)]
  · rw [if_neg hkind,if_neg (mt (h r).mp hkind)]

theorem separate_get (r : CachedRead) (now : ℤ) : (separate casefold store).get casefold r now =
    ((store.get (r.key casefold) now).1,separate casefold (store.get (r.key casefold) now).2) := by
  have hentry : separate casefold store r = store (r.key casefold) := rfl
  unfold Separate.get DictCache.get
  rw [hentry]
  cases store (r.key casefold) with
  | none => rfl
  | some entry =>
    obtain ⟨value,expireAt⟩ := entry
    by_cases hexpired : expireAt ≤ now
    · simp only [if_pos hexpired,separate_update]
    · simp only [if_neg hexpired]

theorem separate_step (call : CacheCall ν) : Separate.step casefold (separate casefold store) call =
    ((call.shared casefold store).1,separate casefold (call.shared casefold store).2) := by
  cases call with
  | get r now => exact separate_get r now
  | set r value now ttl => exact congrArg (none,·) (separate_update r _).symm
  | delete r => exact congrArg (none,·) (separate_update r _).symm
  | invalidateLists =>
    have hposts : ∀ r : CachedRead, globMatch "community:posts:*" (r.key casefold) = true ↔ r.kind = .posts :=
      fun _ => CachedRead.posts_match
    simp only [Separate.step,CacheCall.shared,separate_deletePattern hposts]
  | invalidateDaily =>
    have hdaily : ∀ r : CachedRead, globMatch "history:daily:*" (r.key casefold) = true ↔ r.kind = .daily :=
      fun _ => CachedRead.daily_match
    simp only [Separate.step,CacheCall.shared,separate_deletePattern hdaily]

end

/-- No read is ever answered with what another read had stored. -/
theorem one_cache_for_all {ν : Type} (casefold : String → String) (calls : List (CacheCall ν)) :
    answers (CacheCall.shared casefold) (DictCache.empty : DictCache ν) calls =
      answers (Separate.step casefold) (fun _ => none) calls :=
  answers_eq (separate casefold) (fun _ call => separate_step call) DictCache.empty calls

end Tag2now.CacheKeys
