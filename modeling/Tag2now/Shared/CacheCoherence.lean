import Tag2now.Caching.Coherence
import Tag2now.Community.Writes
import Tag2now.Saves.Service
import Tag2now.Shared.Cache

/-! # Reads after writes

A reader's fetch and its write of the entry are separate steps. A writer that commits and
drops the entry between them leaves the reader to store the old content, and it is served
till it expires. Where no reader stores what it fetched before a write whose writer has
already dropped the entry, every read that begins after a writer returned includes its write.
-/
/-! ## An admin's edits behind a cached profile

The save server answers a name regardless of case. An edit that was applied drops the
entry of the account it names; a preview applies nothing. The game writes saves whenever a
session ends, and drops nothing.
-/
namespace Tag2now.Saves

/-- The server's saves by casefolded name. -/
abbrev Saved := String → Option Save

/-- An applied edit: the account as the server names it, and its save as written. -/
structure SaveEdit where
  username : String
  save : Save

/-- A profile read through the cache, by casefolded name. What is kept is the save, or that there is none. -/
def profileSource (casefold : String → String) : Coherence.Source String String Saved SaveEdit Empty PlayerEntry where
  key name := "saves:player:" ++ name
  asks _ seen := seen = []
  gives name seen result := ∃ saved, seen = [saved] ∧ result = .ok ⟨(saved name).map profile⟩
  target edit := casefold edit.username
  parts _ := [0]
  effect edit saved saved' := (saved (casefold edit.username)).isSome ∧
    saved' = Function.update saved (casefold edit.username) (some edit.save)
  other _ _ := True
  key_injective _ _ h := (String.append_right_inj _).mp h

end Tag2now.Saves

/-! ## Posts and profiles -/
namespace Tag2now
open Coherence Community

abbrev PostState := State (DictCache PostDetail) ℕ Board BoardWrite CommunityError PostDetail

abbrev ProfileState := State (DictCache Saves.PlayerEntry) String Saves.Saved Saves.SaveEdit Empty Saves.PlayerEntry

/-- Any number of readers and writers of the posts, from an empty cache. -/
def PostRun (ttl : ℤ) (db : Board) (s : PostState) : Prop :=
  Run (dictInvalidating PostDetail ttl) postSource (start (dictInvalidating PostDetail ttl) db) s

def FreshPostRun (ttl : ℤ) (db : Board) (s : PostState) : Prop :=
  FreshRun (dictInvalidating PostDetail ttl) postSource (start (dictInvalidating PostDetail ttl) db) s

def FreshProfileRun (casefold : String → String) (ttl : ℤ) (saved : Saves.Saved) (s : ProfileState) : Prop :=
  FreshRun (dictInvalidating Saves.PlayerEntry ttl) (Saves.profileSource casefold)
    (start (dictInvalidating Saves.PlayerEntry ttl) saved) s

/-- In a run whose fills are fresh every answer includes the writes that had returned when its read began. -/
theorem fresh_fills_coherent (casefold : String → String) (ttl : ℤ) :
    (∀ db s, FreshPostRun ttl db s → Coherent postSource s) ∧
      ∀ saved s, FreshProfileRun casefold ttl saved s → Coherent (Saves.profileSource casefold) s :=
  ⟨fun _ _ hrun => hrun.coherent,fun _ _ hrun => hrun.coherent⟩

/-! A post is read while its title is edited, and read again after the edit has returned. -/

def edited : PostEdit := ⟨"edited","with a team","공략",["Jin","Kazuya"],none,by decide,by decide,by decide⟩

def retitle : BoardWrite := .updatePost 1 edited

def retitled : Board :=
  { boardOf freePost with posts := (boardOf freePost).posts.modify 1 (editPost edited) fun _ => rfl }

def oldDetail : PostDetail := postDetail freePost []

theorem gives_oldDetail : Gives 1 [boardOf freePost,boardOf freePost] (.ok oldDetail) :=
  ⟨freePost,[],rfl,⟨by decide,List.Pairwise.nil⟩,rfl⟩

def newDetail : PostDetail := postDetail (editPost edited freePost) []

theorem gives_newDetail : Gives 1 [retitled,retitled] (.ok newDetail) :=
  ⟨editPost edited freePost,[],rfl,⟨by decide,List.Pairwise.nil⟩,rfl⟩

/-- The post is read before the edit, and twice after it: once from the board and once from the cache. -/
theorem exists_freshRead : ∃ s, FreshPostRun 30 (boardOf freePost) s ∧
    s.answers = [⟨1,[⟨retitle,1⟩],.ok newDetail⟩,⟨1,[⟨retitle,1⟩],.ok newDetail⟩,⟨1,[],.ok oldDetail⟩] := by
  refine ⟨_,.head ⟨.miss 0 1,.miss rfl ⟨0,rfl⟩,nofun⟩ (.head ⟨.fetch 0,.fetch rfl trivial,nofun⟩
    (.head ⟨.fetch 0,.fetch rfl rfl,nofun⟩ (.head ⟨.fill 0,.fill rfl gives_oldDetail ⟨0,rfl⟩,?_⟩
    (.head ⟨.commit retitle,.commit rfl ⟨rfl,rfl⟩,nofun⟩
    (.head ⟨.finish ⟨retitle,1⟩,@Step.finish _ _ _ _ _ _ _ _ _ _ _ [] [] _ rfl rfl,nofun⟩
    (.head ⟨.miss 0 1,.miss rfl ⟨0,rfl⟩,nofun⟩ (.head ⟨.fetch 0,.fetch rfl trivial,nofun⟩
    (.head ⟨.fetch 0,.fetch rfl rfl,nofun⟩ (.head ⟨.fill 0,.fill rfl gives_newDetail ⟨0,rfl⟩,?_⟩
    (.head ⟨.hit 1,.hit ⟨1,rfl⟩,nofun⟩ .refl)))))))))),rfl⟩
  · exact fun _ _ _ _ w hw => absurd hw List.not_mem_nil
  · intro id f hlabel hf w hw _
    cases hlabel
    have hseen : f.seen = [1,1] := by
      rw [← Option.some.inj hf]
      rfl
    have hreturned : w ∈ [(⟨retitle,1⟩ : Commit BoardWrite)] := hw
    obtain rfl := List.mem_singleton.mp hreturned
    apply covers_of_forall
    rw [hseen]
    simp

theorem fresh_fills_coherent_edited : ∃ s, FreshPostRun 30 (boardOf freePost) s ∧
    ⟨1,[⟨retitle,1⟩],.ok newDetail⟩ ∈ s.answers ∧
      postSource.Includes s.history 1 (.ok newDetail) ⟨retitle,1⟩ := by
  obtain ⟨s,hrun,hanswers⟩ := exists_freshRead
  have hread : ⟨1,[⟨retitle,1⟩],.ok newDetail⟩ ∈ s.answers := by
    rw [hanswers]
    exact List.mem_cons_self ..
  exact ⟨s,hrun,hread,(fresh_fills_coherent String.toLower 30).1 _ s hrun _ hread _ (List.mem_singleton_self _) rfl⟩

/-- The first read stores what it fetched before the edit, and the second is answered with it. -/
theorem exists_staleRead : ∃ s, PostRun 30 (boardOf freePost) s ∧ s.history = [boardOf freePost,retitled] ∧
    ⟨1,[⟨retitle,1⟩],.ok oldDetail⟩ ∈ s.answers := by
  refine ⟨_,.head ⟨.miss 0 1,.miss rfl ⟨0,rfl⟩⟩ (.head ⟨.fetch 0,.fetch rfl trivial⟩
    (.head ⟨.fetch 0,.fetch rfl rfl⟩ (.head ⟨.commit retitle,.commit rfl ⟨rfl,rfl⟩⟩
    (.head ⟨.finish ⟨retitle,1⟩,@Step.finish _ _ _ _ _ _ _ _ _ _ _ [] [] _ rfl rfl⟩
    (.head ⟨.fill 0,.fill rfl gives_oldDetail ⟨0,rfl⟩⟩
    (.head ⟨.hit 1,.hit ⟨1,rfl⟩⟩ .refl)))))),rfl,List.mem_cons_self ..⟩

/-- No fetch after the edit gives the old post. -/
theorem stale_read : ¬ ∀ ttl db s, PostRun ttl db s → Coherent postSource s := by
  intro h
  obtain ⟨s,hrun,hhistory,hanswer⟩ := exists_staleRead
  obtain ⟨seen,hbound,hgives,hcovers⟩ := h 30 _ s hrun _ hanswer _ (List.mem_singleton_self _) rfl
  rw [hhistory] at hbound hgives
  cases seen with
  | nil => exact hgives
  | cons i seen =>
    have hversion : 1 ≤ i := hcovers 0 (List.mem_singleton_self 0) i rfl
    have hlast : i < 2 := hbound i (List.mem_cons_self ..)
    obtain rfl : i = 1 := by omega
    have hstates : states [boardOf freePost,retitled] (1 :: seen) =
        retitled :: states [boardOf freePost,retitled] seen := rfl
    rw [hstates] at hgives
    cases hrest : states [boardOf freePost,retitled] seen with
    | nil =>
      rw [hrest] at hgives
      exact hgives
    | cons db rest =>
      cases rest with
      | nil =>
        rw [hrest] at hgives
        obtain ⟨post,comments,hpost,_,hdetail⟩ := hgives
        have hold : post = freePost := (congrArg PostDetail.post hdetail).symm
        have hnew : retitled.posts.get? 1 = some (editPost edited freePost) := rfl
        rw [hnew,hold] at hpost
        have htitle := congrArg Post.title (Option.some.inj hpost)
        exact absurd htitle (by decide)
      | cons _ _ =>
        rw [hrest] at hgives
        exact hgives

end Tag2now
