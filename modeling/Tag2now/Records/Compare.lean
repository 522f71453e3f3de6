import Tag2now.Collections.Fallible
import Tag2now.Collections.Places
import Tag2now.Records.Saves

/-! # What a comparison of two saves reads

The ranks of a match found are looked up in two dictionaries, and the second lookup may
raise. It never does: whoever played has a tally in the later save. What the comparison
then tells of the match is said without its lookups and sorts.
-/
namespace Tag2now.Records
open Collections

inductive TallyError
  | keyError (char : ℤ)

/-- `save.tallies[char]`. -/
def PlayerSave.tallyOf (save : PlayerSave) (char : ℤ) : Except TallyError CharTally :=
  (save.tallies.lookup char).elim (.error (.keyError char)) .ok

/-- `rankGoingIn` with the lookup as the code makes it. -/
def rankOrKeyError (before after : PlayerSave) (char : ℤ) : Except TallyError (Option ℤ) := do
  match ((before.tallies.lookup char).getD noTally).rank with
  | none =>
    let tally ← after.tallyOf char
    return tally.rank
  | some rank => return some rank

/-- `compare` with the lookups as the code makes them. -/
def compareOrKeyError (before after : PlayerSave) : Except TallyError Comparison := do
  let change := (after.wins - before.wins,after.losses - before.losses)
  if change = (0,0) then return ⟨none,false⟩
  match oneMatch change with
  | none => return ⟨none,true⟩
  | some outcome =>
    let played := played before after outcome
    let ranks ← played.mapM (rankOrKeyError before after)
    return ⟨some ⟨outcome,played,ranks⟩,false⟩

/-! ## What there is to read -/

/-- The tally of this outcome rose by one, and the other is as it was. -/
def OneMore (before after : PlayerSave) (outcome : MatchOutcome) : Prop :=
  rise outcome before after = 1 ∧ ∀ other, other ≠ outcome → rise other before after = 0

/-- The character's tally of this outcome rose, from zero where the save before has none. -/
def Rose (before after : PlayerSave) (outcome : MatchOutcome) (char : ℤ) : Prop :=
  ∃ tally, after.tallies.lookup char = some tally ∧
    (before.tallies.lookup char).elim 0 (·.count outcome) < tally.count outcome

/-- The characters who entered, as the save before names them, are those whose tally rose. -/
def EntryAgrees (before after : PlayerSave) (outcome : MatchOutcome) : Prop :=
  ∀ char, char ∈ before.enteredChars ↔ Rose before after outcome char

/-- The rank before the match, or the one after it where none was known before. -/
inductive GoesInAt (before after : PlayerSave) (char : ℤ) : Option ℤ → Prop
  | before {tally : CharTally} {rank : ℤ} : before.tallies.lookup char = some tally → tally.rank = some rank →
      GoesInAt before after char (some rank)
  | after {tally : CharTally} : (∀ old, before.tallies.lookup char = some old → old.rank = none) →
      after.tallies.lookup char = some tally → GoesInAt before after char tally.rank

/-- The match is what the two saves show of it. -/
structure PlayerMatch.ReadFrom (before after : PlayerSave) (m : PlayerMatch) : Prop where
  outcome : OneMore before after m.outcome
  chars : ∀ char, char ∈ m.chars ↔ Rose before after m.outcome char
  tagOrder : EntryAgrees before after m.outcome → m.chars = before.enteredChars
  idOrder : ¬ EntryAgrees before after m.outcome → m.chars.Pairwise (· < ·)
  ranks : List.Forall₂ (GoesInAt before after) m.chars m.ranks

structure Comparison.ReadFrom (before after : PlayerSave) (c : Comparison) : Prop where
  found_iff : c.found.isSome ↔ ∃ outcome, OneMore before after outcome
  merged_iff : c.merged ↔
    (after.wins ≠ before.wins ∨ after.losses ≠ before.losses) ∧ ¬ ∃ outcome, OneMore before after outcome
  found : ∀ m, c.found = some m → m.ReadFrom before after

section
variable {before after : PlayerSave} {outcome : MatchOutcome} {char : ℤ}

theorem oneMatch_eq_some_iff :
    oneMatch (after.wins - before.wins,after.losses - before.losses) = some outcome ↔ OneMore before after outcome := by
  unfold oneMatch OneMore
  constructor
  · intro h
    split at h
    · rename_i hwin
      cases h
      obtain ⟨hwins,hlosses⟩ := Prod.mk.inj hwin
      refine ⟨hwins,fun other hother => ?_⟩
      cases other with
      | win => exact absurd rfl hother
      | loss => exact hlosses
    · split at h
      · rename_i hloss
        cases h
        obtain ⟨hwins,hlosses⟩ := Prod.mk.inj hloss
        refine ⟨hlosses,fun other hother => ?_⟩
        cases other with
        | win => exact hwins
        | loss => exact absurd rfl hother
      · cases h
  · rintro ⟨hone,hothers⟩
    cases outcome with
    | win =>
      have hwins : after.wins - before.wins = 1 := hone
      have hlosses : after.losses - before.losses = 0 := hothers .loss (by decide)
      rw [hwins,hlosses]
      rfl
    | loss =>
      have hwins : after.wins - before.wins = 0 := hothers .win (by decide)
      have hlosses : after.losses - before.losses = 1 := hone
      rw [hwins,hlosses]
      rfl

theorem mem_raised : char ∈ raised before after outcome ↔ Rose before after outcome char := by
  have hbefore : ((before.tallies.lookup char).getD noTally).count outcome =
      (before.tallies.lookup char).elim 0 (·.count outcome) := by
    cases before.tallies.lookup char with
    | none => cases outcome <;> rfl
    | some tally => rfl
  unfold raised Rose
  rw [List.mem_filter,decide_eq_true_iff,hbefore,← AList.mem_keys,← AList.lookup_isSome,Option.isSome_iff_exists]
  constructor
  · rintro ⟨⟨tally,htally⟩,hlt⟩
    rw [htally] at hlt
    exact ⟨tally,htally,hlt⟩
  · rintro ⟨tally,htally,hlt⟩
    rw [htally]
    exact ⟨⟨tally,rfl⟩,hlt⟩

theorem nodup_raised : (raised before after outcome).Nodup := after.tallies.keys_nodup.filter _

theorem agrees_iff : ((∀ char ∈ before.enteredChars, char ∈ raised before after outcome) ∧
    ∀ char ∈ raised before after outcome, char ∈ before.enteredChars) ↔ EntryAgrees before after outcome := by
  unfold EntryAgrees
  simp only [mem_raised]
  exact ⟨fun h char => ⟨h.1 char,h.2 char⟩,fun h => ⟨fun char => (h char).mp,fun char => (h char).mpr⟩⟩

theorem played_of_agrees (h : EntryAgrees before after outcome) : played before after outcome = before.enteredChars :=
  if_pos (agrees_iff.mpr h)

theorem played_of_not_agrees (h : ¬ EntryAgrees before after outcome) :
    played before after outcome = (raised before after outcome).mergeSort (· ≤ ·) :=
  if_neg (mt agrees_iff.mp h)

/-- Whichever list is taken, it names those whose tally rose. -/
theorem mem_played : char ∈ played before after outcome ↔ Rose before after outcome char := by
  by_cases h : EntryAgrees before after outcome
  · rw [played_of_agrees h]
    exact h char
  · rw [played_of_not_agrees h,List.mem_mergeSort]
    exact mem_raised

theorem played_ascending (h : ¬ EntryAgrees before after outcome) :
    (played before after outcome).Pairwise (· < ·) := by
  rw [played_of_not_agrees h]
  have hle : ((raised before after outcome).mergeSort (· ≤ ·)).Pairwise (· ≤ ·) := List.pairwise_mergeSort' _ _
  have hne : ((raised before after outcome).mergeSort (· ≤ ·)).Nodup :=
    (List.mergeSort_perm _ _).nodup_iff.mpr nodup_raised
  exact ascending_of_nodup hle hne

/-- A character who played has a tally in the later save, so its rank is found. -/
theorem rankOrKeyError_of_rose (h : Rose before after outcome char) :
    rankOrKeyError before after char = .ok (rankGoingIn before after char) := by
  obtain ⟨tally,htally,_⟩ := h
  unfold rankOrKeyError rankGoingIn PlayerSave.tallyOf
  rw [htally]
  cases ((before.tallies.lookup char).getD noTally).rank <;> rfl

theorem goesInAt_of_rose (h : Rose before after outcome char) :
    GoesInAt before after char (rankGoingIn before after char) := by
  obtain ⟨tally,htally,_⟩ := h
  unfold rankGoingIn
  rw [htally]
  cases hold : before.tallies.lookup char with
  | none =>
    refine .after (fun old h => ?_) htally
    rw [hold] at h
    cases h
  | some old =>
    cases hrank : old.rank with
    | none =>
      simp only [Option.getD_some,hrank]
      refine .after (fun old' h => ?_) htally
      rw [hold] at h
      cases h
      exact hrank
    | some rank =>
      simp only [Option.getD_some,hrank]
      exact .before hold hrank

theorem compareOrKeyError_eq (before after : PlayerSave) :
    compareOrKeyError before after = .ok (compare before after) := by
  unfold compareOrKeyError compare
  dsimp only
  split
  · rfl
  · cases oneMatch (after.wins - before.wins,after.losses - before.losses) with
    | none => rfl
    | some outcome =>
      have hranks : (played before after outcome).mapM (rankOrKeyError before after) =
          .ok ((played before after outcome).map (rankGoingIn before after)) :=
        mapM_map fun char hchar => rankOrKeyError_of_rose (mem_played.mp hchar)
      simp only [hranks]
      rfl

theorem readFrom_played (h : OneMore before after outcome) : (⟨outcome,played before after outcome,
    (played before after outcome).map (rankGoingIn before after)⟩ : PlayerMatch).ReadFrom before after where
  outcome := h
  chars _ := mem_played
  tagOrder := played_of_agrees
  idOrder := played_ascending
  ranks := by
    rw [List.forall₂_map_right_iff,List.forall₂_same]
    exact fun char hchar => goesInAt_of_rose (mem_played.mp hchar)

theorem compare_readFrom (before after : PlayerSave) : (compare before after).ReadFrom before after := by
  by_cases hsame : (after.wins - before.wins,after.losses - before.losses) = (0,0)
  · have hcompare : compare before after = ⟨none,false⟩ := if_pos hsame
    obtain ⟨hwins,hlosses⟩ := Prod.mk.inj hsame
    have hnone : ¬ ∃ outcome, OneMore before after outcome := by
      rintro ⟨outcome,hone,_⟩
      cases outcome <;> simp only [rise,PlayerSave.count] at hone <;> omega
    rw [hcompare]
    refine ⟨?_,?_,?_⟩
    · simpa using hnone
    · simp only [Bool.false_eq_true,false_iff,not_and]
      rintro (hchanged | hchanged) <;> omega
    · rintro m ⟨⟩
  · have hchanged : after.wins ≠ before.wins ∨ after.losses ≠ before.losses := by
      by_contra h
      push Not at h
      rw [h.1,h.2,Int.sub_self,Int.sub_self] at hsame
      exact hsame rfl
    cases hmatch : oneMatch (after.wins - before.wins,after.losses - before.losses) with
    | none =>
      have hcompare : compare before after = ⟨none,true⟩ := by
        unfold compare
        simp only [if_neg hsame,hmatch]
      have hnone : ¬ ∃ outcome, OneMore before after outcome := by
        rintro ⟨outcome,hone⟩
        rw [oneMatch_eq_some_iff.mpr hone] at hmatch
        cases hmatch
      rw [hcompare]
      refine ⟨?_,?_,?_⟩
      · simpa using hnone
      · exact iff_of_true rfl ⟨hchanged,hnone⟩
      · rintro m ⟨⟩
    | some outcome =>
      have hone : OneMore before after outcome := oneMatch_eq_some_iff.mp hmatch
      have hcompare : compare before after = ⟨some ⟨outcome,played before after outcome,
          (played before after outcome).map (rankGoingIn before after)⟩,false⟩ := by
        unfold compare
        simp only [if_neg hsame,hmatch]
      rw [hcompare]
      refine ⟨?_,?_,?_⟩
      · exact iff_of_true rfl ⟨outcome,hone⟩
      · simp only [Bool.false_eq_true,false_iff,not_and,not_not]
        exact fun _ => ⟨outcome,hone⟩
      · rintro m ⟨⟩
        exact readFrom_played hone

end

/-- A comparison never raises, and reads the match the two saves show, or that they cannot be split. -/
theorem compare_reads (before after : PlayerSave) :
    ∃ c, compareOrKeyError before after = .ok c ∧ c.ReadFrom before after :=
  ⟨compare before after,compareOrKeyError_eq before after,compare_readFrom before after⟩

end Tag2now.Records
