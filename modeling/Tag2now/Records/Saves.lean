import Mathlib.Algebra.Ring.Int.Defs
import Tag2now.Collections.Dict
import Tag2now.Records.Domain

/-! # Finding finished matches in a player's saves

A save is cumulative. Two of them one after the other show one match, none, or a jump that
cannot be split into matches.
-/
namespace Tag2now.Records
open Collections

structure CharTally where
  wins : ℤ
  losses : ℤ
  /-- None in a state kept before saves carried ranks. -/
  rank : Option ℤ
  deriving DecidableEq

/-- One save's cumulative tally. -/
structure PlayerSave where
  npid : String
  dataId : ℤ
  savedAt : ℤ
  wins : ℤ
  losses : ℤ
  tallies : Dict ℤ CharTally
  /-- Set on a start save only: who entered the match, in tag order. -/
  enteredChars : List ℤ

structure CharAnswer where
  id : ℤ
  wins : ℤ
  losses : ℤ
  rank : Option ℤ

/-- A save as save-admin answers it; its text of the time is the instant it names. -/
structure SaveAnswer where
  npid : String
  dataId : ℤ
  savedUtc : ℤ
  wins : ℤ
  losses : ℤ
  chars : List CharAnswer
  ownChars : List ℤ

def PlayerSave.ofAnswer (answer : SaveAnswer) : PlayerSave where
  npid := answer.npid
  dataId := answer.dataId
  savedAt := answer.savedUtc
  wins := answer.wins
  losses := answer.losses
  tallies := setAll (·.id) (fun char => ⟨char.wins,char.losses,char.rank⟩) answer.chars ∅
  enteredChars := answer.ownChars

/-- Equal as dataclasses are: dictionaries have the same items, in whatever order. -/
structure PlayerSave.Same (a b : PlayerSave) : Prop where
  npid : a.npid = b.npid
  dataId : a.dataId = b.dataId
  savedAt : a.savedAt = b.savedAt
  wins : a.wins = b.wins
  losses : a.losses = b.losses
  tallies : ∀ char, a.tallies.lookup char = b.tallies.lookup char
  enteredChars : a.enteredChars = b.enteredChars

/-- One player's part in a finished match, as their saves showed it. -/
structure PlayerMatch where
  outcome : MatchOutcome
  chars : List ℤ
  /-- Each character's rank going into the match, in the order of `chars`. -/
  ranks : List (Option ℤ)
  deriving DecidableEq

/-- What changed between two saves: a match, or a jump that cannot be split into matches. -/
structure Comparison where
  found : Option PlayerMatch
  merged : Bool
  deriving DecidableEq

def noTally : CharTally := ⟨0,0,none⟩

def CharTally.count (tally : CharTally) : MatchOutcome → ℤ
  | .win => tally.wins
  | .loss => tally.losses

def oneMatch (change : ℤ × ℤ) : Option MatchOutcome :=
  if change = (1,0) then some .win else if change = (0,1) then some .loss else none

def raised (before after : PlayerSave) (outcome : MatchOutcome) : List ℤ :=
  after.tallies.keys.filter fun char =>
    (((before.tallies.lookup char).getD noTally).count outcome) <
      (((after.tallies.lookup char).getD noTally).count outcome)

/-- In tag order when the start save agrees and by id otherwise. -/
def played (before after : PlayerSave) (outcome : MatchOutcome) : List ℤ :=
  let raised := raised before after outcome
  if (∀ char ∈ before.enteredChars, char ∈ raised) ∧ ∀ char ∈ raised, char ∈ before.enteredChars then
    before.enteredChars
  else raised.mergeSort (· ≤ ·)

/-- The rank known before the match; a character's first match, or a state kept before ranks, falls
back to the result's. -/
def rankGoingIn (before after : PlayerSave) (char : ℤ) : Option ℤ :=
  match ((before.tallies.lookup char).getD noTally).rank with
  | some rank => some rank
  | none => (after.tallies.lookup char).bind (·.rank)

def compare (before after : PlayerSave) : Comparison :=
  let change := (after.wins - before.wins,after.losses - before.losses)
  if change = (0,0) then ⟨none,false⟩
  else match oneMatch change with
    | none => ⟨none,true⟩
    | some outcome =>
      let played := played before after outcome
      ⟨some ⟨outcome,played,played.map (rankGoingIn before after)⟩,false⟩

section Compare
variable {a a' b : PlayerSave}

/-- Only what a dictionary holds matters, not its order. -/
theorem PlayerSave.Same.compare_eq (h : a.Same a') (b : PlayerSave) : compare a b = compare a' b := by
  have hraised : raised a b = raised a' b := by
    funext outcome
    unfold raised
    simp only [h.tallies]
  have hrank : rankGoingIn a b = rankGoingIn a' b := by
    funext char
    unfold rankGoingIn
    simp only [h.tallies]
  have hplayed : played a b = played a' b := by
    funext outcome
    unfold played
    rw [hraised,h.enteredChars]
  unfold compare
  rw [h.wins,h.losses,hplayed,hrank]

/-- How often the comparison found this outcome. -/
def Comparison.shows (c : Comparison) (outcome : MatchOutcome) : ℕ :=
  if c.found.map (·.outcome) = some outcome then 1 else 0

def PlayerSave.count (save : PlayerSave) : MatchOutcome → ℤ
  | .win => save.wins
  | .loss => save.losses

def rise (outcome : MatchOutcome) (before after : PlayerSave) : ℤ := after.count outcome - before.count outcome

/-- A jump of the tally is a match found, or all of it is merged. -/
theorem compare_conserves (a b : PlayerSave) (outcome : MatchOutcome) : rise outcome a b =
    (compare a b).shows outcome + if (compare a b).merged then rise outcome a b else 0 := by
  by_cases hnone : (b.wins - a.wins,b.losses - a.losses) = ((0,0) : ℤ × ℤ)
  · have hcompare : compare a b = ⟨none,false⟩ := if_pos hnone
    obtain ⟨hwins,hlosses⟩ := Prod.mk.inj hnone
    cases outcome <;> simp [hcompare,Comparison.shows,rise,PlayerSave.count,hwins,hlosses]
  · by_cases hwin : (b.wins - a.wins,b.losses - a.losses) = ((1,0) : ℤ × ℤ)
    · obtain ⟨hwins,hlosses⟩ := Prod.mk.inj hwin
      cases outcome <;> simp [compare,oneMatch,Comparison.shows,rise,PlayerSave.count,hwins,hlosses]
    · by_cases hloss : (b.wins - a.wins,b.losses - a.losses) = ((0,1) : ℤ × ℤ)
      · obtain ⟨hwins,hlosses⟩ := Prod.mk.inj hloss
        cases outcome <;> simp [compare,oneMatch,Comparison.shows,rise,PlayerSave.count,hwins,hlosses]
      · have hcompare : compare a b = ⟨none,true⟩ := by
          unfold compare oneMatch
          simp only [if_neg hnone,if_neg hwin,if_neg hloss]
        simp [hcompare,Comparison.shows]

end Compare

/-! ## A player's saves one after the other -/

def jumps : List PlayerSave → List (PlayerSave × PlayerSave)
  | before :: after :: rest => (before,after) :: jumps (after :: rest)
  | _ => []

def mergedJumps (js : List (PlayerSave × PlayerSave)) : List (PlayerSave × PlayerSave) :=
  js.filter fun j => (compare j.1 j.2).merged

def found (js : List (PlayerSave × PlayerSave)) : List (PlayerSave × PlayerMatch) :=
  js.filterMap fun j => (compare j.1 j.2).found.map fun played => (j.2,played)

theorem rises_sum (outcome : MatchOutcome) (first : PlayerSave) (rest : List PlayerSave) :
    ((jumps (first :: rest)).map fun j => rise outcome j.1 j.2).sum =
      rise outcome first (rest.getLastD first) := by
  induction rest generalizing first with
  | nil => exact (Int.sub_self _).symm
  | cons next rest ih =>
    rw [List.getLastD_cons,jumps,List.map_cons,List.sum_cons,ih]
    show next.count outcome - first.count outcome + ((rest.getLastD next).count outcome - next.count outcome) =
      (rest.getLastD next).count outcome - first.count outcome
    omega

theorem rises_conserved (outcome : MatchOutcome) (js : List (PlayerSave × PlayerSave)) :
    (js.map fun j => rise outcome j.1 j.2).sum =
      ((found js).filter fun f => f.2.outcome = outcome).length +
        ((mergedJumps js).map fun j => rise outcome j.1 j.2).sum := by
  induction js with
  | nil => rfl
  | cons j js ih =>
    have hj := compare_conserves j.1 j.2 outcome
    have hfound : (((found (j :: js)).filter fun f => f.2.outcome = outcome).length : ℤ) =
        (compare j.1 j.2).shows outcome + ((found js).filter fun f => f.2.outcome = outcome).length := by
      unfold found Comparison.shows
      rw [List.filterMap_cons]
      cases (compare j.1 j.2).found with
      | none => simp
      | some played =>
        by_cases houtcome : played.outcome = outcome <;> simp [houtcome]
        omega
    have hmerged : ((mergedJumps (j :: js)).map fun j => rise outcome j.1 j.2).sum =
        (if (compare j.1 j.2).merged then rise outcome j.1 j.2 else 0) +
          ((mergedJumps js).map fun j => rise outcome j.1 j.2).sum := by
      unfold mergedJumps
      rw [List.filter_cons]
      split <;> simp
    rw [List.map_cons,List.sum_cons,ih,hfound,hmerged]
    omega

end Tag2now.Records
