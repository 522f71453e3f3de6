import Mathlib
import Tag2now.Records.Saves

/-! # Stored states of the players' saves

The tallies are kept as a JSON object. Its keys are text, and the database keeps them in an order
of its own.
-/
namespace Tag2now.Records
open Collections

/-- A row of `save_states`. -/
structure SaveStateRow where
  npid : String
  dataId : ℤ
  savedAt : ℤ
  wins : ℤ
  losses : ℤ
  chars : Dict String (List (Option ℤ))
  startChars : List ℤ
  mergedCount : ℤ

def CharTally.toList (tally : CharTally) : List (Option ℤ) := [some tally.wins,some tally.losses,tally.rank]

/-- States kept before ranks have two elements. -/
def CharTally.ofList : List (Option ℤ) → Option CharTally
  | [some wins,some losses] => some ⟨wins,losses,none⟩
  | [some wins,some losses,rank] => some ⟨wins,losses,rank⟩
  | _ => none

/-- Object keys are kept by length and then by bytes. -/
def keyBefore {ν : Type} (a b : Sigma fun _ : String => ν) : Bool :=
  a.1.utf8ByteSize < b.1.utf8ByteSize || (a.1.utf8ByteSize == b.1.utf8ByteSize && a.1 ≤ b.1)

/-- The object as the database gives it back. -/
def jsonb {ν : Type} (d : Dict String ν) : Dict String ν :=
  ⟨d.entries.mergeSort keyBefore,(List.perm_nodupKeys (List.mergeSort_perm _ _)).mpr d.nodupKeys⟩

def charsOf (tallies : Dict ℤ CharTally) : Dict String (List (Option ℤ)) :=
  setAll (fun item => item.1.repr) (fun item => item.2.toList) tallies.entries ∅

def stateRow (save : PlayerSave) (mergedCount : ℤ) : SaveStateRow where
  npid := save.npid
  dataId := save.dataId
  savedAt := save.savedAt
  wins := save.wins
  losses := save.losses
  chars := jsonb (charsOf save.tallies)
  startChars := save.enteredChars
  mergedCount := mergedCount

/-- None when a key is no number or a value no tally. -/
def readTallies (chars : List (Sigma fun _ : String => List (Option ℤ))) (tallies : Dict ℤ CharTally) :
    Option (Dict ℤ CharTally) :=
  match chars with
  | [] => some tallies
  | item :: rest => do
    let char ← item.1.toInt?
    let tally ← CharTally.ofList item.2
    readTallies rest (tallies.insert char tally)

def toSave (row : SaveStateRow) : Option PlayerSave := do
  let tallies ← readTallies row.chars.entries ∅
  pure {
    npid := row.npid
    dataId := row.dataId
    savedAt := row.savedAt
    wins := row.wins
    losses := row.losses
    tallies := tallies
    enteredChars := row.startChars }

theorem toSave_dataId {row : SaveStateRow} {save : PlayerSave} (h : toSave row = some save) :
    save.dataId = row.dataId := by
  obtain ⟨_,_,heq⟩ := Option.bind_eq_some_iff.mp h
  cases heq
  rfl

/-! ## What is stored reads back -/

@[simp] theorem CharTally.ofList_toList (tally : CharTally) : CharTally.ofList tally.toList = some tally := rfl

theorem lookup_jsonb {ν : Type} (d : Dict String ν) (key : String) : (jsonb d).lookup key = d.lookup key :=
  AList.perm_lookup (List.mergeSort_perm _ _)

theorem lookup_charsOf {tallies : Dict ℤ CharTally} {key : String} {item : List (Option ℤ)} :
    (charsOf tallies).lookup key = some item ↔
      ∃ char tally, tallies.lookup char = some tally ∧ char.repr = key ∧ tally.toList = item := by
  have hkeys : (tallies.entries.map fun item => item.1.repr).Nodup := by
    have hmap : (tallies.entries.map fun item => item.1.repr) = tallies.keys.map Int.repr := by
      unfold AList.keys List.keys
      rw [List.map_map]
      rfl
    rw [hmap]
    exact tallies.keys_nodup.map fun _ _ => Int.repr_injective
  unfold charsOf
  rw [lookup_setAll hkeys]
  constructor
  · rintro (⟨⟨char,tally⟩,hmem,hkey,hitem⟩ | ⟨_,hnone⟩)
    · exact ⟨char,tally,AList.mem_lookup_iff.mpr hmem,hkey,hitem⟩
    · cases hnone
  · rintro ⟨char,tally,hlookup,hkey,hitem⟩
    exact .inl ⟨⟨char,tally⟩,AList.mem_lookup_iff.mp hlookup,hkey,hitem⟩

/-- An entry as a tally is written. -/
def Written (item : Sigma fun _ : String => List (Option ℤ)) : Prop :=
  ∃ char : ℤ, ∃ tally : CharTally, item = ⟨char.repr,tally.toList⟩

theorem readTallies_written {chars : List (Sigma fun _ : String => List (Option ℤ))}
    (hwritten : ∀ item ∈ chars, Written item) (hkeys : chars.NodupKeys) (tallies : Dict ℤ CharTally) :
    ∃ read, readTallies chars tallies = some read ∧ ∀ char, read.lookup char =
      (((chars.dlookup char.repr).bind CharTally.ofList).or (tallies.lookup char)) := by
  induction chars generalizing tallies with
  | nil => exact ⟨tallies,rfl,fun _ => rfl⟩
  | cons item rest ih =>
    obtain ⟨char,tally,rfl⟩ := hwritten _ (List.mem_cons_self ..)
    rw [List.nodupKeys_cons] at hkeys
    have hrest : ∀ item ∈ rest, Written item := fun item hitem => hwritten item (List.mem_cons_of_mem _ hitem)
    obtain ⟨read,hread,hlookup⟩ := ih hrest hkeys.2 (tallies.insert char tally)
    refine ⟨read,?_,?_⟩
    · unfold readTallies
      rw [Int.toInt?_repr,CharTally.ofList_toList]
      exact hread
    · intro other
      rw [hlookup other,lookup_insert_eq]
      by_cases hother : other = char
      · subst hother
        have hnone : rest.dlookup other.repr = none := List.dlookup_eq_none.mpr hkeys.1
        rw [hnone,List.dlookup_cons_eq,if_pos rfl]
        rfl
      · have hne : other.repr ≠ char.repr := fun h => hother (Int.repr_injective h)
        rw [List.dlookup_cons_ne rest ⟨char.repr,tally.toList⟩ hne,if_neg hother]

theorem charsOf_written {tallies : Dict ℤ CharTally} {item} (h : item ∈ (jsonb (charsOf tallies)).entries) :
    Written item := by
  obtain ⟨key,value⟩ := item
  have hlookup : (jsonb (charsOf tallies)).lookup key = some value := AList.mem_lookup_iff.mpr h
  rw [lookup_jsonb] at hlookup
  obtain ⟨char,tally,_,rfl,rfl⟩ := lookup_charsOf.mp hlookup
  exact ⟨char,tally,rfl⟩

theorem toSave_stateRow (save : PlayerSave) (mergedCount : ℤ) :
    ∃ back, toSave (stateRow save mergedCount) = some back ∧ back.Same save := by
  obtain ⟨read,hread,hlookup⟩ := readTallies_written (fun _ => charsOf_written)
    (jsonb (charsOf save.tallies)).nodupKeys ∅
  refine ⟨{ save with tallies := read },?_,⟨rfl,rfl,rfl,rfl,rfl,?_,rfl⟩⟩
  · unfold toSave stateRow
    simp only [hread]
    rfl
  · intro char
    have hsame : (jsonb (charsOf save.tallies)).entries.dlookup char.repr = (charsOf save.tallies).lookup char.repr :=
      lookup_jsonb _ _
    have hempty : (∅ : Dict ℤ CharTally).lookup char = none := rfl
    show read.lookup char = save.tallies.lookup char
    rw [hlookup char,hsame,hempty,Option.or_none]
    cases htally : save.tallies.lookup char with
    | some tally =>
      have hstored := lookup_charsOf.mpr ⟨char,tally,htally,rfl,rfl⟩
      rw [hstored]
      rfl
    | none =>
      cases hstored : (charsOf save.tallies).lookup char.repr with
      | none => rfl
      | some item =>
        obtain ⟨other,tally,hother,hkey,_⟩ := lookup_charsOf.mp hstored
        rw [Int.repr_injective hkey,htally] at hother
        cases hother

end Tag2now.Records
