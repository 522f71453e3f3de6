import Tag2now.Collections.Paging
import Tag2now.Records.Rows
import Tag2now.Shared.Basics

/-! # The list of recorded matches

A page is asked for behind the last match of the page before. A match recorded meanwhile has
a larger id than all that were there, so it is not behind any of them and moves nothing.
-/
namespace Tag2now.Records
open Collections History ReadCommitted

/-! ## One request -/

/-- `text.replace(old, new)` of one character. -/
def replaceChar (old : Char) (new : String) (text : String) : String :=
  String.ofList (text.toList.flatMap fun c => if c = old then new.toList else [c])

def escapeLike (text : String) : String :=
  replaceChar '_' "\\_" (replaceChar '%' "\\%" (replaceChar '\\' "\\\\" text))

/-- The names a search is held against; the room may be missing, and a name in it be of either member. -/
def namesOf (rooms : Tables) (m : MatchRow) : List (Option String) :=
  let room := m.roomSnapshotId.bind fun id => rooms.rankMatches.rows.find? fun row => row.id = id
  [some m.p1Npid,m.p2Npid,room.map (·.user1OnlineName),room.map (·.user2OnlineName)]

/-- What PostgreSQL's ILIKE answers of a name, a pattern and its escape character. -/
abbrev ILike := (name pattern : String) → (escape : Char) → Bool

/-- No condition on a column that is null holds. -/
def satisfies (ilike : ILike) (npid nameQuery : Option String) (rooms : Tables) (m : MatchRow) : Bool :=
  (npid.all fun npid => m.p1Npid = npid ∨ m.p2Npid = some npid) &&
  ((nameQuery.filter (· ≠ "")).all fun query =>
    (namesOf rooms m).any fun name => name.any fun name => ilike name ("%" ++ escapeLike query ++ "%") '\\')

/-- The tables as one request reads them. -/
structure Snapshot where
  db : Store
  rooms : Tables

def selected (ilike : ILike) (npid nameQuery : Option String) (before : Option ℕ) (s : Snapshot) : List MatchRow :=
  sortedBy (fun m : MatchRow => -(m.id : ℤ))
    (s.db.matchRows.rows.filter fun m => before.all (fun b => m.id < b) && satisfies ilike npid nameQuery s.rooms m)

namespace PostgresRecordsAdapter

def listMatches (ilike : ILike) (npid nameQuery : Option String) (before : Option ℕ) (limit : ℕ) (s : Snapshot) :
    List RecordedMatch := ((selected ilike npid nameQuery before s).take limit).map (listed s.db s.rooms)

end PostgresRecordsAdapter

structure RecordCharOut where
  name : String
  rank : Option TekkenRank

/-- A character or rank that is not known has no name of its own. -/
def RecordCharOut.of (charId : ℤ) (rank : Option ℤ) : RecordCharOut where
  name := (if 0 ≤ charId then ttt2Characters[charId.toNat]? else none).getD (toString charId)
  rank := rank.bind fun rank => if 0 ≤ rank then tekkenRanks[rank.toNat]? else none

structure RecordPlayerOut where
  npid : String
  onlineName : Option String
  result : MatchOutcome
  chars : Option (List RecordCharOut)

/-- No ranks, or an empty list of them, is none for each character. -/
def charsOut (player : MatchPlayer) : Option (List RecordCharOut) :=
  player.chars.map fun chars =>
    let ranks := (player.ranks.filter (· ≠ [])).getD (chars.map fun _ => none)
    List.zipWith RecordCharOut.of chars ranks

def RecordPlayerOut.of (player : MatchPlayer) : RecordPlayerOut :=
  ⟨player.npid,player.onlineName,player.outcome,charsOut player⟩

structure MatchRecordOut where
  id : ℕ
  playedAt : ℤ
  p1 : RecordPlayerOut
  p2 : Option RecordPlayerOut

def MatchRecordOut.of (m : RecordedMatch) : MatchRecordOut :=
  ⟨m.id,m.playedAt,.of m.p1,m.p2.map .of⟩

structure MatchRecordPageOut where
  matchRecords : List MatchRecordOut
  /-- Pass as `before` for the next page; null on the last. -/
  nextBefore : Option ℕ

/-- One more than is shown tells whether there is another page. -/
def listMatches (ilike : ILike) (npid nameQuery : Option String) (before : Option ℕ) (limit : ℕ) (s : Snapshot) :
    MatchRecordPageOut :=
  let found := PostgresRecordsAdapter.listMatches ilike npid nameQuery before (limit + 1) s
  { matchRecords := (found.take limit).map .of
    nextBefore := if limit < found.length then (found[limit - 1]?).map (·.id) else none }

/-! ## What a request may meet later -/

/-- Every match is still there under the same names, and those that came have larger ids than all there were. -/
structure Later (s t : Snapshot) : Prop where
  kept : ∀ m ∈ s.db.matchRows.rows, ∃ m' ∈ t.db.matchRows.rows, m'.id = m.id ∧ namesOf t.rooms m' = namesOf s.rooms m
  newer : ∀ m' ∈ t.db.matchRows.rows,
    (∃ m ∈ s.db.matchRows.rows, m.id = m'.id) ∨ ∀ m ∈ s.db.matchRows.rows, m.id < m'.id

section
variable {s t : Snapshot}

theorem later_refl (s : Snapshot) : Later s s := ⟨fun m hm => ⟨m,hm,rfl,rfl⟩,fun m hm => .inl ⟨m,hm,rfl⟩⟩

theorem Later.insertMatch (h : Later s t) {row : MatchRow} (hnew : ∀ m ∈ t.db.matchRows.rows, m.id < row.id)
    (hold : ∀ m ∈ s.db.matchRows.rows, m.id < row.id) : Later s { t with db := insertMatch row t.db } := by
  have hfree : t.db.matchRows.get? row.id = none :=
    Table.get?_eq_none_iff.mpr fun m hm hid => Nat.ne_of_lt (hnew m hm) hid
  constructor
  · intro m hm
    obtain ⟨m',hm',hid,hnames⟩ := h.kept m hm
    exact ⟨m',(mem_insertMatch hfree).mpr (.inl hm'),hid,hnames⟩
  · intro m' hm'
    rcases (mem_insertMatch hfree).mp hm' with hm' | rfl
    · exact h.newer m' hm'
    · exact .inr hold

theorem Later.setMatch (h : Later s t) (id : ℕ) (side : Side) (event : ℕ) :
    Later s { t with db := setMatch id side event t.db } := by
  have hsame (m : MatchRow) : (if m.id = id then m.setEventId side event else m).id = m.id ∧
      namesOf t.rooms (if m.id = id then m.setEventId side event else m) = namesOf t.rooms m := by
    split <;> cases side <;> exact ⟨rfl,rfl⟩
  constructor
  · intro m hm
    obtain ⟨m',hm',hid,hnames⟩ := h.kept m hm
    exact ⟨_,mem_setMatch.mpr ⟨m',hm',rfl⟩,(hsame m').1.trans hid,(hsame m').2.trans hnames⟩
  · intro m' hm'
    obtain ⟨n,hn,rfl⟩ := mem_setMatch.mp hm'
    rw [(hsame n).1]
    exact h.newer n hn

end

/-! ## One page of many -/

section
variable {ilike : ILike} {npid nameQuery : Option String} {s t : Snapshot}

/-- The ids of the matches that satisfy the filter, the newest first. -/
def matchIds (ilike : ILike) (npid nameQuery : Option String) (s : Snapshot) : List ℕ :=
  (selected ilike npid nameQuery none s).map MatchRow.id

theorem mem_selected {before : Option ℕ} {m : MatchRow} : m ∈ selected ilike npid nameQuery before s ↔
    m ∈ s.db.matchRows.rows ∧ (∀ b ∈ before, m.id < b) ∧ satisfies ilike npid nameQuery s.rooms m := by
  unfold selected
  rw [(sortedBy_perm _ _).mem_iff,List.mem_filter,Bool.and_eq_true]
  cases before <;> simp

theorem selected_descending (before : Option ℕ) :
    ((selected ilike npid nameQuery before s).map MatchRow.id).Pairwise fun a b => b < a := by
  have hsorted := pairwise_sortedBy (fun m : MatchRow => -(m.id : ℤ)) (s.db.matchRows.rows.filter fun m =>
    before.all (fun b => m.id < b) && satisfies ilike npid nameQuery s.rooms m)
  have hnodup : ((selected ilike npid nameQuery before s).map MatchRow.id).Nodup := by
    apply ((sortedBy_perm _ _).map _).nodup_iff.mpr
    exact s.db.matchRows.nodup.sublist (List.filter_sublist.map _)
  apply List.pairwise_map.mpr
  apply (hsorted.and (List.pairwise_map.mp hnodup)).imp
  intro a b h
  omega

theorem satisfies_congr {rooms rooms' : Tables} {m m' : MatchRow} (h : namesOf rooms' m' = namesOf rooms m) :
    satisfies ilike npid nameQuery rooms' m' = satisfies ilike npid nameQuery rooms m := by
  have hp1 : m'.p1Npid = m.p1Npid := Option.some.inj (List.cons.inj h).1
  have hp2 : m'.p2Npid = m.p2Npid := (List.cons.inj (List.cons.inj h).2).1
  unfold satisfies
  rw [h,hp1,hp2]

theorem mem_matchIds {id : ℕ} : id ∈ matchIds ilike npid nameQuery s ↔
    ∃ m ∈ s.db.matchRows.rows, m.id = id ∧ satisfies ilike npid nameQuery s.rooms m := by
  unfold matchIds
  rw [List.mem_map]
  constructor
  · rintro ⟨m,hm,rfl⟩
    obtain ⟨hm,_,hsatisfies⟩ := mem_selected.mp hm
    exact ⟨m,hm,rfl,hsatisfies⟩
  · rintro ⟨m,hm,rfl,hsatisfies⟩
    exact ⟨m,mem_selected.mpr ⟨hm,(fun _ h => by cases h),hsatisfies⟩,rfl⟩

/-- Behind a match that was there, a later request finds what was behind it then. -/
theorem Later.ids (h : Later s t) {before : Option ℕ} (hbefore : ∀ b ∈ before, b ∈ matchIds ilike npid nameQuery s)
    (hfirst : before = none → t = s) : (selected ilike npid nameQuery before t).map MatchRow.id =
      keysBehind before (matchIds ilike npid nameQuery s) := by
  have hdescending : (keysBehind before (matchIds ilike npid nameQuery s)).Pairwise fun a b => b < a :=
    (selected_descending none).sublist List.filter_sublist
  apply (selected_descending before).eq_of_mem_iff hdescending
  intro id
  rw [List.mem_map,mem_keysBehind,mem_matchIds]
  constructor
  · rintro ⟨m',hm',rfl⟩
    obtain ⟨hrow,hless,hsatisfies⟩ := mem_selected.mp hm'
    refine ⟨?_,hless⟩
    cases before with
    | none =>
      obtain rfl := hfirst rfl
      exact ⟨m',hrow,rfl,hsatisfies⟩
    | some b =>
      -- a match that came later is not behind one that was there
      have hold : ∃ m ∈ s.db.matchRows.rows, m.id = m'.id := by
        apply (h.newer m' hrow).resolve_right
        intro hnewer
        obtain ⟨n,hn,hid,_⟩ := mem_matchIds.mp (hbefore b rfl)
        have hlt := hnewer n hn
        have hgt := hless b rfl
        omega
      obtain ⟨m,hm,hid⟩ := hold
      obtain ⟨m'',hm'',hid',hnames⟩ := h.kept m hm
      obtain rfl : m'' = m' := Table.eq_of_key hm'' hrow (hid'.trans hid)
      exact ⟨m,hm,hid,satisfies_congr hnames ▸ hsatisfies⟩
  · rintro ⟨⟨m,hm,rfl,hsatisfies⟩,hless⟩
    obtain ⟨m',hm',hid,hnames⟩ := h.kept m hm
    refine ⟨m',mem_selected.mpr ⟨hm',?_,?_⟩,hid⟩
    · exact hid.symm ▸ hless
    · rw [satisfies_congr hnames]
      exact hsatisfies

theorem map_id_listed (ms : List MatchRow) :
    (ms.map (listed s.db s.rooms)).map RecordedMatch.id = ms.map MatchRow.id := by
  rw [List.map_map]
  rfl

/-- One request answers a page of the ids that were there at the first. -/
theorem Later.page (h : Later s t) {before : Option ℕ} {limit : ℕ} (hlimit : 1 ≤ limit)
    (hbefore : ∀ b ∈ before, b ∈ matchIds ilike npid nameQuery s) (hfirst : before = none → t = s) :
    PageBehind (matchIds ilike npid nameQuery s) limit before
      ((listMatches ilike npid nameQuery before limit t).matchRecords.map MatchRecordOut.id)
      (listMatches ilike npid nameQuery before limit t).nextBefore := by
  have hids := h.ids hbefore hfirst
  have hfound : (PostgresRecordsAdapter.listMatches ilike npid nameQuery before (limit + 1) t).map RecordedMatch.id =
      (keysBehind before (matchIds ilike npid nameQuery s)).take (limit + 1) := by
    unfold PostgresRecordsAdapter.listMatches
    rw [map_id_listed,List.map_take,hids]
  have hlength := congrArg List.length hfound
  rw [List.length_map,List.length_take] at hlength
  constructor
  · have hshown : (listMatches ilike npid nameQuery before limit t).matchRecords.map MatchRecordOut.id =
        ((PostgresRecordsAdapter.listMatches ilike npid nameQuery before (limit + 1) t).take limit).map
          RecordedMatch.id := by
      unfold listMatches
      rw [List.map_map]
      rfl
    rw [hshown,List.map_take,hfound,List.take_take,Nat.min_eq_left (Nat.le_succ limit)]
  · unfold listMatches
    dsimp only
    rw [← List.getElem?_map,hfound,List.getElem?_take_of_lt (by omega)]
    congr 1
    rw [eq_iff_iff]
    omega

end

/-- Following `next_before` ends, and lists the matches of the first request once each, newest first. -/
theorem list_matches_pages (ilike : ILike) (npid nameQuery : Option String) {limit : ℕ} (hlimit : 1 ≤ limit)
    {states : ℕ → Snapshot} (hlater : ∀ n, Later (states 0) (states n)) :
    ∃ pages, (∀ ps, Follows MatchRecordPageOut.nextBefore
          (fun n before => listMatches ilike npid nameQuery before limit (states n)) 0 none ps ↔ ps = pages) ∧
      ((pages.flatMap (·.matchRecords)).map MatchRecordOut.id).Pairwise (fun a b => b < a) ∧
      (∀ id, id ∈ (pages.flatMap (·.matchRecords)).map MatchRecordOut.id ↔
        ∃ m ∈ (states 0).db.matchRows.rows, m.id = id ∧ satisfies ilike npid nameQuery (states 0).rooms m) ∧
      ∀ page ∈ pages, page.matchRecords.length ≤ limit := by
  have hkeys : (matchIds ilike npid nameQuery (states 0)).Pairwise fun a b => b < a := selected_descending none
  have hpage : ∀ n before, (∀ b ∈ before, b ∈ matchIds ilike npid nameQuery (states 0)) → (before = none → n = 0) →
      PageBehind (matchIds ilike npid nameQuery (states 0)) limit before
        ((listMatches ilike npid nameQuery before limit (states n)).matchRecords.map MatchRecordOut.id)
        (listMatches ilike npid nameQuery before limit (states n)).nextBefore :=
    fun n before hbefore hfirst => (hlater n).page hlimit hbefore fun h => by rw [hfirst h]
  obtain ⟨pages,hfollows,hshown,hlimits⟩ := follows_all hkeys
    (fun page : MatchRecordPageOut => page.matchRecords.map MatchRecordOut.id) hlimit hpage (n := 0)
    (fun _ (h : _ ∈ none) => by cases h) (fun _ => rfl)
  have hall : (pages.flatMap (·.matchRecords)).map MatchRecordOut.id = matchIds ilike npid nameQuery (states 0) := by
    rw [List.map_flatMap,hshown]
    exact List.filter_eq_self.mpr fun _ _ => rfl
  refine ⟨pages,?_,hall ▸ hkeys,?_,?_⟩
  · exact fun ps => ⟨fun h => hfollows.unique h,fun h => h ▸ hfollows⟩
  · intro id
    rw [hall,mem_matchIds]
  · intro page hpage
    have hle := hlimits page hpage
    rwa [List.length_map] at hle

/-! A match is recorded behind the first page, and its other side is seen behind the second. -/

def aliceAgainstBob (id event : ℕ) : MatchRow := ⟨id,0,some 9,"alice",some "bob",.p1,some event,none⟩

def twoRecorded : Snapshot := ⟨insertMatch (aliceAgainstBob 2 2) (insertMatch (aliceAgainstBob 1 1) .empty),.empty⟩

def threeRecorded : Snapshot := { twoRecorded with db := insertMatch (aliceAgainstBob 3 3) twoRecorded.db }

def recordedMeanwhile : ℕ → Snapshot
  | 0 => twoRecorded
  | 1 => threeRecorded
  | _ => { threeRecorded with db := setMatch 3 .p2 4 threeRecorded.db }

theorem later_recordedMeanwhile (n : ℕ) : Later (recordedMeanwhile 0) (recordedMeanwhile n) := by
  have hthree : Later twoRecorded threeRecorded := (later_refl twoRecorded).insertMatch (by decide) (by decide)
  match n with
  | 0 => exact later_refl twoRecorded
  | 1 => exact hthree
  | n + 2 => exact hthree.setMatch 3 .p2 4

theorem list_matches_pages_meanwhile : ∃ pages,
    (∀ ps, Follows MatchRecordPageOut.nextBefore
      (fun n before => listMatches (fun name pattern _ => name = pattern) (some "alice") none before 1
        (recordedMeanwhile n)) 0 none ps ↔ ps = pages) ∧
    ∀ page ∈ pages, page.matchRecords.length ≤ 1 := by
  obtain ⟨pages,hfollows,_,_,hlimits⟩ := list_matches_pages (fun name pattern _ => name = pattern) (some "alice") none
    (le_refl 1) later_recordedMeanwhile
  exact ⟨pages,hfollows,hlimits⟩

end Tag2now.Records
