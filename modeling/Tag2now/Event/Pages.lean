import Tag2now.Event.Answers
import Tag2now.Event.Ranking

/-! # The event's two pages

The board and a player's page may be answered from different passes or from entries of the
cache, at different times. Over one state of the saves they never contradict each other.
-/
namespace Tag2now.Event
open Collections CacheMisses Saves

/-- A slot of a player's page that the board shows. -/
structure Shows (a : AchieverOut) (s : SlotOut) : Prop where
  achieved : s.achieved = true
  char : s.char = a.char
  main : s.main = a.main
  start : s.start = a.fromRank
  rank : s.rank = a.toRank

/-- What a player's page says of the board, and the board of the player. -/
structure Agree (excluded : String → Bool) (b : Board) (out : PlayerOut) : Prop where
  once : (b.achievers.map AchieverOut.username).Nodup
  placed : ∀ p, out.place = some p ↔ ∃ a ∈ b.achievers, a.username = out.username ∧ a.place = p
  listed : out.place.isSome = true ↔ out.achieved = true ∧ excluded out.username = false
  achieved : out.achieved = true ↔ ∃ s ∈ out.slots, s.achieved = true
  flags : ∀ a ∈ b.achievers, a.username = out.username → a.newPlayer = out.newPlayer ∧ a.numberOnly = out.numberOnly
  climb : ∀ a ∈ b.achievers, a.username = out.username →
    (∃ s ∈ out.slots, Shows a s ∧ a.gain = s.rank.rank - s.start.rank) ∧
      ∀ s ∈ out.slots, s.achieved = true → (s.rank.rank : ℤ) - s.start.rank ≤ a.gain

section
variable {ε : Type} {casefold : String → String} {service : EventService casefold} {server : SaveServer ε}
  {settings : Settings} {judged : List Standing} {standing : Standing}

/-! ## Slots -/

theorem shown_of_achieved {s : Slot} (hs : s ∈ standing.slots) (h : s.achieved = true) : s ∈ shown standing := by
  simp only [Slot.achieved,Bool.and_eq_true] at h
  simp [shown,hs,h.1]

theorem mem_playerOut_slots {place : Option ℕ} {s : SlotOut} :
    s ∈ (playerOut casefold standing place).slots ↔ ∃ slot ∈ shown standing, slotOut slot = s := by
  simp [playerOut,(sortedBy_perm slotOrder (shown standing)).mem_iff]

theorem achieved_iff {place : Option ℕ} : (playerOut casefold standing place).achieved = true ↔
    ∃ s ∈ (playerOut casefold standing place).slots, s.achieved = true := by
  change standing.best.isSome = true ↔ _
  constructor
  · intro h
    obtain ⟨best,hbest⟩ := Option.isSome_iff_exists.mp h
    obtain ⟨hslot,hachieved,-⟩ := Standing.best_spec hbest
    exact ⟨slotOut best,mem_playerOut_slots.mpr ⟨best,shown_of_achieved hslot hachieved,rfl⟩,hachieved⟩
  · rintro ⟨s,hs,hachieved⟩
    obtain ⟨slot,hslot,rfl⟩ := mem_playerOut_slots.mp hs
    rw [Option.isSome_iff_ne_none]
    intro hnone
    have hnot := standing.best_eq_none_iff.mp hnone slot (List.mem_filter.mp hslot).1
    exact Bool.false_ne_true (hnot.symm.trans hachieved)

theorem climb_of_best {a : Achiever} {place : ℕ} {place' : Option ℕ} :
    (∃ s ∈ (playerOut casefold a.standing place').slots, Shows (achieverOut place a) s ∧
      (achieverOut place a).gain = s.rank.rank - s.start.rank) ∧
      ∀ s ∈ (playerOut casefold a.standing place').slots, s.achieved = true →
        (s.rank.rank : ℤ) - s.start.rank ≤ (achieverOut place a).gain := by
  obtain ⟨hslot,hachieved,hmost⟩ := Standing.best_spec a.best_eq
  constructor
  · exact ⟨slotOut a.best,mem_playerOut_slots.mpr ⟨a.best,shown_of_achieved hslot hachieved,rfl⟩,
      ⟨hachieved,rfl,rfl,rfl,rfl⟩,rfl⟩
  · intro s hs hachieved
    obtain ⟨slot,hslot,rfl⟩ := mem_playerOut_slots.mp hs
    exact hmost slot (List.mem_filter.mp hslot).1 hachieved

/-! ## Places -/

section
variable (hnames : (judged.map fun s => casefold s.baseline.npid).Nodup)
include hnames

theorem ranked_achievers : ((ranked settings casefold judged).map Prod.snd).Perm
    ((judged.filter fun s => !settings.isRankingExcluded casefold s.baseline.npid).filterMap achiever?) :=
  (competitionRanking_placed (achievers_named (hnames.sublist (List.filter_sublist.map _)))).perm

theorem mem_ranked {a : Achiever} : (∃ p, (p,a) ∈ ranked settings casefold judged) ↔
    a.standing ∈ judged ∧ settings.isRankingExcluded casefold a.standing.baseline.npid = false := by
  have hmem := (@ranked_achievers _ settings _ hnames).mem_iff (a := a)
  simp only [List.mem_map,Prod.exists,exists_eq_right,List.mem_filterMap,List.mem_filter,achiever?_eq_some,
    Bool.not_eq_eq_eq_not,Bool.not_true] at hmem
  rw [hmem]
  constructor
  · rintro ⟨s,hs,rfl⟩
    exact hs
  · intro h
    exact ⟨_,h,rfl⟩

theorem ranked_nodup : ((ranked settings casefold judged).map fun e => e.2.standing.baseline.npid).Nodup := by
  have hfolded := achievers_named (hnames.sublist
    ((List.filter_sublist (p := fun s => !settings.isRankingExcluded casefold s.baseline.npid)).map _))
  have hperm := (@ranked_achievers _ settings _ hnames).map fun a => casefold a.standing.baseline.npid
  have hnodup := hperm.nodup_iff.mpr hfolded
  rw [List.map_map] at hnodup
  apply List.Nodup.of_map casefold
  rw [List.map_map]
  exact hnodup

theorem places_get? {npid : String} {p : ℕ} :
    (places (ranked settings casefold judged)).get? npid = some p ↔
      ∃ a, (p,a) ∈ ranked settings casefold judged ∧ a.standing.baseline.npid = npid := by
  have hentries : (places (ranked settings casefold judged)).entries =
      (ranked settings casefold judged).map fun e => (e.2.standing.baseline.npid,e.1) := by
    apply Ordered.ofList_entries
    rw [List.map_map]
    exact ranked_nodup hnames
  constructor
  · intro h
    have hmem := Ordered.mem_of_get? h
    rw [hentries] at hmem
    obtain ⟨⟨p',a⟩,ha,heq⟩ := List.mem_map.mp hmem
    cases heq
    exact ⟨a,ha,rfl⟩
  · rintro ⟨a,ha,rfl⟩
    apply Ordered.get?_of_mem
    rw [hentries]
    exact List.mem_map.mpr ⟨(p,a),ha,rfl⟩

theorem standing_of_npid {s s' : Standing} (hs : s ∈ judged) (hs' : s' ∈ judged)
    (h : s.baseline.npid = s'.baseline.npid) : s = s' :=
  List.inj_on_of_nodup_map hnames hs hs' (congrArg casefold h)

/-! ## One pass -/

theorem agree_of_pass {now : ℤ} (hs : standing ∈ judged) : Agree (settings.isRankingExcluded casefold)
    (boardOut settings now (achieversOut settings casefold judged))
    (playerAnswer settings casefold judged standing) := by
  have hboard : ∀ {a : AchieverOut}, a ∈ (boardOut settings now (achieversOut settings casefold judged)).achievers ↔
      ∃ p achiever, (p,achiever) ∈ ranked settings casefold judged ∧ achieverOut p achiever = a := by
    intro a
    simp [boardOut,achieversOut]
  have hsame : ∀ {p : ℕ} {a : Achiever}, (p,a) ∈ ranked settings casefold judged →
      a.standing.baseline.npid = standing.baseline.npid → a.standing = standing := by
    intro p a ha hname
    exact standing_of_npid hnames ((mem_ranked hnames).mp ⟨p,ha⟩).1 hs hname
  constructor
  · have hnodup := @ranked_nodup _ settings _ hnames
    simpa [boardOut,achieversOut,achieverOut,Function.comp_def] using hnodup
  · intro p
    change (places (ranked settings casefold judged)).get? standing.baseline.npid = some p ↔ _
    rw [places_get? hnames]
    constructor
    · rintro ⟨a,ha,hname⟩
      exact ⟨achieverOut p a,hboard.mpr ⟨p,a,ha,rfl⟩,hname,rfl⟩
    · rintro ⟨a,ha,hname,rfl⟩
      obtain ⟨p,achiever,hmem,rfl⟩ := hboard.mp ha
      exact ⟨achiever,hmem,hname⟩
  · change ((places (ranked settings casefold judged)).get? standing.baseline.npid).isSome = true ↔
      standing.best.isSome = true ∧ settings.isRankingExcluded casefold standing.baseline.npid = false
    constructor
    · intro h
      obtain ⟨p,hplace⟩ := Option.isSome_iff_exists.mp h
      obtain ⟨a,ha,hname⟩ := (places_get? hnames).mp hplace
      obtain rfl := hsame ha hname
      exact ⟨Option.isSome_of_eq_some a.best_eq,((mem_ranked hnames).mp ⟨p,ha⟩).2⟩
    · rintro ⟨hbest,hexcluded⟩
      obtain ⟨best,hbest⟩ := Option.isSome_iff_exists.mp hbest
      obtain ⟨p,hmem⟩ := (@mem_ranked _ settings _ hnames ⟨standing,best,hbest⟩).mpr ⟨hs,hexcluded⟩
      exact Option.isSome_of_eq_some ((places_get? hnames).mpr ⟨_,hmem,rfl⟩)
  · exact achieved_iff
  · intro a ha hname
    obtain ⟨p,achiever,hmem,rfl⟩ := hboard.mp ha
    obtain rfl := hsame hmem hname
    exact ⟨rfl,rfl⟩
  · intro a ha hname
    obtain ⟨p,achiever,hmem,rfl⟩ := hboard.mp ha
    obtain rfl := hsame hmem hname
    exact climb_of_best

end

/-! ## Any two answers -/

/-- What the board answers is a pass's, whenever that was made. -/
theorem board_of_pass {now : ℤ} {b : Board} {w : World Value} (hw : w.Right (FromPass service server settings))
    (h : answer (board service server settings now) w = .ok b) :
    ∃ judged, standings service server = .ok judged ∧
      b = boardOut settings now (achieversOut settings casefold judged) := by
  rw [(board_gives now).onlyMisses w hw] at h
  unfold uncachedBoard at h
  cases hopen : (requireOpen service : Except (EventError ε) _) with
  | error e =>
    rw [hopen] at h
    cases h
  | ok _ =>
    cases hjudged : standings service server with
    | error e =>
      rw [hopen,hjudged] at h
      cases h
    | ok judged =>
      rw [hopen,hjudged] at h
      exact ⟨judged,rfl,(Except.ok.inj h).symm⟩

/-- What a player's page answers is a pass's. -/
theorem player_of_pass {npid : String} {out : PlayerOut} {w : World Value}
    (hw : w.Right (FromPass service server settings))
    (h : answer (player service server settings npid) w = .ok (some out)) :
    FromPass service server settings (playerKey casefold npid) out := by
  cases hb : service.baselines.get? (casefold npid) with
  | none =>
    rw [player_refused (fun baseline h => by simp [hb] at h) w] at h
    unfold uncachedPlayer requirePlayer at h
    rw [hb] at h
    cases hopen : (requireOpen service : Except (EventError ε) _) <;> rw [hopen] at h <;> cases h
  | some baseline =>
    have hopen : (requireOpen service : Except (EventError ε) _) = .ok () :=
      if_neg (List.ne_nil_of_mem (Ordered.mem_of_get? hb))
    cases hjudged : standings service server with
    | error e =>
      rw [player_error hopen hb hjudged hw] at h
      cases h
    | ok judged =>
      obtain ⟨-,i,hi,-,hname⟩ := exists_place hb hjudged
      rw [player_known hopen hb] at h
      cases hfound : if w.fails 0 then none else w.holds (playerKey casefold npid) with
      | some cached =>
        rw [hfound] at h
        obtain rfl := Option.some.inj (Except.ok.inj h)
        split at hfound
        · cases hfound
        · exact hw hfound
      | none =>
        rw [hfound,reread_answer hjudged hi hname] at h
        have hread := Except.ok.inj h
        split at hread
        · cases hread
        · split at hread
          · exact hw hread
          · exact ⟨judged,hjudged,_,List.getElem_mem hi,hname,Option.some.inj hread⟩

end

/-- Whichever passes they are answered from, and whatever the cache loses meanwhile. -/
theorem pages_agree {ε : Type} {casefold : String → String} {service : EventService casefold} {server : SaveServer ε}
    {settings : Settings} {npid : String} {now : ℤ} {b : Board} {out : PlayerOut} {w w' : World Value}
    (hw : w.Right (FromPass service server settings)) (hw' : w'.Right (FromPass service server settings))
    (hboard : answer (board service server settings now) w = .ok b)
    (hplayer : answer (player service server settings npid) w' = .ok (some out)) :
    casefold out.username = casefold npid ∧ Agree (settings.isRankingExcluded casefold) b out := by
  obtain ⟨judged,hjudged,rfl⟩ := board_of_pass hw hboard
  obtain ⟨judged',hjudged',standing,hs,hname,rfl⟩ := player_of_pass hw' hplayer
  obtain rfl : judged = judged' := Except.ok.inj (hjudged.symm.trans hjudged')
  obtain ⟨players,-,hfrom⟩ := standings_eq_ok.mp hjudged
  have hnames : (judged.map fun s => casefold s.baseline.npid).Nodup := by
    rw [standingsFrom_names hfrom]
    exact service.baselines.nodup
  exact ⟨hname,agree_of_pass hnames hs⟩

def lawsEvent : EventService id := .of id [beginner]

def lawsSaves : SaveServer String where
  read _ := .ok none
  readRanks := .ok [⟨"law",0,20,pauls⟩]

def nothingHeld : World Value := ⟨fun _ => none,fun _ => false⟩

theorem pages_agree_law : ∃ b out, answer (board lawsEvent lawsSaves ⟨[],none⟩ 0) nothingHeld = .ok b ∧
    answer (player lawsEvent lawsSaves ⟨[],none⟩ "law") nothingHeld = .ok (some out) ∧
      out.username = "law" ∧ Agree (Settings.isRankingExcluded ⟨[],none⟩ id) b out := by
  have hright : nothingHeld.Right (FromPass lawsEvent lawsSaves ⟨[],none⟩) := nofun
  have hboard : ∃ b, answer (board lawsEvent lawsSaves ⟨[],none⟩ 0) nothingHeld = .ok b := ⟨_,rfl⟩
  have hplayer : ∃ out, answer (player lawsEvent lawsSaves ⟨[],none⟩ "law") nothingHeld = .ok (some out) := ⟨_,rfl⟩
  obtain ⟨b,hb⟩ := hboard
  obtain ⟨out,hout⟩ := hplayer
  have hagree := pages_agree hright hright hb hout
  exact ⟨b,out,hb,hout,hagree.1,hagree.2⟩

end Tag2now.Event
