import Tag2now.Event.Answers

/-! # What a judge may not get wrong

A save lists each of its characters once. What is judged of a character is what the list
says of it, or the baseline where the list leaves it out.
-/
namespace Tag2now.Event
open Collections Saves

/-! ## The slot of one character -/

theorem sameCharacter_symm {id other : CharId} (h : sameCharacter id = some other) : sameCharacter other = some id := by
  have hall : ∀ id : CharId, ∀ other ∈ sameCharacter id, sameCharacter other = some id := by decide +kernel
  exact hall id other h

theorem Baseline.one_le_mainSteps (baseline : Baseline) : 1 ≤ baseline.mainSteps := by
  unfold Baseline.mainSteps
  dsimp only
  split <;> split <;> omega

section
variable {casefold : String → String} (baseline : Baseline)

theorem slotOf_steps (id : CharId) (now : CharState) : 1 ≤ (slotOf casefold baseline id now).steps := by
  have hmain := baseline.one_le_mainSteps
  have hsub : 1 ≤ subSteps := by decide
  unfold slotOf
  cases sameCharacter id <;> dsimp only <;> split <;> assumption

theorem slotOf_start (id : CharId) (now : CharState) :
    (baseline.chars id).rank ≤ (slotOf casefold baseline id now).start := by
  have hfrom {rank : ℕ} (h : (baseline.chars id).rank ≤ rank) (main : Bool) :
      (baseline.chars id).rank ≤ if main then rank else max rank (baseline.subFloor casefold) := by
    split
    · exact h
    · exact h.trans (le_max_left ..)
  unfold slotOf
  cases sameCharacter id with
  | none => exact hfrom (le_refl _) _
  | some other => exact hfrom (le_max_left ..) _

theorem slotOf_shared {id other : CharId} (h : sameCharacter id = some other) (now now' : CharState) :
    (slotOf casefold baseline id now).main = (slotOf casefold baseline other now').main ∧
      (slotOf casefold baseline id now).start = (slotOf casefold baseline other now').start ∧
      (slotOf casefold baseline id now).steps = (slotOf casefold baseline other now').steps := by
  have hback := sameCharacter_symm h
  unfold slotOf
  rw [h,hback]
  dsimp only
  rw [max_comm (baseline.chars id).rank]
  exact ⟨rfl,rfl,rfl⟩

theorem slotOf_achieved (id : CharId) (now : CharState) (h : (slotOf casefold baseline id now).achieved) :
    (now.wins,now.losses) ≠ ((baseline.chars id).wins,(baseline.chars id).losses) ∧
      ((slotOf casefold baseline id now).steps : ℤ) ≤ (slotOf casefold baseline id now).gain := by
  obtain ⟨hplayed,htarget⟩ := Bool.and_eq_true_iff.mp h
  have hreached := of_decide_eq_true htarget
  unfold Slot.target at hreached
  unfold Slot.gain
  exact ⟨of_decide_eq_true hplayed,by omega⟩

theorem slotOf_raised {id : CharId} {now now' : CharState} (hwins : now'.wins = now.wins)
    (hlosses : now'.losses = now.losses) (hrank : now.rank ≤ now'.rank)
    (h : (slotOf casefold baseline id now).achieved) : (slotOf casefold baseline id now').achieved := by
  obtain ⟨hplayed,htarget⟩ := Bool.and_eq_true_iff.mp h
  apply Bool.and_eq_true_iff.mpr
  constructor
  · have hchanged := of_decide_eq_true hplayed
    apply decide_eq_true
    rw [hwins,hlosses]
    exact hchanged
  · have hreached : (slotOf casefold baseline id now).target ≤ now.rank := of_decide_eq_true htarget
    exact decide_eq_true (hreached.trans hrank)

end

/-! ## What the list says -/

/-- A character as the list has it, or as it was. -/
def stateIn (chars : List RankedChar) (before : CharId → CharState) (id : CharId) : CharState :=
  ((chars.find? fun c => c.id = id.val).map fun c => ⟨c.rank,c.wins,c.losses⟩).getD (before id)

def raise (id rank : ℕ) (chars : List RankedChar) : List RankedChar :=
  chars.map fun c => if c.id = id then { c with rank := rank } else c

section
variable {chars : List RankedChar} {before : CharId → CharState} {id : CharId}

theorem stateIn_of_notMem (h : id.val ∉ chars.map (·.id)) : stateIn chars before id = before id := by
  have hnone : chars.find? (fun c => c.id = id.val) = none := by
    apply List.find?_eq_none.mpr
    intro c hc hid
    exact h (List.mem_map.mpr ⟨c,hc,of_decide_eq_true hid⟩)
  unfold stateIn
  rw [hnone]
  rfl

variable (hids : (chars.map (·.id)).Nodup)
include hids

theorem find?_eq_some_iff {c : RankedChar} :
    chars.find? (fun c => c.id = id.val) = some c ↔ c ∈ chars ∧ c.id = id.val := by
  constructor
  · intro h
    have hid : c.id = id.val := by simpa using List.find?_some h
    exact ⟨List.mem_of_find?_eq_some h,hid⟩
  · rintro ⟨hc,hid⟩
    have hsome : (chars.find? fun c => c.id = id.val).isSome := List.find?_isSome.mpr ⟨c,hc,decide_eq_true hid⟩
    obtain ⟨d,hd⟩ := Option.isSome_iff_exists.mp hsome
    have hkey : d.id = id.val := by simpa using List.find?_some hd
    have hsame := List.inj_on_of_nodup_map hids (List.mem_of_find?_eq_some hd) hc (hkey.trans hid.symm)
    rw [hd,hsame]

theorem stateIn_of_mem {c : RankedChar} (hc : c ∈ chars) (hid : c.id = id.val) :
    stateIn chars before id = ⟨c.rank,c.wins,c.losses⟩ := by
  unfold stateIn
  rw [(find?_eq_some_iff hids).mpr ⟨hc,hid⟩]
  rfl

theorem stateIn_perm {chars' : List RankedChar} (h : chars.Perm chars') :
    stateIn chars' before id = stateIn chars before id := by
  have hids' := (h.map (·.id)).nodup_iff.mp hids
  have hfind : chars'.find? (fun c => c.id = id.val) = chars.find? fun c => c.id = id.val := by
    apply Option.ext
    intro c
    rw [find?_eq_some_iff hids,find?_eq_some_iff hids',h.mem_iff]
  unfold stateIn
  rw [hfind]

theorem foldlM_nowWith (hrange : ∀ c ∈ chars, c.id < characterCount) :
    chars.foldlM nowWith before = .ok (stateIn chars before) := by
  induction chars generalizing before with
  | nil => rfl
  | cons c cs ih =>
    obtain ⟨hnew,hrest⟩ := List.nodup_cons.mp hids
    have hlt := hrange c List.mem_cons_self
    have hnow : nowWith before c = .ok (Function.update before ⟨c.id,hlt⟩ ⟨c.rank,c.wins,c.losses⟩) := dif_pos hlt
    rw [List.foldlM_cons,hnow]
    have hcs : cs.foldlM nowWith (Function.update before ⟨c.id,hlt⟩ ⟨c.rank,c.wins,c.losses⟩) = _ :=
      ih hrest fun d hd => hrange d (List.mem_cons_of_mem _ hd)
    apply hcs.trans
    congr 1
    funext id
    by_cases hid : c.id = id.val
    · have hsame : (⟨c.id,hlt⟩ : CharId) = id := Fin.ext hid
      rw [stateIn_of_mem hids List.mem_cons_self hid,stateIn_of_notMem (hid ▸ hnew),hsame,Function.update_self]
    · have hne : id ≠ ⟨c.id,hlt⟩ := fun h => hid (Fin.ext_iff.mp h).symm
      unfold stateIn
      rw [List.find?_cons_of_neg (by simpa using hid),Function.update_of_ne hne]

end

/-! ## The best slot -/

theorem furthest_spec (best : Option Slot) (slot : Slot) : ∃ b, furthest best slot = some b ∧
    (b = slot ∨ best = some b) ∧ slot.gain ≤ b.gain ∧ ∀ b' ∈ best, b'.gain ≤ b.gain := by
  cases best with
  | none => exact ⟨slot,rfl,.inl rfl,le_refl _,fun _ h => by cases h⟩
  | some b =>
    unfold furthest
    by_cases h : b.gain < slot.gain
    · refine ⟨slot,if_pos h,.inl rfl,le_refl _,?_⟩
      rintro _ ⟨⟩
      exact h.le
    · refine ⟨b,if_neg h,.inr rfl,not_lt.mp h,?_⟩
      rintro _ ⟨⟩
      exact le_refl _

theorem foldl_furthest (first : Option Slot) {slots : List Slot} (h : first.isSome ∨ slots ≠ []) :
    ∃ b, slots.foldl furthest first = some b ∧ (b ∈ slots ∨ first = some b) ∧ (∀ s ∈ slots, s.gain ≤ b.gain) ∧
      ∀ b' ∈ first, b'.gain ≤ b.gain := by
  induction slots generalizing first with
  | nil =>
    obtain ⟨b,rfl⟩ := Option.isSome_iff_exists.mp (h.resolve_right fun hne => hne rfl)
    refine ⟨b,rfl,.inr rfl,(fun _ h => by cases h),?_⟩
    rintro _ ⟨⟩
    exact le_refl _
  | cons slot slots ih =>
    obtain ⟨next,hnext,hfrom,hslot,hfirst⟩ := furthest_spec first slot
    have hsome : (furthest first slot).isSome := by
      rw [hnext]
      rfl
    obtain ⟨b,hb,hmem,hslots,hbest⟩ := ih (furthest first slot) (.inl hsome)
    have hle := hbest next hnext
    refine ⟨b,hb,?_,?_,fun b' hb' => (hfirst b' hb').trans hle⟩
    · rcases hmem with hmem | hmem
      · exact .inl (List.mem_cons_of_mem _ hmem)
      · obtain rfl : next = b := Option.some.inj (hnext.symm.trans hmem)
        rcases hfrom with rfl | hfrom
        · exact .inl List.mem_cons_self
        · exact .inr hfrom
    · intro s hs
      rcases List.mem_cons.mp hs with rfl | hs
      · exact hslot.trans hle
      · exact hslots s hs

theorem Standing.best_eq_none_iff (standing : Standing) :
    standing.best = none ↔ ∀ s ∈ standing.slots, s.achieved = false := by
  unfold Standing.best
  constructor
  · intro h s hs
    by_contra hachieved
    have hmem : s ∈ standing.slots.filter Slot.achieved := List.mem_filter.mpr ⟨hs,by simpa using hachieved⟩
    obtain ⟨b,hb,_⟩ := foldl_furthest none (.inr (List.ne_nil_of_mem hmem))
    rw [h] at hb
    cases hb
  · intro h
    have hnone : standing.slots.filter Slot.achieved = [] := by
      apply List.filter_eq_nil_iff.mpr
      intro s hs
      simp [h s hs]
    rw [hnone]
    rfl

theorem Standing.best_spec {standing : Standing} {b : Slot} (h : standing.best = some b) :
    b ∈ standing.slots ∧ b.achieved ∧ ∀ s ∈ standing.slots, s.achieved → s.gain ≤ b.gain := by
  unfold Standing.best at h
  have hne : standing.slots.filter Slot.achieved ≠ [] := by
    intro hnil
    rw [hnil] at h
    cases h
  obtain ⟨b',hb',hmem,hmax,_⟩ := foldl_furthest none (.inr hne)
  obtain rfl : b' = b := Option.some.inj (hb'.symm.trans h)
  obtain ⟨hslot,hachieved⟩ := List.mem_filter.mp (hmem.resolve_right fun h => by cases h)
  exact ⟨hslot,hachieved,fun s hs hs' => hmax s (List.mem_filter.mpr ⟨hs,hs'⟩)⟩

/-! ## The standing -/

/-- What may be relied on in the standing judged of a list. -/
structure Lawful (baseline : Baseline) (chars : List RankedChar) (standing : Standing) : Prop where
  slots : standing.slots.map Slot.charId = List.finRange characterCount
  leftOut : ∀ s ∈ standing.slots, s.charId.val ∉ chars.map (·.id) →
    s.rank = (baseline.chars s.charId).rank ∧ s.played = false
  changed : ∀ s ∈ standing.slots, s.achieved → ∃ c ∈ chars, c.id = s.charId.val ∧ s.rank = c.rank ∧
    (c.wins,c.losses) ≠ ((baseline.chars s.charId).wins,(baseline.chars s.charId).losses)
  climbed : ∀ s ∈ standing.slots, s.achieved →
    (s.steps : ℤ) ≤ s.gain ∧ 1 ≤ s.steps ∧ (baseline.chars s.charId).rank ≤ s.start
  halves : ∀ s ∈ standing.slots, ∀ s' ∈ standing.slots, sameCharacter s.charId = some s'.charId →
    s.main = s'.main ∧ s.start = s'.start ∧ s.steps = s'.steps
  best : ∀ b, standing.best = some b → b ∈ standing.slots ∧ b.achieved ∧
    ∀ s ∈ standing.slots, s.achieved → s.gain ≤ b.gain
  noBest : standing.best = none ↔ ∀ s ∈ standing.slots, s.achieved = false

section
variable (casefold : String → String) (baseline : Baseline) {chars : List RankedChar}

def standingOn (chars : List RankedChar) : Standing where
  baseline := baseline
  slots := (List.finRange characterCount).map fun id => slotOf casefold baseline id (stateIn chars baseline.chars id)

theorem raise_ids (chars : List RankedChar) (id rank : ℕ) : (raise id rank chars).map (·.id) = chars.map (·.id) := by
  unfold raise
  rw [List.map_map]
  apply List.map_congr_left
  intro c _
  simp only [Function.comp_apply]
  split <;> rfl

variable (hids : (chars.map (·.id)).Nodup)
include hids

theorem judge_eq (hrange : ∀ c ∈ chars, c.id < characterCount) :
    judge casefold baseline chars = .ok (standingOn casefold baseline chars) := by
  unfold judge
  rw [foldlM_nowWith hids hrange]
  rfl

theorem standingOn_lawful : Lawful baseline chars (standingOn casefold baseline chars) where
  slots := by
    unfold standingOn
    rw [List.map_map]
    exact List.map_id _
  leftOut := by
    intro s hs hleft
    obtain ⟨id,_,rfl⟩ := List.mem_map.mp hs
    have hstate : stateIn chars baseline.chars id = baseline.chars id := stateIn_of_notMem hleft
    constructor
    · exact congrArg CharState.rank hstate
    · apply decide_eq_false
      intro hne
      exact hne (congrArg (fun state : CharState => (state.wins,state.losses)) hstate)
  changed := by
    intro s hs hachieved
    obtain ⟨id,_,rfl⟩ := List.mem_map.mp hs
    obtain ⟨hrecord,_⟩ := slotOf_achieved baseline id _ hachieved
    by_cases hmem : id.val ∈ chars.map (·.id)
    · obtain ⟨c,hc,hid⟩ := List.mem_map.mp hmem
      have hstate : stateIn chars baseline.chars id = ⟨c.rank,c.wins,c.losses⟩ := stateIn_of_mem hids hc hid
      rw [hstate] at hrecord
      exact ⟨c,hc,hid,congrArg CharState.rank hstate,hrecord⟩
    · rw [stateIn_of_notMem hmem] at hrecord
      exact absurd rfl hrecord
  climbed := by
    intro s hs hachieved
    obtain ⟨id,_,rfl⟩ := List.mem_map.mp hs
    obtain ⟨_,hgain⟩ := slotOf_achieved baseline id _ hachieved
    exact ⟨hgain,slotOf_steps baseline id _,slotOf_start baseline id _⟩
  halves := by
    intro s hs s' hs' hsame
    obtain ⟨id,_,rfl⟩ := List.mem_map.mp hs
    obtain ⟨other,_,rfl⟩ := List.mem_map.mp hs'
    exact slotOf_shared baseline hsame _ _
  best := fun _ h => Standing.best_spec h
  noBest := Standing.best_eq_none_iff _

theorem stateIn_raise (id : CharId) {n rank : ℕ} (hup : ∀ c ∈ chars, c.id = n → c.rank ≤ rank) :
    (stateIn (raise n rank chars) baseline.chars id).wins = (stateIn chars baseline.chars id).wins ∧
    (stateIn (raise n rank chars) baseline.chars id).losses = (stateIn chars baseline.chars id).losses ∧
    (stateIn chars baseline.chars id).rank ≤ (stateIn (raise n rank chars) baseline.chars id).rank := by
  have hkeys := raise_ids chars n rank
  by_cases hmem : id.val ∈ chars.map (·.id)
  · obtain ⟨c,hc,hid⟩ := List.mem_map.mp hmem
    have hraised : (if c.id = n then { c with rank := rank } else c) ∈ raise n rank chars := List.mem_map_of_mem hc
    rw [stateIn_of_mem hids hc hid]
    have hkept : (if c.id = n then { c with rank := rank } else c).id = id.val := by
      split <;> exact hid
    rw [stateIn_of_mem (hkeys ▸ hids) hraised hkept]
    split
    · exact ⟨rfl,rfl,hup c hc ‹_›⟩
    · exact ⟨rfl,rfl,le_refl _⟩
  · rw [stateIn_of_notMem hmem,stateIn_of_notMem (hkeys ▸ hmem)]
    exact ⟨rfl,rfl,le_refl _⟩

end

/-- The order of the list says nothing, and a higher rank takes nothing away. -/
theorem judge_lawful (casefold : String → String) (baseline : Baseline) {chars : List RankedChar}
    (hids : (chars.map (·.id)).Nodup) (hrange : ∀ c ∈ chars, c.id < characterCount) :
    ∃ standing, judge casefold baseline chars = .ok standing ∧ Lawful baseline chars standing ∧
      (∀ chars', chars.Perm chars' → judge casefold baseline chars' = .ok standing) ∧
      ∀ id rank, (∀ c ∈ chars, c.id = id → c.rank ≤ rank) →
        ∃ raised, judge casefold baseline (raise id rank chars) = .ok raised ∧
          List.Forall₂ (fun s s' => s'.charId = s.charId ∧ (s.achieved → s'.achieved)) standing.slots raised.slots := by
  refine ⟨standingOn casefold baseline chars,judge_eq casefold baseline hids hrange,
    standingOn_lawful casefold baseline hids,?_,?_⟩
  · intro chars' h
    have hids' := (h.map (·.id)).nodup_iff.mp hids
    rw [judge_eq casefold baseline hids' fun c hc => hrange c (h.mem_iff.mpr hc)]
    unfold standingOn
    simp only [stateIn_perm hids h]
  · intro n rank hup
    have hids' : ((raise n rank chars).map (·.id)).Nodup := raise_ids chars n rank ▸ hids
    have hrange' : ∀ c ∈ raise n rank chars, c.id < characterCount := by
      intro c hc
      obtain ⟨d,hd,rfl⟩ := List.mem_map.mp hc
      have hlt := hrange d hd
      split <;> exact hlt
    refine ⟨_,judge_eq casefold baseline hids' hrange',?_⟩
    apply List.forall₂_map_left_iff.mpr
    apply List.forall₂_map_right_iff.mpr
    apply List.forall₂_same.mpr
    intro id _
    obtain ⟨hwins,hlosses,hrank⟩ := stateIn_raise baseline hids id hup
    exact ⟨rfl,slotOf_raised baseline hwins hlosses hrank⟩

def beginner : Baseline := ⟨"law",fun _ => ⟨0,0,0⟩,0,true⟩

def pauls : List RankedChar := [⟨0,"Paul",12,"3rd dan","숫자단",1,1,3,2⟩,⟨11,"Kuma",0,"Beginner","숫자단",0,0,0,1⟩]

theorem judge_lawful_pauls : ∃ standing, judge id beginner pauls = .ok standing ∧ Lawful beginner pauls standing ∧
    (∀ chars', pauls.Perm chars' → judge id beginner chars' = .ok standing) ∧
    ∀ id' rank, (∀ c ∈ pauls, c.id = id' → c.rank ≤ rank) →
      ∃ raised, judge id beginner (raise id' rank pauls) = .ok raised ∧
        List.Forall₂ (fun s s' => s'.charId = s.charId ∧ (s.achieved → s'.achieved)) standing.slots raised.slots :=
  judge_lawful id beginner (by decide) (by decide)

end Tag2now.Event
