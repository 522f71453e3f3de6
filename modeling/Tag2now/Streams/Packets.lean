import Tag2now.Streams.Pieces

/-! # Packets on a stream

A packet is a header of a fixed size, which tells the size of the body behind it. A reader
that follows the headers takes the packets of the content one after another and stops
where the content ends inside one.
-/
namespace Pieces
variable {α ε H : Type}

structure Format (α H : Type) where
  headerSize : ℕ
  header : List α → H
  bodySize : H → ℕ
  headerSize_pos : 0 < headerSize

variable (F : Format α H)

/-- The first packet of some items and what is behind it, unless they end inside it. -/
def packet? (xs : List α) : Option ((H × List α) × List α) :=
  let h := F.header (xs.take F.headerSize)
  let body := xs.drop F.headerSize
  if F.headerSize ≤ xs.length ∧ F.bodySize h ≤ body.length then
    some ((h,body.take (F.bodySize h)),body.drop (F.bodySize h))
  else none

variable {F}

theorem packet?_rest {xs rest : List α} {p : H × List α} (h : packet? F xs = some (p,rest)) :
    rest.length < xs.length := by
  unfold packet? at h
  simp only at h
  split at h
  · rename_i hsize
    obtain ⟨_,rfl⟩ := Prod.mk.inj (Option.some.inj h)
    have hpos := F.headerSize_pos
    simp only [List.length_drop]
    omega
  · cases h

variable (F)

def packets (xs : List α) : List (H × List α) :=
  match _h : packet? F xs with
  | none => []
  | some (p,rest) => p :: packets rest
termination_by xs.length
decreasing_by exact packet?_rest _h

variable {F}

theorem packets_none {xs : List α} (h : packet? F xs = none) : packets F xs = [] := by
  rw [packets]
  split
  · rfl
  · rename_i p rest hp
    rw [h] at hp
    cases hp

theorem packets_some {xs rest : List α} {p : H × List α} (h : packet? F xs = some (p,rest)) :
    packets F xs = p :: packets F rest := by
  rw [packets]
  split
  · rename_i hnone
    rw [h] at hnone
    cases hnone
  · rename_i p' rest' hp
    rw [h] at hp
    obtain ⟨rfl,rfl⟩ := Prod.mk.inj (Option.some.inj hp)
    rfl

theorem packets_nil : packets F ([] : List α) = [] := by
  refine packets_none ?_
  have hpos := F.headerSize_pos
  unfold packet?
  simp only [List.length_nil]
  rw [if_neg (by omega)]

/-! ## Streams made of packets -/

variable (F)

/-- Items that are one packet: a header that tells the size of the body behind it. -/
def Frames (p : H × List α) (xs : List α) : Prop :=
  ∃ front, front.length = F.headerSize ∧ F.header front = p.1 ∧ F.bodySize p.1 = p.2.length ∧ xs = front ++ p.2

variable {F}

theorem packet?_frames {p : H × List α} {xs : List α} (h : Frames F p xs) (rest : List α) :
    packet? F (xs ++ rest) = some (p,rest) := by
  obtain ⟨front,hfront,hheader,hbody,rfl⟩ := h
  have htake : (front ++ p.2 ++ rest).take F.headerSize = front := by
    rw [List.append_assoc,← hfront,List.take_left]
  have hdrop : (front ++ p.2 ++ rest).drop F.headerSize = p.2 ++ rest := by
    rw [List.append_assoc,← hfront,List.drop_left]
  unfold packet?
  simp only [htake,hdrop,hheader,hbody,List.take_left,List.drop_left]
  apply if_pos
  simp only [List.length_append,hfront]
  omega

/-- Behind packets put one after another nothing is out of step. -/
theorem packets_frames {ps : List (H × List α)} {xss : List (List α)} (h : List.Forall₂ (Frames F) ps xss)
    (rest : List α) : packets F (xss.flatten ++ rest) = ps ++ packets F rest := by
  induction h with
  | nil => rfl
  | cons hp _ ih =>
    rw [List.flatten_cons,List.append_assoc,packets_some (packet?_frames hp _),ih]
    rfl

variable (F)

/-- The header, then as much as it tells. -/
def readPacket (s : Source α ε) : Except (Stop ε) (H × List α) × Source α ε :=
  match readExact F.headerSize [] s with
  | (.error e,s') => (.error e,s')
  | (.ok front,s') =>
    match readExact (F.bodySize (F.header front)) [] s' with
    | (.error e,s'') => (.error e,s'')
    | (.ok body,s'') => (.ok (F.header front,body),s'')

variable {F}

theorem readPacket_some {s : Source α ε} {p : H × List α} {rest : List α}
    (h : packet? F (content s) = some (p,rest)) :
    ∃ s', readPacket F s = (.ok p,s') ∧ content s' = rest ∧ stop s' = stop s := by
  unfold packet? at h
  simp only at h
  split at h
  case isFalse => cases h
  rename_i hsize
  obtain ⟨rfl,rfl⟩ := Prod.mk.inj (Option.some.inj h)
  obtain ⟨s₁,hfront,hcontent₁,hstop₁⟩ := readExact_next hsize.1
  have hbodySize : F.bodySize (F.header ((content s).take F.headerSize)) ≤ (content s₁).length := by
    rw [hcontent₁]
    exact hsize.2
  obtain ⟨s₂,hbody,hcontent₂,hstop₂⟩ := readExact_next hbodySize
  refine ⟨s₂,?_,?_,hstop₂.trans hstop₁⟩
  · unfold readPacket
    rw [hfront]
    simp only
    rw [hbody]
    simp only [hcontent₁]
  · rw [hcontent₂,hcontent₁]

theorem readPacket_none {s : Source α ε} (h : packet? F (content s) = none) :
    ∃ s', readPacket F s = (.error (stop s),s') ∧ (stop s = .closed → s' = []) := by
  unfold packet? at h
  simp only at h
  split at h
  · cases h
  rename_i hsize
  unfold readPacket
  rcases Nat.lt_or_ge (content s).length F.headerSize with hshort | henough
  · obtain ⟨s',hread,hclosed⟩ := readExact_stops hshort
    exact ⟨s',by rw [hread],hclosed⟩
  · obtain ⟨s₁,hfront,hcontent₁,hstop₁⟩ := readExact_next henough
    have hbodyShort : (content s₁).length < F.bodySize (F.header ((content s).take F.headerSize)) := by
      rw [hcontent₁]
      omega
    obtain ⟨s',hread,hclosed⟩ := readExact_stops hbodyShort
    rw [hstop₁] at hread hclosed
    exact ⟨s',by rw [hfront]; simp only; rw [hread],hclosed⟩

theorem readPacket_content {s s' : Source α ε} {p : H × List α} (h : readPacket F s = (.ok p,s')) :
    (content s').length < (content s).length := by
  cases hp : packet? F (content s) with
  | none =>
    obtain ⟨s₁,hread,_⟩ := readPacket_none hp
    rw [hread] at h
    cases h
  | some found =>
    obtain ⟨s₁,hread,hcontent,_⟩ := readPacket_some hp
    rw [hread] at h
    cases h
    rw [hcontent]
    exact packet?_rest hp

variable (F) (skip : H → Bool)

/-- Packets are read, and some skipped, until one is wanted. -/
def readPast (s : Source α ε) : Except (Stop ε) (H × List α) × Source α ε :=
  match _h : readPacket F s with
  | (.error e,s') => (.error e,s')
  | (.ok p,s') => if skip p.1 then readPast s' else (.ok p,s')
termination_by (content s).length
decreasing_by exact readPacket_content _h

variable {F skip}

theorem readPast_error {s s' : Source α ε} {e : Stop ε} (h : readPacket F s = (.error e,s')) :
    readPast F skip s = (.error e,s') := by
  rw [readPast]
  split
  · rename_i h'
    rw [h] at h'
    cases h'
    rfl
  · rename_i h'
    rw [h] at h'
    cases h'

theorem readPast_ok {s s' : Source α ε} {p : H × List α} (h : readPacket F s = (.ok p,s')) :
    readPast F skip s = if skip p.1 then readPast F skip s' else (.ok p,s') := by
  rw [readPast]
  split
  · rename_i h'
    rw [h] at h'
    cases h'
  · rename_i h'
    rw [h] at h'
    cases h'
    rfl

/-- The reader answers the content's first packet that is not skipped and stays in step with
the packets behind it. -/
theorem readPast_cons {s : Source α ε} {p : H × List α} {ps : List (H × List α)}
    (h : (packets F (content s)).dropWhile (fun q => skip q.1) = p :: ps) :
    ∃ s', readPast F skip s = (.ok p,s') ∧ packets F (content s') = ps ∧ stop s' = stop s := by
  cases hp : packet? F (content s) with
  | none =>
    rw [packets_none hp] at h
    cases h
  | some found =>
    obtain ⟨q,rest⟩ := found
    obtain ⟨s₁,hread,hcontent,hstop⟩ := readPacket_some hp
    rw [packets_some hp,List.dropWhile_cons] at h
    rw [readPast_ok hread]
    cases hskip : skip q.1 with
    | false =>
      rw [hskip] at h
      obtain ⟨rfl,rfl⟩ := List.cons.inj h
      exact ⟨s₁,rfl,by rw [hcontent],hstop⟩
    | true =>
      rw [hskip,if_pos rfl,← hcontent] at h
      obtain ⟨s',hread',hpackets,hstop'⟩ := readPast_cons h
      exact ⟨s',hread',hpackets,hstop'.trans hstop⟩
termination_by (content s).length
decreasing_by exact readPacket_content hread

/-- Where all the packets are skipped it stops as the content does. -/
theorem readPast_nil {s : Source α ε} (h : (packets F (content s)).dropWhile (fun q => skip q.1) = []) :
    ∃ s', readPast F skip s = (.error (stop s),s') ∧ (stop s = .closed → s' = []) := by
  cases hp : packet? F (content s) with
  | none =>
    obtain ⟨s',hread,hclosed⟩ := readPacket_none hp
    exact ⟨s',readPast_error hread,hclosed⟩
  | some found =>
    obtain ⟨q,rest⟩ := found
    obtain ⟨s₁,hread,hcontent,hstop⟩ := readPacket_some hp
    rw [packets_some hp,List.dropWhile_cons] at h
    rw [readPast_ok hread]
    cases hskip : skip q.1 with
    | false =>
      rw [hskip] at h
      cases h
    | true =>
      rw [hskip,if_pos rfl,← hcontent] at h
      obtain ⟨s',hread',hclosed⟩ := readPast_nil h
      rw [hstop] at hread' hclosed
      exact ⟨s',hread',hclosed⟩
termination_by (content s).length
decreasing_by exact readPacket_content hread

end Pieces
