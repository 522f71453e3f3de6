import Mathlib.Data.List.Basic

/-! # Reading a stream that arrives in pieces

The other end delivers pieces of any lengths, and reads may fail. A reader that asks until
it has a given number of items gets the next items of the content, whatever the pieces, or
else stops for the reason the content does.
-/
namespace Pieces
variable {α ε : Type}

/-- What a read can meet. A piece is not empty. -/
inductive Delivery (α ε : Type)
  | piece (head : α) (tail : List α)
  | failure (reason : ε)

/-- Behind the last delivery the stream is closed. -/
abbrev Source (α ε : Type) := List (Delivery α ε)

/-- Why a reader stops short of what it needs. -/
inductive Stop (ε : Type)
  | closed
  | failed (reason : ε)

/-- What there is to read before the first failure, or before the close. -/
def content : Source α ε → List α
  | [] => []
  | .piece x xs :: s => x :: (xs ++ content s)
  | .failure _ :: _ => []

/-- Why there is no more than the content. -/
def stop : Source α ε → Stop ε
  | [] => .closed
  | .piece .. :: s => stop s
  | .failure e :: _ => .failed e

/-- Items put back in front. -/
def unread : List α → Source α ε → Source α ε
  | [],s => s
  | x :: xs,s => .piece x xs :: s

@[simp] theorem content_unread (xs : List α) (s : Source α ε) : content (unread xs s) = xs ++ content s := by
  cases xs <;> rfl

@[simp] theorem stop_unread (xs : List α) (s : Source α ε) : stop (unread xs s) = stop s := by
  cases xs <;> rfl

/-- One read of at most `n` items, and none once the stream is closed. -/
def recv : ℕ → Source α ε → Except (Stop ε) (List α) × Source α ε
  | _,[] => (.ok [],[])
  | _,.failure e :: s => (.error (.failed e),s)
  | 0,s => (.ok [],s)
  | n + 1,.piece x xs :: s => (.ok (x :: xs.take n),unread (xs.drop n) s)

/-- Reads until there are `n` items with those read before. -/
def readExact (n : ℕ) (items : List α) (s : Source α ε) : Except (Stop ε) (List α) × Source α ε :=
  if items.length < n then
    match recv (n - items.length) s with
    | (.error e,s') => (.error e,s')
    | (.ok [],s') => (.error .closed,s')
    | (.ok (x :: xs),s') => readExact n (items ++ x :: xs) s'
  else (.ok items,s)
termination_by n - items.length
decreasing_by simp only [List.length_append,List.length_cons]; omega

theorem readExact_done {n : ℕ} {items : List α} (h : n ≤ items.length) (s : Source α ε) :
    readExact n items s = (.ok items,s) := by
  rw [readExact,if_neg (Nat.not_lt.mpr h)]

theorem readExact_nil {n : ℕ} {items : List α} (h : items.length < n) :
    readExact n items ([] : Source α ε) = (.error .closed,[]) := by
  rw [readExact,if_pos h,recv]

theorem readExact_failure {n : ℕ} {items : List α} (h : items.length < n) (e : ε) (s : Source α ε) :
    readExact n items (.failure e :: s) = (.error (.failed e),s) := by
  rw [readExact,if_pos h,recv]

theorem readExact_piece_short {n : ℕ} {items : List α} {x : α} {xs : List α}
    (h : items.length + xs.length < n) (s : Source α ε) :
    readExact n items (.piece x xs :: s) = readExact n (items ++ x :: xs) s := by
  obtain ⟨m,hm⟩ := Nat.exists_eq_add_of_lt h
  have hmissing : n - items.length = xs.length + m + 1 := by omega
  have hwhole : xs.length ≤ xs.length + m := Nat.le_add_right ..
  rw [readExact,if_pos (by omega),hmissing,recv,List.take_of_length_le hwhole,List.drop_of_length_le hwhole]
  rfl

/-- One that is more than enough is cut, and its rest stays. -/
theorem readExact_piece_long {n : ℕ} {items : List α} {x : α} {xs : List α} (hmore : items.length < n)
    (h : n ≤ items.length + xs.length) (s : Source α ε) :
    readExact n items (.piece x xs :: s) = (.ok (items ++ (x :: xs).take (n - items.length)),
      unread ((x :: xs).drop (n - items.length)) s) := by
  obtain ⟨m,hm⟩ := Nat.exists_eq_add_of_lt hmore
  have hmissing : n - items.length = m + 1 := by omega
  rw [readExact,if_pos hmore,hmissing,recv]
  refine readExact_done ?_ _
  simp only [List.length_append,List.length_cons,List.length_take]
  omega

/-- Where the content has them, the next items are read and no more. -/
theorem readExact_enough {n : ℕ} {items : List α} {s : Source α ε} (hitems : items.length ≤ n)
    (h : n ≤ items.length + (content s).length) :
    ∃ s', readExact n items s = (.ok (items ++ (content s).take (n - items.length)),s') ∧
      content s' = (content s).drop (n - items.length) ∧ stop s' = stop s := by
  induction s generalizing items with
  | nil =>
    have hall : n = items.length := by simp only [content,List.length_nil] at h; omega
    exact ⟨[],by simp [readExact_done (Nat.le_of_eq hall),content],by simp [content],rfl⟩
  | cons d s ih =>
    rcases Nat.eq_or_lt_of_le hitems with hall | hmore
    · exact ⟨d :: s,by simp [readExact_done (Nat.le_of_eq hall.symm),hall],by simp [hall],rfl⟩
    cases d with
    | failure e => simp only [content,List.length_nil] at h; omega
    | piece x xs =>
      rcases Nat.lt_or_ge (items.length + xs.length) n with hshort | hlong
      · have hlength : (items ++ x :: xs).length = items.length + xs.length + 1 := by
          simp only [List.length_append,List.length_cons]; omega
        have henough : n ≤ (items ++ x :: xs).length + (content s).length := by
          simp only [content,List.length_cons,List.length_append] at h ⊢; omega
        obtain ⟨s',hread,hcontent,hstop⟩ := ih (by omega) henough
        have hmissing : n - items.length = (x :: xs).length + (n - (items ++ x :: xs).length) := by
          simp only [List.length_append,List.length_cons]; omega
        refine ⟨s',?_,?_,hstop⟩
        · rw [readExact_piece_short hshort,hread,content,← List.cons_append,hmissing,List.take_length_add_append,
            List.append_assoc]
        · rw [hcontent,content,← List.cons_append,hmissing,List.drop_length_add_append]
      · refine ⟨unread ((x :: xs).drop (n - items.length)) s,?_,?_,stop_unread ..⟩
        · rw [readExact_piece_long hmore hlong,content,← List.cons_append,
            List.take_append_of_le_length (by simp only [List.length_cons]; omega)]
        · rw [content_unread,content,← List.cons_append,
            List.drop_append_of_le_length (by simp only [List.length_cons]; omega)]

/-- Where it has not, the reader stops for the same reason. -/
theorem readExact_short {n : ℕ} {items : List α} {s : Source α ε}
    (h : items.length + (content s).length < n) :
    ∃ s', readExact n items s = (.error (stop s),s') ∧ (stop s = .closed → s' = []) := by
  induction s generalizing items with
  | nil => exact ⟨[],readExact_nil h,fun _ => rfl⟩
  | cons d s ih =>
    cases d with
    | failure e => exact ⟨s,readExact_failure h e s,nofun⟩
    | piece x xs =>
      simp only [content,List.length_cons,List.length_append] at h
      have hshort : (items ++ x :: xs).length + (content s).length < n := by
        simp only [List.length_append,List.length_cons]; omega
      obtain ⟨s',hread,hclosed⟩ := ih hshort
      exact ⟨s',by rw [readExact_piece_short (by omega),hread,stop],hclosed⟩

theorem readExact_next {n : ℕ} {s : Source α ε} (h : n ≤ (content s).length) :
    ∃ s', readExact n [] s = (.ok ((content s).take n),s') ∧ content s' = (content s).drop n ∧ stop s' = stop s := by
  have henough : n ≤ ([] : List α).length + (content s).length := by
    simp only [List.length_nil]; omega
  exact readExact_enough (Nat.zero_le n) henough

theorem readExact_stops {n : ℕ} {s : Source α ε} (h : (content s).length < n) :
    ∃ s', readExact n [] s = (.error (stop s),s') ∧ (stop s = .closed → s' = []) := by
  have hshort : ([] : List α).length + (content s).length < n := by
    simp only [List.length_nil]; omega
  exact readExact_short hshort

end Pieces
