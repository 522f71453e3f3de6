import Mathlib.Data.Int.ModEq
import Mathlib.Data.List.Dedup
import Mathlib.Data.List.Nodup

/-! # Series of steps over an interval

Cut into pieces of one length, the line has a piece for every multiple of it. The steps from
where the first piece begins to the end of an interval are the pieces that meet the interval.
-/
namespace Collections

/-- `date_trunc`: where the piece around a moment begins. -/
def truncTo (step t : ℤ) : ℤ := t - t % step

/-- `generate_series`, its end included when a step lands on it. -/
def generateSeries (start stop step : ℤ) : List ℤ :=
  (List.range ((stop - start) / step + 1).toNat).map fun n : ℕ => start + n * step

section Series
variable {step start stop a b s t : ℤ}

theorem mem_generateSeries (hstep : 0 < step) :
    s ∈ generateSeries start stop step ↔ (∃ n : ℕ, s = start + n * step) ∧ s ≤ stop := by
  unfold generateSeries
  rw [List.mem_map]
  have hcount (n : ℕ) : n < ((stop - start) / step + 1).toNat ↔ start + n * step ≤ stop := by
    rw [Int.lt_toNat,Int.lt_add_one_iff,Int.le_ediv_iff_mul_le hstep]
    omega
  constructor
  · rintro ⟨n,hn,rfl⟩
    exact ⟨⟨n,rfl⟩,(hcount n).mp (List.mem_range.mp hn)⟩
  · rintro ⟨⟨n,rfl⟩,hle⟩
    exact ⟨n,List.mem_range.mpr ((hcount n).mpr hle),rfl⟩

theorem truncTo_le (hstep : 0 < step) (t : ℤ) : truncTo step t ≤ t := by
  have hnonneg := Int.emod_nonneg t hstep.ne'
  unfold truncTo
  omega

theorem lt_truncTo_add (hstep : 0 < step) (t : ℤ) : t < truncTo step t + step := by
  have hlt := Int.emod_lt_of_pos t hstep
  unfold truncTo
  omega

theorem truncTo_eq (step t : ℤ) : truncTo step t = step * (t / step) := by
  unfold truncTo
  have hsplit := Int.emod_add_mul_ediv t step
  omega

theorem truncTo_of_between (hstep : 0 < step) {k : ℤ} (hle : step * k ≤ t) (hlt : t < step * k + step) :
    truncTo step t = step * k := by
  have hfloor : t / step = k := by
    apply le_antisymm
    · apply Int.lt_add_one_iff.mp
      rw [Int.ediv_lt_iff_lt_mul hstep,Int.add_mul,Int.mul_comm k]
      omega
    · rw [Int.le_ediv_iff_mul_le hstep,Int.mul_comm]
      exact hle
  rw [truncTo_eq,hfloor]

/-- The steps name each piece that some moment of the interval is of, and no other. -/
theorem mem_generateSeries_truncTo (hstep : 0 < step) (hab : a ≤ b) :
    s ∈ generateSeries (truncTo step a) b step ↔ ∃ t, a ≤ t ∧ t ≤ b ∧ truncTo step t = s := by
  rw [mem_generateSeries hstep]
  have hbegun := truncTo_le hstep a
  have hgoing := lt_truncTo_add hstep a
  constructor
  · rintro ⟨⟨n,rfl⟩,hle⟩
    cases n with
    | zero => exact ⟨a,le_refl a,hab,by simp⟩
    | succ n =>
      -- a later piece begins inside the interval
      have hlater : a ≤ truncTo step a + (n + 1 : ℕ) * step := by
        have hmul : (0 : ℤ) ≤ n * step := Int.mul_nonneg (Int.natCast_nonneg n) hstep.le
        push_cast
        rw [Int.add_mul]
        omega
      have hmultiple : truncTo step a + (n + 1 : ℕ) * step = step * (a / step + (n + 1 : ℕ)) := by
        rw [truncTo_eq,Int.mul_add,Int.mul_comm step ((n + 1 : ℕ) : ℤ)]
      refine ⟨_,hlater,hle,?_⟩
      rw [hmultiple]
      exact truncTo_of_between hstep (le_refl _) (by omega)
  · rintro ⟨t,hat,htb,rfl⟩
    have hfloor : a / step ≤ t / step := Int.ediv_le_ediv hstep hat
    refine ⟨⟨(t / step - a / step).toNat,?_⟩,(truncTo_le hstep t).trans htb⟩
    rw [Int.toNat_of_nonneg (by omega),truncTo_eq,truncTo_eq,Int.sub_mul,Int.mul_comm step (a / step),
      Int.mul_comm step (t / step)]
    omega

end Series

/-- `count(distinct ..)`. -/
def countDistinct {α : Type} [DecidableEq α] (xs : List α) : ℕ := xs.dedup.length

theorem two_le_countDistinct {α : Type} [DecidableEq α] {xs : List α} :
    2 ≤ countDistinct xs ↔ ∃ a ∈ xs, ∃ b ∈ xs, a ≠ b := by
  unfold countDistinct
  simp only [← List.mem_dedup (l := xs)]
  have hdedup := xs.nodup_dedup
  revert hdedup
  cases xs.dedup with
  | nil => simp
  | cons a rest =>
    intro hdedup
    cases rest with
    | nil => simp
    | cons b rest =>
      have hne : a ≠ b := fun h => (List.nodup_cons.mp hdedup).1 (h ▸ List.mem_cons_self)
      refine iff_of_true (by simp) ⟨a,by simp,b,by simp,hne⟩

end Collections
