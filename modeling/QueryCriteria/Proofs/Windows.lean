import Mathlib.Data.UInt
import QueryCriteria.Criteria.Window

namespace QueryCriteria

structure Extent where
  skipped : Int
  wanted : Int

def RowSpan.extent (r : RowSpan) : Extent where
  skipped := r.start.toNat
  wanted := max 0 (r.stop.toNat - r.start.toNat)

def PageSpan.start (p : PageSpan) : Int :=
  max p.first.toNat 1

def PageSpan.extent (p : PageSpan) : Extent where
  skipped := (p.start - 1) * p.size.toNat
  wanted := max 0 (p.last.toNat - p.start + 1) * p.size.toNat

def PageSpan.reached (p : PageSpan) : PageSpan :=
  { p with last := min p.last (Saturating.greatest - 1) }

structure Window.Clamps (w : Window) (e : Extent) : Prop where
  offset : (w.offset.toNat : Int) = min e.skipped (UInt64.size - 1)
  limit : (w.limit.toNat : Int) = min e.wanted (UInt64.size - 1)

theorem RowSpan.clamps_window (r : RowSpan) : r.window.Clamps r.extent where
  offset := by
    have hstart := r.start.toNat_lt
    simp only [window, extent, UInt64.size]
    omega
  limit := by
    have hstop := r.stop.toNat_lt
    simp only [window, extent, Saturating.toNat_sub, UInt64.size]
    omega

namespace PageSpan

variable (p : PageSpan)

theorem toNat_max_first : (max p.first 1).toNat = max p.first.toNat 1 :=
  UInt64.toNat_max _ _

theorem toNat_last_reached : p.reached.last.toNat = min p.last.toNat (UInt64.size - 2) :=
  UInt64.toNat_min _ _

theorem toNat_skipped : ((max p.first 1 - 1).toNat : Int) = p.start - 1 := by
  have hone : (1 : UInt64).toNat = 1 := rfl
  have hle : 1 ≤ max p.first 1 := by
    rw [UInt64.le_iff_toNat_le, toNat_max_first, hone]
    exact Nat.le_max_right _ _
  rw [UInt64.toNat_sub_of_le _ _ hle, toNat_max_first, hone, start]
  omega

theorem toNat_count : ((Saturating.sub (Saturating.add p.last 1) (max p.first 1)).toNat : Int) =
    max 0 (p.reached.last.toNat - p.start + 1) := by
  have hlast := p.last.toNat_lt
  have hone : (1 : UInt64).toNat = 1 := rfl
  rw [Saturating.toNat_sub, Saturating.toNat_add, toNat_max_first, toNat_last_reached, hone, start]
  simp only [UInt64.size]
  omega

theorem toNat_mul_size {count : UInt64} {pages : Int} (h : (count.toNat : Int) = pages) :
    ((Saturating.mul count p.size).toNat : Int) = min (pages * p.size.toNat) (UInt64.size - 1) := by
  rw [Saturating.toNat_mul, ← h, ← Int.natCast_mul]
  simp only [UInt64.size]
  omega

theorem clamps_window : p.window.Clamps p.reached.extent where
  offset := p.toNat_mul_size p.toNat_skipped
  limit := p.toNat_mul_size p.toNat_count

theorem reached_of_ne (h : p.last ≠ Saturating.greatest) : p.reached = p := by
  have hlast := p.last.toNat_lt
  have hne : p.last.toNat ≠ UInt64.size - 1 := fun heq => h (UInt64.toNat.inj heq)
  have hmin : min p.last (Saturating.greatest - 1) = p.last := by
    refine UInt64.toNat.inj (p.toNat_last_reached.trans ?_)
    simp only [UInt64.size] at *
    omega
  rw [reached, hmin]

theorem wanted_of_greatest (h : p.last = Saturating.greatest) :
    p.extent.wanted = p.reached.extent.wanted + p.size.toNat := by
  have hfirst := p.first.toNat_lt
  have hlast : p.last.toNat = UInt64.size - 1 := congrArg UInt64.toNat h
  have hreached := p.toNat_last_reached
  have hcount : max 0 ((p.last.toNat : Int) - p.start + 1) =
      max 0 ((p.reached.last.toNat : Int) - p.start + 1) + 1 := by
    rw [hreached, hlast, start]
    simp only [UInt64.size]
    omega
  have hstart : p.reached.start = p.start := rfl
  have hsize : p.reached.size = p.size := rfl
  rw [extent, extent, hcount, hstart, hsize, Int.add_mul, Int.one_mul]

theorem clamps_extent_iff : p.window.Clamps p.extent ↔
    (p.last = Saturating.greatest → p.size = 0 ∨ UInt64.size - 1 ≤ p.reached.extent.wanted) := by
  obtain ⟨hoffset, hlimit⟩ := p.clamps_window
  by_cases hlast : p.last = Saturating.greatest
  · have hwanted := p.wanted_of_greatest hlast
    have hsize : p.size = 0 ↔ p.size.toNat = 0 := UInt64.toNat_inj.symm
    constructor
    · intro h _
      have hclaimed := h.limit
      rw [hsize]
      simp only [UInt64.size] at *
      omega
    · intro h
      refine ⟨hoffset, ?_⟩
      have hmissed := h hlast
      rw [hsize] at hmissed
      simp only [UInt64.size] at *
      omega
  · have hclamps := p.clamps_window
    rw [p.reached_of_ne hlast] at hclamps
    exact ⟨fun _ h => absurd h hlast, fun _ => hclamps⟩

end PageSpan

theorem window_clamps_reached (p : Pagination) :
    (∀ r, p.rows = some r → ∃ w, p.window? = some w ∧ w.Clamps r.extent) ∧
      (∀ q, p.rows = none → p.pages = some q → ∃ w, p.window? = some w ∧ w.Clamps q.reached.extent ∧
        (w.Clamps q.extent ↔
          (q.last = Saturating.greatest → q.size = 0 ∨ UInt64.size - 1 ≤ q.reached.extent.wanted))) ∧
      (p.rows = none → p.pages = none → p.window? = none) := by
  refine ⟨fun r hr => ⟨r.window, ?_, r.clamps_window⟩, fun q hr hq => ?_, fun hr hq => ?_⟩
  · rw [Pagination.window?, hr]
  · refine ⟨q.window, ?_, q.clamps_window, q.clamps_extent_iff⟩
    rw [Pagination.window?, hr, hq]
    rfl
  · rw [Pagination.window?, hr, hq]
    rfl

theorem third_page_clamped : ∃ w, Pagination.window? { pages := some ⟨3, 4, 10⟩ } = some w ∧
    w.Clamps (PageSpan.extent ⟨3, 4, 10⟩) := by
  obtain ⟨-, hpages, -⟩ := window_clamps_reached { pages := some ⟨3, 4, 10⟩ }
  obtain ⟨w, hwindow, -, hclaimed⟩ := hpages _ rfl rfl
  exact ⟨w, hwindow, hclaimed.mpr fun h => absurd h (by decide)⟩

theorem last_page_missed :
    let p : PageSpan := ⟨Saturating.greatest, Saturating.greatest, 10⟩
    p.extent.wanted = 10 ∧ p.window.limit = 0 ∧ ¬ p.window.Clamps p.extent := by
  intro p
  have hwanted : p.extent.wanted = 10 := by decide
  have hlimit : p.window.limit = 0 := by decide
  refine ⟨hwanted, hlimit, fun h => ?_⟩
  have hclaimed := h.limit
  rw [hwanted, hlimit] at hclaimed
  exact absurd hclaimed (by decide)

end QueryCriteria
