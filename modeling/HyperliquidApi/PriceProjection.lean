import HyperliquidApi.PriceGrid

/-!
# Normalisation as a projection

The decimals of a price are chosen by its own magnitude, and the grid becomes coarser with every
power of ten. The power of ten below a price is a price of the grid, and beyond it the grid has no
more decimals than the price, so rounding at these decimals takes the nearest price of the grid.
-/
namespace HyperliquidApi
open Rounding NearestPoints

/-- The prices that the venue takes. -/
def venueGrid (szDecimals : ℕ) : Set ℚ := {p | 0 ≤ p ∧ OnGrid szDecimals p}

/-- From a power of ten on, five figures are too few for more decimals. -/
lemma OnGrid.hasDecimals {sd d : ℕ} {e : ℤ} {g : ℚ} (h : OnGrid sd g) (hg : (10 : ℚ)^e ≤ g)
    (hd : 4 ≤ e + d) : HasDecimals d g := by
  rcases h.2 with ⟨z, rfl⟩ | ⟨m, k, hm, rfl⟩
  · have hwhole : HasDecimals 0 (z : ℚ) := ⟨z, by simp⟩
    exact hwhole.mono (Nat.zero_le d)
  · have hk : e - 4 ≤ k := by
      by_contra hlt
      have hm' : (m : ℚ) < 10^5 := by exact_mod_cast (le_abs_self m).trans_lt hm
      have hsmall : (m : ℚ) * 10^k < (10 : ℚ)^e := by
        calc (m : ℚ) * 10^k < 10^5 * (10 : ℚ)^k := by gcongr
          _ = (10 : ℚ)^(5 + k) := by rw [zpow_add₀ (by norm_num)]; norm_num
          _ ≤ (10 : ℚ)^e := zpow_le_zpow_right₀ (by norm_num) (by omega)
      linarith
    obtain ⟨n, hn⟩ := Int.eq_ofNat_of_zero_le (show 0 ≤ k + d by omega)
    refine ⟨m * 10^n, ?_⟩
    have hsplit : (10 : ℚ)^k = (10 : ℚ)^n / 10^d := by
      rw [show k = (n : ℤ) - d by omega, zpow_sub₀ (by norm_num), zpow_natCast, zpow_natCast]
    push_cast
    rw [hsplit]
    ring

lemma power_mem_venueGrid {sd : ℕ} {e : ℤ} (he : -((6 - sd : ℕ) : ℤ) ≤ e) :
    (10 : ℚ)^e ∈ venueGrid sd := by
  obtain ⟨n, hn⟩ := Int.eq_ofNat_of_zero_le (show 0 ≤ e + (6 - sd : ℕ) by omega)
  refine ⟨by positivity, ⟨10^n, ?_⟩, .inr ⟨1, e, by norm_num, by simp⟩⟩
  rw [show e = (n : ℤ) - (6 - sd : ℕ) by omega, zpow_sub₀ (by norm_num), zpow_natCast,
    zpow_natCast]
  push_cast
  rfl

theorem normalizePrice_nearest {px : ℚ} (hpx : 0 < px) {sd : ℕ} (hsd : sd ≤ 6) :
    IsNearest (venueGrid sd) px (normalizePrice px sd) := by
  have hgrid := normalizePrice_onGrid hpx hsd
  obtain ⟨d, hd, hle, hcases⟩ := allowedDecimals_cases hpx hsd
  rw [normalizePrice_eq hd] at hgrid ⊢
  have hmem : roundTo d px ∈ venueGrid sd := ⟨roundTo_nonneg hpx.le, hgrid⟩
  have hround := isNearest_roundTo d px
  by_cases hfinest : d = 6 - sd
  · -- At the finest tick every price of the grid is a candidate of the rounding.
    apply hround.subset hmem
    intro g hg
    rw [hfinest]
    exact hg.2.1
  · -- Five figures are used up: the candidates are those from the power of ten on.
    have hfigures : 4 ≤ Int.log 10 px + d := by omega
    have hlog : (10 : ℚ)^Int.log 10 px ≤ px := by
      exact_mod_cast Int.zpow_log_le_self (b := 10) (by norm_num) hpx
    have hpower : (10 : ℚ)^Int.log 10 px ∈ venueGrid sd := power_mem_venueGrid (by omega)
    have hbeyond : ∀ g ∈ venueGrid sd ∩ Set.Ici ((10 : ℚ)^Int.log 10 px), HasDecimals d g :=
      fun g hg => hg.1.2.hasDecimals hg.2 hfigures
    apply IsNearest.of_above hpower hlog
    refine hround.subset ⟨hmem, ?_⟩ hbeyond
    -- the power of ten is itself a candidate, so rounding stays above it
    by_contra hlt
    rw [Set.mem_Ici, not_le] at hlt
    have hcandidate := hround.le _ (hbeyond _ ⟨hpower, Set.mem_Ici.mpr le_rfl⟩)
    rw [abs_of_pos (by linarith), abs_of_nonneg (by linarith)] at hcandidate
    linarith

/-- Normalisation takes the nearest price of the grid; so it fixes the prices it yields, and it
keeps the order of prices across every power of ten. -/
theorem normalizePrice_projects {sd : ℕ} (hsd : sd ≤ 6) :
    (∀ px, 0 < px → normalizePrice px sd ∈ venueGrid sd ∧
      ∀ g ∈ venueGrid sd, |px - normalizePrice px sd| ≤ |px - g|) ∧
    (∀ px, 0 < px → 0 < normalizePrice px sd →
      normalizePrice (normalizePrice px sd) sd = normalizePrice px sd) ∧
    ∀ px px', 0 < px → px ≤ px' → normalizePrice px sd ≤ normalizePrice px' sd := by
  refine ⟨?_, ?_, ?_⟩
  · intro px hpx
    have hnear := normalizePrice_nearest hpx hsd
    exact ⟨hnear.mem, hnear.le⟩
  · intro px hpx hpos
    exact (normalizePrice_nearest hpos hsd).eq_of_mem (normalizePrice_nearest hpx hsd).mem
  · intro px px' hpx hle
    rcases hle.lt_or_eq with hlt | rfl
    · exact (normalizePrice_nearest hpx hsd).mono hlt (normalizePrice_nearest (hpx.trans hlt) hsd)
    · exact le_rfl

/-- Across 100000, where the last of the decimals goes. -/
theorem normalizePrice_projects_across_power :
    normalizePrice (999999/10) 1 ≤ normalizePrice (1000004/10) 1 ∧
      ∀ g ∈ venueGrid 1, |999999/10 - normalizePrice (999999/10) 1| ≤ |999999/10 - g| := by
  have hone := normalizePrice_projects (show 1 ≤ 6 by norm_num)
  exact ⟨hone.2.2 _ _ (by norm_num) (by norm_num), (hone.1 _ (by norm_num)).2⟩

end HyperliquidApi
