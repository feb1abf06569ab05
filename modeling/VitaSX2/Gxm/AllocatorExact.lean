/-
Occupancy bits and live slots of the render store stay in step.

Occupancy is kept twice: as one word of bits for each row of tiles and as slots.  A bit is
set exactly when its tile belongs to a live slot of the plane.  This holds after `Reset`, and
allocations and releases keep it.  An allocation fails only for want of a slot or a place.
-/
import VitaSX2.Gxm.Allocator

namespace VitaSX2.RenderStore

namespace Allocator

variable {a a' : Allocator} {plane : Plane} {region : Region} {tilesW tilesH : ℕ}

/-- `RenderStoreAllocator::Reset`: the slots keep their last region, which is not live. -/
def reset (a : Allocator) : Allocator where
  rows _ _ := 0
  slots i := { a.slots i with live := false }
  nextGeneration := 1

/-- `Release` and its result. -/
def tryRelease (a : Allocator) (plane : Plane) (region : Region) : Allocator × Bool :=
  if a.IsLive plane region then (a.release plane region, true) else (a, false)

/-- The tile belongs to a live slot of the plane. -/
def HasLiveTile (a : Allocator) (plane : Plane) (x y : ℕ) : Prop :=
  ∃ i, (a.slots i).live = true ∧ (a.slots i).plane = plane ∧ (a.slots i).region.HasTile x y

/-- Bits and slots tell the same, and the live regions are inside the store. -/
structure Exact (a : Allocator) : Prop where
  ok : a.Ok
  bottom : ∀ i, (a.slots i).live = true →
    (a.slots i).region.y + (a.slots i).region.height ≤ storeHeight
  bits : ∀ plane x y, x < tilesX → ((a.rows plane y).getLsbD x = true ↔ a.HasLiveTile plane x y)

/-- A rectangle of free tiles of this size, in whole inside the store. -/
def FreeRectangle (a : Allocator) (plane : Plane) (tilesW tilesH : ℕ) : Prop :=
  0 < tilesW ∧ 0 < tilesH ∧ ∃ tileX tileY, tileX + tilesW ≤ tilesX ∧ tileY + tilesH ≤ tilesY ∧
    ∀ x y, tileX ≤ x → x < tileX + tilesW → tileY ≤ y → y < tileY + tilesH →
      ¬a.HasLiveTile plane x y

/-! ### Where an allocation goes -/

/-- A region of whole tiles in a slot, and the allocator after it was handed out. -/
structure Hands (a : Allocator) (plane : Plane) (tilesW tilesH : ℕ) (a' : Allocator)
    (region : Region) : Prop where
  place : ∃ tileX tileY, canPlace (a.rows plane) tileX tileY tilesW tilesH = true ∧
    region.x = tileX * tileWidth ∧ region.y = tileY * tileHeight
  width : region.width = tilesW * tileWidth
  height : region.height = tilesH * tileHeight
  slot : region.slot < maximumRegions ∧ (a.slots region.slot).live = false
  generation : region.generation = a.generation.1
  after : a' = a.occupy plane region

lemma allocateAt_hands {tileX tileY tilesW tilesH : ℕ}
    (h : a.allocateAt plane tileX tileY tilesW tilesH = some (a', region)) :
    Hands a plane tilesW tilesH a' region := by
  rw [allocateAt] at h
  split at h
  · next hplace =>
    split at h
    · cases h
    · next slot hslot =>
      obtain ⟨rfl, rfl⟩ := Prod.mk.inj (Option.some.inj h)
      have hdead : (a.slots slot).live = false := by simpa using List.find?_some hslot
      exact ⟨⟨tileX, tileY, hplace, rfl, rfl⟩, rfl, rfl,
        ⟨List.mem_range.1 (List.mem_of_find?_eq_some hslot), hdead⟩, rfl, rfl⟩
  · cases h

/-- A size that can be asked for. -/
def ValidSize (width height : ℕ) : Prop :=
  width ≠ 0 ∧ height ≠ 0 ∧ width ≤ storeWidth ∧ height ≤ storeHeight

lemma allocate_hands {width height : ℕ} {preferred : Option Region}
    (h : a.allocate plane width height preferred = some (a', region)) :
    Hands a plane (divideRoundUp width tileWidth) (divideRoundUp height tileHeight) a' region := by
  rw [allocate] at h
  split at h
  · cases h
  · rcases Option.or_eq_some_iff.1 h with hpreferred | ⟨-, hfirst⟩
    · obtain ⟨origin, -, horigin⟩ := Option.bind_eq_some_iff.1 hpreferred
      split at horigin
      · exact allocateAt_hands horigin
      · cases horigin
    · obtain ⟨y, -, hy⟩ := List.exists_of_findSome?_eq_some hfirst
      obtain ⟨x, -, hx⟩ := List.exists_of_findSome?_eq_some hy
      exact allocateAt_hands hx

/-- No allocation succeeds anywhere when `allocate` fails on a size that can be asked for. -/
lemma allocate_eq_none {width height : ℕ} {preferred : Option Region}
    (h : a.allocate plane width height preferred = none) (hsize : ValidSize width height)
    {tileX tileY : ℕ} (hx : tileX + divideRoundUp width tileWidth ≤ tilesX)
    (hy : tileY + divideRoundUp height tileHeight ≤ tilesY) :
    a.allocateAt plane tileX tileY (divideRoundUp width tileWidth)
      (divideRoundUp height tileHeight) = none := by
  obtain ⟨hwidth, hheight, hright, hbottom⟩ := hsize
  rw [allocate, if_neg (by omega)] at h
  obtain ⟨-, hfirst⟩ := Option.or_eq_none_iff.1 h
  have hrow := List.findSome?_eq_none_iff.1 hfirst tileY (List.mem_range.2 (by omega))
  exact List.findSome?_eq_none_iff.1 hrow tileX (List.mem_range.2 (by omega))

lemma width_le_tiles (width : ℕ) : width ≤ divideRoundUp width tileWidth * tileWidth := by
  simp only [divideRoundUp, tileWidth]
  omega

lemma height_le_tiles (height : ℕ) : height ≤ divideRoundUp height tileHeight * tileHeight := by
  simp only [divideRoundUp, tileHeight]
  omega

/-! ### Steps -/

/-- A region that is handed out is made of whole tiles, and they were free. -/
lemma Hands.clear (h : Hands a plane tilesW tilesH a' region) :
    region.Tiled ∧ ∀ x y, region.HasTile x y → (a.rows plane y).getLsbD x = false := by
  obtain ⟨⟨tileX, tileY, hplace, hx, hy⟩, hwidth, hheight, -, -, -⟩ := h
  obtain ⟨⟨-, -, hright, -⟩, hclear⟩ := canPlace_clear hplace
  refine ⟨⟨?_, ?_, ?_, ?_, ?_⟩, fun x y htile => ?_⟩
  · rw [hx, Nat.mul_mod_left]
  · rw [hy, Nat.mul_mod_left]
  · rw [hwidth, Nat.mul_mod_left]
  · rw [hheight, Nat.mul_mod_left]
  · simp only [tilesX, tileWidth, storeWidth] at *
    omega
  · rw [Region.HasTile, hx, hy, hwidth, hheight] at htile
    simp only [tileWidth, tileHeight, Nat.mul_div_left _ (show 0 < 32 by decide)] at htile
    exact hclear x y htile.1.1 htile.1.2 htile.2.1 htile.2.2

lemma Hands.allocates (h : Hands a plane tilesW tilesH a' region) (hok : a.Ok) :
    Allocates a plane a' region := by
  obtain ⟨htiled, hclear⟩ := h.clear
  obtain ⟨hslot, hdead⟩ := h.slot
  obtain rfl := h.after
  exact occupy_allocates hok htiled hslot hdead hclear

lemma slots_occupy_self : (a.occupy plane region).slots region.slot = ⟨region, plane, true⟩ := by
  simp [occupy]

lemma slots_occupy_of_ne {i : ℕ} (hi : i ≠ region.slot) :
    (a.occupy plane region).slots i = a.slots i := by
  simp [occupy, Function.update_of_ne hi]

/-- After an allocation the live tiles are those from before and the tiles of the region. -/
lemma hasLiveTile_occupy (hdead : (a.slots region.slot).live = false) (plane' : Plane) (x y : ℕ) :
    (a.occupy plane region).HasLiveTile plane' x y ↔
      (plane' = plane ∧ region.HasTile x y) ∨ a.HasLiveTile plane' x y := by
  constructor
  · rintro ⟨i, hlive, hplane, htile⟩
    by_cases hi : i = region.slot
    · subst hi
      rw [slots_occupy_self] at hplane htile
      exact Or.inl ⟨hplane.symm, htile⟩
    · rw [slots_occupy_of_ne hi] at hlive hplane htile
      exact Or.inr ⟨i, hlive, hplane, htile⟩
  · rintro (⟨rfl, htile⟩ | ⟨i, hlive, hplane, htile⟩)
    · refine ⟨region.slot, ?_⟩
      rw [slots_occupy_self]
      exact ⟨rfl, rfl, htile⟩
    · have hi : i ≠ region.slot := by
        rintro rfl
        rw [hdead] at hlive
        cases hlive
      refine ⟨i, ?_⟩
      rw [slots_occupy_of_ne hi]
      exact ⟨hlive, hplane, htile⟩

lemma Hands.exact (h : Hands a plane tilesW tilesH a' region) (hexact : a.Exact) : a'.Exact := by
  have hallocates := h.allocates hexact.ok
  obtain ⟨htiled, -⟩ := h.clear
  obtain ⟨⟨tileX, tileY, hplace, hx, hy⟩, hwidth, hheight, ⟨hslot, hdead⟩, -, rfl⟩ := h
  obtain ⟨⟨-, -, -, hbottom⟩, -⟩ := canPlace_clear hplace
  refine ⟨hallocates.ok, fun i hlive => ?_, fun plane' x y hlt => ?_⟩
  · by_cases hi : i = region.slot
    · subst hi
      rw [slots_occupy_self]
      simp only [tilesY, tileHeight, storeHeight] at *
      omega
    · rw [slots_occupy_of_ne hi] at hlive ⊢
      exact hexact.bottom i hlive
  · rw [hasLiveTile_occupy hdead]
    have hread : (plane' = plane ∧ region.HasTile x y →
          ((a.occupy plane region).rows plane' y).getLsbD x = decide (x < 64)) ∧
        (¬(plane' = plane ∧ region.HasTile x y) →
          ((a.occupy plane region).rows plane' y).getLsbD x = (a.rows plane' y).getLsbD x) :=
      getLsbD_occupy htiled plane' x y
    obtain ⟨hin, hout⟩ := hread
    by_cases hnew : plane' = plane ∧ region.HasTile x y
    · have hwide : x < 64 := hlt
      rw [hin hnew, decide_eq_true hwide]
      exact iff_of_true rfl (Or.inl hnew)
    · rw [hout hnew, hexact.bits plane' x y hlt]
      simp only [hnew, false_or]

/-- A release clears the tiles of its region and leaves the other live tiles. -/
lemma release_exact (hexact : a.Exact) (plane : Plane) (region : Region) :
    (a.release plane region).Exact := by
  have hok := release_ok hexact.ok plane region
  by_cases hlive : a.IsLive plane region
  · have hrelease : a.release plane region =
        { a with
          rows := Function.update a.rows plane (setOccupied (a.rows plane) region false)
          slots := Function.update a.slots region.slot { a.slots region.slot with live := false } } :=
      if_pos hlive
    obtain ⟨hslot, hset, hplane, hregion⟩ := hlive
    have htiled : region.Tiled := hregion ▸ hexact.ok.tiled _ hset
    have hself : ((a.release plane region).slots region.slot).live = false := by simp [hrelease]
    have hother : ∀ i, i ≠ region.slot → (a.release plane region).slots i = a.slots i := by
      intro i hi
      simp [hrelease, Function.update_of_ne hi]
    refine ⟨hok, fun i hi => ?_, fun plane' x y hlt => ?_⟩
    · have hne : i ≠ region.slot := by
        rintro rfl
        rw [hself] at hi
        cases hi
      rw [hother i hne] at hi ⊢
      exact hexact.bottom i hi
    · -- the live tiles after the release are the live tiles outside of the region
      have htiles : (a.release plane region).HasLiveTile plane' x y ↔
          a.HasLiveTile plane' x y ∧ ¬(plane' = plane ∧ region.HasTile x y) := by
        constructor
        · rintro ⟨i, hi, hplane', htile⟩
          have hne : i ≠ region.slot := by
            rintro rfl
            rw [hself] at hi
            cases hi
          rw [hother i hne] at hi hplane' htile
          refine ⟨⟨i, hi, hplane', htile⟩, ?_⟩
          rintro ⟨rfl, hgone⟩
          refine hexact.ok.disjoint i region.slot hne hi hset (hplane'.trans hplane.symm) x y htile ?_
          rwa [hregion]
        · rintro ⟨⟨i, hi, hplane', htile⟩, hout⟩
          have hne : i ≠ region.slot := by
            rintro rfl
            rw [hregion] at htile
            exact hout ⟨hplane'.symm.trans hplane, htile⟩
          refine ⟨i, ?_⟩
          rw [hother i hne]
          exact ⟨hi, hplane', htile⟩
      rw [htiles, ← hexact.bits plane' x y hlt]
      by_cases hsame : plane' = plane
      · subst hsame
        obtain ⟨hin, hout⟩ := getLsbD_setOccupied htiled (a.rows plane') false x y
        have hrows : (a.release plane' region).rows plane' =
            setOccupied (a.rows plane') region false := by simp [hrelease]
        rw [hrows]
        by_cases htile : region.HasTile x y
        · simp [hin htile, htile]
        · simp [hout htile, htile]
      · have hrows : (a.release plane region).rows plane' = a.rows plane' := by
          simp [hrelease, Function.update_of_ne hsame]
        simp [hrows, hsame]
  · rw [release, if_neg hlive]
    exact hexact

lemma fresh_exact : fresh.Exact where
  ok := fresh_ok
  bottom := nofun
  bits plane x y _ := by
    simp [fresh, HasLiveTile]

lemma reset_exact (a : Allocator) : a.reset.Exact where
  ok := ⟨nofun, nofun, nofun, fun _ _ _ => nofun⟩
  bottom := nofun
  bits plane x y _ := by
    simp [reset, HasLiveTile]

/-- **An allocation fails only for want of a slot or of a free rectangle.** -/
theorem allocate_fails (hexact : a.Exact) {width height : ℕ} {preferred : Option Region}
    (h : a.allocate plane width height preferred = none) :
    (∀ i < maximumRegions, (a.slots i).live = true) ∨
      ¬a.FreeRectangle plane (divideRoundUp width tileWidth) (divideRoundUp height tileHeight) := by
  by_contra hboth
  obtain ⟨hslot, hfree⟩ := not_or.1 hboth
  obtain ⟨hw, hh, tileX, tileY, hx, hy, hclear⟩ := not_not.1 hfree
  have hsize : ValidSize width height := by
    simp only [ValidSize, divideRoundUp, tilesX, tilesY, tileWidth, tileHeight, storeWidth,
      storeHeight] at *
    omega
  have hnone := allocate_eq_none h hsize hx hy
  have hplace : canPlace (a.rows plane) tileX tileY (divideRoundUp width tileWidth)
      (divideRoundUp height tileHeight) = true := by
    rw [canPlace, if_neg (by omega), List.all_eq_true]
    intro y hmem
    obtain ⟨hy₀, hy₁⟩ := List.mem_range'_1.1 hmem
    rw [beq_iff_eq]
    apply BitVec.eq_of_getLsbD_eq
    intro x hlt
    have hwide : tileX + divideRoundUp width tileWidth ≤ 64 := hx
    rw [BitVec.getLsbD_and, getLsbD_mask hwide]
    by_cases hin : tileX ≤ x ∧ x < tileX + divideRoundUp width tileWidth
    · have hbit : (a.rows plane y).getLsbD x = false := Bool.eq_false_iff.2 fun hset =>
        hclear x y hin.1 hin.2 hy₀ hy₁ ((hexact.bits plane x y hlt).1 hset)
      rw [hbit, Bool.false_and]
      exact BitVec.getLsbD_zero.symm
    · simp [hin]
  rw [allocateAt, if_pos hplace] at hnone
  split at hnone
  · next hfull =>
    refine hslot fun i hi => ?_
    simpa using List.find?_eq_none.1 hfull i (List.mem_range.2 hi)
  · cases hnone

end Allocator

end VitaSX2.RenderStore
