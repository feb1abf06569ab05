/-
A pair of regions that cannot be allocated leaves the occupancy as it was.

The regions that were already handed out are released again, in the order in which they were
allocated.  Only the generation counter tells that they were there.
-/
import VitaSX2.Gxm.AllocatorExact
import VitaSX2.Gxm.Residency

namespace VitaSX2.RenderStore

namespace Allocator

variable {a b c : Allocator} {plane : Plane} {region : Region}

/-- The rows and the live slots are the same. -/
structure SameOccupancy (a b : Allocator) : Prop where
  rows : a.rows = b.rows
  live : ∀ i, (a.slots i).live = (b.slots i).live
  slots : ∀ i, (a.slots i).live = true → a.slots i = b.slots i

namespace SameOccupancy

lemma refl (a : Allocator) : SameOccupancy a a := ⟨rfl, fun _ => rfl, fun _ _ => rfl⟩

lemma symm (h : SameOccupancy a b) : SameOccupancy b a :=
  ⟨h.rows.symm, fun i => (h.live i).symm, fun i hi => (h.slots i ((h.live i).trans hi)).symm⟩

lemma trans (h : SameOccupancy a b) (h' : SameOccupancy b c) : SameOccupancy a c :=
  ⟨h.rows.trans h'.rows, fun i => (h.live i).trans (h'.live i),
    fun i hi => (h.slots i hi).trans (h'.slots i ((h.live i).symm.trans hi))⟩

end SameOccupancy

/-! ### Giving a region back -/

/-- Clearing the bits of a region that were set on free tiles. -/
lemma setOccupied_undo {rows : TileRows} (htiled : region.Tiled)
    (hclear : ∀ x y, region.HasTile x y → (rows y).getLsbD x = false) :
    setOccupied (setOccupied rows region true) region false = rows := by
  funext y
  apply BitVec.eq_of_getLsbD_eq
  intro x hx
  obtain ⟨hin, hout⟩ := getLsbD_setOccupied htiled (setOccupied rows region true) false x y
  by_cases htile : region.HasTile x y
  · rw [hin htile, hclear x y htile]
    rfl
  · rw [hout htile, (getLsbD_setOccupied htiled rows true x y).2 htile]

lemma isLive_occupy (hslot : region.slot < maximumRegions) :
    (a.occupy plane region).IsLive plane region := by
  refine ⟨hslot, ?_⟩
  rw [slots_occupy_self]
  exact ⟨rfl, rfl, rfl⟩

/-- Releasing a region that was put on free tiles. -/
lemma release_occupy (htiled : region.Tiled)
    (hclear : ∀ x y, region.HasTile x y → (a.rows plane y).getLsbD x = false)
    (hslot : region.slot < maximumRegions) (hdead : (a.slots region.slot).live = false) :
    SameOccupancy ((a.occupy plane region).release plane region) a := by
  rw [release, if_pos (isLive_occupy hslot)]
  refine ⟨?_, fun i => ?_, fun i hi => ?_⟩
  · funext plane'
    by_cases hplane : plane' = plane
    · subst hplane
      simp only [occupy, Function.update_self]
      exact setOccupied_undo htiled hclear
    · simp [occupy, Function.update_of_ne hplane]
  · by_cases hself : i = region.slot
    · subst hself
      simp [hdead]
    · simp [occupy, Function.update_of_ne hself]
  · by_cases hself : i = region.slot
    · subst hself
      simp at hi
    · simp [occupy, Function.update_of_ne hself]

/-- Releasing the first of two regions leaves the second as if it had been alone. -/
lemma release_first {first second : Region} (htiled : first.Tiled)
    (hclear : ∀ x y, first.HasTile x y → (a.rows .color y).getLsbD x = false)
    (hslot : first.slot < maximumRegions) (hdead : (a.slots first.slot).live = false)
    (hne : first.slot ≠ second.slot) :
    SameOccupancy (((a.occupy .color first).occupy .depth second).release .color first)
      (a.occupy .depth second) := by
  have hlive : ((a.occupy .color first).occupy .depth second).IsLive .color first := by
    refine ⟨hslot, ?_⟩
    rw [slots_occupy_of_ne hne, slots_occupy_self]
    exact ⟨rfl, rfl, rfl⟩
  rw [release, if_pos hlive]
  refine ⟨?_, fun i => ?_, fun i hi => ?_⟩
  · funext plane
    cases plane with
    | color =>
      show setOccupied (setOccupied (a.rows .color) first true) first false = a.rows .color
      exact setOccupied_undo htiled hclear
    | depth => rfl
  · by_cases hself : i = first.slot
    · subst hself
      simp [slots_occupy_of_ne hne, hdead]
    · by_cases hsecond : i = second.slot
      · subst hsecond
        simp [Function.update_of_ne hself, slots_occupy_self]
      · simp [Function.update_of_ne hself, slots_occupy_of_ne hsecond, slots_occupy_of_ne hself]
  · by_cases hself : i = first.slot
    · subst hself
      simp at hi
    · by_cases hsecond : i = second.slot
      · subst hsecond
        simp [Function.update_of_ne hself, slots_occupy_self]
      · simp [Function.update_of_ne hself, slots_occupy_of_ne hsecond, slots_occupy_of_ne hself]

/-- Releases of one region in two allocators of the same occupancy. -/
lemma SameOccupancy.release (h : SameOccupancy a b) (plane : Plane) (region : Region) :
    SameOccupancy (a.release plane region) (b.release plane region) := by
  have hlive : a.IsLive plane region ↔ b.IsLive plane region := by
    rw [IsLive, IsLive, ← h.live region.slot]
    refine and_congr_right fun _ => and_congr_right fun hset => ?_
    rw [h.slots _ hset]
  by_cases hset : a.IsLive plane region
  · rw [Allocator.release, if_pos hset, Allocator.release, if_pos (hlive.1 hset)]
    refine ⟨?_, fun i => ?_, fun i hi => ?_⟩
    · rw [h.rows]
    · by_cases hself : i = region.slot
      · subst hself
        simp
      · simpa [Function.update_of_ne hself] using h.live i
    · by_cases hself : i = region.slot
      · subst hself
        simp at hi
      · simp only [Function.update_of_ne hself] at hi ⊢
        exact h.slots i hi
  · rw [Allocator.release, if_neg hset, Allocator.release, if_neg fun hset' => hset (hlive.2 hset')]
    exact h

/-! ### Pairs -/

/-- **A pair that cannot be allocated leaves the occupancy as it was.** -/
theorem allocatePair_failed {key : PairKey} {width height : ℕ}
    (h : a.allocatePair key width height = (b, none)) : SameOccupancy b a := by
  rw [allocatePair] at h
  split at h
  · obtain rfl := (Prod.mk.inj h).1
    exact SameOccupancy.refl a
  · next a₁ color hcolor =>
    dsimp only at h
    generalize (if key.color.isSome = true then some color else none) = preferred at h
    split at h
    · obtain rfl := (Prod.mk.inj h).1
      split
      · next hsome =>
        rw [if_pos hsome] at hcolor
        have hhands := allocate_hands hcolor
        obtain ⟨htiled, hclear⟩ := hhands.clear
        obtain rfl := hhands.after
        exact release_occupy htiled hclear hhands.slot.1 hhands.slot.2
      · next hnone =>
        rw [if_neg hnone] at hcolor
        obtain rfl := (Prod.mk.inj (Option.some.inj hcolor)).1
        exact SameOccupancy.refl a
    · next a₂ depth hdepth =>
      split at h
      · next happart =>
        obtain ⟨hsomeColor, hsomeDepth, -⟩ := happart
        obtain rfl := (Prod.mk.inj h).1
        rw [if_pos hsomeColor] at hcolor
        rw [if_pos hsomeDepth] at hdepth
        have hfirst := allocate_hands hcolor
        have hsecond := allocate_hands hdepth
        obtain ⟨htiled, hclear⟩ := hfirst.clear
        obtain ⟨htiled', hclear'⟩ := hsecond.clear
        obtain ⟨hslot, hdead⟩ := hfirst.slot
        obtain ⟨hslot', hdead'⟩ := hsecond.slot
        obtain rfl := hfirst.after
        obtain rfl := hsecond.after
        have hne : color.slot ≠ depth.slot := by
          intro heq
          rw [← heq, slots_occupy_self] at hdead'
          cases hdead'
        rw [slots_occupy_of_ne (Ne.symm hne)] at hdead'
        -- the color region goes first; the depth region is then alone in its plane
        exact ((release_first htiled hclear hslot hdead hne).release .depth depth).trans
          (release_occupy htiled' hclear' hslot' hdead')
      · cases h

end Allocator

end VitaSX2.RenderStore
