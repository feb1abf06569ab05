/-
Planners that differ in generations only answer every call alike.

The generation of a region tells stale handles from live ones.  The planner itself only
releases regions that it has just been given, so no result of a call depends on them.
-/
import Mathlib.Data.Option.Basic
import VitaSX2.Gxm.AllocatePairUndo

namespace VitaSX2.RenderStore

/-- The region without its generation. -/
def Region.place (region : Region) : Region := { region with generation := 0 }

lemma Region.fields_of_place {region region' : Region} (h : region.place = region'.place) :
    region.x = region'.x ∧ region.y = region'.y ∧ region.width = region'.width ∧
      region.height = region'.height ∧ region.slot = region'.slot := by
  simpa [Region.place] using h

namespace Allocator

variable {a b c : Allocator}

/-- Allocators whose live slots differ in generations at most. -/
structure Alike (a b : Allocator) : Prop where
  rows : a.rows = b.rows
  live : ∀ i, (a.slots i).live = (b.slots i).live
  slots : ∀ i, (a.slots i).live = true →
    (a.slots i).plane = (b.slots i).plane ∧ (a.slots i).region.place = (b.slots i).region.place

lemma SameOccupancy.alike (h : SameOccupancy a b) : Alike a b :=
  ⟨h.rows, h.live, fun i hi => by rw [h.slots i hi]; exact ⟨rfl, rfl⟩⟩

namespace Alike

lemma refl (a : Allocator) : Alike a a := (SameOccupancy.refl a).alike

lemma symm (h : Alike a b) : Alike b a :=
  ⟨h.rows.symm, fun i => (h.live i).symm, fun i hi =>
    have hsame := h.slots i ((h.live i).trans hi)
    ⟨hsame.1.symm, hsame.2.symm⟩⟩

lemma trans (h : Alike a b) (h' : Alike b c) : Alike a c :=
  ⟨h.rows.trans h'.rows, fun i => (h.live i).trans (h'.live i), fun i hi =>
    have hsame := h.slots i hi
    have hsame' := h'.slots i ((h.live i).symm.trans hi)
    ⟨hsame.1.trans hsame'.1, hsame.2.trans hsame'.2⟩⟩

end Alike

/-- Regions handed out at the same place, and allocators alike after it. -/
def AlikeResult (x y : Allocator × Region) : Prop := Alike x.1 y.1 ∧ x.2.place = y.2.place

lemma occupy_alike (h : Alike a b) (plane : Plane) {region region' : Region}
    (hplace : region.place = region'.place) :
    Alike (a.occupy plane region) (b.occupy plane region') := by
  obtain ⟨hx, hy, hwidth, hheight, hslot⟩ := Region.fields_of_place hplace
  have hoccupied : ∀ rows, setOccupied rows region true = setOccupied rows region' true := by
    intro rows
    funext y
    simp only [setOccupied, hx, hy, hwidth, hheight]
  refine ⟨?_, fun i => ?_, fun i hi => ?_⟩
  · simp only [occupy, hoccupied, h.rows]
  · by_cases hself : i = region.slot
    · subst hself
      simp [occupy, hslot]
    · have hself' : i ≠ region'.slot := hslot ▸ hself
      simpa [occupy, Function.update_of_ne hself, Function.update_of_ne hself'] using h.live i
  · by_cases hself : i = region.slot
    · subst hself
      simp [occupy, hslot, hplace]
    · have hself' : i ≠ region'.slot := hslot ▸ hself
      simp only [occupy, Function.update_of_ne hself, Function.update_of_ne hself'] at hi ⊢
      exact h.slots i hi

lemma allocateAt_alike (h : Alike a b) (plane : Plane) (tileX tileY tilesW tilesH : ℕ) :
    Option.Rel AlikeResult (a.allocateAt plane tileX tileY tilesW tilesH)
      (b.allocateAt plane tileX tileY tilesW tilesH) := by
  have hfree : (fun i => !(a.slots i).live) = fun i => !(b.slots i).live := by
    funext i
    rw [h.live i]
  rw [allocateAt, allocateAt, h.rows, hfree]
  split
  · cases (List.range maximumRegions).find? fun i => !(b.slots i).live with
    | none => exact Option.Rel.none
    | some slot => exact Option.Rel.some ⟨occupy_alike h plane rfl, rfl⟩
  · exact Option.Rel.none

/-- Searches that meet related results at every place end in related results. -/
lemma findSome?_rel {α β : Type*} {R : β → β → Prop} {f g : α → Option β}
    (h : ∀ x, Option.Rel R (f x) (g x)) (l : List α) :
    Option.Rel R (l.findSome? f) (l.findSome? g) := by
  induction l with
  | nil => exact Option.Rel.none
  | cons x l ih =>
    rw [List.findSome?_cons, List.findSome?_cons]
    have hx := h x
    generalize f x = result, g x = result' at hx
    cases hx with
    | some hrel => exact Option.Rel.some hrel
    | none => exact ih

/-- Preferred regions at the same place, or none. -/
def AlikePreferred : Option Region → Option Region → Prop :=
  Option.Rel fun region region' => region.place = region'.place

lemma allocate_alike (h : Alike a b) (plane : Plane) (width height : ℕ)
    {preferred preferred' : Option Region} (hpreferred : AlikePreferred preferred preferred') :
    Option.Rel AlikeResult (a.allocate plane width height preferred)
      (b.allocate plane width height preferred') := by
  rw [allocate, allocate]
  split
  · exact Option.Rel.none
  · have hat : ∀ x y tilesW tilesH, Option.Rel AlikeResult (a.allocateAt plane x y tilesW tilesH)
        (b.allocateAt plane x y tilesW tilesH) := fun x y tilesW tilesH =>
      allocateAt_alike h plane x y tilesW tilesH
    have hfirst := findSome?_rel (fun y => findSome?_rel
      (fun x => hat x y (divideRoundUp width tileWidth) (divideRoundUp height tileHeight))
      (List.range (tilesX + 1 - divideRoundUp width tileWidth)))
      (List.range (tilesY + 1 - divideRoundUp height tileHeight))
    cases hpreferred with
    | none => exact hfirst
    | @some region region' hplace =>
      obtain ⟨hx, hy, hwidth, hheight, hslot⟩ := Region.fields_of_place hplace
      simp only [Option.bind_some, hslot, hx, hy, hwidth, hheight]
      split
      · have hhere := hat (region'.x / tileWidth) (region'.y / tileHeight)
          (divideRoundUp width tileWidth) (divideRoundUp height tileHeight)
        generalize a.allocateAt plane _ _ _ _ = result, b.allocateAt plane _ _ _ _ = result' at hhere
        cases hhere with
        | some hrel => exact Option.Rel.some hrel
        | none => exact hfirst
      · exact hfirst

lemma rel_some_left {α β : Type*} {R : α → β → Prop} {x : α} {result : Option β}
    (h : Option.Rel R (some x) result) : ∃ y, result = some y ∧ R x y := by
  cases h with
  | some hrel => exact ⟨_, rfl, hrel⟩

/-- An attachment that is wanted is allocated alike. -/
lemma allocate_if_alike (h : Alike a b) (wanted : Bool) (plane : Plane) (width height : ℕ)
    {preferred preferred' : Option Region} (hpreferred : AlikePreferred preferred preferred') :
    Option.Rel AlikeResult (if wanted then a.allocate plane width height preferred else some (a, {}))
      (if wanted then b.allocate plane width height preferred' else some (b, {})) := by
  cases wanted with
  | true => exact allocate_alike h plane width height hpreferred
  | false => exact Option.Rel.some ⟨h, rfl⟩

/-- A pair that is allocated in one of two alike allocators is allocated in the other. -/
lemma allocatePair_some_alike (h : Alike a b) {key : PairKey} {width height : ℕ} {a' : Allocator}
    {regions : Region × Region} (hpair : a.allocatePair key width height = (a', some regions)) :
    ∃ b' regions', b.allocatePair key width height = (b', some regions') ∧ Alike a' b' ∧
      regions.1.place = regions'.1.place ∧ regions.2.place = regions'.2.place := by
  have hfirst := allocate_if_alike h key.color.isSome .color width height Option.Rel.none
  rw [allocatePair] at hpair
  split at hpair
  · cases hpair
  · next a₁ color hcolor =>
    rw [hcolor] at hfirst
    obtain ⟨⟨b₁, color'⟩, hcolor', halike, hfirstPlace⟩ := rel_some_left hfirst
    have hplace : color.place = color'.place := hfirstPlace
    have hpreferred : AlikePreferred (if key.color.isSome = true then some color else none)
        (if key.color.isSome = true then some color' else none) := by
      split
      · exact Option.Rel.some hplace
      · exact Option.Rel.none
    have hsecond := allocate_if_alike halike key.depth.isSome .depth width height hpreferred
    dsimp only at hpair
    rw [allocatePair, hcolor']
    dsimp only
    generalize (if key.color.isSome = true then some color else none) = preferred at hpair hsecond
    generalize (if key.color.isSome = true then some color' else none) = preferred' at hsecond ⊢
    split at hpair
    · cases hpair
    · next a₂ depth hdepth =>
      rw [hdepth] at hsecond
      obtain ⟨⟨b₂, depth'⟩, hdepth', halike', hsecondPlace⟩ := rel_some_left hsecond
      have hplace' : depth.place = depth'.place := hsecondPlace
      rw [hdepth']
      dsimp only
      obtain ⟨hx, hy, hwidth, hheight, -⟩ := Region.fields_of_place hplace
      obtain ⟨hx', hy', hwidth', hheight', -⟩ := Region.fields_of_place hplace'
      split at hpair
      · cases hpair
      · next htogether =>
        simp only [hx, hy, hwidth, hheight, hx', hy', hwidth', hheight'] at htogether
        obtain ⟨rfl, hregions⟩ := Prod.mk.inj hpair
        obtain rfl := Option.some.inj hregions
        exact ⟨b₂, (color', depth'), if_neg htogether, halike', hplace, hplace'⟩

/-- Pairs at the same places. -/
def AlikePair (regions regions' : Region × Region) : Prop :=
  regions.1.place = regions'.1.place ∧ regions.2.place = regions'.2.place

lemma allocatePair_alike (h : Alike a b) (key : PairKey) (width height : ℕ) :
    Alike (a.allocatePair key width height).1 (b.allocatePair key width height).1 ∧
      Option.Rel AlikePair (a.allocatePair key width height).2
        (b.allocatePair key width height).2 := by
  cases ha : a.allocatePair key width height with
  | mk a' found =>
    cases hb : b.allocatePair key width height with
    | mk b' found' =>
      cases found with
      | some regions =>
        obtain ⟨b₂, regions', hb₂, halike, hplaces⟩ := allocatePair_some_alike h ha
        obtain ⟨rfl, rfl⟩ := Prod.mk.inj (hb.symm.trans hb₂)
        exact ⟨halike, Option.Rel.some hplaces⟩
      | none =>
        cases found' with
        | some regions' =>
          obtain ⟨a₂, regions, ha₂, -⟩ := allocatePair_some_alike h.symm hb
          cases ha.symm.trans ha₂
        | none =>
          refine ⟨?_, Option.Rel.none⟩
          exact (allocatePair_failed ha).alike.trans (h.trans (allocatePair_failed hb).symm.alike)

end Allocator

end VitaSX2.RenderStore
