/-
The allocator of the render store (`VitaGxmRenderStore.cpp`).

Regions are rectangles of whole tiles in the color plane or the depth plane.
Every row of tiles has one word of occupancy bits.  A bit may only be set for
one live region, so live regions of one plane are disjoint.
-/
import Mathlib.Algebra.Group.Nat.Defs
import Mathlib.Data.Nat.Notation
import Mathlib.Logic.Function.Basic
import Mathlib.Tactic.Set

namespace VitaSX2.RenderStore

/-! ### The allocator -/

def tileWidth : ℕ := 32
def tileHeight : ℕ := 32
def storeWidth : ℕ := 2048
def storeHeight : ℕ := 1024
def tilesX : ℕ := storeWidth / tileWidth
def tilesY : ℕ := storeHeight / tileHeight
def maximumRegions : ℕ := 128

inductive Plane
  | color
  | depth
deriving DecidableEq

def invalidSlot : ℕ := 0xffff

structure Region where
  x : ℕ := 0
  y : ℕ := 0
  width : ℕ := 0
  height : ℕ := 0
  slot : ℕ := invalidSlot
  generation : ℕ := 0
deriving DecidableEq

structure Slot where
  region : Region := {}
  plane : Plane := .color
  live : Bool := false

abbrev TileRows := ℕ → BitVec 64

structure Allocator where
  rows : Plane → TileRows
  slots : ℕ → Slot
  nextGeneration : ℕ

def divideRoundUp (value divisor : ℕ) : ℕ := (value + divisor - 1) / divisor

/-- The bits of the tiles from `tileX` on. -/
def mask (tileX tilesW : ℕ) : BitVec 64 :=
  if tilesW = 64 then BitVec.allOnes 64 else ((1#64 <<< tilesW) - 1#64) <<< tileX

def canPlace (rows : TileRows) (tileX tileY tilesW tilesH : ℕ) : Bool :=
  if tilesW = 0 ∨ tilesH = 0 ∨ tilesX < tileX + tilesW ∨ tilesY < tileY + tilesH then false
  else (List.range' tileY tilesH).all fun y => rows y &&& mask tileX tilesW == 0

def setOccupied (rows : TileRows) (region : Region) (occupied : Bool) : TileRows := fun y =>
  let bits := mask (region.x / tileWidth) (region.width / tileWidth)
  if region.y / tileHeight ≤ y ∧ y < region.y / tileHeight + region.height / tileHeight then
    if occupied then rows y ||| bits else rows y &&& ~~~bits
  else rows y

namespace Allocator

/-- The next generation, zero left out, and the one after it. -/
def generation (a : Allocator) : ℕ × ℕ :=
  if a.nextGeneration = 0 then (1, 2) else (a.nextGeneration, (a.nextGeneration + 1) % 2 ^ 16)

/-- The region becomes live in its slot. -/
def occupy (a : Allocator) (plane : Plane) (region : Region) : Allocator where
  rows := Function.update a.rows plane (setOccupied (a.rows plane) region true)
  slots := Function.update a.slots region.slot ⟨region, plane, true⟩
  nextGeneration := a.generation.2

def allocateAt (a : Allocator) (plane : Plane) (tileX tileY tilesW tilesH : ℕ) :
    Option (Allocator × Region) :=
  if canPlace (a.rows plane) tileX tileY tilesW tilesH then
    match (List.range maximumRegions).find? fun i => !(a.slots i).live with
    | none => none
    | some slot =>
      let allocated : Region :=
        { x := tileX * tileWidth
          y := tileY * tileHeight
          width := tilesW * tileWidth
          height := tilesH * tileHeight
          slot
          generation := a.generation.1 }
      some (a.occupy plane allocated, allocated)
  else none

/-- Tried where the other attachment is, then bottom-left first. -/
def allocate (a : Allocator) (plane : Plane) (width height : ℕ) (preferred : Option Region) :
    Option (Allocator × Region) :=
  if width = 0 ∨ height = 0 ∨ storeWidth < width ∨ storeHeight < height then none
  else
    let tilesW := divideRoundUp width tileWidth
    let tilesH := divideRoundUp height tileHeight
    let atPreferred := preferred.bind fun region =>
      if region.slot ≠ invalidSlot ∧ tilesW * tileWidth ≤ region.width ∧
          tilesH * tileHeight ≤ region.height then
        a.allocateAt plane (region.x / tileWidth) (region.y / tileHeight) tilesW tilesH
      else none
    let firstFit := (List.range (tilesY + 1 - tilesH)).findSome? fun y =>
      (List.range (tilesX + 1 - tilesW)).findSome? fun x => a.allocateAt plane x y tilesW tilesH
    atPreferred.or firstFit

def IsLive (a : Allocator) (plane : Plane) (region : Region) : Prop :=
  region.slot < maximumRegions ∧ (a.slots region.slot).live = true ∧
    (a.slots region.slot).plane = plane ∧ (a.slots region.slot).region = region

instance (a : Allocator) (plane : Plane) (region : Region) : Decidable (a.IsLive plane region) :=
  inferInstanceAs (Decidable (_ ∧ _ ∧ _ ∧ _))

def release (a : Allocator) (plane : Plane) (region : Region) : Allocator :=
  if a.IsLive plane region then
    { a with
      rows := Function.update a.rows plane (setOccupied (a.rows plane) region false)
      slots := Function.update a.slots region.slot { a.slots region.slot with live := false } }
  else a

/-- `RenderStoreAllocator::Reset`. -/
def fresh : Allocator where
  rows _ _ := 0
  slots _ := {}
  nextGeneration := 1

end Allocator

/-! ### Tiles and bits -/

lemma getLsbD_ones {n : ℕ} (h : n < 64) (i : ℕ) :
    ((1#64 <<< n) - 1#64).getLsbD i = decide (i < n) := by
  have hone : 1#64 ≤ 1#64 <<< n := by
    rw [BitVec.le_def, BitVec.toNat_shiftLeft]
    have hlt : 1 * 2 ^ n < 2 ^ 64 := by
      rw [Nat.one_mul]
      exact Nat.pow_lt_pow_right (by decide) h
    have hpos : 0 < 2 ^ n := Nat.two_pow_pos n
    rw [show BitVec.toNat 1#64 = 1 from rfl, Nat.shiftLeft_eq, Nat.mod_eq_of_lt hlt]
    omega
  have htoNat : ((1#64 <<< n) - 1#64).toNat = 2 ^ n - 1 := by
    rw [BitVec.toNat_sub_of_le hone, BitVec.toNat_shiftLeft]
    rw [show BitVec.toNat 1#64 = 1 from rfl, Nat.shiftLeft_eq, Nat.one_mul]
    rw [Nat.mod_eq_of_lt (Nat.pow_lt_pow_right (by decide) h)]
  rw [← BitVec.testBit_toNat, htoNat, Nat.testBit_two_pow_sub_one]

lemma getLsbD_mask {tileX tilesW : ℕ} (h : tileX + tilesW ≤ 64) (i : ℕ) :
    (mask tileX tilesW).getLsbD i = decide (tileX ≤ i ∧ i < tileX + tilesW) := by
  unfold mask
  split
  next hall =>
    rw [BitVec.getLsbD_allOnes]
    grind
  next hpart =>
    rw [BitVec.getLsbD_shiftLeft, getLsbD_ones (by omega)]
    grind

/-- The tile is inside the region. -/
def Region.HasTile (region : Region) (x y : ℕ) : Prop :=
  (region.x / tileWidth ≤ x ∧ x < region.x / tileWidth + region.width / tileWidth) ∧
    region.y / tileHeight ≤ y ∧ y < region.y / tileHeight + region.height / tileHeight

/-- The pixel is inside the region. -/
def Region.HasPixel (region : Region) (x y : ℕ) : Prop :=
  (region.x ≤ x ∧ x < region.x + region.width) ∧ region.y ≤ y ∧ y < region.y + region.height

/-- The region is made of whole tiles of the store. -/
structure Region.Tiled (region : Region) : Prop where
  x : region.x % tileWidth = 0
  y : region.y % tileHeight = 0
  width : region.width % tileWidth = 0
  height : region.height % tileHeight = 0
  right : region.x + region.width ≤ storeWidth

lemma Region.Tiled.hasTile {region : Region} (h : region.Tiled) {x y : ℕ}
    (hpixel : region.HasPixel x y) : region.HasTile (x / tileWidth) (y / tileHeight) := by
  obtain ⟨hx, hy, hwidth, hheight, -⟩ := h
  simp only [HasPixel, HasTile, tileWidth, tileHeight] at *
  omega

/-- A row of a region that is occupied or given back changes at its tiles. -/
lemma getLsbD_setOccupied {region : Region} (h : region.Tiled) (rows : TileRows) (occupied : Bool)
    (x y : ℕ) :
    (region.HasTile x y → (setOccupied rows region occupied y).getLsbD x =
      (occupied && decide (x < 64))) ∧
    (¬region.HasTile x y →
      (setOccupied rows region occupied y).getLsbD x = (rows y).getLsbD x) := by
  have hbits : region.x / tileWidth + region.width / tileWidth ≤ 64 := by
    have hright := h.right
    simp only [tileWidth, storeWidth] at *
    omega
  have hmask := getLsbD_mask hbits x
  unfold setOccupied Region.HasTile
  refine ⟨fun htile => ?_, fun htile => ?_⟩
  · rw [if_pos htile.2]
    cases occupied <;> simp [hmask, htile.1] <;> omega
  · split
    next hrow =>
      cases occupied <;> simp [hmask] <;> grind
    next => rfl

/-- A place is free if its bits are clear. -/
lemma canPlace_clear {rows : TileRows} {tileX tileY tilesW tilesH : ℕ}
    (h : canPlace rows tileX tileY tilesW tilesH = true) :
    (0 < tilesW ∧ 0 < tilesH ∧ tileX + tilesW ≤ tilesX ∧ tileY + tilesH ≤ tilesY) ∧
    ∀ x y, tileX ≤ x → x < tileX + tilesW → tileY ≤ y → y < tileY + tilesH →
      (rows y).getLsbD x = false := by
  unfold canPlace at h
  split at h
  next => cases h
  next hbounds =>
    refine ⟨by omega, fun x y hx hx' hy hy' => ?_⟩
    have hrow := List.all_eq_true.mp h y (List.mem_range'_1.mpr ⟨hy, hy'⟩)
    have hbit := congrArg (fun bits => BitVec.getLsbD bits x) (beq_iff_eq.mp hrow)
    have hwide : tileX + tilesW ≤ 64 := by
      simp only [tilesX, storeWidth, tileWidth] at hbounds
      omega
    simpa [getLsbD_mask hwide, hx, hx'] using hbit

/-! ### Live regions -/

namespace Allocator

variable {a a' : Allocator} {plane : Plane} {region : Region}

structure Ok (a : Allocator) : Prop where
  slot : ∀ i, (a.slots i).live = true → i < maximumRegions ∧ (a.slots i).region.slot = i
  tiled : ∀ i, (a.slots i).live = true → (a.slots i).region.Tiled
  occupied : ∀ i, (a.slots i).live = true → ∀ x y, (a.slots i).region.HasTile x y →
    (a.rows (a.slots i).plane y).getLsbD x = true
  disjoint : ∀ i j, i ≠ j → (a.slots i).live = true → (a.slots j).live = true →
    (a.slots i).plane = (a.slots j).plane → ∀ x y, (a.slots i).region.HasTile x y →
      ¬(a.slots j).region.HasTile x y

lemma fresh_ok : fresh.Ok where
  slot i h := by simp [fresh] at h
  tiled i h := by simp [fresh] at h
  occupied i h := by simp [fresh] at h
  disjoint i j _ h := by simp [fresh] at h

/-- What an allocation promises. -/
structure Allocates (a : Allocator) (plane : Plane) (a' : Allocator) (region : Region) : Prop where
  ok : a'.Ok
  live : a'.IsLive plane region
  spent : (a.slots region.slot).live = false
  kept : ∀ i, i ≠ region.slot → a'.slots i = a.slots i

lemma Allocates.isLive (h : Allocates a plane a' region) {plane' : Plane} {region' : Region}
    (hlive : a.IsLive plane' region') : a'.IsLive plane' region' ∧ region'.slot ≠ region.slot := by
  have hne : region'.slot ≠ region.slot := by
    rintro heq
    have hspent := h.spent
    rw [← heq, hlive.2.1] at hspent
    cases hspent
  refine ⟨?_, hne⟩
  unfold IsLive
  rw [h.kept _ hne]
  exact hlive

lemma getLsbD_occupy (htiled : region.Tiled) (plane' : Plane) (x y : ℕ) :
    (plane' = plane ∧ region.HasTile x y →
      ((a.occupy plane region).rows plane' y).getLsbD x = decide (x < 64)) ∧
    (¬(plane' = plane ∧ region.HasTile x y) →
      ((a.occupy plane region).rows plane' y).getLsbD x = (a.rows plane' y).getLsbD x) := by
  obtain ⟨hin, hout⟩ := getLsbD_setOccupied htiled (a.rows plane) true x y
  refine ⟨?_, fun hother => ?_⟩
  · rintro ⟨rfl, htile⟩
    simpa [occupy] using hin htile
  · by_cases hplane : plane' = plane
    · subst hplane
      simpa [occupy] using hout fun htile => hother ⟨rfl, htile⟩
    · simp [occupy, Function.update_of_ne hplane]

/-- A region may be occupied where all bits are clear. -/
lemma occupy_allocates (hok : a.Ok) (htiled : region.Tiled) (hslot : region.slot < maximumRegions)
    (hdead : (a.slots region.slot).live = false)
    (hclear : ∀ x y, region.HasTile x y → (a.rows plane y).getLsbD x = false) :
    Allocates a plane (a.occupy plane region) region := by
  have hself : (a.occupy plane region).slots region.slot = ⟨region, plane, true⟩ := by
    simp [occupy]
  have hkept : ∀ i, i ≠ region.slot → (a.occupy plane region).slots i = a.slots i := fun i hi => by
    simp [occupy, Function.update_of_ne hi]
  -- no live region of the plane has a tile of the new one
  have hfree : ∀ i, (a.slots i).live = true → (a.slots i).plane = plane → ∀ x y,
      (a.slots i).region.HasTile x y → ¬region.HasTile x y := by
    rintro i hlive hplane x y htile hnew
    have hset := hok.occupied i hlive x y htile
    rw [hplane, hclear x y hnew] at hset
    cases hset
  refine ⟨⟨fun i hlive => ?_, fun i hlive => ?_, fun i hlive x y htile => ?_,
    fun i j hij hi hj hplane x y hx hy => ?_⟩, ⟨hslot, ?_⟩, hdead, hkept⟩
  · by_cases hi : i = region.slot
    · subst hi
      rw [hself]
      exact ⟨hslot, rfl⟩
    · rw [hkept i hi] at hlive ⊢
      exact hok.slot i hlive
  · by_cases hi : i = region.slot
    · subst hi
      rwa [hself]
    · rw [hkept i hi] at hlive ⊢
      exact hok.tiled i hlive
  · by_cases hnew : ((a.occupy plane region).slots i).plane = plane ∧ region.HasTile x y
    · rw [((getLsbD_occupy htiled _ x y).1 hnew)]
      obtain ⟨⟨-, hx⟩, -⟩ := hnew.2
      have hright := htiled.right
      simp only [tileWidth, storeWidth] at hx hright
      simp only [decide_eq_true_eq]
      omega
    · rw [((getLsbD_occupy htiled _ x y).2 hnew)]
      by_cases hi : i = region.slot
      · subst hi
        rw [hself] at htile hnew
        exact absurd ⟨rfl, htile⟩ hnew
      · rw [hkept i hi] at hlive htile ⊢
        exact hok.occupied i hlive x y htile
  · by_cases hi' : i = region.slot <;> by_cases hj' : j = region.slot
    · exact hij (hi'.trans hj'.symm)
    · subst hi'
      rw [hself] at hx hplane
      rw [hkept j hj'] at hj hy hplane
      exact hfree j hj hplane.symm x y hy hx
    · subst hj'
      rw [hself] at hy hplane
      rw [hkept i hi'] at hi hx hplane
      exact hfree i hi hplane x y hx hy
    · rw [hkept i hi'] at hi hx hplane
      rw [hkept j hj'] at hj hy hplane
      exact hok.disjoint i j hij hi hj hplane x y hx hy
  · rw [hself]
    exact ⟨rfl, rfl, rfl⟩

/-- A region is allocated where all bits are clear. -/
lemma allocateAt_allocates (hok : a.Ok) {tileX tileY tilesW tilesH : ℕ}
    (h : a.allocateAt plane tileX tileY tilesW tilesH = some (a', region)) :
    Allocates a plane a' region := by
  unfold allocateAt at h
  split at h
  next hplace =>
    split at h
    next => cases h
    next slot hslot =>
      obtain ⟨rfl, rfl⟩ := Prod.mk.inj (Option.some.inj h)
      obtain ⟨⟨hwidth, hheight, hright, hbottom⟩, hclear⟩ := canPlace_clear hplace
      have hdead : (a.slots slot).live = false := by simpa using List.find?_some hslot
      have hrange : slot < maximumRegions := List.mem_range.mp (List.mem_of_find?_eq_some hslot)
      refine occupy_allocates hok ⟨?_, ?_, ?_, ?_, ?_⟩ hrange hdead fun x y htile => ?_
      · exact Nat.mul_mod_left _ _
      · exact Nat.mul_mod_left _ _
      · exact Nat.mul_mod_left _ _
      · exact Nat.mul_mod_left _ _
      · simp only [tilesX, tileWidth, storeWidth] at *
        omega
      · simp only [Region.HasTile, tileWidth, tileHeight,
          Nat.mul_div_left _ (show 0 < 32 by decide)] at htile
        exact hclear x y htile.1.1 htile.1.2 htile.2.1 htile.2.2
  next => cases h

/-- An allocation goes where `allocateAt` goes. -/
lemma allocate_allocates (hok : a.Ok) {width height : ℕ} {preferred : Option Region}
    (h : a.allocate plane width height preferred = some (a', region)) :
    Allocates a plane a' region := by
  unfold allocate at h
  split at h
  next => cases h
  next =>
    rcases Option.or_eq_some_iff.mp h with hpreferred | ⟨-, hfirst⟩
    · obtain ⟨origin, -, horigin⟩ := Option.bind_eq_some_iff.mp hpreferred
      split at horigin
      next => exact allocateAt_allocates hok horigin
      next => cases horigin
    · obtain ⟨y, -, hy⟩ := List.exists_of_findSome?_eq_some hfirst
      obtain ⟨x, -, hx⟩ := List.exists_of_findSome?_eq_some hy
      exact allocateAt_allocates hok hx

/-- A released region gives its bits back, which no other live region has. -/
lemma release_ok (hok : a.Ok) (plane : Plane) (region : Region) : (a.release plane region).Ok := by
  unfold release
  split
  next hlive =>
    obtain ⟨hslot, hset, rfl, hregion⟩ := hlive
    have htiled : region.Tiled := hregion ▸ hok.tiled _ hset
    set a' : Allocator :=
      { a with
        rows := Function.update a.rows (a.slots region.slot).plane
          (setOccupied (a.rows (a.slots region.slot).plane) region false)
        slots := Function.update a.slots region.slot { a.slots region.slot with live := false } }
    have hlive : ∀ i, (a'.slots i).live = true → i ≠ region.slot ∧ a'.slots i = a.slots i :=
      fun i hi => by
        by_cases heq : i = region.slot
        · subst heq
          simp [a'] at hi
        · exact ⟨heq, by simp [a', Function.update_of_ne heq]⟩
    refine ⟨fun i hi => ?_, fun i hi => ?_, fun i hi x y htile => ?_,
      fun i j hij hi hj hplane x y hx hy => ?_⟩
    · obtain ⟨-, hsame⟩ := hlive i hi
      rw [hsame] at hi ⊢
      exact hok.slot i hi
    · obtain ⟨-, hsame⟩ := hlive i hi
      rw [hsame] at hi ⊢
      exact hok.tiled i hi
    · obtain ⟨hne, hsame⟩ := hlive i hi
      rw [hsame] at hi htile ⊢
      have hbit := hok.occupied i hi x y htile
      by_cases hplane : (a.slots i).plane = (a.slots region.slot).plane
      · have hout : ¬region.HasTile x y :=
          hregion ▸ hok.disjoint i region.slot hne hi hset hplane x y htile
        rw [hplane] at hbit ⊢
        simp only [a', Function.update_self]
        rw [(getLsbD_setOccupied htiled _ false x y).2 hout]
        exact hbit
      · simpa [a', Function.update_of_ne hplane] using hbit
    · obtain ⟨-, hsame⟩ := hlive i hi
      obtain ⟨-, hsame'⟩ := hlive j hj
      rw [hsame] at hi hplane hx
      rw [hsame'] at hj hplane hy
      exact hok.disjoint i j hij hi hj hplane x y hx hy
  next => exact hok

lemma release_isLive {plane' : Plane} {region' : Region} (hlive : a.IsLive plane' region')
    (hne : region'.slot ≠ region.slot) : (a.release plane region).IsLive plane' region' := by
  unfold release
  split
  next => simpa [IsLive, Function.update_of_ne hne] using hlive
  next => exact hlive

/-- Live regions of one plane have no pixel in common. -/
theorem Ok.pixels_disjoint (hok : a.Ok) {region' : Region} (hlive : a.IsLive plane region)
    (hlive' : a.IsLive plane region') (hne : region.slot ≠ region'.slot) (x y : ℕ) :
    ¬(region.HasPixel x y ∧ region'.HasPixel x y) := by
  rintro ⟨hpixel, hpixel'⟩
  obtain ⟨-, hset, hplane, hregion⟩ := hlive
  obtain ⟨-, hset', hplane', hregion'⟩ := hlive'
  have htile := (hregion ▸ hok.tiled _ hset).hasTile hpixel
  have htile' := (hregion' ▸ hok.tiled _ hset').hasTile hpixel'
  rw [← hregion] at htile
  rw [← hregion'] at htile'
  exact hok.disjoint _ _ hne hset hset' (hplane.trans hplane'.symm) _ _ htile htile'

end Allocator

end VitaSX2.RenderStore
