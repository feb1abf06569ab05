/-
Where the levels of a texture lie.

The rows of a level are no longer than those of its enclosing image, whose sides are powers
of two that are halved along with it.  So a level ends before the next one starts.
-/
import Mathlib.Tactic.Ring
import VitaSX2.Gxm.Texture
import VitaSX2.Lib.Attempt
import VitaSX2.Lib.BitField

namespace VitaSX2.GxmTexture

open Attempt

/-! ### Checked arithmetic -/

section Arithmetic

variable {value result lhs rhs : ℕ}

lemma eq_of_multiply (h : multiply lhs rhs = some result) : result = lhs * rhs := by
  unfold multiply at h
  split at h
  · cases h
  · cases h
    rfl

/-- A size is aligned upwards. -/
lemma eq_of_alignUp {k : ℕ} (hk : k < 32) (h : alignUp value (2 ^ k) = some result) :
    result = (value + 2 ^ k - 1) / 2 ^ k * 2 ^ k := by
  unfold alignUp at h
  split at h
  · cases h
  next hfits =>
    cases h
    have hsize : value + 2 ^ k - 1 < 2 ^ 32 := by
      have hpos := Nat.two_pow_pos k
      have hle : 2 ^ k ≤ 2 ^ 31 := Nat.pow_le_pow_right Nat.two_pos (by omega)
      unfold sizeMax at hfits
      omega
    rw [BitField.toNat_and_not_mask _ hk, BitVec.toNat_ofNat, Nat.mod_eq_of_lt hsize]

/-- An aligned size is a multiple, is large enough and is not a whole step too large. -/
lemma alignUp_spec {k : ℕ} (hk : k < 32) (h : alignUp value (2 ^ k) = some result) :
    2 ^ k ∣ result ∧ value ≤ result ∧ result < value + 2 ^ k := by
  have hpos := Nat.two_pow_pos k
  have hdiv := Nat.div_add_mod' (value + 2 ^ k - 1) (2 ^ k)
  have hmod := Nat.mod_lt (value + 2 ^ k - 1) hpos
  rw [eq_of_alignUp hk h]
  exact ⟨Nat.dvd_mul_left _ _, by omega, by omega⟩

/-- The next power of two is one, and is large enough. -/
lemma nextPowerOfTwo_spec (h : nextPowerOfTwo value = some result) :
    ∃ k, result = 2 ^ k ∧ value ≤ result := by
  unfold nextPowerOfTwo at h
  split at h
  · cases h
  next hfits =>
    cases h
    have hlt : value - 1 < 2 ^ (16 + 16) := by omega
    have hone : ∀ i, (value - 1).testBit i = true ↔ ∃ e < 1, (value - 1).testBit (i + e) = true := by
      intro i
      constructor
      · exact fun hbit => ⟨0, Nat.one_pos, hbit⟩
      · rintro ⟨e, he, hbit⟩
        obtain rfl : e = 0 := by omega
        exact hbit
    have hspread := BitField.testBit_or_shiftRight (BitField.testBit_or_shiftRight
      (BitField.testBit_or_shiftRight (BitField.testBit_or_shiftRight
        (BitField.testBit_or_shiftRight hone))))
    obtain ⟨k, hk, hvalue⟩ := BitField.exists_two_pow_of_spread hlt hspread
    have hresult : spreadBits (value - 1) + 1 = 2 ^ k := hk
    exact ⟨k, hresult, by omega⟩

end Arithmetic

/-! ### Levels that are well laid -/

/-- The place behind the last pixel of a level whose rows are `pitch` bytes apart. -/
def TextureLevelLayout.stop (layout : TextureLevelLayout) (bytesPerPixel : ℕ) : ℕ :=
  layout.offset + (layout.height - 1) * layout.pitch + layout.width * bytesPerPixel

/-- A level has its rows, or its tiles, in a storage of some size. -/
structure LevelFits (bytesPerPixel storageSize : ℕ) (layout : TextureLevelLayout) : Prop where
  row : layout.width * bytesPerPixel ≤ layout.pitch
  stop : layout.stop bytesPerPixel ≤ storageSize
  tiles : layout.tiled = true → ∃ widthInTiles heightInTiles,
    layout.pitch = 32 * widthInTiles * bytesPerPixel ∧ layout.width ≤ 32 * widthInTiles ∧
      layout.height ≤ 32 * heightInTiles ∧
      layout.offset + 32 * heightInTiles * layout.pitch ≤ storageSize

/-- The levels of a texture lie in its storage one behind the other; a tiled level has the
storage for itself. -/
structure WellLaid (texture : GSTextureGXM) : Prop where
  pixel : 0 < texture.nativeFormat.bytesPerPixel
  fits : ∀ layout ∈ texture.levels,
    LevelFits texture.nativeFormat.bytesPerPixel texture.storageSize layout
  apart : texture.levels.Pairwise fun upper lower =>
    upper.stop texture.nativeFormat.bytesPerPixel ≤ lower.offset
  tiled : ∀ layout ∈ texture.levels, layout.tiled = true → texture.levels = [layout]

lemma bytesPerPixel_pos {format : Format} {info : TextureFormatInfo}
    (h : getTextureFormatInfo format = some info) : 0 < info.bytesPerPixel := by
  cases format <;> cases h <;> decide

section Layout

variable {info : TextureFormatInfo} {width height : ℕ}

/-! ### Linear levels -/

/-- A level that is not empty, in an enclosing image with powers of two as its sides. -/
structure Enclosed (s : MipState) : Prop where
  width : 0 < s.levelWidth
  height : 0 < s.levelHeight
  storageWidth : ∃ k, s.storageWidth = 2 ^ (k + 3) ∧ s.levelWidth ≤ s.storageWidth
  storageHeight : ∃ k, s.storageHeight = 2 ^ k ∧ s.levelHeight ≤ s.storageHeight

/-- The sides of both images are halved. -/
lemma Enclosed.halve {s : MipState} (h : Enclosed s) (totalSize : ℕ) :
    Enclosed
      { totalSize
        levelWidth := max 1 (s.levelWidth >>> 1)
        levelHeight := max 1 (s.levelHeight >>> 1)
        storageWidth := max textureImplicitStrideAlignment (s.storageWidth >>> 1)
        storageHeight := max 1 (s.storageHeight >>> 1) } := by
  obtain ⟨k, hwidth, hle⟩ := h.storageWidth
  obtain ⟨l, hheight, hle'⟩ := h.storageHeight
  simp only [Nat.shiftRight_one, textureImplicitStrideAlignment]
  constructor
  · exact Nat.lt_of_lt_of_le Nat.one_pos (Nat.le_max_left _ _)
  · exact Nat.lt_of_lt_of_le Nat.one_pos (Nat.le_max_left _ _)
  · dsimp only
    cases k with
    | zero => exact ⟨0, by rw [hwidth]; rfl, by omega⟩
    | succ k =>
      have hpos := Nat.two_pow_pos k
      have hhalf : 2 ^ (k + 1 + 3) = 2 * 2 ^ (k + 3) := by ring
      have height : 2 ^ (k + 3) = 8 * 2 ^ k := by ring
      exact ⟨k, by omega, by omega⟩
  · dsimp only
    cases l with
    | zero => exact ⟨0, by rw [hheight]; rfl, by omega⟩
    | succ l =>
      have hpos := Nat.two_pow_pos l
      have hhalf : 2 ^ (l + 1) = 2 * 2 ^ l := by ring
      exact ⟨l, by omega, by omega⟩

/-- A level starts behind what is laid already and ends in what is laid then. -/
lemma layoutLevel_spec {last : Bool} {s s' : MipState} {layout : TextureLevelLayout}
    (hs : Enclosed s) (h : layoutLevel info last s = some (layout, s')) :
    Enclosed s' ∧ layout.offset = s.totalSize ∧ layout.tiled = false ∧
      layout.width * info.bytesPerPixel ≤ layout.pitch ∧
      layout.stop info.bytesPerPixel ≤ s'.totalSize := by
  obtain ⟨stridePixels, hstride, h⟩ := Option.bind_eq_some_iff.mp h
  obtain ⟨pitch, hpitch, h⟩ := Option.bind_eq_some_iff.mp h
  obtain ⟨storagePitch, hstorage, h⟩ := Option.bind_eq_some_iff.mp h
  obtain ⟨levelSize, hlevel, h⟩ := Option.bind_eq_some_iff.mp h
  split at h
  · cases h
  cases h
  obtain rfl := eq_of_multiply hpitch
  obtain rfl := eq_of_multiply hstorage
  obtain rfl := eq_of_multiply hlevel
  have hstride : alignUp s.levelWidth (2 ^ 3) = some stridePixels := hstride
  obtain ⟨hdvd, hle, hlt⟩ := alignUp_spec (by decide) hstride
  obtain ⟨k, hwidth, hwidthLe⟩ := hs.storageWidth
  have hrow : s.levelWidth * info.bytesPerPixel ≤ stridePixels * info.bytesPerPixel :=
    Nat.mul_le_mul_right _ hle
  refine ⟨hs.halve _, rfl, rfl, hrow, ?_⟩
  -- The rows of the level are those of the enclosing image at most.
  have hstrideLe : stridePixels ≤ s.storageWidth := by
    have hmultiple : 2 ^ (k + 3) = 8 * 2 ^ k := by ring
    have height : 2 ^ 3 = 8 := rfl
    omega
  obtain ⟨l, -, hheightLe⟩ := hs.storageHeight
  have hsize : s.levelHeight * (stridePixels * info.bytesPerPixel) ≤
      (if last = true then stridePixels * info.bytesPerPixel
        else s.storageWidth * info.bytesPerPixel) *
      (if last = true then s.levelHeight else s.storageHeight) := by
    cases last with
    | true => exact (Nat.mul_comm _ _).le
    | false =>
      rw [Nat.mul_comm]
      exact Nat.mul_le_mul (Nat.mul_le_mul_right _ hstrideLe) hheightLe
  have hheight := Nat.sub_one_mul s.levelHeight (stridePixels * info.bytesPerPixel)
  have hone : stridePixels * info.bytesPerPixel ≤
      s.levelHeight * (stridePixels * info.bytesPerPixel) :=
    Nat.le_mul_of_pos_left _ hs.height
  unfold TextureLevelLayout.stop
  dsimp only at hsize ⊢
  omega

/-- The levels that remain lie behind what is laid already, one behind the other. -/
lemma layoutLevels_spec {remaining totalSize : ℕ} {s : MipState}
    {layouts : List TextureLevelLayout} (hs : Enclosed s)
    (h : layoutLevels info remaining s = some (layouts, totalSize)) :
    s.totalSize ≤ totalSize ∧
      (∀ layout ∈ layouts, s.totalSize ≤ layout.offset ∧ layout.tiled = false ∧
        LevelFits info.bytesPerPixel totalSize layout) ∧
      layouts.Pairwise fun upper lower => upper.stop info.bytesPerPixel ≤ lower.offset := by
  induction remaining generalizing s layouts with
  | zero =>
    cases h
    exact ⟨le_rfl, fun layout hlayout => (nomatch hlayout), .nil⟩
  | succ remaining ih =>
    obtain ⟨⟨layout, s'⟩, hlevel, h⟩ := Option.bind_eq_some_iff.mp h
    obtain ⟨⟨rest, size⟩, hrest, h⟩ := Option.bind_eq_some_iff.mp h
    cases h
    obtain ⟨hs', hoffset, hlinear, hrow, hstop⟩ := layoutLevel_spec hs hlevel
    obtain ⟨hle, hall, hpairs⟩ := ih hs' hrest
    have hstart : s.totalSize ≤ s'.totalSize := by
      unfold TextureLevelLayout.stop at hstop
      omega
    refine ⟨hstart.trans hle, fun other hother => ?_, List.pairwise_cons.mpr ⟨?_, hpairs⟩⟩
    · rcases List.mem_cons.mp hother with rfl | hother
      · refine ⟨hoffset.ge, hlinear, hrow, hstop.trans hle, fun htiled => ?_⟩
        rw [hlinear] at htiled
        cases htiled
      · obtain ⟨hbehind, hfits⟩ := hall other hother
        exact ⟨hstart.trans hbehind, hfits⟩
    · exact fun other hother => hstop.trans (hall other hother).1

/-- The levels of a linear texture are well laid. -/
lemma wellLaid_linear {levels totalSize : ℕ} {layouts : List TextureLevelLayout}
    (hpixel : 0 < info.bytesPerPixel) (hwidth : 0 < width) (hheight : 0 < height)
    (h : linearLayout info width height levels = some (layouts, totalSize)) :
    WellLaid ⟨layouts, info, totalSize⟩ := by
  obtain ⟨storageWidth, hstorageWidth, h⟩ := Option.bind_eq_some_iff.mp h
  obtain ⟨storageHeight, hstorageHeight, h⟩ := Option.bind_eq_some_iff.mp h
  obtain ⟨k, hk, hwidthLe⟩ := nextPowerOfTwo_spec hstorageWidth
  obtain ⟨l, hl, hheightLe⟩ := nextPowerOfTwo_spec hstorageHeight
  have henclosed : Enclosed ⟨0, width, height, max storageWidth textureImplicitStrideAlignment,
      storageHeight⟩ := by
    refine ⟨hwidth, hheight, ?_, l, hl, hheightLe⟩
    dsimp only [textureImplicitStrideAlignment]
    by_cases hthree : 3 ≤ k
    · have height : 2 ^ 3 ≤ 2 ^ k := Nat.pow_le_pow_right Nat.two_pos hthree
      obtain ⟨k, rfl⟩ := Nat.exists_eq_add_of_le' hthree
      exact ⟨k, by omega, by omega⟩
    · have height : 2 ^ k ≤ 2 ^ 3 := Nat.pow_le_pow_right Nat.two_pos (by omega)
      exact ⟨0, by omega, by omega⟩
  obtain ⟨-, hall, hpairs⟩ := layoutLevels_spec henclosed h
  constructor
  · exact hpixel
  · exact fun layout hlayout => (hall layout hlayout).2.2
  · exact hpairs
  · intro layout hlayout htiled
    rw [(hall layout hlayout).2.1] at htiled
    cases htiled

/-! ### Single levels -/

/-- A texture with one level is well laid when the level fits. -/
lemma wellLaid_single {layout : TextureLevelLayout} {storageSize : ℕ}
    (hpixel : 0 < info.bytesPerPixel) (h : LevelFits info.bytesPerPixel storageSize layout) :
    WellLaid ⟨[layout], info, storageSize⟩ := by
  constructor
  · exact hpixel
  · rintro other hother
    obtain rfl := List.mem_singleton.mp hother
    exact h
  · exact List.pairwise_singleton _ _
  · rintro other hother -
    obtain rfl := List.mem_singleton.mp hother
    rfl

/-- Rows that are as long as the aligned width end in an image of the aligned height. -/
lemma stop_le_of_rows {layout : TextureLevelLayout} {bytesPerPixel rows : ℕ}
    (hheight : 0 < layout.height) (hrow : layout.width * bytesPerPixel ≤ layout.pitch)
    (hrows : layout.height ≤ rows) :
    layout.stop bytesPerPixel ≤ layout.offset + layout.pitch * rows := by
  have hle : layout.pitch * layout.height ≤ layout.pitch * rows := Nat.mul_le_mul_left _ hrows
  have hsub := Nat.sub_one_mul layout.height layout.pitch
  have hone : layout.pitch ≤ layout.height * layout.pitch := Nat.le_mul_of_pos_left _ hheight
  have hcomm := Nat.mul_comm layout.pitch layout.height
  unfold TextureLevelLayout.stop
  omega

lemma wellLaid_tiled {totalSize : ℕ} {layout : TextureLevelLayout}
    (hpixel : 0 < info.bytesPerPixel) (hheight : 0 < height)
    (h : tiledLayout info width height = some (layout, totalSize)) :
    WellLaid ⟨[layout], info, totalSize⟩ := by
  obtain ⟨storageWidth, hstorageWidth, h⟩ := Option.bind_eq_some_iff.mp h
  obtain ⟨storageHeight, hstorageHeight, h⟩ := Option.bind_eq_some_iff.mp h
  obtain ⟨pitch, hpitch, h⟩ := Option.bind_eq_some_iff.mp h
  obtain ⟨size, hsize, h⟩ := Option.bind_eq_some_iff.mp h
  split at h
  · cases h
  cases h
  obtain rfl := eq_of_multiply hpitch
  obtain rfl := eq_of_multiply hsize
  have hstorageWidth : alignUp width (2 ^ 5) = some storageWidth := hstorageWidth
  have hstorageHeight : alignUp height (2 ^ 5) = some storageHeight := hstorageHeight
  obtain ⟨⟨widthInTiles, hwidthTiles⟩, hwidthLe, -⟩ := alignUp_spec (by decide) hstorageWidth
  obtain ⟨⟨heightInTiles, hheightTiles⟩, hheightLe, -⟩ := alignUp_spec (by decide) hstorageHeight
  have hrow : width * info.bytesPerPixel ≤ storageWidth * info.bytesPerPixel :=
    Nat.mul_le_mul_right _ hwidthLe
  refine wellLaid_single hpixel ⟨hrow, ?_, fun _ => ?_⟩
  · exact (stop_le_of_rows hheight hrow hheightLe).trans_eq (Nat.zero_add _)
  · have hwidthTiles : storageWidth = 32 * widthInTiles := hwidthTiles
    have hheightTiles : storageHeight = 32 * heightInTiles := hheightTiles
    refine ⟨widthInTiles, heightInTiles, by rw [hwidthTiles],
      hwidthLe.trans_eq hwidthTiles, hheightLe.trans_eq hheightTiles, ?_⟩
    rw [hheightTiles, Nat.zero_add, Nat.mul_comm (32 * heightInTiles)]

lemma wellLaid_depth {depthSize stencilSize : ℕ} {layout : TextureLevelLayout}
    (hpixel : info.bytesPerPixel = 4) (hheight : 0 < height)
    (h : depthLayout width height = some (layout, depthSize, stencilSize)) :
    WellLaid ⟨[layout], info, depthSize⟩ := by
  obtain ⟨alignedWidth, halignedWidth, h⟩ := Option.bind_eq_some_iff.mp h
  obtain ⟨alignedHeight, halignedHeight, h⟩ := Option.bind_eq_some_iff.mp h
  obtain ⟨depthPitch, hdepthPitch, h⟩ := Option.bind_eq_some_iff.mp h
  obtain ⟨size, hsize, h⟩ := Option.bind_eq_some_iff.mp h
  obtain ⟨stencil, -, h⟩ := Option.bind_eq_some_iff.mp h
  split at h
  · cases h
  cases h
  obtain rfl := eq_of_multiply hdepthPitch
  obtain rfl := eq_of_multiply hsize
  have halignedWidth : alignUp width (2 ^ 5) = some alignedWidth := halignedWidth
  have halignedHeight : alignUp height (2 ^ 5) = some alignedHeight := halignedHeight
  obtain ⟨-, hwidthLe, -⟩ := alignUp_spec (by decide) halignedWidth
  obtain ⟨-, hheightLe, -⟩ := alignUp_spec (by decide) halignedHeight
  have hrow : width * info.bytesPerPixel ≤ alignedWidth * 4 := by
    rw [hpixel]
    exact Nat.mul_le_mul_right _ hwidthLe
  refine wellLaid_single (by omega) ⟨hrow, ?_, fun htiled => nomatch htiled⟩
  exact (stop_le_of_rows hheight hrow hheightLe).trans_eq (Nat.zero_add _)

end Layout

/-! ### Textures -/

variable {platform : Platform} {usage : Usage} {format : Format} {texture : GSTextureGXM}

lemma wellLaid_of_initializeColorStorage {info : TextureFormatInfo} {width height levels : ℕ}
    (hpixel : 0 < info.bytesPerPixel) (hwidth : 0 < width) (hheight : 0 < height)
    (h : initializeColorStorage platform usage info width height levels = .ok texture) :
    WellLaid texture := by
  unfold initializeColorStorage at h
  split at h
  · cases h
  next layouts totalSize hlayout =>
    obtain ⟨_, -, h⟩ := exists_of_bind_ok h
    obtain ⟨_, -, h⟩ := exists_of_bind_ok h
    cases h
    unfold colorLayout at hlayout
    split at hlayout
    · obtain ⟨⟨layout, size⟩, htiled, heq⟩ := Option.map_eq_some_iff.mp hlayout
      cases heq
      exact wellLaid_tiled hpixel hheight htiled
    · exact wellLaid_linear hpixel hwidth hheight hlayout

lemma wellLaid_of_initializeDepthStorage {info : TextureFormatInfo} {width height : ℕ}
    (hpixel : info.bytesPerPixel = 4) (hheight : 0 < height)
    (h : initializeDepthStorage platform info width height = .ok texture) : WellLaid texture := by
  unfold initializeDepthStorage at h
  split at h
  · cases h
  next layout depthSize stencilSize hlayout =>
    obtain ⟨_, -, h⟩ := exists_of_bind_ok h
    obtain ⟨_, -, h⟩ := exists_of_bind_ok h
    obtain ⟨_, -, h⟩ := exists_of_bind_ok h
    cases h
    exact wellLaid_depth hpixel hheight hlayout

/-- The sides that are asked for are positive. -/
lemma pos_of_checkRequest {info : TextureFormatInfo} {width height levels : ℤ}
    (h : checkRequest info usage width height levels format = .ok ()) : 0 < width ∧ 0 < height := by
  unfold checkRequest at h
  split at h
  · cases h
  · omega

/-- Every texture that is created is well laid. -/
theorem wellLaid_of_initializeTexture {width height levels : ℤ}
    (h : initializeTexture platform usage width height levels format = .ok texture) :
    WellLaid texture := by
  unfold initializeTexture at h
  split at h
  · cases h
  next info hinfo =>
    obtain ⟨_, hrequest, h⟩ := exists_of_bind_ok h
    obtain ⟨hwidth, hheight⟩ := pos_of_checkRequest hrequest
    split at h
    next hstencil =>
      have hpixel : info.bytesPerPixel = 4 := by
        cases format <;> cases hinfo <;> first | rfl | cases hstencil
      exact wellLaid_of_initializeDepthStorage hpixel (by omega) h
    next =>
      exact wellLaid_of_initializeColorStorage (bytesPerPixel_pos hinfo) (by omega) (by omega) h

end VitaSX2.GxmTexture
