/-
Copies between a level of a texture and linear rows.

The runs of a copy cover the bytes of its rectangle.  Two bytes of a texture have two places,
in tiles as in rows, so a copy into the storage changes the rectangle only and the way back
returns what was copied.
-/
import Mathlib.Data.Set.BooleanAlgebra
import Mathlib.Order.CompleteBooleanAlgebra
import Mathlib.Order.CompletePartialOrder
import VitaSX2.Gxm.TextureLayout

namespace VitaSX2.GxmTexture

open RunCopy

/-! ### Places of pixels -/

/-- The place of a pixel. -/
def TextureLevelLayout.texelAddress (layout : TextureLevelLayout) (bytesPerPixel x y : ℕ) : ℕ :=
  layout.offset +
    if layout.tiled then tiledPixel (layout.pitch / bytesPerPixel / 32) x y * bytesPerPixel
    else y * layout.pitch + x * bytesPerPixel

/-- The place of a byte of a row. -/
def TextureLevelLayout.byteAddress (layout : TextureLevelLayout) (bytesPerPixel y byte : ℕ) : ℕ :=
  layout.texelAddress bytesPerPixel (byte / bytesPerPixel) y + byte % bytesPerPixel

section Tiles

variable {widthInTiles x x' y y' : ℕ}

lemma tiledPixel_eq (widthInTiles x y : ℕ) : tiledPixel widthInTiles x y =
    (y / 32 * widthInTiles + x / 32) * 1024 + y % 32 * 32 + x % 32 := by
  have hmask : ∀ n : ℕ, n &&& 31 = n % 32 := fun n => Nat.and_two_pow_sub_one_eq_mod n 5
  rw [tiledPixel, Nat.shiftRight_eq_div_pow, Nat.shiftRight_eq_div_pow, hmask, hmask]

/-- Pixels of one row of a tile lie side by side. -/
lemma tiledPixel_add {k : ℕ} (h : x % 32 + k < 32) :
    tiledPixel widthInTiles (x + k) y = tiledPixel widthInTiles x y + k := by
  have hdiv : (x + k) / 32 = x / 32 := by omega
  have hmod : (x + k) % 32 = x % 32 + k := by omega
  rw [tiledPixel_eq, tiledPixel_eq, hdiv, hmod]
  omega

/-- Two pixels have two indices. -/
lemma tiledPixel_injective (hx : x < 32 * widthInTiles) (hx' : x' < 32 * widthInTiles)
    (h : tiledPixel widthInTiles x y = tiledPixel widthInTiles x' y') : x = x' ∧ y = y' := by
  rw [tiledPixel_eq, tiledPixel_eq] at h
  have htile : x / 32 + y / 32 * widthInTiles = x' / 32 + y' / 32 * widthInTiles := by omega
  have hpos : 0 < widthInTiles := by omega
  have hdiv := congrArg (· / widthInTiles) htile
  rw [Nat.add_mul_div_right _ _ hpos, Nat.add_mul_div_right _ _ hpos,
    Nat.div_eq_of_lt (by omega : x / 32 < widthInTiles),
    Nat.div_eq_of_lt (by omega : x' / 32 < widthInTiles), Nat.zero_add, Nat.zero_add] at hdiv
  rw [hdiv] at htile h
  exact ⟨by omega, by omega⟩

lemma tiledPixel_lt {heightInTiles : ℕ} (hx : x < 32 * widthInTiles) (hy : y < 32 * heightInTiles) :
    tiledPixel widthInTiles x y < 1024 * (heightInTiles * widthInTiles) := by
  rw [tiledPixel_eq]
  have hrow : (y / 32 + 1) * widthInTiles ≤ heightInTiles * widthInTiles :=
    Nat.mul_le_mul_right _ (by omega)
  rw [Nat.add_one_mul] at hrow
  omega

end Tiles

section Places

variable {layout : TextureLevelLayout} {bytesPerPixel storageSize x x' y y' byte byte' : ℕ}

/-- A byte of a pixel. -/
lemma byteAddress_texel (hbyte : byte < bytesPerPixel) :
    layout.byteAddress bytesPerPixel y (x * bytesPerPixel + byte) =
      layout.texelAddress bytesPerPixel x y + byte := by
  unfold TextureLevelLayout.byteAddress
  rw [Nat.add_comm (x * bytesPerPixel), Nat.add_mul_div_right _ _ (by omega),
    Nat.div_eq_of_lt hbyte, Nat.zero_add, Nat.add_mul_mod_self_right, Nat.mod_eq_of_lt hbyte]

/-- The bytes of a row of a linear level lie side by side. -/
lemma byteAddress_linear (hlinear : layout.tiled = false) :
    layout.byteAddress bytesPerPixel y byte = layout.offset + y * layout.pitch + byte := by
  have hdiv := Nat.div_add_mod' byte bytesPerPixel
  rw [TextureLevelLayout.byteAddress, TextureLevelLayout.texelAddress, hlinear,
    if_neg Bool.false_ne_true]
  omega

/-- The column of a byte is left of the right side. -/
lemma column_lt {width : ℕ} (hbyte : byte < width * bytesPerPixel) : byte / bytesPerPixel < width :=
  Nat.div_lt_of_lt_mul (by rwa [Nat.mul_comm])

/-- Bytes of a linear level lie in its interval. -/
lemma byteAddress_mem (h : layout.tiled = false) (hy : y < layout.height)
    (hbyte : byte < layout.width * bytesPerPixel) :
    layout.offset ≤ layout.byteAddress bytesPerPixel y byte ∧
      layout.byteAddress bytesPerPixel y byte < layout.stop bytesPerPixel := by
  have hrows : y * layout.pitch ≤ (layout.height - 1) * layout.pitch :=
    Nat.mul_le_mul_right _ (by omega)
  rw [byteAddress_linear h]
  unfold TextureLevelLayout.stop
  omega

/-- The tiles of a level, as its copies compute them. -/
lemma LevelFits.tileCount (h : LevelFits bytesPerPixel storageSize layout)
    (hpixel : 0 < bytesPerPixel) (htiled : layout.tiled = true) :
    layout.width ≤ 32 * (layout.pitch / bytesPerPixel / 32) ∧ ∃ heightInTiles,
      layout.height ≤ 32 * heightInTiles ∧
      layout.offset + 1024 * (heightInTiles * (layout.pitch / bytesPerPixel / 32)) * bytesPerPixel ≤
        storageSize := by
  obtain ⟨widthInTiles, heightInTiles, hpitch, hwidth, hheight, hsize⟩ := h.tiles htiled
  have hcount : layout.pitch / bytesPerPixel / 32 = widthInTiles := by
    rw [hpitch, Nat.mul_div_cancel _ hpixel, Nat.mul_div_cancel_left _ (by decide)]
  refine ⟨by rwa [hcount], heightInTiles, hheight, ?_⟩
  rw [hcount]
  have harea : 32 * heightInTiles * layout.pitch =
      1024 * (heightInTiles * widthInTiles) * bytesPerPixel := by
    rw [hpitch]
    ring
  omega

/-- Every byte of a level lies in the storage. -/
lemma LevelFits.byteAddress_lt (h : LevelFits bytesPerPixel storageSize layout)
    (hpixel : 0 < bytesPerPixel) (hy : y < layout.height)
    (hbyte : byte < layout.width * bytesPerPixel) :
    layout.byteAddress bytesPerPixel y byte < storageSize := by
  cases htiled : layout.tiled with
  | false => exact (byteAddress_mem htiled hy hbyte).2.trans_le h.stop
  | true =>
    obtain ⟨hwidth, heightInTiles, hheight, hsize⟩ := h.tileCount hpixel htiled
    have hcolumn := column_lt hbyte
    have hpixelIndex : tiledPixel (layout.pitch / bytesPerPixel / 32) (byte / bytesPerPixel) y + 1 ≤
        1024 * (heightInTiles * (layout.pitch / bytesPerPixel / 32)) :=
      tiledPixel_lt (by omega) (by omega)
    have hend := Nat.mul_le_mul_right bytesPerPixel hpixelIndex
    have hmod := Nat.mod_lt byte hpixel
    rw [Nat.add_one_mul] at hend
    rw [TextureLevelLayout.byteAddress, TextureLevelLayout.texelAddress, htiled, if_pos rfl]
    omega

/-- Two bytes of a level have two places. -/
lemma LevelFits.byteAddress_injective (h : LevelFits bytesPerPixel storageSize layout)
    (hpixel : 0 < bytesPerPixel) (hbyte : byte < layout.width * bytesPerPixel)
    (hbyte' : byte' < layout.width * bytesPerPixel)
    (heq : layout.byteAddress bytesPerPixel y byte = layout.byteAddress bytesPerPixel y' byte') :
    y = y' ∧ byte = byte' := by
  cases htiled : layout.tiled with
  | false =>
    rw [byteAddress_linear htiled, byteAddress_linear htiled, Nat.add_assoc, Nat.add_assoc,
      Nat.add_left_cancel_iff] at heq
    have hrow := h.row
    have hpitch : 0 < layout.pitch := by omega
    have hdiv := congrArg (· / layout.pitch) heq
    rw [Nat.add_comm, Nat.add_comm _ byte', Nat.add_mul_div_right _ _ hpitch,
      Nat.add_mul_div_right _ _ hpitch, Nat.div_eq_of_lt (by omega), Nat.div_eq_of_lt (by omega),
      Nat.zero_add, Nat.zero_add] at hdiv
    subst hdiv
    exact ⟨rfl, Nat.add_left_cancel heq⟩
  | true =>
    obtain ⟨hwidth, -, -, -⟩ := h.tileCount hpixel htiled
    have hcolumn := column_lt hbyte
    have hcolumn' := column_lt hbyte'
    have hmod := Nat.mod_lt byte hpixel
    have hmod' := Nat.mod_lt byte' hpixel
    simp only [TextureLevelLayout.byteAddress, TextureLevelLayout.texelAddress, htiled, if_true,
      Nat.add_assoc, Nat.add_left_cancel_iff] at heq
    have hindex := congrArg (· / bytesPerPixel) heq
    rw [Nat.add_comm, Nat.add_comm _ (byte' % bytesPerPixel), Nat.add_mul_div_right _ _ hpixel,
      Nat.add_mul_div_right _ _ hpixel, Nat.div_eq_of_lt hmod, Nat.div_eq_of_lt hmod',
      Nat.zero_add, Nat.zero_add] at hindex
    rw [hindex, Nat.add_left_cancel_iff] at heq
    obtain ⟨hx, hy⟩ := tiledPixel_injective (by omega) (by omega) hindex
    refine ⟨hy, ?_⟩
    rw [← Nat.div_add_mod' byte bytesPerPixel, ← Nat.div_add_mod' byte' bytesPerPixel, hx, heq]

end Places

/-! ### Runs of a rectangle -/

section Runs

variable {texture : GSTextureGXM} {layout : TextureLevelLayout} {rect : Rect}
  {bytesPerPixel linearPitch level row : ℕ} {runs : List Run}

/-- The place of a byte of a rectangle, by its row and its offset in the row. -/
def rectPlace (layout : TextureLevelLayout) (bytesPerPixel : ℕ) (rect : Rect) (i : ℕ × ℕ) : ℕ :=
  layout.byteAddress bytesPerPixel (rect.y.toNat + i.1) (rect.x.toNat * bytesPerPixel + i.2)

/-- The place of such a byte among the linear rows. -/
def linearPlace (linearPitch : ℕ) (i : ℕ × ℕ) : ℕ := i.1 * linearPitch + i.2

/-- The bytes of one row from a column on. -/
def rowBytesFrom (rect : Rect) (bytesPerPixel row x : ℕ) : Set (ℕ × ℕ) :=
  {i | i.1 = row ∧ (x - rect.x.toNat) * bytesPerPixel ≤ i.2 ∧
    i.2 < (rect.z.toNat - rect.x.toNat) * bytesPerPixel}

/-- The bytes of a rectangle. -/
def rectBytes (rect : Rect) (bytesPerPixel : ℕ) : Set (ℕ × ℕ) :=
  {i | i.1 < rect.height ∧ i.2 < rect.width * bytesPerPixel}

lemma covers_linearRun (hlinear : layout.tiled = false) :
    Covers [linearRun layout bytesPerPixel (rect.width * bytesPerPixel) linearPitch row rect]
      (rectPlace layout bytesPerPixel rect) (linearPlace linearPitch)
      {i | i.1 = row ∧ i.2 < rect.width * bytesPerPixel} := by
  refine covers_singleton (fun k => (row, k)) (fun k hk => ⟨⟨rfl, hk⟩, ?_, rfl⟩) ?_
  · simp only [rectPlace, byteAddress_linear hlinear, linearRun, Nat.add_mul]
    omega
  · rintro ⟨r, k⟩ ⟨rfl, hk⟩
    exact ⟨k, hk, rfl⟩

/-- A run of pixels of one tile covers their bytes. -/
lemma covers_tiledRun {x run : ℕ} (hpixel : 0 < bytesPerPixel) (htiled : layout.tiled = true)
    (hx : rect.x.toNat ≤ x) (hrun : x % 32 + run ≤ 32) :
    Covers [(⟨layout.offset + tiledPixel (layout.pitch / bytesPerPixel / 32) x
        (rect.y.toNat + row) * bytesPerPixel,
        row * linearPitch + (x - rect.x.toNat) * bytesPerPixel, run * bytesPerPixel⟩ : Run)]
      (rectPlace layout bytesPerPixel rect) (linearPlace linearPitch)
      {i | i.1 = row ∧ (x - rect.x.toNat) * bytesPerPixel ≤ i.2 ∧
        i.2 < (x + run - rect.x.toNat) * bytesPerPixel} := by
  have hend : (x + run - rect.x.toNat) * bytesPerPixel =
      (x - rect.x.toNat) * bytesPerPixel + run * bytesPerPixel := by
    rw [← Nat.add_mul]
    congr 1
    omega
  refine covers_singleton (fun k => (row, (x - rect.x.toNat) * bytesPerPixel + k))
    (fun k hk => ⟨⟨rfl, Nat.le_add_right _ _, ?_⟩, ?_, ?_⟩) ?_
  · dsimp only at hk ⊢
    omega
  · -- The byte belongs to a pixel of the same tile, as far from the first one.
    have hpixelLt := column_lt hk
    have hcolumn : rect.x.toNat * bytesPerPixel + ((x - rect.x.toNat) * bytesPerPixel + k) =
        (x + k / bytesPerPixel) * bytesPerPixel + k % bytesPerPixel := by
      have hdiv := Nat.div_add_mod' k bytesPerPixel
      have hsum : rect.x.toNat * bytesPerPixel + (x - rect.x.toNat) * bytesPerPixel =
          x * bytesPerPixel := by
        rw [← Nat.add_mul, Nat.add_sub_cancel' hx]
      rw [Nat.add_mul]
      omega
    have hdiv := Nat.div_add_mod' k bytesPerPixel
    rw [rectPlace, hcolumn, byteAddress_texel (Nat.mod_lt k hpixel),
      TextureLevelLayout.texelAddress, htiled, if_pos rfl, tiledPixel_add (by omega), Nat.add_mul]
    dsimp only
    omega
  · exact (Nat.add_assoc _ _ _).symm
  · rintro ⟨r, k⟩ ⟨rfl, hlow, hhigh⟩
    refine ⟨k - (x - rect.x.toNat) * bytesPerPixel, ?_, ?_⟩
    · dsimp only at hhigh hlow ⊢
      omega
    · dsimp only at hlow ⊢
      rw [Nat.add_sub_cancel' hlow]

/-- The runs of a row from a column on. -/
lemma covers_tiledRuns (hpixel : 0 < bytesPerPixel) (htiled : layout.tiled = true) {x : ℕ}
    (hx : rect.x.toNat ≤ x) :
    Covers (tiledRuns layout bytesPerPixel rect.x.toNat rect.z.toNat (rect.y.toNat + row)
        (row * linearPitch) x)
      (rectPlace layout bytesPerPixel rect) (linearPlace linearPitch)
      (rowBytesFrom rect bytesPerPixel row x) := by
  induction x using tiledRuns.induct layout bytesPerPixel rect.z.toNat (rect.y.toNat + row) with
  | case1 x hlt run ih =>
    have hmask : x &&& 31 = x % 32 := Nat.and_two_pow_sub_one_eq_mod x 5
    have hrun : run = min (rect.z.toNat - x) (32 - (x &&& 31)) := rfl
    have hhead : Covers _ (rectPlace layout bytesPerPixel rect) (linearPlace linearPitch)
        {i | i.1 = row ∧ (x - rect.x.toNat) * bytesPerPixel ≤ i.2 ∧
          i.2 < (x + run - rect.x.toNat) * bytesPerPixel} :=
      covers_tiledRun hpixel htiled hx (by omega)
    have htail := ih (by omega)
    rw [tiledRuns, if_pos hlt]
    have hsplit : rowBytesFrom rect bytesPerPixel row x =
        {i | i.1 = row ∧ (x - rect.x.toNat) * bytesPerPixel ≤ i.2 ∧
          i.2 < (x + run - rect.x.toNat) * bytesPerPixel} ∪
        rowBytesFrom rect bytesPerPixel row (x + run) := by
      have hfirst : (x - rect.x.toNat) * bytesPerPixel ≤ (x + run - rect.x.toNat) * bytesPerPixel :=
        Nat.mul_le_mul_right _ (by omega)
      have hlast : (x + run - rect.x.toNat) * bytesPerPixel ≤
          (rect.z.toNat - rect.x.toNat) * bytesPerPixel := Nat.mul_le_mul_right _ (by omega)
      ext i
      simp only [rowBytesFrom, Set.mem_union, Set.mem_ofPred_eq]
      omega
    rw [hsplit]
    exact hhead.append htail
  | case2 x hge =>
    have hnone : rowBytesFrom rect bytesPerPixel row x = ∅ := by
      have hle : (rect.z.toNat - rect.x.toNat) * bytesPerPixel ≤
          (x - rect.x.toNat) * bytesPerPixel := Nat.mul_le_mul_right _ (by omega)
      ext i
      simp only [rowBytesFrom, Set.mem_ofPred_eq, Set.mem_empty_iff_false, iff_false]
      omega
    rw [tiledRuns, if_neg hge, hnone]
    exact covers_nil

/-- A rectangle in a level. -/
lemma rectWithin_iff {width height : ℕ} : rectWithin rect width height = true ↔
    0 ≤ rect.x ∧ 0 ≤ rect.y ∧ rect.x < rect.z ∧ rect.y < rect.w ∧ rect.z.toNat ≤ width ∧
      rect.w.toNat ≤ height := by
  simp only [rectWithin, Bool.and_eq_true, decide_eq_true_iff, and_assoc]

/-- What a copy that returns true has checked. -/
lemma copyRegions_spec (h : texture.copyRegions level rect linearPitch = some runs)
    (hpixel : 0 < texture.nativeFormat.bytesPerPixel) :
    ∃ layout, texture.levels[level]? = some layout ∧
      rectWithin rect layout.width layout.height = true ∧
      rect.width * texture.nativeFormat.bytesPerPixel ≤ linearPitch ∧
      Covers runs (rectPlace layout texture.nativeFormat.bytesPerPixel rect)
        (linearPlace linearPitch) (rectBytes rect texture.nativeFormat.bytesPerPixel) := by
  obtain ⟨layout, hlayout, h⟩ := Option.bind_eq_some_iff.mp h
  dsimp only at h
  split at h
  · cases h
  next hwithin =>
    split at h
    · cases h
    next hpitch =>
      cases h
      rw [not_not] at hwithin
      refine ⟨layout, hlayout, hwithin, Nat.le_of_not_lt hpitch, ?_⟩
      have hrows : rectBytes rect texture.nativeFormat.bytesPerPixel =
          {i | ∃ row ∈ List.range rect.height,
            i ∈ {i : ℕ × ℕ | i.1 = row ∧
              i.2 < rect.width * texture.nativeFormat.bytesPerPixel}} := by
        ext i
        simp [rectBytes]
      rw [hrows]
      refine Covers.flatMap fun row _ => ?_
      cases htiled : layout.tiled with
      | false => exact covers_linearRun htiled
      | true =>
        have hwidth : rect.z.toNat - rect.x.toNat = rect.width := by
          obtain ⟨hx, -, hz, -⟩ := rectWithin_iff.mp hwithin
          unfold Rect.width
          omega
        have hall : {i : ℕ × ℕ | i.1 = row ∧
            i.2 < rect.width * texture.nativeFormat.bytesPerPixel} =
            rowBytesFrom rect texture.nativeFormat.bytesPerPixel row rect.x.toNat := by
          simp only [rowBytesFrom, Nat.sub_self, Nat.zero_mul, Nat.zero_le, true_and, hwidth]
        rw [hall, if_neg (not_not_intro rfl)]
        exact covers_tiledRuns hpixel htiled le_rfl

end Runs

/-! ### Sound layouts -/

/-- A rectangle contains a pixel. -/
def Rect.Contains (rect : Rect) (x y : ℕ) : Prop :=
  rect.x ≤ x ∧ x < rect.z ∧ rect.y ≤ y ∧ y < rect.w

/-- The levels of a texture lie apart in its storage.  Valid rectangles are copied; a copy stays
in the storage, changes the pixels of its rectangle only, and the way back returns it. -/
structure TextureSound (texture : GSTextureGXM) : Prop where
  apart : texture.levels.Pairwise fun upper lower =>
    Disjoint (Set.Ico upper.offset (upper.stop texture.nativeFormat.bytesPerPixel))
      (Set.Ico lower.offset (lower.stop texture.nativeFormat.bytesPerPixel))
  inside : ∀ layout ∈ texture.levels,
    layout.stop texture.nativeFormat.bytesPerPixel ≤ texture.storageSize
  accepted : ∀ level rect linearPitch layout, texture.levels[level]? = some layout →
    rectWithin rect layout.width layout.height = true →
    rect.width * texture.nativeFormat.bytesPerPixel ≤ linearPitch →
    (texture.copyRegions level rect linearPitch).isSome
  touched : ∀ level rect linearPitch runs,
    texture.copyRegions level rect linearPitch = some runs →
    ∀ run ∈ runs, ∀ k < run.length, run.destination + k < texture.storageSize
  returned : ∀ level rect (source destination storage storage' destination' : Bytes) sourcePitch
    destinationPitch,
    texture.copyFromLinear level rect source sourcePitch storage = some storage' →
    texture.copyToLinear level rect destination destinationPitch storage' = some destination' →
    ∀ row < rect.height, ∀ byte < rect.width * texture.nativeFormat.bytesPerPixel,
      destination' (row * destinationPitch + byte) = source (row * sourcePitch + byte)
  outside : ∀ level rect (source storage storage' : Bytes) sourcePitch,
    texture.copyFromLinear level rect source sourcePitch storage = some storage' →
    ∀ other layout x y, texture.levels[other]? = some layout → x < layout.width →
    y < layout.height → ¬ (other = level ∧ rect.Contains x y) →
    ∀ byte < texture.nativeFormat.bytesPerPixel,
      storage' (layout.texelAddress texture.nativeFormat.bytesPerPixel x y + byte) =
        storage (layout.texelAddress texture.nativeFormat.bytesPerPixel x y + byte)

section Sound

variable {texture : GSTextureGXM} {layout other : TextureLevelLayout} {rect : Rect}
  {bytesPerPixel x y byte : ℕ} {i : ℕ × ℕ}

/-- The bytes of a rectangle are bytes of its level. -/
lemma rectBytes_within (h : rectWithin rect layout.width layout.height = true)
    (hi : i ∈ rectBytes rect bytesPerPixel) : rect.y.toNat + i.1 < layout.height ∧
      rect.x.toNat * bytesPerPixel + i.2 < layout.width * bytesPerPixel := by
  obtain ⟨hx, hy, hz, hw, hwidth, hheight⟩ := rectWithin_iff.mp h
  obtain ⟨hrow, hbyte⟩ := hi
  unfold Rect.height at hrow
  have hright : (rect.x.toNat + rect.width) * bytesPerPixel ≤ layout.width * bytesPerPixel :=
    Nat.mul_le_mul_right _ (by unfold Rect.width; omega)
  rw [Nat.add_mul] at hright
  exact ⟨by omega, by omega⟩

lemma byte_lt_row (hx : x < layout.width) (hbyte : byte < bytesPerPixel) :
    x * bytesPerPixel + byte < layout.width * bytesPerPixel := by
  have hle : (x + 1) * bytesPerPixel ≤ layout.width * bytesPerPixel := Nat.mul_le_mul_right _ hx
  rw [Nat.add_one_mul] at hle
  omega

/-- The places of the bytes of a rectangle are different. -/
lemma rectPlace_injOn (h : WellLaid texture) (hlayout : layout ∈ texture.levels)
    (hwithin : rectWithin rect layout.width layout.height = true) :
    Set.InjOn (rectPlace layout texture.nativeFormat.bytesPerPixel rect)
      (rectBytes rect texture.nativeFormat.bytesPerPixel) := by
  rintro ⟨row, byte⟩ hi ⟨row', byte'⟩ hi' heq
  obtain ⟨hrow, hbyte⟩ := (h.fits layout hlayout).byteAddress_injective h.pixel
    (rectBytes_within hwithin hi).2 (rectBytes_within hwithin hi').2 heq
  exact Prod.ext (Nat.add_left_cancel hrow) (Nat.add_left_cancel hbyte)

/-- The linear places of the bytes of a rectangle are different. -/
lemma linearPlace_injOn {linearPitch : ℕ} (h : rect.width * bytesPerPixel ≤ linearPitch) :
    Set.InjOn (linearPlace linearPitch) (rectBytes rect bytesPerPixel) := by
  rintro ⟨row, byte⟩ ⟨-, hbyte⟩ ⟨row', byte'⟩ ⟨-, hbyte'⟩ heq
  dsimp only [linearPlace] at heq hbyte hbyte'
  have hpitch : 0 < linearPitch := by omega
  have hdiv := congrArg (· / linearPitch) heq
  rw [Nat.add_comm, Nat.add_comm _ byte', Nat.add_mul_div_right _ _ hpitch,
    Nat.add_mul_div_right _ _ hpitch, Nat.div_eq_of_lt (by omega), Nat.div_eq_of_lt (by omega),
    Nat.zero_add, Nat.zero_add] at hdiv
  subst hdiv
  rw [Nat.add_left_cancel heq]

/-- Bytes of two levels have two places. -/
lemma WellLaid.place_ne (h : WellLaid texture) {upper lower : ℕ} (hne : upper ≠ lower)
    (hupper : texture.levels[upper]? = some layout) (hlower : texture.levels[lower]? = some other)
    {byte byte' y y' : ℕ} (hy : y < layout.height) (hy' : y' < other.height)
    (hbyte : byte < layout.width * texture.nativeFormat.bytesPerPixel)
    (hbyte' : byte' < other.width * texture.nativeFormat.bytesPerPixel) :
    layout.byteAddress texture.nativeFormat.bytesPerPixel y byte ≠
      other.byteAddress texture.nativeFormat.bytesPerPixel y' byte' := by
  obtain ⟨hu, rfl⟩ := List.getElem?_eq_some_iff.mp hupper
  obtain ⟨hl, rfl⟩ := List.getElem?_eq_some_iff.mp hlower
  -- With two levels none is tiled.
  have hlinear : ∀ level ∈ texture.levels, level.tiled = false := by
    intro level hlevel
    by_contra htiled
    have hsingle := h.tiled level hlevel (Bool.not_eq_false _ ▸ htiled)
    have hlength := congrArg List.length hsingle
    rw [List.length_singleton] at hlength
    omega
  have hin := byteAddress_mem (hlinear _ (List.getElem_mem hu)) hy hbyte
  have hin' := byteAddress_mem (hlinear _ (List.getElem_mem hl)) hy' hbyte'
  rcases Nat.lt_or_gt_of_ne hne with hlt | hgt
  · have hapart := List.pairwise_iff_getElem.mp h.apart _ _ hu hl hlt
    omega
  · have hapart := List.pairwise_iff_getElem.mp h.apart _ _ hl hu hgt
    omega

/-- A well laid texture is sound. -/
theorem WellLaid.textureSound (h : WellLaid texture) : TextureSound texture := by
  constructor
  · refine h.apart.imp fun {upper lower} hle => ?_
    rw [Set.disjoint_left]
    rintro place ⟨-, hstop⟩ ⟨hoffset, -⟩
    omega
  · exact fun layout hlayout => (h.fits layout hlayout).stop
  · intro level rect linearPitch layout hlayout hwithin hpitch
    simp only [GSTextureGXM.copyRegions, hlayout, Option.bind_eq_bind, Option.bind_some, hwithin,
      not_true_eq_false, if_false, Nat.not_lt.mpr hpitch]
    rfl
  · intro level rect linearPitch runs hregions run hrun k hk
    obtain ⟨layout, hlayout, hwithin, -, hcovers⟩ := copyRegions_spec hregions h.pixel
    obtain ⟨i, hi, hplace, -⟩ := hcovers.index run hrun k hk
    obtain ⟨hy, hbyte⟩ := rectBytes_within hwithin hi
    rw [← hplace]
    exact (h.fits layout (List.mem_of_getElem? hlayout)).byteAddress_lt h.pixel hy hbyte
  · intro level rect source destination storage storage' destination' sourcePitch destinationPitch
      hfrom hto row hrow byte hbyte
    obtain ⟨runs, hruns, rfl⟩ := Option.map_eq_some_iff.mp hfrom
    obtain ⟨runs', hruns', rfl⟩ := Option.map_eq_some_iff.mp hto
    obtain ⟨layout, hlayout, hwithin, -, hcovers⟩ := copyRegions_spec hruns h.pixel
    obtain ⟨layout', hlayout', -, hpitch', hcovers'⟩ := copyRegions_spec hruns' h.pixel
    obtain rfl := Option.some_inj.mp (hlayout.symm.trans hlayout')
    have hi : (row, byte) ∈ rectBytes rect texture.nativeFormat.bytesPerPixel := ⟨hrow, hbyte⟩
    exact (hcovers'.swap.copyRuns_apply (linearPlace_injOn hpitch') hi).trans
      (hcovers.copyRuns_apply (rectPlace_injOn h (List.mem_of_getElem? hlayout) hwithin) hi)
  · intro level rect source storage storage' sourcePitch hfrom other layout x y hother hx hy hout
      byte hbyte
    obtain ⟨runs, hruns, rfl⟩ := Option.map_eq_some_iff.mp hfrom
    obtain ⟨level', hlevel, hwithin, -, hcovers⟩ := copyRegions_spec hruns h.pixel
    have hcolumn := byte_lt_row hx hbyte
    rw [← byteAddress_texel hbyte]
    refine hcovers.copyRuns_frame fun i hi heq => ?_
    obtain ⟨hy', hcolumn'⟩ := rectBytes_within hwithin hi
    by_cases hsame : other = level
    · subst hsame
      obtain rfl := Option.some_inj.mp (hother.symm.trans hlevel)
      obtain ⟨hrow, hplace⟩ := (h.fits _ (List.mem_of_getElem? hlevel)).byteAddress_injective
        h.pixel hcolumn' hcolumn heq
      obtain ⟨hrectX, hrectY, hrectZ, hrectW, -, -⟩ := rectWithin_iff.mp hwithin
      obtain ⟨hin, hin'⟩ := hi
      unfold Rect.height at hin
      -- The column of the byte is one of the rectangle.
      have hleft : rect.x.toNat ≤ x := by
        by_contra hlt
        have hle : (x + 1) * texture.nativeFormat.bytesPerPixel ≤
            rect.x.toNat * texture.nativeFormat.bytesPerPixel := Nat.mul_le_mul_right _ (by omega)
        rw [Nat.add_one_mul] at hle
        omega
      have hright : x < rect.x.toNat + rect.width := by
        by_contra hge
        have hle : (rect.x.toNat + rect.width) * texture.nativeFormat.bytesPerPixel ≤
            x * texture.nativeFormat.bytesPerPixel := Nat.mul_le_mul_right _ (by omega)
        rw [Nat.add_mul] at hle
        omega
      unfold Rect.width at hright
      exact hout ⟨rfl, by omega, by omega, by omega, by omega⟩
    · exact h.place_ne (Ne.symm hsame) hlevel hother hy' hy hcolumn' hcolumn heq

end Sound

/-- The layout of every texture that is created is sound. -/
theorem textureSound_of_initializeTexture {platform : Platform} {usage : Usage} {format : Format}
    {width height levels : ℤ} {texture : GSTextureGXM}
    (h : initializeTexture platform usage width height levels format = .ok texture) :
    TextureSound texture :=
  (wellLaid_of_initializeTexture h).textureSound

/-- A texture with three levels, of an image that is no power of two wide. -/
theorem textureSound_of_initializeTexture_mipmap : ∃ texture, texture.levels.length = 3 ∧
    initializeTexture ⟨fun _ => 0, fun _ => 0, fun _ => 0⟩ Usage.texture 100 33 3 .color =
      .ok texture ∧ TextureSound texture := by
  have hcreated : ∃ texture, texture.levels.length = 3 ∧
      initializeTexture ⟨fun _ => 0, fun _ => 0, fun _ => 0⟩ Usage.texture 100 33 3 .color =
        .ok texture := by
    refine ⟨_, ?_, rfl⟩
    rfl
  obtain ⟨texture, hlength, hcreated⟩ := hcreated
  exact ⟨texture, hlength, hcreated, textureSound_of_initializeTexture hcreated⟩

end VitaSX2.GxmTexture
