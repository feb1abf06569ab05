/-
The layout of a texture (`GSTextureGXM::Initialize`) and the copies between a level and
linear rows (`CopyFromLinear`, `CopyToLinear`).

Sizes are of 32 bits, and every computation is checked, so numbers stand for them.  The
places of a rectangle are a list of runs that both copies go through.
-/
import VitaSX2.Lib.RunCopy

namespace VitaSX2.GxmTexture

open RunCopy

/-! ### Checked arithmetic -/

/-- The largest `std::size_t` and the largest `std::uint32_t`. -/
def sizeMax : ℕ := 2 ^ 32 - 1

def isPowerOfTwo (value : ℕ) : Bool := value != 0 && value &&& (value - 1) == 0

/-- `AlignUp`. -/
def alignUp (value alignment : ℕ) : Option ℕ :=
  if ¬ isPowerOfTwo alignment ∨ sizeMax - (alignment - 1) < value then none
  else
    some (BitVec.ofNat 32 (value + alignment - 1) &&& ~~~ BitVec.ofNat 32 (alignment - 1)).toNat

/-- `Multiply`. -/
def multiply (lhs rhs : ℕ) : Option ℕ :=
  if lhs ≠ 0 ∧ sizeMax / lhs < rhs then none else some (lhs * rhs)

/-- The bits of a number are spread to all lower places, with the shifts of
`NextPowerOfTwo`. -/
def spreadBits (value : ℕ) : ℕ :=
  let value := value ||| value >>> 1
  let value := value ||| value >>> 2
  let value := value ||| value >>> 4
  let value := value ||| value >>> 8
  value ||| value >>> 16

/-- `NextPowerOfTwo`. -/
def nextPowerOfTwo (value : ℕ) : Option ℕ :=
  if value = 0 ∨ 2 ^ 31 < value then none else some (spreadBits (value - 1) + 1)

/-! ### Formats and uses -/

/-- `GSTexture::Format`. -/
inductive Format where
  | invalid
  | color
  | colorHQ
  | colorHDR
  | colorClip
  | depthStencil
  | depthColor
  | unorm8
  | uint16
  | uint32
  | primID
  | bc1
  | bc2
  | bc3
  | bc7
deriving DecidableEq, Repr

/-- `TextureFormatInfo`, as far as the layout depends on it. -/
structure TextureFormatInfo where
  bytesPerPixel : ℕ
  colorRenderable : Bool
  depthStencil : Bool
deriving DecidableEq, Repr

/-- `GetTextureFormatInfo`. -/
def getTextureFormatInfo : Format → Option TextureFormatInfo
  | .color => some ⟨4, true, false⟩
  | .unorm8 => some ⟨1, false, false⟩
  | .uint16 => some ⟨2, true, false⟩
  | .uint32 => some ⟨4, false, false⟩
  | .depthStencil => some ⟨4, false, true⟩
  | _ => none

/-- `TextureUsage`: a set of flags. -/
abbrev Usage := BitVec 8

def Usage.texture : Usage := 0

def isTexture (usage : Usage) : Bool := usage == Usage.texture

def isDepthStencil (usage : Usage) : Bool := usage.getLsbD 0

def isRenderTarget (usage : Usage) : Bool := usage.getLsbD 1

def isFeedback (usage : Usage) : Bool := usage.getLsbD 2

def isShaderWrite (usage : Usage) : Bool := usage.getLsbD 3

def isRenderTargetOrDepthStencil (usage : Usage) : Bool :=
  isRenderTarget usage || isDepthStencil usage

def isFeedbackFormat (format : Format) : Bool :=
  format == .color || format == .colorClip || format == .depthColor || format == .depthStencil

/-! ### Layout -/

/-- `TextureLevelLayout`. -/
structure TextureLevelLayout where
  offset : ℕ
  pitch : ℕ
  width : ℕ
  height : ℕ
  tiled : Bool
deriving DecidableEq, Repr

/-- `GSTextureGXM`: its levels, its format and the size of its storage. -/
structure GSTextureGXM where
  levels : List TextureLevelLayout
  nativeFormat : TextureFormatInfo
  storageSize : ℕ
deriving DecidableEq, Repr

/-- Why a texture is not created: `SCE_GXM_ERROR_UNSUPPORTED`, `SCE_GXM_ERROR_INVALID_VALUE`
or the result of a call. -/
inductive Failure where
  | unsupported
  | invalidValue
  | result (code : ℤ)
deriving DecidableEq, Repr

/-- The results of the calls to the arena and to the library: the allocation of the storage
and of the stencil storage, and the first failure among the calls that describe the texture
to the graphics processor. -/
structure Platform where
  allocate : ℕ → ℤ
  allocateStencil : ℕ → ℤ
  describe : GSTextureGXM → ℤ

/-- A result below zero is a failure. -/
def checkResult (code : ℤ) : Except Failure Unit :=
  if code < 0 then throw (.result code) else return

/-- The single level of a tiled render target, and the size of its storage. -/
def tiledLayout (info : TextureFormatInfo) (width height : ℕ) :
    Option (TextureLevelLayout × ℕ) := do
  let storageWidth ← alignUp width 32
  let storageHeight ← alignUp height 32
  let pitch ← multiply storageWidth info.bytesPerPixel
  let totalSize ← multiply pitch storageHeight
  if sizeMax < pitch then none
  else return ({ offset := 0, pitch, width, height, tiled := true }, totalSize)

/-- `TEXTURE_IMPLICIT_STRIDE_ALIGNMENT`. -/
def textureImplicitStrideAlignment : ℕ := 8

/-- The variables of the loop over the levels. -/
structure MipState where
  totalSize : ℕ
  levelWidth : ℕ
  levelHeight : ℕ
  storageWidth : ℕ
  storageHeight : ℕ

/-- One turn of the loop: the layout of a level and the variables for the next one. -/
def layoutLevel (info : TextureFormatInfo) (last : Bool) (s : MipState) :
    Option (TextureLevelLayout × MipState) := do
  let stridePixels ← alignUp s.levelWidth textureImplicitStrideAlignment
  let pitch ← multiply stridePixels info.bytesPerPixel
  let storagePitch ← multiply s.storageWidth info.bytesPerPixel
  let levelSize ← multiply (if last then pitch else storagePitch)
    (if last then s.levelHeight else s.storageHeight)
  if sizeMax - levelSize < s.totalSize ∨ sizeMax < pitch then none
  else
    return (
      { offset := s.totalSize
        pitch
        width := s.levelWidth
        height := s.levelHeight
        tiled := false },
      { totalSize := s.totalSize + levelSize
        levelWidth := max 1 (s.levelWidth >>> 1)
        levelHeight := max 1 (s.levelHeight >>> 1)
        storageWidth := max textureImplicitStrideAlignment (s.storageWidth >>> 1)
        storageHeight := max 1 (s.storageHeight >>> 1) })

/-- The loop over the levels that remain, and the size of all levels. -/
def layoutLevels (info : TextureFormatInfo) : ℕ → MipState → Option (List TextureLevelLayout × ℕ)
  | 0, s => some ([], s.totalSize)
  | remaining + 1, s => do
    let (layout, s') ← layoutLevel info (remaining == 0) s
    let (layouts, totalSize) ← layoutLevels info remaining s'
    return (layout :: layouts, totalSize)

/-- The levels of a linear texture, and the size of its storage. -/
def linearLayout (info : TextureFormatInfo) (width height levels : ℕ) :
    Option (List TextureLevelLayout × ℕ) := do
  let storageWidth ← nextPowerOfTwo width
  let storageHeight ← nextPowerOfTwo height
  layoutLevels info levels
    { totalSize := 0
      levelWidth := width
      levelHeight := height
      storageWidth := max storageWidth textureImplicitStrideAlignment
      storageHeight }

/-- The levels of a color texture: a render target with one level that is not too small is
tiled. -/
def colorLayout (usage : Usage) (info : TextureFormatInfo) (width height levels : ℕ) :
    Option (List TextureLevelLayout × ℕ) :=
  if isRenderTarget usage ∧ levels = 1 ∧ 32 ≤ width ∧ 32 ≤ height then
    (tiledLayout info width height).map fun (level, totalSize) => ([level], totalSize)
  else linearLayout info width height levels

/-- `InitializeColorStorage`. -/
def initializeColorStorage (platform : Platform) (usage : Usage) (info : TextureFormatInfo)
    (width height levels : ℕ) : Except Failure GSTextureGXM :=
  match colorLayout usage info width height levels with
  | none => throw .invalidValue
  | some (layouts, totalSize) => do
    checkResult (platform.allocate totalSize)
    let texture := { levels := layouts, nativeFormat := info, storageSize := totalSize }
    checkResult (platform.describe texture)
    return texture

/-- `SCE_GXM_TILE_SIZEX` and `SCE_GXM_TILE_SIZEY`. -/
def tileSize : ℕ := 32

/-- The level of a depth surface, with the sizes of its storage and of its stencil storage. -/
def depthLayout (width height : ℕ) : Option (TextureLevelLayout × ℕ × ℕ) := do
  let alignedWidth ← alignUp width tileSize
  let alignedHeight ← alignUp height tileSize
  let depthPitch ← multiply alignedWidth 4
  let depthSize ← multiply depthPitch alignedHeight
  let stencilSize ← multiply alignedWidth alignedHeight
  if sizeMax < depthPitch ∨ sizeMax < alignedWidth then none
  else
    return ({ offset := 0, pitch := depthPitch, width, height, tiled := false }, depthSize,
      stencilSize)

/-- `InitializeDepthStorage`. -/
def initializeDepthStorage (platform : Platform) (info : TextureFormatInfo) (width height : ℕ) :
    Except Failure GSTextureGXM :=
  match depthLayout width height with
  | none => throw .invalidValue
  | some (level, depthSize, stencilSize) => do
    checkResult (platform.allocate depthSize)
    checkResult (platform.allocateStencil stencilSize)
    let texture := { levels := [level], nativeFormat := info, storageSize := depthSize }
    checkResult (platform.describe texture)
    return texture

/-- The checks of `Initialize`. -/
def checkRequest (info : TextureFormatInfo) (usage : Usage) (width height levels : ℤ)
    (format : Format) : Except Failure Unit :=
  if width < 1 ∨ height < 1 ∨ 4096 < width ∨ 4096 < height ∨ levels < 1 ∨ 13 < levels then
    throw .invalidValue
  else if ¬ isTexture usage ∧ ¬ isRenderTarget usage ∧ ¬ isDepthStencil usage then
    throw .invalidValue
  else if isDepthStencil usage ∧ (isShaderWrite usage ∨ isRenderTarget usage) then
    throw .invalidValue
  else if isFeedback usage ∧ ¬ (isRenderTarget usage ∨ isDepthStencil usage) then
    throw .invalidValue
  else if isShaderWrite usage then throw .unsupported
  else if isRenderTargetOrDepthStencil usage ∧ levels ≠ 1 then throw .invalidValue
  else if info.depthStencil ≠ isDepthStencil usage then throw .invalidValue
  else if isFeedback usage ∧ ¬ isFeedbackFormat format then throw .unsupported
  else if format = .unorm8 ∧ usage ≠ Usage.texture then throw .unsupported
  else if isRenderTarget usage ∧ ¬ info.colorRenderable then throw .unsupported
  else return

/-- `Initialize`. -/
def initializeTexture (platform : Platform) (usage : Usage) (width height levels : ℤ)
    (format : Format) : Except Failure GSTextureGXM :=
  match getTextureFormatInfo format with
  | none => throw .unsupported
  | some info => do
    checkRequest info usage width height levels format
    if info.depthStencil then
      initializeDepthStorage platform info width.toNat height.toNat
    else initializeColorStorage platform usage info width.toNat height.toNat levels.toNat

/-! ### Copies -/

/-- `GSVector4i` as a rectangle, from `(x, y)` to `(z, w)`. -/
structure Rect where
  x : ℤ
  y : ℤ
  z : ℤ
  w : ℤ

def Rect.width (rect : Rect) : ℕ := (rect.z - rect.x).toNat

def Rect.height (rect : Rect) : ℕ := (rect.w - rect.y).toNat

/-- `RectWithin`. -/
def rectWithin (rect : Rect) (width height : ℕ) : Bool :=
  0 ≤ rect.x && 0 ≤ rect.y && rect.x < rect.z && rect.y < rect.w && rect.z.toNat ≤ width &&
    rect.w.toNat ≤ height

/-- The index of a pixel in tiles of 32 by 32. -/
def tiledPixel (widthInTiles x y : ℕ) : ℕ :=
  ((y >>> 5) * widthInTiles + (x >>> 5)) * 1024 + (y &&& 31) * 32 + (x &&& 31)

/-- The loop over one row of a tiled level: a run ends where its tile does. -/
def tiledRuns (layout : TextureLevelLayout) (bytesPerPixel rectX endX y linearRow x : ℕ) :
    List Run :=
  if x < endX then
    let run := min (endX - x) (32 - (x &&& 31))
    let pixel := tiledPixel (layout.pitch / bytesPerPixel / 32) x y
    { destination := layout.offset + pixel * bytesPerPixel
      source := linearRow + (x - rectX) * bytesPerPixel
      length := run * bytesPerPixel } ::
        tiledRuns layout bytesPerPixel rectX endX y linearRow (x + run)
  else []
termination_by endX - x
decreasing_by
  have hlt : x &&& 31 < 2 ^ 5 := Nat.and_lt_two_pow x (by decide)
  omega

/-- The run of one row of a linear level. -/
def linearRun (layout : TextureLevelLayout) (bytesPerPixel rowBytes linearPitch row : ℕ)
    (rect : Rect) : Run where
  destination :=
    layout.offset + (rect.y.toNat * layout.pitch + rect.x.toNat * bytesPerPixel) +
      row * layout.pitch
  source := row * linearPitch
  length := rowBytes

/-- The checks of a copy, and the runs of the storage and of the linear rows that it goes
through.  The rows lie in one buffer, so their offsets do not wrap. -/
def GSTextureGXM.copyRegions (texture : GSTextureGXM) (level : ℕ) (rect : Rect)
    (linearPitch : ℕ) : Option (List Run) := do
  let layout ← texture.levels[level]?
  let bytesPerPixel := texture.nativeFormat.bytesPerPixel
  let rowBytes := rect.width * bytesPerPixel
  if ¬ rectWithin rect layout.width layout.height then none
  else if linearPitch < rowBytes then none
  else
    return (List.range rect.height).flatMap fun row =>
      if ¬ layout.tiled then [linearRun layout bytesPerPixel rowBytes linearPitch row rect]
      else
        tiledRuns layout bytesPerPixel rect.x.toNat rect.z.toNat (rect.y.toNat + row)
          (row * linearPitch) rect.x.toNat

/-- Bytes by their offset. -/
abbrev Bytes := ℕ → BitVec 8

/-- `CopyFromLinear`: the storage after it, or none when it returns false. -/
def GSTextureGXM.copyFromLinear (texture : GSTextureGXM) (level : ℕ) (destination : Rect)
    (source : Bytes) (sourcePitch : ℕ) (storage : Bytes) : Option Bytes :=
  (texture.copyRegions level destination sourcePitch).map (copyRuns source storage)

/-- `CopyToLinear`: the rows after it, or none when it returns false. -/
def GSTextureGXM.copyToLinear (texture : GSTextureGXM) (level : ℕ) (source : Rect)
    (destination : Bytes) (destinationPitch : ℕ) (storage : Bytes) : Option Bytes :=
  (texture.copyRegions level source destinationPitch).map fun runs =>
    copyRuns storage destination (runs.map Run.swap)

end VitaSX2.GxmTexture
