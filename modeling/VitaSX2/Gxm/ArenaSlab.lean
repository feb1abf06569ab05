/-
The ranges of a slab tile it.

The free and the live ranges of a slab are the tiles of one tiling of its logical
size, and no two free tiles touch.  An allocation cuts a free tile into at most
three; a release replaces a live tile and its free neighbours by one free tile.
-/
import VitaSX2.Gxm.Arena

namespace VitaSX2.GxmArena

open SortedMap Tiling

/-- A tile with the token of its allocation; a free tile has none. -/
abbrev SlabTile := Tile (Option ℕ)

def freeRange? (tile : SlabTile) : Option (ℕ × ℕ) :=
  match tile.label with
  | none => some (tile.start, tile.size)
  | some _ => none

def liveRange? (tile : SlabTile) : Option (ℕ × LiveRange) :=
  tile.label.map fun token => (tile.start, ⟨tile.size, token⟩)

@[simp] lemma freeRange?_free (start size : ℕ) :
    freeRange? ⟨start, size, none⟩ = some (start, size) := rfl

@[simp] lemma liveRange?_live (start size token : ℕ) :
    liveRange? ⟨start, size, some token⟩ = some (start, ⟨size, token⟩) := rfl

@[simp] lemma liveRange?_free (start size : ℕ) : liveRange? ⟨start, size, none⟩ = none := rfl

/-- Two tiles that may touch. -/
def NotBothFree (left right : SlabTile) : Prop := left.label ≠ none ∨ right.label ≠ none

/-- The maps of a slab are the tiles of a tiling in which no two free tiles touch. -/
structure Slab.Tiled (slab : Slab) (tiles : List SlabTile) : Prop where
  tiling : Tiles 0 tiles slab.logicalSize
  free : slab.freeRanges = tiles.filterMap freeRange?
  live : slab.liveRanges = tiles.filterMap liveRange?
  apart : tiles.IsChain NotBothFree

section Tiles

variable {tiles front back : List SlabTile} {tile : SlabTile} {p q : ℕ}

lemma mem_freeRanges {range : ℕ × ℕ} (h : range ∈ tiles.filterMap freeRange?) :
    (⟨range.1, range.2, none⟩ : SlabTile) ∈ tiles := by
  obtain ⟨⟨start, size, label⟩, htile, heq⟩ := List.mem_filterMap.mp h
  cases label with
  | none =>
    cases heq
    exact htile
  | some token => cases heq

lemma mem_liveRanges {range : ℕ × LiveRange} (h : range ∈ tiles.filterMap liveRange?) :
    (⟨range.1, range.2.size, some range.2.token⟩ : SlabTile) ∈ tiles := by
  obtain ⟨⟨start, size, label⟩, htile, heq⟩ := List.mem_filterMap.mp h
  cases label with
  | none => cases heq
  | some token =>
    cases heq
    exact htile

/-- The free ranges in front of a tile. -/
lemma freeRange_lt (h : Tiles p front q) :
    ∀ range ∈ front.filterMap freeRange?, range.1 < q ∧ range.1 + range.2 ≤ q := by
  intro range hrange
  have hbounds := h.bounds (mem_freeRanges hrange)
  simp only [Tile.stop] at hbounds
  omega

/-- The free ranges behind a tile. -/
lemma le_freeRange (h : Tiles p back q) :
    ∀ range ∈ back.filterMap freeRange?, p ≤ range.1 := by
  intro range hrange
  exact (h.bounds (mem_freeRanges hrange)).1

lemma liveRange_lt (h : Tiles p front q) : ∀ range ∈ front.filterMap liveRange?, range.1 < q := by
  intro range hrange
  have hbounds := h.bounds (mem_liveRanges hrange)
  simp only [Tile.stop] at hbounds
  omega

lemma le_liveRange (h : Tiles p back q) : ∀ range ∈ back.filterMap liveRange?, p ≤ range.1 := by
  intro range hrange
  exact (h.bounds (mem_liveRanges hrange)).1

end Tiles

/-! ### Allocations -/

section Allocate

variable {slab : Slab} {tiles : List SlabTile} {size alignment : ℕ} {best : Fit}

/-- A fit lies inside its range. -/
structure Fit.Inside (fit : Fit) (size : ℕ) : Prop where
  start : fit.offset ≤ fit.alignedOffset
  stop : fit.alignedOffset + size ≤ fit.offset + fit.rangeSize
  waste : fit.waste + (fit.alignedOffset - fit.offset) + size = fit.rangeSize

lemma fit_spec {range : ℕ × ℕ} (h : slab.fit size alignment range = some best) :
    alignSlabOffset slab.block.base range.1 alignment = some best.alignedOffset ∧
      best.Inside size ∧ best.offset = range.1 ∧ best.rangeSize = range.2 := by
  obtain ⟨alignedOffset, haligned, h⟩ := Option.bind_eq_some_iff.mp h
  split at h
  · cases h
  · dsimp only at h
    split at h
    · cases h
    · cases h
      exact ⟨haligned, ⟨by dsimp only; omega, by dsimp only; omega, by dsimp only; omega⟩, rfl, rfl⟩

/-- One step of the scan. -/
def betterFit (slab : Slab) (size alignment : ℕ) (best : Option Fit) (range : ℕ × ℕ) : Option Fit :=
  match slab.fit size alignment range with
  | none => best
  | some fit => if fit.waste < best.elim sizeMax Fit.waste then some fit else best

lemma betterFit_spec {start : Option Fit} {range : ℕ × ℕ}
    (h : betterFit slab size alignment start range = some best) :
    start = some best ∨ slab.fit size alignment range = some best := by
  unfold betterFit at h
  split at h
  next => exact .inl h
  next fit hfit =>
    split at h
    · exact .inr (h ▸ hfit)
    · exact .inl h

/-- The scan returns the fit of a free range. -/
lemma bestFit_spec (h : slab.bestFit size alignment = some best) :
    ∃ range ∈ slab.freeRanges, slab.fit size alignment range = some best := by
  have hall (ranges : List (ℕ × ℕ)) : ∀ start : Option Fit,
      ranges.foldl (betterFit slab size alignment) start = some best →
        start = some best ∨ ∃ range ∈ ranges, slab.fit size alignment range = some best := by
    induction ranges with
    | nil => exact fun start hstart => .inl hstart
    | cons range ranges ih =>
      intro start hstart
      rcases ih _ hstart with hbetter | ⟨other, hother, hfit⟩
      · rcases betterFit_spec hbetter with hbest | hfit
        · exact .inl hbest
        · exact .inr ⟨range, List.mem_cons_self, hfit⟩
      · exact .inr ⟨other, List.mem_cons_of_mem _ hother, hfit⟩
  rcases hall slab.freeRanges none h with hnone | hfound
  · cases hnone
  · exact hfound

/-- The scan finds a fit when there is one. -/
lemma bestFit_isSome {range : ℕ × ℕ} (hmem : range ∈ slab.freeRanges)
    (hfit : slab.fit size alignment range = some best) (hwaste : best.waste < sizeMax) :
    (slab.bestFit size alignment).isSome := by
  have hkeep : ∀ (start : Option Fit) (range : ℕ × ℕ), start.isSome →
      (betterFit slab size alignment start range).isSome := by
    intro start range hstart
    unfold betterFit
    split
    next => exact hstart
    next => split <;> simp [hstart]
  have hall (ranges : List (ℕ × ℕ)) : ∀ start : Option Fit, start.isSome ∨ range ∈ ranges →
      (ranges.foldl (betterFit slab size alignment) start).isSome := by
    induction ranges with
    | nil => exact fun start hstart => hstart.resolve_right List.not_mem_nil
    | cons first ranges ih =>
      intro start hstart
      refine ih _ ?_
      rcases hstart with hsome | hrange
      · exact .inl (hkeep start first hsome)
      · rcases List.mem_cons.mp hrange with rfl | hrange
        · left
          cases start with
          | some fit => exact hkeep _ _ rfl
          | none => simp [betterFit, hfit, hwaste]
        · exact .inr hrange
  exact hall slab.freeRanges none (.inr hmem)

/-- The tiles that take the place of a free tile. -/
def cutTiles (best : Fit) (size token : ℕ) : List SlabTile :=
  (if best.offset < best.alignedOffset then
    [⟨best.offset, best.alignedOffset - best.offset, none⟩] else []) ++
  ⟨best.alignedOffset, size, some token⟩ ::
  (if best.alignedOffset + size < best.offset + best.rangeSize then
    [⟨best.alignedOffset + size,
      best.offset + best.rangeSize - (best.alignedOffset + size), none⟩] else [])

lemma cutTiles_tiles {token : ℕ} (h : best.Inside size) (hsize : 0 < size) :
    Tiles best.offset (cutTiles best size token) (best.offset + best.rangeSize) := by
  have hstart := h.start
  have hstop := h.stop
  unfold cutTiles
  split <;> split <;> simp only [List.nil_append, List.cons_append, Tiles, Tile.stop, true_and] <;>
    omega

lemma cutTiles_free {token : ℕ} :
    (cutTiles best size token).filterMap freeRange? =
      (if best.offset < best.alignedOffset then
        [(best.offset, best.alignedOffset - best.offset)] else []) ++
      if best.alignedOffset + size < best.offset + best.rangeSize then
        [(best.alignedOffset + size,
          best.offset + best.rangeSize - (best.alignedOffset + size))] else [] := by
  unfold cutTiles
  split <;> split <;> rfl

lemma cutTiles_live {token : ℕ} :
    (cutTiles best size token).filterMap liveRange? = [(best.alignedOffset, ⟨size, token⟩)] := by
  unfold cutTiles
  split <;> split <;> rfl

/-- The cut tiles touch their neighbours as the free tile did. -/
lemma cutTiles_apart {token : ℕ} {front back : List SlabTile}
    (h : (front ++ ⟨best.offset, best.rangeSize, none⟩ :: back).IsChain NotBothFree) :
    (front ++ (cutTiles best size token ++ back)).IsChain NotBothFree := by
  obtain ⟨hfront, hback, hjoin⟩ := List.isChain_append.mp h
  have hfree : ∀ tile ∈ front.getLast?, tile.label ≠ none := fun tile htile =>
    (hjoin tile htile _ rfl).resolve_right fun hne => hne rfl
  have hnext : ∀ tile ∈ back.head?, tile.label ≠ none := fun tile htile =>
    ((List.isChain_cons.mp hback).1 tile htile).resolve_left fun hne => hne rfl
  have hcut : (cutTiles best size token).IsChain NotBothFree := by
    unfold cutTiles
    split <;> split <;> simp [NotBothFree]
  refine List.isChain_append.mpr ⟨hfront, List.isChain_append.mpr
    ⟨hcut, (List.isChain_cons.mp hback).2, fun tile _ other hother => .inr (hnext other hother)⟩,
    fun tile htile other _ => .inl (hfree tile htile)⟩

/-- An allocation cuts a free tile. -/
lemma Slab.Tiled.allocate (token : ℕ) (h : slab.Tiled tiles) (hsize : 0 < size)
    (hbest : slab.bestFit size alignment = some best) :
    best.Inside size ∧
      alignSlabOffset slab.block.base best.offset alignment = some best.alignedOffset ∧
      ∃ front back, tiles = front ++ ⟨best.offset, best.rangeSize, none⟩ :: back ∧
        Slab.Tiled
          { slab with
            freeRanges := slab.splitRange size best
            liveRanges := emplace best.alignedOffset ⟨size, token⟩ slab.liveRanges }
          (front ++ (cutTiles best size token ++ back)) := by
  obtain ⟨range, hrange, hfit⟩ := bestFit_spec hbest
  obtain ⟨haligned, hinside, hoffset, hrangeSize⟩ := fit_spec hfit
  rw [h.free] at hrange
  have hmem := mem_freeRanges hrange
  rw [← hoffset, ← hrangeSize] at hmem
  obtain ⟨front, back, rfl⟩ := List.append_of_mem hmem
  obtain ⟨hfront, hpos, hback⟩ := h.tiling.split
  have hstart := hinside.start
  have hstop := hinside.stop
  simp only [Tile.stop] at hback
  dsimp only at hfront hpos
  refine ⟨hinside, hoffset ▸ haligned, front, back, rfl, ?_, ?_, ?_, cutTiles_apart h.apart⟩
  · exact tiles_append.mpr ⟨_, hfront, tiles_append.mpr ⟨_, cutTiles_tiles hinside hsize, hback⟩⟩
  · have hlt := freeRange_lt hfront
    have hge := le_freeRange hback
    dsimp only [splitRange]
    rw [h.free, List.filterMap_append, List.filterMap_append, List.filterMap_append,
      cutTiles_free, List.filterMap_cons_some (freeRange?_free _ _),
      erase_append fun entry hentry => (hlt entry hentry).1]
    have hlead : (if best.offset < best.alignedOffset then
          emplace best.offset (best.alignedOffset - best.offset)
            (front.filterMap freeRange? ++ back.filterMap freeRange?)
        else front.filterMap freeRange? ++ back.filterMap freeRange?) =
        (front.filterMap freeRange? ++ if best.offset < best.alignedOffset then
          [(best.offset, best.alignedOffset - best.offset)] else []) ++
          back.filterMap freeRange? := by
      split
      · rw [emplace_append (fun entry hentry => (hlt entry hentry).1)
          fun entry hentry => lt_of_lt_of_le (by omega) (hge entry hentry)]
        simp
      · simp
    rw [hlead]
    split
    · rw [emplace_append]
      · simp
      · intro entry hentry
        rcases List.mem_append.mp hentry with hentry | hentry
        · have := hlt entry hentry
          omega
        · split at hentry
          · rw [List.mem_singleton.mp hentry]
            dsimp only
            omega
          · cases hentry
      · intro entry hentry
        have := hge entry hentry
        omega
    · simp
  · dsimp only
    rw [h.live, List.filterMap_append, List.filterMap_append, List.filterMap_append,
      cutTiles_live, List.filterMap_cons_none (liveRange?_free _ _), emplace_append]
    · simp
    · intro entry hentry
      have := liveRange_lt hfront entry hentry
      omega
    · intro entry hentry
      have := le_liveRange hback entry hentry
      omega

end Allocate

/-! ### Releases -/

section Release

variable {slab : Slab} {tiles front back : List SlabTile} {offset size p q : ℕ}
  {ranges : List (ℕ × ℕ)}

/-- The released range takes in the free tile in front of it. -/
lemma coalescePrevious_eq (size : ℕ) (hfront : Tiles p front offset) (hchain : front.IsChain NotBothFree)
    (hback : ∀ range ∈ ranges, offset ≤ range.1) :
    ∃ front' start, Tiles p front' start ∧ start ≤ offset ∧
      coalescePrevious offset size (front.filterMap freeRange? ++ ranges) =
        (front'.filterMap freeRange? ++ ranges, start, size + (offset - start)) ∧
      front'.filterMap liveRange? = front.filterMap liveRange? ∧ front'.IsChain NotBothFree ∧
      ∀ tile ∈ front'.getLast?, tile.label ≠ none := by
  have hprev : prevBound offset (front.filterMap freeRange? ++ ranges) =
      (front.filterMap freeRange?).getLast? :=
    prevBound_append (fun range hrange => (freeRange_lt hfront range hrange).1) hback
  rcases List.eq_nil_or_concat' front with rfl | ⟨front', ⟨start, length, label⟩, rfl⟩
  · refine ⟨[], offset, hfront, le_rfl, ?_, rfl, hchain, by simp⟩
    rw [coalescePrevious, hprev]
    simp
  obtain ⟨hfront', hpos, hstop⟩ := hfront.split
  replace hstop : start + length = offset := hstop
  cases label with
  | none =>
    -- the last tile is free, so the one in front of it is not
    refine ⟨front', start, hfront', by omega, ?_, by simp, hchain.left_of_append, ?_⟩
    · rw [List.filterMap_append, List.filterMap_cons_some (freeRange?_free _ _),
        List.filterMap_nil, List.getLast?_concat] at hprev
      rw [coalescePrevious, List.filterMap_append, List.filterMap_cons_some (freeRange?_free _ _),
        List.filterMap_nil, hprev]
      dsimp only
      rw [if_pos hstop, List.append_assoc, List.singleton_append,
        erase_append fun range hrange => (freeRange_lt hfront' range hrange).1]
      exact congrArg (fun length => (_, start, size + length)) (by omega)
    · exact fun tile htile =>
        ((List.isChain_append.mp hchain).2.2 tile htile _ rfl).resolve_right fun hne => hne rfl
  | some token =>
    refine ⟨_, offset, hfront, le_rfl, ?_, rfl, hchain, ?_⟩
    · rw [coalescePrevious, hprev, Nat.sub_self, Nat.add_zero]
      split
      next previous hprevious =>
        have hmem := List.mem_of_getLast? hprevious
        rw [List.filterMap_append] at hmem
        rcases List.mem_append.mp hmem with hmem | hmem
        · have := freeRange_lt hfront' previous hmem
          dsimp only at this hpos
          rw [if_neg (by omega)]
        · cases hmem
      next => rfl
    · intro tile htile
      rw [List.getLast?_concat] at htile
      cases htile
      simp

/-- The released range takes in the free tile behind it. -/
lemma coalesceNext_eq (hback : Tiles (offset + size) back q) (hchain : back.IsChain NotBothFree)
    (hsize : 0 < size) (hfront : ∀ range ∈ ranges, range.1 < offset) :
    ∃ back' stop, Tiles stop back' q ∧ offset + size ≤ stop ∧
      coalesceNext offset size (ranges ++ back.filterMap freeRange?) =
        ranges ++ (offset, stop - offset) :: back'.filterMap freeRange? ∧
      back'.filterMap liveRange? = back.filterMap liveRange? ∧ back'.IsChain NotBothFree ∧
      ∀ tile ∈ back'.head?, tile.label ≠ none := by
  have hge := le_freeRange hback
  have hnext : lowerBound offset (ranges ++ back.filterMap freeRange?) =
      (back.filterMap freeRange?).head? :=
    lowerBound_append hfront fun range hrange => le_trans (by omega) (hge range hrange)
  have hemplace : emplace offset size (ranges ++ back.filterMap freeRange?) =
      ranges ++ (offset, offset + size - offset) :: back.filterMap freeRange? := by
    rw [emplace_append hfront fun range hrange => lt_of_lt_of_le (by omega) (hge range hrange),
      Nat.add_sub_cancel_left]
  rcases back with - | ⟨⟨start, length, label⟩, back⟩
  · refine ⟨[], offset + size, hback, le_rfl, ?_, rfl, hchain, by simp⟩
    rw [coalesceNext, hnext]
    exact hemplace
  obtain ⟨hstart, hpos, hback'⟩ := hback
  replace hstart : start = offset + size := hstart
  replace hback' : Tiles (start + length) back q := hback'
  cases label with
  | none =>
    refine ⟨back, start + length, hback', by omega, ?_,
      (List.filterMap_cons_none (liveRange?_free _ _)).symm, (List.isChain_cons.mp hchain).2, ?_⟩
    · have hge' := le_freeRange hback'
      rw [List.filterMap_cons_some (freeRange?_free _ _)] at hnext ⊢
      rw [coalesceNext, hnext]
      dsimp only [List.head?_cons]
      rw [if_pos hstart.symm, erase_append fun range hrange => lt_trans (hfront range hrange)
          (by omega), emplace_append hfront fun range hrange =>
          lt_of_lt_of_le (by dsimp only at hpos; omega) (hge' range hrange)]
      exact congrArg (fun length => ranges ++ (offset, length) :: _) (by omega)
    · exact fun tile htile =>
        ((List.isChain_cons.mp hchain).1 tile htile).resolve_left fun hne => hne rfl
  | some token =>
    refine ⟨⟨start, length, some token⟩ :: back, offset + size, ⟨hstart, hpos, hback'⟩, le_rfl,
      ?_, rfl, hchain, ?_⟩
    · rw [coalesceNext, hnext]
      split
      next next hhead =>
        have hmem := List.mem_of_head? hhead
        rw [List.filterMap_cons_none rfl] at hmem
        have := le_freeRange hback' next hmem
        dsimp only at hpos
        rw [if_neg (by omega)]
        exact hemplace
      next => exact hemplace
    · intro tile htile
      cases htile
      simp

/-- A release frees a live tile, together with its free neighbours. -/
lemma Slab.Tiled.release {live : LiveRange} (h : slab.Tiled tiles)
    (hfind : find offset slab.liveRanges = some (offset, live)) :
    ∃ front back tiles', tiles = front ++ ⟨offset, live.size, some live.token⟩ :: back ∧
      Slab.Tiled (slab.release offset live) tiles' ∧
      tiles'.filterMap liveRange? = front.filterMap liveRange? ++ back.filterMap liveRange? := by
  have hmem := (mem_of_find hfind).1
  rw [h.live] at hmem
  have htile : (⟨offset, live.size, some live.token⟩ : SlabTile) ∈ tiles := mem_liveRanges hmem
  obtain ⟨front, back, rfl⟩ := List.append_of_mem htile
  obtain ⟨hfront, hpos, hback⟩ := h.tiling.split
  obtain ⟨hchain, hchain', -⟩ := List.isChain_append.mp h.apart
  replace hfront : Tiles 0 front offset := hfront
  replace hback : Tiles (offset + live.size) back slab.logicalSize := hback
  replace hpos : 0 < live.size := hpos
  have hge := le_freeRange hback
  obtain ⟨front', start, hfront', hstart, hprevious, hlive, hchainFront, hlast⟩ :=
    coalescePrevious_eq live.size hfront hchain
      fun range (hrange : range ∈ back.filterMap freeRange?) => by
        have := hge range hrange
        omega
  have hsum : start + (live.size + (offset - start)) = offset + live.size := by omega
  obtain ⟨back', stop, hback', hstop, hnext, hlive', hchainBack, hhead⟩ :=
    coalesceNext_eq (hsum ▸ hback : Tiles (start + (live.size + (offset - start))) _ _)
      (List.isChain_cons.mp hchain').2 (by omega)
      (fun range hrange => (freeRange_lt hfront' range hrange).1)
  refine ⟨front, back, front' ++ ⟨start, stop - start, none⟩ :: back', rfl, ⟨?_, ?_, ?_, ?_⟩, ?_⟩
  · have hend : start + (stop - start) = stop := by omega
    exact hfront'.join (by dsimp only; omega) (show Tiles (start + (stop - start)) _ _ by rwa [hend])
  · dsimp only [Slab.release, Slab.insertFreeRange]
    rw [h.free, List.filterMap_append, List.filterMap_cons_none rfl, hprevious]
    dsimp only
    rw [hnext, List.filterMap_append, List.filterMap_cons_some (freeRange?_free _ _)]
  · dsimp only [Slab.release]
    rw [h.live, List.filterMap_append, List.filterMap_append,
      List.filterMap_cons_some (liveRange?_live _ _ _), List.filterMap_cons_none rfl,
      erase_append (liveRange_lt hfront), hlive, hlive']
  · refine List.isChain_append.mpr ⟨hchainFront, List.isChain_cons.mpr
      ⟨fun tile htile => .inr (hhead tile htile), hchainBack⟩,
      fun tile htile other _ => .inl (hlast tile htile)⟩
  · rw [List.filterMap_append, List.filterMap_cons_none rfl, hlive, hlive']

end Release

end VitaSX2.GxmArena
