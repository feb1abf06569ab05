/-
Runs of the arena.

The blocks of the arena do not overlap, and the ranges of every slab tile it.  A
call keeps both, so the counters, which are machine words, are the exact sums.
-/
import VitaSX2.Gxm.ArenaSlab
import Mathlib.Algebra.Order.BigOperators.Group.List

namespace VitaSX2.GxmArena

open SortedMap Tiling

/-! ### Alignment -/

/-- The mask of an alignment clears the bits below it. -/
lemma and_mask_eq {width k x : ℕ} (hx : x < 2 ^ width) :
    x &&& ((2 ^ width - 1) ^^^ (2 ^ k - 1)) = x / 2 ^ k * 2 ^ k := by
  refine Nat.eq_of_testBit_eq fun i => ?_
  rw [Nat.testBit_and, Nat.testBit_xor, Nat.testBit_two_pow_sub_one, Nat.testBit_two_pow_sub_one,
    Nat.testBit_mul_two_pow, Nat.testBit_div_two_pow]
  rcases Nat.lt_or_ge i width with hi | hi
  · rcases Nat.lt_or_ge i k with hk | hk
    · simp [hi, hk]
    · simp [hi, hk, Nat.not_lt.mpr hk]
  · have hbit : x.testBit i = false :=
      Nat.testBit_lt_two_pow (lt_of_lt_of_le hx (Nat.pow_le_pow_right (by omega) hi))
    rcases Nat.lt_or_ge i k with hk | hk
    · simp [hbit, Nat.not_le.mpr hk]
    · simp [hbit, hk]

lemma isPowerOfTwo_iff {value : ℕ} : isPowerOfTwo value = true ↔ ∃ k, value = 2 ^ k := by
  rw [isPowerOfTwo, Bool.and_eq_true, bne_iff_ne, beq_iff_eq]
  exact Nat.ne_zero_and_sub_one_eq_zero_iff_isPowerOfTwo

variable {value alignment base offset aligned : ℕ}

/-- `AlignUp` returns the least multiple that is not below the value. -/
lemma alignUp_spec (h : alignUp value alignment = some aligned) (hvalue : 0 < value) :
    alignment ∣ aligned ∧ value ≤ aligned ∧ aligned < value + alignment := by
  unfold alignUp at h
  split at h
  · cases h
  next hguard =>
    simp only [Bool.or_eq_true, Bool.not_eq_true', decide_eq_true_eq, not_or, Bool.not_eq_false,
      not_lt] at hguard
    obtain ⟨k, rfl⟩ := isPowerOfTwo_iff.mp hguard.1
    have hpos : 0 < 2 ^ k := Nat.two_pow_pos k
    have hroom := hguard.2
    unfold sizeMax at h hroom
    rw [and_mask_eq (by omega)] at h
    cases h
    have hdiv := Nat.div_add_mod (value + 2 ^ k - 1) (2 ^ k)
    have hmod := Nat.mod_lt (value + 2 ^ k - 1) hpos
    rw [Nat.mul_comm] at hdiv
    exact ⟨⟨_, Nat.mul_comm _ _⟩, by omega, by omega⟩

/-- `AlignUp` fails for want of room only. -/
lemma alignUp_isSome (hpower : isPowerOfTwo alignment = true)
    (hroom : value + (alignment - 1) ≤ sizeMax) : (alignUp value alignment).isSome := by
  unfold alignUp
  rw [if_neg]
  · rfl
  · simp only [hpower, Bool.not_true, Bool.false_or, decide_eq_true_eq, not_lt]
    omega

/-- The address of an aligned offset is aligned. -/
lemma alignSlabOffset_spec (h : alignSlabOffset base offset alignment = some aligned) :
    base ≠ 0 ∧ alignment ∣ base + aligned ∧ offset ≤ aligned ∧ aligned < offset + alignment := by
  unfold alignSlabOffset at h
  split at h
  · cases h
  next hbase =>
    split at h
    · cases h
    · obtain ⟨address, haddress, h⟩ := Option.bind_eq_some_iff.mp h
      obtain ⟨hdvd, hle, hlt⟩ := alignUp_spec haddress (by omega)
      split at h
      · cases h
      · cases h
        refine ⟨hbase, ?_, by omega, by omega⟩
        rwa [Nat.add_sub_cancel' (by omega)]

lemma alignSlabOffset_isSome (hbase : base ≠ 0) (hpower : isPowerOfTwo alignment = true)
    (hroom : base + offset + (alignment - 1) ≤ sizeMax) :
    ∃ aligned, alignSlabOffset base offset alignment = some aligned := by
  obtain ⟨address, haddress⟩ := Option.isSome_iff_exists.mp (alignUp_isSome hpower hroom)
  have hle := (alignUp_spec haddress (by omega)).2.1
  refine ⟨address - base, ?_⟩
  unfold alignSlabOffset
  rw [if_neg hbase, if_neg (by omega), haddress, Option.bind_some, if_neg (by omega)]

/-! ### What a tiling says about the maps -/

/-- The free and the live ranges of a slab. -/
def Slab.ranges (slab : Slab) : List (ℕ × ℕ) :=
  slab.freeRanges ++ slab.liveRanges.map fun entry => (entry.1, entry.2.size)

/-- The ranges partition the slab, and no two free ranges touch. -/
structure Slab.Partitioned (slab : Slab) : Prop where
  inside : ∀ range ∈ slab.ranges, 0 < range.2 ∧ range.1 + range.2 ≤ slab.logicalSize
  disjoint : slab.ranges.Pairwise Apart
  cover : ∀ offset < slab.logicalSize,
    ∃ range ∈ slab.ranges, range.1 ≤ offset ∧ offset < range.1 + range.2
  free : ∀ left ∈ slab.freeRanges, ∀ right ∈ slab.freeRanges, left.1 + left.2 ≠ right.1

/-- The bytes of the live ranges. -/
def Slab.liveBytes (slab : Slab) : ℕ := (slab.liveRanges.map fun entry => entry.2.size).sum

section Tiled

variable {slab : Slab} {tiles : List SlabTile}

lemma Slab.Tiled.mem_ranges (h : slab.Tiled tiles) {range : ℕ × ℕ} (hrange : range ∈ slab.ranges) :
    ∃ tile ∈ tiles, tile.start = range.1 ∧ tile.size = range.2 := by
  rcases List.mem_append.mp hrange with hfree | hlive
  · rw [h.free] at hfree
    exact ⟨_, mem_freeRanges hfree, rfl, rfl⟩
  · obtain ⟨entry, hentry, rfl⟩ := List.mem_map.mp hlive
    rw [h.live] at hentry
    exact ⟨_, mem_liveRanges hentry, rfl, rfl⟩

lemma Slab.Tiled.ranges_of_mem (h : slab.Tiled tiles) {tile : SlabTile} (htile : tile ∈ tiles) :
    (tile.start, tile.size) ∈ slab.ranges := by
  obtain ⟨start, size, label⟩ := tile
  cases label with
  | none =>
    refine List.mem_append_left _ ?_
    rw [h.free]
    exact List.mem_filterMap.mpr ⟨_, htile, rfl⟩
  | some token =>
    refine List.mem_append_right _ (List.mem_map.mpr ⟨(start, ⟨size, token⟩), ?_, rfl⟩)
    rw [h.live]
    exact List.mem_filterMap.mpr ⟨_, htile, rfl⟩

/-- Two tiles are one or do not overlap. -/
lemma Slab.Tiled.eq_or_apart (h : slab.Tiled tiles) {left right : SlabTile} (hleft : left ∈ tiles)
    (hright : right ∈ tiles) :
    left = right ∨ Apart (left.start, left.size) (right.start, right.size) := by
  by_cases heq : left = right
  · exact .inl heq
  · right
    have hpair := h.tiling.pairwise.imp (S := fun left right : SlabTile =>
      Apart (left.start, left.size) (right.start, right.size)) fun hle => .inl hle
    have : Std.Symm fun left right : SlabTile =>
        Apart (left.start, left.size) (right.start, right.size) := ⟨fun _ _ h => Or.symm h⟩
    exact hpair.forall hleft hright heq

/-- No free tile ends where a free tile starts. -/
lemma Slab.Tiled.stop_ne_start (h : slab.Tiled tiles) {left right : SlabTile}
    (hleft : left ∈ tiles) (hright : right ∈ tiles) (hfree : left.label = none)
    (hfree' : right.label = none) : left.stop ≠ right.start := by
  intro htouch
  obtain ⟨front, back, rfl⟩ := List.append_of_mem hleft
  obtain ⟨hfront, hpos, hback⟩ := h.tiling.split
  rcases List.mem_append.mp hright with hmem | hmem
  · have := hfront.bounds hmem
    simp only [Tile.stop] at this htouch
    omega
  rcases List.mem_cons.mp hmem with rfl | hmem
  · simp only [Tile.stop] at htouch
    omega
  cases back with
  | nil => cases hmem
  | cons next back =>
    obtain ⟨hstart, hnext, hrest⟩ := hback
    rcases List.mem_cons.mp hmem with rfl | hmem
    · have hchain := (List.isChain_append.mp h.apart).2.1
      rcases (List.isChain_cons.mp hchain).1 right rfl with hne | hne
      · exact hne hfree
      · exact hne hfree'
    · have := hrest.bounds hmem
      simp only [Tile.stop] at this htouch hstart
      omega

theorem Slab.Tiled.partitioned (h : slab.Tiled tiles) : slab.Partitioned where
  inside := by
    intro range hrange
    obtain ⟨tile, htile, hstart, hsize⟩ := h.mem_ranges hrange
    have hbounds := h.tiling.bounds htile
    simp only [Tile.stop] at hbounds
    omega
  disjoint := by
    refine List.pairwise_append.mpr ⟨?_, ?_, ?_⟩
    · rw [h.free]
      refine List.Pairwise.filterMap freeRange? ?_ h.tiling.pairwise
      rintro ⟨start, size, label⟩ other hle range hrange range' hrange'
      cases label <;> cases hrange
      obtain ⟨start', size', label'⟩ := other
      cases label' <;> cases hrange'
      exact .inl hle
    · rw [h.live, List.pairwise_map]
      refine List.Pairwise.filterMap liveRange? ?_ h.tiling.pairwise
      rintro ⟨start, size, label⟩ other hle range hrange range' hrange'
      cases label <;> cases hrange
      obtain ⟨start', size', label'⟩ := other
      cases label' <;> cases hrange'
      exact .inl hle
    · intro range hrange range' hrange'
      obtain ⟨entry, hentry, rfl⟩ := List.mem_map.mp hrange'
      rw [h.free] at hrange
      rw [h.live] at hentry
      rcases h.eq_or_apart (mem_freeRanges hrange) (mem_liveRanges hentry) with heq | hapart
      · cases congrArg Tile.label heq
      · exact hapart
  cover := by
    intro offset hoffset
    obtain ⟨tile, htile, hbounds⟩ := h.tiling.exists_mem (Nat.zero_le offset) hoffset
    exact ⟨_, h.ranges_of_mem htile, hbounds⟩
  free := by
    intro left hleft right hright
    rw [h.free] at hleft hright
    exact h.stop_ne_start (mem_freeRanges hleft) (mem_freeRanges hright) rfl rfl

/-- The live ranges fit in the slab, and there are no more of them than bytes. -/
lemma Slab.Tiled.liveBytes_le (h : slab.Tiled tiles) :
    slab.liveRanges.length ≤ slab.liveBytes ∧ slab.liveBytes ≤ slab.logicalSize := by
  have hsum := h.tiling.sum_size
  have hpos : ∀ tile ∈ tiles, 0 < tile.size := fun tile htile => (h.tiling.bounds htile).2.1
  rw [Slab.liveBytes, h.live]
  rw [Nat.zero_add] at hsum
  rw [← hsum]
  clear hsum h
  induction tiles with
  | nil => simp
  | cons tile tiles ih =>
    have hrest := ih fun other hother => hpos other (List.mem_cons_of_mem _ hother)
    have htile := hpos tile List.mem_cons_self
    obtain ⟨start, size, label⟩ := tile
    dsimp only at htile
    cases label with
    | none =>
      rw [List.filterMap_cons_none (liveRange?_free _ _), List.map_cons, List.sum_cons]
      omega
    | some token =>
      rw [List.filterMap_cons_some (liveRange?_live _ _ _), List.map_cons, List.map_cons,
        List.sum_cons, List.sum_cons, List.length_cons]
      dsimp only
      omega

end Tiled

/-! ### The slabs of an arena -/

/-- The address range of a block. -/
def MappedBlock.range (block : MappedBlock) : ℕ × ℕ := (block.base, block.size)

/-- A mapped slab whose ranges tile it. -/
structure Slab.Ok (slab : Slab) : Prop where
  mapped : slab.block.isMapped = true
  inside : slab.logicalSize ≤ slab.block.size
  space : slab.block.base + slab.block.size ≤ 2 ^ 32
  tiled : ∃ tiles, slab.Tiled tiles

/-- Slabs in order whose blocks do not overlap. -/
structure SlabsOk (slabs : List Slab) : Prop where
  ok : ∀ slab ∈ slabs, slab.Ok
  apart : (slabs.map fun slab => slab.block.range).Pairwise Apart

def liveBytes (slabs : List Slab) : ℕ := (slabs.map Slab.liveBytes).sum

def liveCount (slabs : List Slab) : ℕ := (slabs.map fun slab => slab.liveRanges.length).sum

section Slabs

variable {slabs : List Slab} {slab slab' : Slab} {index : ℕ}

lemma Slab.Ok.base_ne (h : slab.Ok) : slab.block.base ≠ 0 := by
  have := h.mapped
  simp only [MappedBlock.isMapped, Bool.and_eq_true, bne_iff_ne] at this
  exact this.1

/-- The live bytes of all slabs fit in the address space. -/
lemma SlabsOk.liveBytes_lt (h : SlabsOk slabs) :
    liveCount slabs ≤ liveBytes slabs ∧ liveBytes slabs < 2 ^ 32 := by
  have hle : liveCount slabs ≤ liveBytes slabs ∧
      liveBytes slabs ≤ ((slabs.map fun slab => slab.block.range).map Prod.snd).sum := by
    rw [List.map_map, liveCount, liveBytes]
    refine ⟨List.sum_le_sum fun slab hslab => ?_, List.sum_le_sum fun slab hslab => ?_⟩
    · obtain ⟨tiles, htiled⟩ := (h.ok slab hslab).tiled
      exact htiled.liveBytes_le.1
    · obtain ⟨tiles, htiled⟩ := (h.ok slab hslab).tiled
      exact htiled.liveBytes_le.2.trans (h.ok slab hslab).inside
  have hcard := sum_le_card h.apart (Finset.Ico 1 (2 ^ 32)) (by
    intro range hrange x hx
    obtain ⟨slab, hslab, rfl⟩ := List.mem_map.mp hrange
    have hbase := (h.ok slab hslab).base_ne
    have hspace := (h.ok slab hslab).space
    simp only [MappedBlock.range, Finset.mem_Ico] at hx ⊢
    omega)
  rw [Nat.card_Ico] at hcard
  omega

/-- Two slabs are one, or their blocks do not overlap. -/
lemma SlabsOk.eq_or_apart (h : SlabsOk slabs) (hslab : slab ∈ slabs) (hslab' : slab' ∈ slabs) :
    slab = slab' ∨ Apart slab.block.range slab'.block.range := by
  by_cases heq : slab = slab'
  · exact .inl heq
  · right
    have : Std.Symm fun left right : Slab => Apart left.block.range right.block.range :=
      ⟨fun _ _ h => Or.symm h⟩
    exact (List.pairwise_map.mp h.apart).forall hslab hslab' heq

/-- A slab may be exchanged for one on the same block. -/
lemma SlabsOk.set (h : SlabsOk slabs) (hget : slabs[index]? = some slab)
    (hblock : slab'.block = slab.block) (hok : slab'.Ok) : SlabsOk (slabs.set index slab') where
  ok := by
    intro other hother
    rcases List.mem_or_eq_of_mem_set hother with hmem | rfl
    · exact h.ok other hmem
    · exact hok
  apart := by
    obtain ⟨hlt, rfl⟩ := List.getElem?_eq_some_iff.mp hget
    have hmap : (slabs.set index slab').map (fun slab => slab.block.range) =
        slabs.map fun slab => slab.block.range := by
      rw [List.map_set, hblock]
      refine List.ext_getElem (by simp) fun i hi hi' => ?_
      rw [List.getElem_set]
      split
      next heq =>
        subst heq
        rw [List.getElem_map]
      next => rfl
    rw [hmap]
    exact h.apart

/-- The sum of a figure of the slabs when one is exchanged. -/
lemma sum_set (figure : Slab → ℕ) (slab' : Slab) (hget : slabs[index]? = some slab) :
    ((slabs.set index slab').map figure).sum + figure slab =
      (slabs.map figure).sum + figure slab' := by
  induction slabs generalizing index with
  | nil => cases hget
  | cons first slabs ih =>
    cases index with
    | zero =>
      cases hget
      simp only [List.set_cons_zero, List.map_cons, List.sum_cons]
      omega
    | succ index =>
      have := ih hget
      simp only [List.set_cons_succ, List.map_cons, List.sum_cons]
      omega

end Slabs

/-! ### The calls -/

/-- The slabs of the arena are sound, and its counters are exact. -/
structure Arena.Inv (arena : Arena) : Prop where
  slabs : SlabsOk arena.slabs
  bytes : arena.allocatedBytes = liveBytes arena.slabs
  live : arena.liveAllocations = liveCount arena.slabs

section Calls

variable {arena arena' : Arena} {size alignment index : ℕ}
  {allocation allocation' : ArenaAllocation} {response : BlockResponse}

/-- The bytes that `AddSlab` asks for on behalf of an allocation. -/
def Arena.blockRequest (arena : Arena) (size alignment : ℕ) : ℕ :=
  max arena.preferredSlabSize (size + (alignment - 1)) +
    if arena.memory = .mainNonCached then gpuMappedFetchGuardSize else 0

/-- The contract of the kernel: a block lies in the address space, apart from the
blocks that are in use. -/
def Arena.Admissible (arena : Arena) (size alignment : ℕ) (response : BlockResponse) : Prop :=
  ∀ block,
    allocateMappedBlock arena.memory (arena.blockRequest size alignment) response = .ok block →
      block.base + block.size ≤ 2 ^ 32 ∧
        ∀ slab ∈ arena.slabs, Apart slab.block.range block.range

/-- What a successful allocation returns: an aligned address inside the slab, apart
from everything that was live. -/
structure Arena.Placed (arena arena' : Arena) (size alignment : ℕ)
    (allocation : ArenaAllocation) : Prop where
  aligned : alignment ∣ allocation.data
  inside : ∃ slab, arena'.slabs[allocation.slabIndex]? = some slab ∧
    slab.block.base ≤ allocation.data ∧
      allocation.data + size ≤ slab.block.base + slab.logicalSize ∧
        (allocation.offset, ⟨size, allocation.token⟩) ∈ slab.liveRanges
  fresh : ∀ slab ∈ arena.slabs, ∀ entry ∈ slab.liveRanges,
    Apart (allocation.data, size) (slab.block.base + entry.1, entry.2.size)

lemma allocateMappedBlock_spec {memory : ArenaMemory} {request : ℕ} {block : MappedBlock}
    (h : allocateMappedBlock memory request response = .ok block) : block.isMapped = true := by
  unfold allocateMappedBlock at h
  split at h
  · cases h
  · split at h
    · cases h
    · split at h
      · cases h
      next hbase =>
        cases h
        simp [MappedBlock.isMapped, hbase]

/-- A new slab is one free range that holds the allocation at any base. -/
lemma addSlab_spec (hinv : SlabsOk arena.slabs) (hadm : arena.Admissible size alignment response)
    (hsize : 0 < size)
    (h : arena.addSlab (size + (alignment - 1)) response = .ok (arena', index)) :
    ∃ slab : Slab, arena' = { arena with slabs := arena.slabs ++ [slab] } ∧
      index = arena.slabs.length ∧ slab.liveRanges = [] ∧
      slab.freeRanges = [(0, slab.logicalSize)] ∧
      size + (alignment - 1) ≤ slab.logicalSize ∧ SlabsOk (arena.slabs ++ [slab]) := by
  unfold Arena.addSlab at h
  unfold Arena.Admissible Arena.blockRequest at hadm
  dsimp only at h
  generalize (if arena.memory = .mainNonCached then gpuMappedFetchGuardSize else 0) = fetchGuard
    at h hadm
  split at h
  · cases h
  split at h
  · cases h
  split at h
  · cases h
  next block hblock =>
    split at h
    · cases h
    next hfits =>
      cases h
      obtain ⟨hspace, hapart⟩ := hadm block hblock
      rw [not_or, not_lt, not_lt] at hfits
      refine ⟨_, rfl, rfl, rfl, rfl, hfits.2, ?_, ?_⟩
      · intro slab hslab
        rcases List.mem_append.mp hslab with hmem | hmem
        · exact hinv.ok slab hmem
        · cases List.mem_singleton.mp hmem
          refine ⟨allocateMappedBlock_spec hblock, Nat.sub_le _ _, hspace,
            [⟨0, _, none⟩], ⟨rfl, ?_, ?_⟩, rfl, rfl, List.isChain_singleton _⟩
          · exact lt_of_lt_of_le (by omega) hfits.2
          · exact Nat.zero_add _
      · rw [List.map_append, List.pairwise_append]
        refine ⟨hinv.apart, List.pairwise_singleton _ _, ?_⟩
        intro range hrange other hother
        obtain ⟨slab, hslab, rfl⟩ := List.mem_map.mp hrange
        cases List.mem_singleton.mp hother
        exact hapart slab hslab

/-- A new slab changes no counter. -/
lemma addSlab_inv (hinv : arena.Inv) (hadm : arena.Admissible size alignment response)
    (hsize : 0 < size)
    (h : arena.addSlab (size + (alignment - 1)) response = .ok (arena', index)) : arena'.Inv := by
  obtain ⟨slab, rfl, -, hlive, -, -, hok⟩ := addSlab_spec hinv.slabs hadm hsize h
  refine ⟨hok, ?_, ?_⟩
  · simp [liveBytes, Slab.liveBytes, hlive, hinv.bytes]
  · simp [liveCount, hlive, hinv.live]

/-- A free range of the slab holds the allocation. -/
def Slab.Fits (slab : Slab) (size alignment : ℕ) : Prop :=
  ∃ range ∈ slab.freeRanges, (slab.fit size alignment range).isSome

/-- The scan of `AllocateFromSlab` repeats the computation of the fit, so it finds
one. -/
lemma Slab.Ok.allocate_isSome {slab : Slab} (hok : slab.Ok) (hsize : 0 < size)
    (hfits : slab.Fits size alignment) (token : ℕ) :
    (slab.allocate size alignment token).isSome := by
  obtain ⟨range, hrange, hfit⟩ := hfits
  obtain ⟨fit, hfit⟩ := Option.isSome_iff_exists.mp hfit
  obtain ⟨tiles, htiled⟩ := hok.tiled
  have hinside := (htiled.partitioned.inside range (List.mem_append_left _ hrange)).2
  obtain ⟨-, hwaste, -, hrangeSize⟩ := fit_spec hfit
  have hlogical := hok.inside
  have hspace := hok.space
  have hbase := hok.base_ne
  have hsum := hwaste.waste
  rw [Slab.allocate, Option.isSome_map]
  exact bestFit_isSome hrange hfit (by unfold sizeMax; omega)

lemma scan_spec (h : arena.scan size alignment = some index) :
    ∃ slab, arena.slabs[index]? = some slab ∧ slab.Fits size alignment := by
  let Found (best : Option (ℕ × ℕ)) : Prop := ∀ entry, best = some entry →
    ∃ slab, arena.slabs[entry.1]? = some slab ∧ slab.Fits size alignment
  have hslab : ∀ best, Found best → ∀ entry ∈ arena.slabs.zipIdx,
      Found (Arena.scanSlab size alignment best entry) := by
    intro best hbest entry hentry
    have hget := List.mem_zipIdx_iff_getElem?.mp hentry
    unfold Arena.scanSlab
    split
    · refine List.foldlRecOn entry.1.freeRanges _ hbest fun best hbest range hrange => ?_
      unfold Arena.scanRange
      split
      next => exact hbest
      next fit hfit =>
        split
        · intro found hfound
          cases hfound
          exact ⟨entry.1, hget, range, hrange, by rw [hfit]; rfl⟩
        · exact hbest
    · exact hbest
  have hscan : Found (arena.slabs.zipIdx.foldl (Arena.scanSlab size alignment) none) :=
    List.foldlRecOn _ _ (fun entry hnone => nomatch hnone) hslab
  obtain ⟨entry, hentry, rfl⟩ := Option.map_eq_some_iff.mp h
  exact hscan entry hentry

/-- A slab that holds the size and the slack of its alignment fits at any base. -/
lemma fits_of_addSlab {slab : Slab} (hok : slab.Ok) (hpower : isPowerOfTwo alignment = true)
    (hsize : 0 < size) (hfree : slab.freeRanges = [(0, slab.logicalSize)])
    (hroom : size + (alignment - 1) ≤ slab.logicalSize) : slab.Fits size alignment := by
  have hinside := hok.inside
  have hspace := hok.space
  have hspare : slab.block.base + 0 + (alignment - 1) ≤ sizeMax := by
    unfold sizeMax
    omega
  obtain ⟨aligned, haligned⟩ := alignSlabOffset_isSome hok.base_ne hpower hspare
  obtain ⟨-, -, -, hlt⟩ := alignSlabOffset_spec haligned
  refine ⟨(0, slab.logicalSize), by rw [hfree]; exact List.mem_singleton_self _, ?_⟩
  rw [Slab.fit, haligned, Option.bind_some, if_neg (by omega)]
  dsimp only
  rw [if_neg (by omega)]
  rfl

/-- The slab that `Allocate` chooses holds the allocation. -/
lemma findSlab_spec (hinv : arena.Inv) (hpower : isPowerOfTwo alignment = true) (hsize : 0 < size)
    (hadm : arena.Admissible size alignment response)
    (h : arena.findSlab size alignment response = .ok (arena', index)) :
    arena'.Inv ∧ (∀ slab ∈ arena.slabs, slab ∈ arena'.slabs) ∧
      ∃ slab, arena'.slabs[index]? = some slab ∧ slab.Fits size alignment := by
  unfold Arena.findSlab at h
  split at h
  next found hscan =>
    cases h
    exact ⟨hinv, fun slab hslab => hslab, scan_spec hscan⟩
  next =>
    split at h
    · cases h
    · refine ⟨addSlab_inv hinv hadm hsize h, ?_⟩
      obtain ⟨slab, rfl, rfl, -, hfree, hroom, hok⟩ := addSlab_spec hinv.slabs hadm hsize h
      refine ⟨fun other hother => List.mem_append_left _ hother, slab, by simp, ?_⟩
      exact fits_of_addSlab (hok.ok slab (by simp)) hpower hsize hfree hroom

/-- An allocation in a slab. -/
lemma Slab.Ok.allocate_spec {slab slab' : Slab} {token offset : ℕ} (hok : slab.Ok)
    (hsize : 0 < size) (h : slab.allocate size alignment token = some (slab', offset)) :
    slab'.Ok ∧ slab'.block = slab.block ∧ slab'.logicalSize = slab.logicalSize ∧
      alignment ∣ slab.block.base + offset ∧ offset + size ≤ slab.logicalSize ∧
      (∀ entry ∈ slab.liveRanges, Apart (offset, size) (entry.1, entry.2.size)) ∧
      ∃ front back, slab.liveRanges = front ++ back ∧
        slab'.liveRanges = front ++ (offset, ⟨size, token⟩) :: back := by
  obtain ⟨best, hbest, hslab'⟩ := Option.map_eq_some_iff.mp h
  obtain ⟨tiles, htiled⟩ := hok.tiled
  obtain ⟨hinside, haligned, front, back, rfl, htiled'⟩ := htiled.allocate token hsize hbest
  obtain ⟨rfl, rfl⟩ := Prod.mk.inj hslab'
  obtain ⟨hfront, hpos, hback⟩ := htiled.tiling.split
  have hstart := hinside.start
  have hstop := hinside.stop
  have hlive : slab.liveRanges = front.filterMap liveRange? ++ back.filterMap liveRange? := by
    rw [htiled.live, List.filterMap_append, List.filterMap_cons_none (liveRange?_free _ _)]
  refine ⟨⟨hok.mapped, hok.inside, hok.space, _, htiled'⟩, rfl, rfl,
    (alignSlabOffset_spec haligned).2.1, ?_, ?_, front.filterMap liveRange?,
    back.filterMap liveRange?, hlive, ?_⟩
  · exact hstop.trans hback.le
  · intro entry hentry
    rw [hlive] at hentry
    rcases List.mem_append.mp hentry with hmem | hmem
    · have hbounds := hfront.bounds (mem_liveRanges hmem)
      simp only [Tile.stop] at hbounds
      exact .inr (by dsimp only; omega)
    · have hbounds := hback.bounds (mem_liveRanges hmem)
      simp only [Tile.stop] at hbounds
      exact .inl (by dsimp only; omega)
  · rw [htiled'.live, List.filterMap_append, List.filterMap_append, cutTiles_live,
      List.singleton_append]

/-- `AllocateFromSlab` keeps the invariant and places the allocation. -/
lemma allocateFromSlab_spec (hinv : arena.Inv) (hsize : 0 < size)
    (h : arena.allocateFromSlab size alignment index = some (arena', allocation)) :
    arena'.Inv ∧ arena.Placed arena' size alignment allocation := by
  obtain ⟨slab, hget, h⟩ := Option.bind_eq_some_iff.mp h
  obtain ⟨⟨slab', offset⟩, hallocate, h⟩ := Option.map_eq_some_iff.mp h
  have hmem := List.mem_of_getElem? hget
  have hok := hinv.slabs.ok slab hmem
  obtain ⟨hok', hblock, hlogical, hdvd, hfits, hapart, front, back, hlive, hlive'⟩ :=
    hok.allocate_spec hsize hallocate
  have hslabs := hinv.slabs.set hget hblock hok'
  have hinside := hok.inside
  have hspace := hok.space
  -- the counters are words that hold the sums
  have hsumBytes := sum_set Slab.liveBytes slab' hget
  have hsumCount := sum_set (fun slab => slab.liveRanges.length) slab' hget
  have hbytes : slab'.liveBytes = slab.liveBytes + size := by
    rw [Slab.liveBytes, Slab.liveBytes, hlive, hlive']
    simp only [List.map_append, List.map_cons, List.sum_append, List.sum_cons]
    omega
  have hcount : slab'.liveRanges.length = slab.liveRanges.length + 1 := by
    rw [hlive, hlive', List.length_append, List.length_append, List.length_cons]
    omega
  obtain ⟨hcountLe, hbytesLt⟩ := hslabs.liveBytes_lt
  have hbytesOld := hinv.bytes
  have hcountOld := hinv.live
  simp only [liveBytes, liveCount] at hcountLe hbytesLt hbytesOld hcountOld
  obtain ⟨rfl, rfl⟩ := Prod.mk.inj h
  have hdata : (slab.block.base + offset) % 2 ^ 32 = slab.block.base + offset :=
    Nat.mod_eq_of_lt (by omega)
  refine ⟨⟨hslabs, ?_, ?_⟩, ⟨?_, ?_, ?_⟩⟩
  · change (arena.allocatedBytes + size) % 2 ^ 32 =
      ((arena.slabs.set index slab').map Slab.liveBytes).sum
    rw [Nat.mod_eq_of_lt (by omega)]
    omega
  · change (arena.liveAllocations + 1) % 2 ^ 32 =
      ((arena.slabs.set index slab').map fun slab => slab.liveRanges.length).sum
    rw [Nat.mod_eq_of_lt (by omega)]
    omega
  · dsimp only
    rwa [hdata]
  · refine ⟨slab', ?_, ?_, ?_, ?_⟩
    · exact List.getElem?_set_self (List.getElem?_eq_some_iff.mp hget).1
    · dsimp only
      rw [hdata, hblock]
      omega
    · dsimp only
      rw [hdata, hblock, hlogical]
      omega
    · rw [hlive']
      simp
  · intro other hother entry hentry
    dsimp only
    rw [hdata]
    rcases hinv.slabs.eq_or_apart hmem hother with rfl | hblocks
    · rcases hapart entry hentry with hle | hle
      · exact .inl (by dsimp only at hle ⊢; omega)
      · exact .inr (by dsimp only at hle ⊢; omega)
    · have hother' := hinv.slabs.ok other hother
      obtain ⟨tiles, htiled⟩ := hother'.tiled
      have hentryInside := (htiled.partitioned.inside (entry.1, entry.2.size)
        (List.mem_append_right _ (List.mem_map.mpr ⟨entry, hentry, rfl⟩))).2
      have hotherInside := hother'.inside
      simp only [MappedBlock.range] at hblocks
      rcases hblocks with hle | hle
      · exact .inl (by dsimp only at hle hentryInside ⊢; omega)
      · exact .inr (by dsimp only at hle hentryInside ⊢; omega)

/-- `Allocate` keeps the invariant; a success is placed. -/
lemma allocate_spec (allocation : ArenaAllocation) (hinv : arena.Inv)
    (hadm : arena.Admissible size alignment response) :
    (arena.allocate size alignment allocation response).arena.Inv ∧
      ((arena.allocate size alignment allocation response).error = none →
        arena.Placed (arena.allocate size alignment allocation response).arena size alignment
          (arena.allocate size alignment allocation response).allocation) := by
  unfold Arena.allocate
  split
  · exact ⟨hinv, fun hnone => nomatch hnone⟩
  split
  · exact ⟨hinv, fun hnone => nomatch hnone⟩
  next hguard =>
    simp only [Bool.or_eq_true, Bool.not_eq_true', decide_eq_true_eq, not_or,
      Bool.not_eq_false] at hguard
    obtain ⟨⟨-, hsize⟩, hpower⟩ := hguard
    split
    · exact ⟨hinv, fun hnone => nomatch hnone⟩
    next arena' index hfind =>
      obtain ⟨hinv', hsub, -⟩ := findSlab_spec hinv hpower (by omega) hadm hfind
      split
      · exact ⟨hinv', fun hnone => nomatch hnone⟩
      next arena'' allocation' hallocate =>
        obtain ⟨hinv'', hplaced⟩ := allocateFromSlab_spec hinv' (by omega) hallocate
        exact ⟨hinv'', fun _ => ⟨hplaced.aligned, hplaced.inside,
          fun slab hslab => hplaced.fresh slab (hsub slab hslab)⟩⟩

/-- `Release` keeps the invariant, whatever handle it is given. -/
lemma release_spec (hinv : arena.Inv) : (arena.release allocation).arena.Inv := by
  unfold Arena.release
  split
  · exact hinv
  next slab live hlive =>
    unfold Arena.liveRange at hlive
    split at hlive
    · cases hlive
    obtain ⟨slab', hget, hlive⟩ := Option.bind_eq_some_iff.mp hlive
    obtain ⟨entry, hfind, hlive⟩ := Option.bind_eq_some_iff.mp hlive
    split at hlive
    · cases hlive
    cases hlive
    obtain ⟨offset, live⟩ := entry
    obtain rfl : offset = allocation.offset := (mem_of_find hfind).2
    have hok := hinv.slabs.ok slab (List.mem_of_getElem? hget)
    obtain ⟨tiles, htiled⟩ := hok.tiled
    obtain ⟨front, back, tiles', rfl, htiled', htiles'⟩ := htiled.release hfind
    have hslabs := hinv.slabs.set hget (rfl : (slab.release allocation.offset live).block = slab.block)
      ⟨hok.mapped, hok.inside, hok.space, tiles', htiled'⟩
    have hlive : slab.liveRanges = front.filterMap liveRange? ++
        (allocation.offset, live) :: back.filterMap liveRange? := by
      rw [htiled.live, List.filterMap_append, List.filterMap_cons_some (liveRange?_live _ _ _)]
    have hlive' := htiles' ▸ htiled'.live
    have hsumBytes := sum_set Slab.liveBytes (slab.release allocation.offset live) hget
    have hsumCount := sum_set (fun slab => slab.liveRanges.length)
      (slab.release allocation.offset live) hget
    have hbytes : slab.liveBytes = (slab.release allocation.offset live).liveBytes + live.size := by
      rw [Slab.liveBytes, Slab.liveBytes, hlive, hlive']
      simp only [List.map_append, List.map_cons, List.sum_append, List.sum_cons]
      omega
    have hcount : slab.liveRanges.length =
        (slab.release allocation.offset live).liveRanges.length + 1 := by
      rw [hlive, hlive', List.length_append, List.length_append, List.length_cons]
      omega
    obtain ⟨hcountLe, hbytesLt⟩ := hinv.slabs.liveBytes_lt
    have hbytesOld := hinv.bytes
    have hcountOld := hinv.live
    simp only [liveBytes, liveCount] at hcountLe hbytesLt hbytesOld hcountOld
    refine ⟨hslabs, ?_, ?_⟩
    · change (arena.allocatedBytes + (2 ^ 32 - live.size)) % 2 ^ 32 =
        ((arena.slabs.set allocation.slabIndex (slab.release allocation.offset live)).map
          Slab.liveBytes).sum
      omega
    · change (arena.liveAllocations + (2 ^ 32 - 1)) % 2 ^ 32 =
        ((arena.slabs.set allocation.slabIndex (slab.release allocation.offset live)).map
          fun slab => slab.liveRanges.length).sum
      omega

end Calls

/-! ### Runs -/

/-- The arenas that calls lead to, after `Initialize`. -/
inductive Reachable : Arena → Prop
  | fresh (self preferredSlabSize : ℕ) (memory : ArenaMemory) :
      Reachable (Arena.fresh self memory preferredSlabSize)
  | allocate {arena : Arena} (size alignment : ℕ) (allocation : ArenaAllocation)
      (response : BlockResponse) (harena : Reachable arena)
      (hadm : arena.Admissible size alignment response) :
      Reachable (arena.allocate size alignment allocation response).arena
  | release {arena : Arena} (allocation : ArenaAllocation) (harena : Reachable arena) :
      Reachable (arena.release allocation).arena

lemma Reachable.inv {arena : Arena} (h : Reachable arena) : arena.Inv := by
  induction h with
  | fresh => exact ⟨⟨fun slab hslab => (List.not_mem_nil hslab).elim, List.Pairwise.nil⟩, rfl, rfl⟩
  | allocate size alignment allocation response _ hadm ih =>
    exact (allocate_spec allocation ih hadm).1
  | release allocation _ ih => exact release_spec ih

/-- In every reachable arena the ranges partition the slabs and the counters are
exact; a successful allocation is aligned, inside its slab and apart from what is
live, and the slab that was chosen for it always holds it. -/
theorem Reachable.sound {arena : Arena} (h : Reachable arena) :
    (∀ slab ∈ arena.slabs, slab.Partitioned) ∧
      arena.allocatedBytes = liveBytes arena.slabs ∧
      arena.liveAllocations = liveCount arena.slabs ∧
      ∀ (size alignment : ℕ) (allocation : ArenaAllocation) (response : BlockResponse),
        isPowerOfTwo alignment = true → arena.Admissible size alignment response →
        let outcome := arena.allocate size alignment allocation response
        (outcome.error = none →
          arena.Placed outcome.arena size alignment outcome.allocation) ∧
        ∀ chosen index, 0 < size → arena.findSlab size alignment response = .ok (chosen, index) →
          (chosen.allocateFromSlab size alignment index).isSome := by
  have hinv := h.inv
  refine ⟨fun slab hslab => ?_, hinv.bytes, hinv.live, ?_⟩
  · obtain ⟨tiles, htiled⟩ := (hinv.slabs.ok slab hslab).tiled
    exact htiled.partitioned
  · intro size alignment allocation response hpower hadm
    refine ⟨(allocate_spec _ hinv hadm).2, fun chosen index hsize hfind => ?_⟩
    obtain ⟨hinv', -, slab, hget, hfits⟩ := findSlab_spec hinv hpower hsize hadm hfind
    have hok := hinv'.slabs.ok slab (List.mem_of_getElem? hget)
    have hsome := hok.allocate_isSome hsize hfits chosen.takeToken.1
    rw [Arena.allocateFromSlab, hget, Option.bind_some, Option.isSome_map]
    exact hsome

/-- An arena with one allocation, in a block at an address that no alignment divides. -/
def oneAllocation : Arena :=
  ((Arena.fresh 1 .mainNonCached 65536).allocate 100 256 {} (.mapped 2147483908)).arena

/-- The next allocation is cut out of the range behind the first. -/
theorem Reachable.sound_oneAllocation :
    (∀ slab ∈ oneAllocation.slabs, slab.Partitioned) ∧
      oneAllocation.allocatedBytes = liveBytes oneAllocation.slabs ∧
      oneAllocation.slabs.map Slab.freeRanges = [[(0, 252), (352, 65184)]] ∧
      oneAllocation.Placed (oneAllocation.allocate 300 64 {} (.failed 0)).arena 300 64
        (oneAllocation.allocate 300 64 {} (.failed 0)).allocation ∧
      (oneAllocation.allocate 300 64 {} (.failed 0)).allocation.data = 2147484288 := by
  have hblock : allocateMappedBlock .mainNonCached
      ((Arena.fresh 1 .mainNonCached 65536).blockRequest 100 256) (.mapped 2147483908) =
        .ok ⟨2147483908, 69632, true⟩ := by decide +kernel
  have hreach : Reachable oneAllocation := by
    refine Reachable.allocate 100 256 {} _ (.fresh 1 65536 .mainNonCached) fun block hok => ?_
    obtain rfl := Except.ok.inj (hblock.symm.trans hok)
    exact ⟨by decide, fun slab hslab => (List.not_mem_nil hslab).elim⟩
  obtain ⟨hpartitioned, hbytes, -, hcalls⟩ := hreach.sound
  refine ⟨hpartitioned, hbytes, by decide +kernel, ?_, by decide +kernel⟩
  refine (hcalls 300 64 {} (.failed 0) (by decide) fun block hok => ?_).1 (by decide +kernel)
  have hfailed : allocateMappedBlock oneAllocation.memory (oneAllocation.blockRequest 300 64)
      (.failed 0) = .error (.block 0) := by decide +kernel
  cases hfailed.symm.trans hok

end VitaSX2.GxmArena
