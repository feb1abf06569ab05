/-
Runs of the render store allocator, and the handles it gave out.

The history of a run numbers the regions in the order they were handed out and keeps which of
them are live.  A slot is tagged with a generation of sixteen bits that leaves out zero, so
generations come back after 65535 allocations, and `Reset` starts them again.  Within
these bounds a region of the past is never taken for a live one.
-/
import VitaSX2.Gxm.AllocatorExact

namespace VitaSX2.RenderStore

/-- The calls of the allocator. -/
inductive AllocatorOp
  | allocate (plane : Plane) (width height : ℕ) (preferred : Option Region)
  | release (plane : Plane) (region : Region)
  | reset

/-- A region that was handed out, with the plane and the size it was asked for. -/
structure Handle where
  plane : Plane
  width : ℕ
  height : ℕ
  region : Region
deriving DecidableEq

/-- The allocator, all handles in their order, the live ones and the first since `Reset`. -/
structure History where
  allocator : Allocator
  issued : List Handle
  live : List ℕ
  resetAt : ℕ

namespace History

/-- Before the first call. -/
def start : History where
  allocator := Allocator.fresh
  issued := []
  live := []
  resetAt := 0

/-- The handle with this number is for the region. -/
def Names (h : History) (n : ℕ) (plane : Plane) (region : Region) : Prop :=
  ∃ handle, h.issued[n]? = some handle ∧ handle.plane = plane ∧ handle.region = region

instance (h : History) (n : ℕ) (plane : Plane) (region : Region) :
    Decidable (h.Names n plane region) :=
  decidable_of_iff (h.issued[n]?.any fun handle => handle.plane = plane ∧ handle.region = region)
    (by simp [Names, Option.any_eq_true])

def step (h : History) : AllocatorOp → History
  | .allocate plane width height preferred =>
    match h.allocator.allocate plane width height preferred with
    | none => h
    | some (allocator, region) =>
      { h with
        allocator
        issued := h.issued ++ [{ plane, width, height, region }]
        live := h.live ++ [h.issued.length] }
  | .release plane region =>
    { h with
      allocator := (h.allocator.tryRelease plane region).1
      live := h.live.filter fun n => ¬h.Names n plane region }
  | .reset =>
    { h with
      allocator := h.allocator.reset
      live := []
      resetAt := h.issued.length }

def run (h : History) (ops : List AllocatorOp) : History := ops.foldl step h

/-! ### The invariant -/

/-- The generations handed out since `Reset` count up from one to 65535. -/
def generationOf (count : ℕ) : ℕ := count % 65535 + 1

/-- Live handles and live slots are the same, and the tag of a handle is its number. -/
structure Tracked (h : History) : Prop where
  exact : h.allocator.Exact
  resetAt_le : h.resetAt ≤ h.issued.length
  next : h.allocator.nextGeneration < 2 ^ 16 ∧
    h.allocator.generation.1 = generationOf (h.issued.length - h.resetAt)
  issued : ∀ (n : ℕ) (handle : Handle), h.issued[n]? = some handle → h.resetAt ≤ n →
    handle.region.generation = generationOf (n - h.resetAt)
  sized : ∀ handle ∈ h.issued,
    handle.width ≤ handle.region.width ∧ handle.height ≤ handle.region.height
  live : ∀ n ∈ h.live, h.resetAt ≤ n ∧ ∃ handle, h.issued[n]? = some handle ∧
    h.allocator.IsLive handle.plane handle.region
  slot : ∀ i, (h.allocator.slots i).live = true → ∃ n ∈ h.live,
    h.Names n (h.allocator.slots i).plane (h.allocator.slots i).region
  newest : ∀ n ∈ h.live, ∀ (n' : ℕ) (handle handle' : Handle), h.issued[n]? = some handle →
    h.issued[n']? = some handle' → h.resetAt ≤ n' → handle.region.slot = handle'.region.slot →
    n' ≤ n

variable {h : History}

lemma start_tracked : start.Tracked where
  exact := Allocator.fresh_exact
  resetAt_le := Nat.le_refl 0
  next := by decide
  issued n handle hn := by simp [start] at hn
  sized := nofun
  live := nofun
  slot := nofun
  newest := nofun

/-! ### Allocations -/

/-- The next generation follows the one handed out, and leaves out zero. -/
lemma generation_succ {a : Allocator} {count : ℕ}
    (h : a.nextGeneration < 2 ^ 16 ∧ a.generation.1 = generationOf count) (plane : Plane)
    (region : Region) :
    (a.occupy plane region).nextGeneration < 2 ^ 16 ∧
      (a.occupy plane region).generation.1 = generationOf (count + 1) := by
  obtain ⟨hlt, hgeneration⟩ := h
  have hnext : (a.occupy plane region).nextGeneration = a.generation.2 := rfl
  have hstep : a.generation.2 = (a.generation.1 + 1) % 2 ^ 16 := by
    rw [Allocator.generation]
    split <;> rfl
  have hbound : generationOf count ≤ 65535 := by
    simp only [generationOf]
    omega
  rw [hgeneration] at hstep
  refine ⟨by omega, ?_⟩
  have hfirst : ∀ b : Allocator,
      b.generation.1 = if b.nextGeneration = 0 then 1 else b.nextGeneration := by
    intro b
    rw [Allocator.generation]
    split <;> rfl
  rw [hfirst, hnext, hstep]
  split <;> simp only [generationOf] at * <;> omega

lemma getElem?_issued {issued : List Handle} {new handle : Handle} {n : ℕ}
    (h : (issued ++ [new])[n]? = some handle) :
    issued[n]? = some handle ∨ (n = issued.length ∧ handle = new) := by
  rcases Nat.lt_trichotomy n issued.length with hlt | heq | hgt
  · rw [List.getElem?_append_left hlt] at h
    exact Or.inl h
  · subst heq
    rw [List.getElem?_append_right (Nat.le_refl _), Nat.sub_self] at h
    exact Or.inr ⟨rfl, (Option.some.inj h).symm⟩
  · rw [List.getElem?_eq_none (by simp; omega)] at h
    cases h

lemma lt_of_issued {handle : Handle} {n : ℕ} (h' : h.issued[n]? = some handle) :
    n < h.issued.length :=
  (List.getElem?_eq_some_iff.1 h').1

lemma Tracked.allocate (ht : h.Tracked) (plane : Plane) (width height : ℕ)
    (preferred : Option Region) : (h.step (.allocate plane width height preferred)).Tracked := by
  rw [step]
  split
  · exact ht
  · next a' region hsome =>
    have hhands := Allocator.allocate_hands hsome
    have hallocates := hhands.allocates ht.exact.ok
    have hold : ∀ (n : ℕ) (handle : Handle), h.issued[n]? = some handle →
        (h.issued ++ [(⟨plane, width, height, region⟩ : Handle)])[n]? = some handle := by
      intro n handle hn
      rw [List.getElem?_append_left (lt_of_issued hn)]
      exact hn
    have hnew : (h.issued ++ [(⟨plane, width, height, region⟩ : Handle)])[h.issued.length]? =
        some ⟨plane, width, height, region⟩ := by
      rw [List.getElem?_append_right (Nat.le_refl _), Nat.sub_self]
      rfl
    refine ⟨hhands.exact ht.exact, ?_, ?_, fun n handle hn hreset => ?_, fun handle hmem => ?_,
      fun n hn => ?_, fun i hi => ?_, fun n hn n' handle handle' hget hget' hreset hslot => ?_⟩
    · exact Nat.le_trans ht.resetAt_le (by simp)
    · obtain rfl := hhands.after
      have hcount : (h.issued ++ [(⟨plane, width, height, region⟩ : Handle)]).length - h.resetAt =
          h.issued.length - h.resetAt + 1 := by
        have hle := ht.resetAt_le
        simp only [List.length_append, List.length_singleton]
        omega
      rw [hcount]
      exact generation_succ ht.next plane region
    · rcases getElem?_issued hn with hn | ⟨rfl, rfl⟩
      · exact ht.issued n handle hn hreset
      · exact hhands.generation.trans ht.next.2
    · rcases List.mem_append.1 hmem with hmem | hmem
      · exact ht.sized handle hmem
      · obtain rfl := List.mem_singleton.1 hmem
        refine ⟨?_, ?_⟩
        · show width ≤ region.width
          rw [hhands.width]
          exact Allocator.width_le_tiles width
        · show height ≤ region.height
          rw [hhands.height]
          exact Allocator.height_le_tiles height
    · rcases List.mem_append.1 hn with hn | hn
      · obtain ⟨hreset, handle, hget, hlive⟩ := ht.live n hn
        exact ⟨hreset, handle, hold n handle hget, (hallocates.isLive hlive).1⟩
      · obtain rfl := List.mem_singleton.1 hn
        exact ⟨ht.resetAt_le, _, hnew, hallocates.live⟩
    · by_cases hself : i = region.slot
      · subst hself
        obtain ⟨-, -, hplane, hregion⟩ := hallocates.live
        exact ⟨h.issued.length, List.mem_append_right _ (List.mem_singleton.2 rfl), _, hnew,
          hplane.symm, hregion.symm⟩
      · have hkept := hallocates.kept i hself
        rw [hkept] at hi
        obtain ⟨n, hn, handle, hget, hplane, hregion⟩ := ht.slot i hi
        refine ⟨n, List.mem_append_left _ hn, handle, hold n handle hget, ?_, ?_⟩
        · rw [hplane]
          exact congrArg Slot.plane hkept.symm
        · rw [hregion]
          exact congrArg Slot.region hkept.symm
    · rcases getElem?_issued hget' with hget' | ⟨rfl, rfl⟩
      · rcases List.mem_append.1 hn with hn | hn
        · obtain ⟨-, old, hold', -⟩ := ht.live n hn
          rcases getElem?_issued hget with hget | ⟨rfl, -⟩
          · exact ht.newest n hn n' handle handle' hget hget' hreset hslot
          · exact absurd (lt_of_issued hold') (Nat.lt_irrefl _)
        · obtain rfl := List.mem_singleton.1 hn
          exact Nat.le_of_lt (lt_of_issued hget')
      · rcases List.mem_append.1 hn with hn | hn
        · -- the slot of the new region was free, so no older live handle has it
          obtain ⟨-, old, hold', hlive⟩ := ht.live n hn
          have heq : handle = old := by
            rcases getElem?_issued hget with hget | ⟨rfl, -⟩
            · exact Option.some.inj (hget.symm.trans hold')
            · exact absurd (lt_of_issued hold') (Nat.lt_irrefl _)
          exact absurd (heq ▸ hslot) (hallocates.isLive hlive).2
        · exact Nat.le_of_eq (List.mem_singleton.1 hn).symm

/-! ### Releases -/

/-- A live region is named by a live handle, and by no other. -/
lemma Tracked.isLive_iff (ht : h.Tracked) (plane : Plane) (region : Region) :
    h.allocator.IsLive plane region ↔ ∃ n ∈ h.live, h.Names n plane region := by
  constructor
  · rintro ⟨-, hset, rfl, hregion⟩
    obtain ⟨n, hn, hnames⟩ := ht.slot region.slot hset
    rw [hregion] at hnames
    exact ⟨n, hn, hnames⟩
  · rintro ⟨n, hn, handle, hget, rfl, rfl⟩
    obtain ⟨-, handle', hget', hlive⟩ := ht.live n hn
    rwa [Option.some.inj (hget.symm.trans hget')]

lemma Tracked.release (ht : h.Tracked) (plane : Plane) (region : Region) :
    (h.step (.release plane region)).Tracked := by
  by_cases hlive : h.allocator.IsLive plane region
  · have hstep : h.step (.release plane region) =
        { h with
          allocator := h.allocator.release plane region
          live := h.live.filter fun n => ¬h.Names n plane region } := by
      rw [step, Allocator.tryRelease, if_pos hlive]
    have hslot : ∀ i, ((h.allocator.release plane region).slots i).live = true →
        i ≠ region.slot ∧ (h.allocator.release plane region).slots i = h.allocator.slots i := by
      intro i hi
      rw [Allocator.release, if_pos hlive] at hi ⊢
      by_cases heq : i = region.slot
      · subst heq
        simp at hi
      · exact ⟨heq, by simp [Function.update_of_ne heq]⟩
    have hgeneration : (h.allocator.release plane region).nextGeneration =
        h.allocator.nextGeneration := by
      rw [Allocator.release, if_pos hlive]
    rw [hstep]
    refine ⟨Allocator.release_exact ht.exact plane region, ht.resetAt_le, ?_, ht.issued, ht.sized,
      fun n hn => ?_, fun i hi => ?_, fun n hn => ht.newest n (List.mem_filter.1 hn).1⟩
    · have hnext := ht.next
      simp only [Allocator.generation, hgeneration] at hnext ⊢
      exact hnext
    · obtain ⟨hmem, hother⟩ := List.mem_filter.1 hn
      obtain ⟨hreset, handle, hget, hhandle⟩ := ht.live n hmem
      refine ⟨hreset, handle, hget, Allocator.release_isLive hhandle fun heq => ?_⟩
      -- a handle in the same slot is for the released region
      have hnames : h.Names n plane region := by
        obtain ⟨-, -, hplane, hregion⟩ := hlive
        obtain ⟨-, -, hplane', hregion'⟩ := hhandle
        rw [heq] at hplane' hregion'
        exact ⟨handle, hget, hplane'.symm.trans hplane, hregion'.symm.trans hregion⟩
      simp [hnames] at hother
    · obtain ⟨hne, hsame⟩ := hslot i hi
      have hold : (h.allocator.slots i).live = true := hsame ▸ hi
      obtain ⟨n, hn, hnames⟩ := ht.slot i hold
      refine ⟨n, List.mem_filter.2 ⟨hn, ?_⟩, ?_⟩
      · have hother : ¬h.Names n plane region := by
          rintro ⟨handle, hget, -, rfl⟩
          obtain ⟨handle', hget', -, hregion'⟩ := hnames
          obtain rfl := Option.some.inj (hget.symm.trans hget')
          exact hne (hregion' ▸ (ht.exact.ok.slot i hold).2.symm)
        simpa using hother
      · have hkept : h.Names n ((h.allocator.release plane region).slots i).plane
            ((h.allocator.release plane region).slots i).region := hsame.symm ▸ hnames
        exact hkept
  · have hnone : ∀ n ∈ h.live, ¬h.Names n plane region := fun n hn hnames =>
      hlive ((ht.isLive_iff plane region).2 ⟨n, hn, hnames⟩)
    have hstep : h.step (.release plane region) = h := by
      rw [step, Allocator.tryRelease, if_neg hlive, List.filter_eq_self.2]
      intro n hn
      simpa using hnone n hn
    rw [hstep]
    exact ht

lemma Tracked.reset (ht : h.Tracked) : (h.step .reset).Tracked where
  exact := Allocator.reset_exact _
  resetAt_le := Nat.le_refl _
  next := by
    refine ⟨show 1 < 2 ^ 16 by decide, ?_⟩
    show 1 = generationOf (h.issued.length - h.issued.length)
    rw [Nat.sub_self]
    rfl
  issued n handle hn hreset := absurd (lt_of_issued hn) (Nat.not_lt.2 hreset)
  sized := ht.sized
  live := nofun
  slot := nofun
  newest := nofun

theorem Tracked.run (ht : h.Tracked) (ops : List AllocatorOp) : (h.run ops).Tracked := by
  induction ops generalizing h with
  | nil => exact ht
  | cons op ops ih =>
    refine ih ?_
    cases op with
    | allocate plane width height preferred => exact ht.allocate plane width height preferred
    | release plane region => exact ht.release plane region
    | reset => exact ht.reset

/-! ### What holds in every state of a run -/

/-- The handle is spent or is for another plane, and has not been issued too long ago. -/
def Stale (h : History) (n : ℕ) (handle : Handle) (plane : Plane) : Prop :=
  h.issued[n]? = some handle ∧ h.issued.length - (n + 1) < 65535 ∧
    ¬(n ∈ h.live ∧ handle.plane = plane)

instance (h : History) (n : ℕ) (handle : Handle) (plane : Plane) :
    Decidable (h.Stale n handle plane) := inferInstanceAs (Decidable (_ ∧ _ ∧ _))

/-- A release that returns false and changes nothing. -/
def Refused (h : History) (plane : Plane) (region : Region) : Prop :=
  h.allocator.tryRelease plane region = (h.allocator, false)

/-- Live regions are whole tiles inside the store and at least as large as asked for. -/
structure Placed (handle : Handle) : Prop where
  tiled : handle.region.Tiled
  right : handle.region.x + handle.region.width ≤ storeWidth
  bottom : handle.region.y + handle.region.height ≤ storeHeight
  width : handle.width ≤ handle.region.width
  height : handle.height ≤ handle.region.height

/-- What the allocator promises. -/
structure Sound (h : History) : Prop where
  /-- A bit is set exactly for the tiles of live slots, and these are the live handles. -/
  bits : ∀ plane x y, x < tilesX → y < tilesY →
    ((h.allocator.rows plane y).getLsbD x = true ↔ h.allocator.HasLiveTile plane x y)
  slots : ∀ plane region,
    h.allocator.IsLive plane region ↔ ∃ n ∈ h.live, h.Names n plane region
  placed : ∀ n ∈ h.live, ∀ handle, h.issued[n]? = some handle → Placed handle
  disjoint : ∀ n ∈ h.live, ∀ n' ∈ h.live, n ≠ n' → ∀ handle handle', h.issued[n]? = some handle →
    h.issued[n']? = some handle' → handle.plane = handle'.plane → ∀ x y,
      ¬(handle.region.HasPixel x y ∧ handle'.region.HasPixel x y)
  foreign : ∀ plane region, (∀ n ∈ h.live, ¬h.Names n plane region) → h.Refused plane region
  stale : ∀ n handle plane, h.resetAt ≤ n → h.Stale n handle plane → h.Refused plane handle.region
  fails : ∀ plane width height preferred,
    h.allocator.allocate plane width height preferred = none →
      (∀ i < maximumRegions, (h.allocator.slots i).live = true) ∨
        ¬h.allocator.FreeRectangle plane (divideRoundUp width tileWidth)
          (divideRoundUp height tileHeight)

lemma refused_of_not_live {plane : Plane} {region : Region}
    (hdead : ¬h.allocator.IsLive plane region) : h.Refused plane region := by
  rw [Refused, Allocator.tryRelease, if_neg hdead]

/-- The handle of a live number. -/
lemma Tracked.of_live (ht : h.Tracked) {n : ℕ} (hn : n ∈ h.live) {handle : Handle}
    (hget : h.issued[n]? = some handle) : h.allocator.IsLive handle.plane handle.region := by
  obtain ⟨-, handle', hget', hlive⟩ := ht.live n hn
  rwa [Option.some.inj (hget.symm.trans hget')] at *

lemma Tracked.placed (ht : h.Tracked) {n : ℕ} (hn : n ∈ h.live) {handle : Handle}
    (hget : h.issued[n]? = some handle) : Placed handle := by
  obtain ⟨hslot, hset, -, hregion⟩ := ht.of_live hn hget
  have htiled := ht.exact.ok.tiled _ hset
  have hbottom := ht.exact.bottom _ hset
  rw [hregion] at htiled hbottom
  obtain ⟨hwidth, hheight⟩ := ht.sized handle (List.mem_of_getElem? hget)
  exact ⟨htiled, htiled.right, hbottom, hwidth, hheight⟩

/-- Two live handles are in different slots: each is the newest of its slot. -/
lemma Tracked.slot_ne (ht : h.Tracked) {n n' : ℕ} (hn : n ∈ h.live) (hn' : n' ∈ h.live)
    (hne : n ≠ n') {handle handle' : Handle} (hget : h.issued[n]? = some handle)
    (hget' : h.issued[n']? = some handle') : handle.region.slot ≠ handle'.region.slot := by
  intro hslot
  have hle := ht.newest n hn n' handle handle' hget hget' (ht.live n' hn').1 hslot
  have hge := ht.newest n' hn' n handle' handle hget' hget (ht.live n hn).1 hslot.symm
  exact hne (Nat.le_antisymm hge hle)

/-- A stale handle since `Reset` is never taken for a live one: the live handle of its slot is
newer by less than a round of generations. -/
lemma Tracked.stale (ht : h.Tracked) {n : ℕ} {handle : Handle} {plane : Plane}
    (hreset : h.resetAt ≤ n) (hstale : h.Stale n handle plane) : h.Refused plane handle.region := by
  obtain ⟨hget, hrecent, hspent⟩ := hstale
  refine refused_of_not_live fun hlive => ?_
  obtain ⟨m, hm, handle', hget', hplane, hregion⟩ := (ht.isLive_iff plane handle.region).1 hlive
  have hm_reset := (ht.live m hm).1
  have hle := ht.newest m hm n handle' handle hget' hget hreset (by rw [hregion])
  have hgeneration : generationOf (m - h.resetAt) = generationOf (n - h.resetAt) := by
    rw [← ht.issued m handle' hget' hm_reset, hregion, ht.issued n handle hget hreset]
  have hlt := lt_of_issued hget'
  obtain rfl : m = n := by
    simp only [generationOf] at hgeneration
    omega
  obtain rfl := Option.some.inj (hget.symm.trans hget')
  exact hspent ⟨hm, hplane⟩

lemma Tracked.toSound (ht : h.Tracked) : h.Sound where
  bits plane x y hx _ := ht.exact.bits plane x y hx
  slots := ht.isLive_iff
  placed n hn handle hget := ht.placed hn hget
  disjoint n hn n' hn' hne handle handle' hget hget' hplane x y := by
    have hlive := ht.of_live hn hget
    rw [hplane] at hlive
    exact ht.exact.ok.pixels_disjoint hlive (ht.of_live hn' hget') (ht.slot_ne hn hn' hne hget hget') x y
  foreign plane region hnone := refused_of_not_live fun hlive => by
    obtain ⟨n, hn, hnames⟩ := (ht.isLive_iff plane region).1 hlive
    exact hnone n hn hnames
  stale n handle plane hreset hstale := ht.stale hreset hstale
  fails _ _ _ _ hnone := Allocator.allocate_fails ht.exact hnone

/-- **The allocator keeps its promises after every sequence of calls.** -/
theorem run_sound (ops : List AllocatorOp) : (start.run ops).Sound :=
  (start_tracked.run ops).toSound

/-- A region from before `Reset` is the region handed out again after it, and is released. -/
theorem stale_not_refused_reset :
    ¬∀ (ops : List AllocatorOp) (n : ℕ) (handle : Handle) (plane : Plane),
      (start.run ops).Stale n handle plane → (start.run ops).Refused plane handle.region := by
  intro hall
  have hrefused := hall [.allocate .color 32 32 none, .reset, .allocate .color 32 32 none] 0
    ⟨.color, 32, 32, ⟨0, 0, 32, 32, 0, 1⟩⟩ .color (by decide +kernel)
  exact absurd (congrArg Prod.snd hrefused) (by decide +kernel)

end History

end VitaSX2.RenderStore
