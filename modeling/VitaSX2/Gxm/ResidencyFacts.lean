/-
What `Acquire` does to the tables of the planner, and the regions of its pairs.

A call may create targets and append one pair; it changes no entry that is
there.  The regions of the pairs stay live in the allocator, in slots of their
own.
-/
import VitaSX2.Gxm.Residency

namespace VitaSX2.RenderStore

/-! ### A pair of regions -/

/-- What `allocatePair` leaves and promises. -/
structure Allocator.AllocatesPair (a : Allocator) (key : PairKey) (a' : Allocator)
    (regions : Option (Region × Region)) : Prop where
  ok : a'.Ok
  kept : ∀ plane region, a.IsLive plane region → a'.IsLive plane region
  color : ∀ color depth, regions = some (color, depth) → key.color.isSome = true →
    a'.IsLive .color color ∧ ∀ plane region, a.IsLive plane region → region.slot ≠ color.slot
  depth : ∀ color depth, regions = some (color, depth) → key.depth.isSome = true →
    a'.IsLive .depth depth ∧ ∀ plane region, a.IsLive plane region → region.slot ≠ depth.slot
  coincide : ∀ color depth, regions = some (color, depth) → key.color.isSome = true →
    key.depth.isSome = true → color.x = depth.x ∧ color.y = depth.y ∧
      color.width = depth.width ∧ color.height = depth.height

namespace Allocator

variable {a a' : Allocator} {key : PairKey}

/-- An attachment that is wanted is allocated; the other one leaves the allocator alone. -/
lemma allocate_if (hok : a.Ok) {wanted : Bool} {plane : Plane} {width height : ℕ}
    {preferred : Option Region} {region : Region}
    (h : (if wanted then a.allocate plane width height preferred else some (a, {})) =
      some (a', region)) :
    (wanted = true ∧ Allocates a plane a' region) ∨ (wanted = false ∧ a' = a) := by
  cases wanted with
  | true => exact Or.inl ⟨rfl, allocate_allocates hok h⟩
  | false => exact Or.inr ⟨rfl, (Prod.mk.inj (Option.some.inj h)).1.symm⟩

lemma allocatePair_spec (hok : a.Ok) {width height : ℕ} {regions : Option (Region × Region)}
    (h : a.allocatePair key width height = (a', regions)) : AllocatesPair a key a' regions := by
  unfold allocatePair at h
  split at h
  next =>
    obtain ⟨rfl, rfl⟩ := Prod.mk.inj h
    exact ⟨hok, fun _ _ h => h, nofun, nofun, nofun⟩
  next a₁ color hcolor =>
    have hcolor := allocate_if hok hcolor
    have hok₁ : a₁.Ok := by
      rcases hcolor with ⟨-, hcolor⟩ | ⟨-, rfl⟩
      · exact hcolor.ok
      · exact hok
    -- giving the color region back hurts no region that was live before
    have hundo : ∀ a₂ : Allocator, (∀ plane region, a₁.IsLive plane region →
        a₂.IsLive plane region) → key.color.isSome = true → ∀ plane region, a.IsLive plane region →
          (a₂.release .color color).IsLive plane region := by
      rintro a₂ hkept hsome plane region hlive
      rcases hcolor with ⟨-, hcolor⟩ | ⟨hnone, -⟩
      · obtain ⟨hlive₁, hne⟩ := hcolor.isLive hlive
        exact release_isLive (hkept _ _ hlive₁) hne
      · rw [hsome] at hnone
        cases hnone
    have hkept₁ : ∀ plane region, a.IsLive plane region → a₁.IsLive plane region := by
      rcases hcolor with ⟨-, hcolor⟩ | ⟨-, rfl⟩
      · exact fun _ _ hlive => (hcolor.isLive hlive).1
      · exact fun _ _ hlive => hlive
    dsimp only at h
    generalize (if key.color.isSome = true then some color else none) = preferred at h
    split at h
    next =>
      obtain ⟨rfl, rfl⟩ := Prod.mk.inj h
      refine ⟨?_, fun plane region hlive => ?_, nofun, nofun, nofun⟩
      · split
        · exact release_ok hok₁ _ _
        · exact hok₁
      · split
        next hsome => exact hundo a₁ (fun _ _ h => h) hsome plane region hlive
        next => exact hkept₁ _ _ hlive
    next a₂ depth hdepth =>
      have hdepth := allocate_if hok₁ hdepth
      have hok₂ : a₂.Ok := by
        rcases hdepth with ⟨-, hdepth⟩ | ⟨-, rfl⟩
        · exact hdepth.ok
        · exact hok₁
      have hkept₂ : ∀ plane region, a₁.IsLive plane region → a₂.IsLive plane region := by
        rcases hdepth with ⟨-, hdepth⟩ | ⟨-, rfl⟩
        · exact fun _ _ hlive => (hdepth.isLive hlive).1
        · exact fun _ _ hlive => hlive
      split at h
      next hapart =>
        obtain ⟨rfl, rfl⟩ := Prod.mk.inj h
        refine ⟨release_ok (release_ok hok₂ _ _) _ _, fun plane region hlive => ?_, nofun, nofun,
          nofun⟩
        rcases hdepth with ⟨-, hdepth⟩ | ⟨hnone, -⟩
        · exact release_isLive (hundo a₂ hkept₂ hapart.1 plane region hlive)
            (hdepth.isLive (hkept₁ _ _ hlive)).2
        · rw [hapart.2.1] at hnone
          cases hnone
      next htogether =>
        obtain ⟨rfl, rfl⟩ := Prod.mk.inj h
        refine ⟨hok₂, fun _ _ hlive => hkept₂ _ _ (hkept₁ _ _ hlive), ?_, ?_, ?_⟩
        · rintro _ _ ⟨⟩ hsome
          rcases hcolor with ⟨-, hcolor⟩ | ⟨hnone, -⟩
          · exact ⟨hkept₂ _ _ hcolor.live, fun _ _ hlive => (hcolor.isLive hlive).2⟩
          · rw [hsome] at hnone
            cases hnone
        · rintro _ _ ⟨⟩ hsome
          rcases hdepth with ⟨-, hdepth⟩ | ⟨hnone, -⟩
          · exact ⟨hdepth.live, fun _ _ hlive => (hdepth.isLive (hkept₁ _ _ hlive)).2⟩
          · rw [hsome] at hnone
            cases hnone
        · rintro _ _ ⟨⟩ hsome hsome'
          simp only [hsome, hsome', true_and] at htogether
          grind

end Allocator

namespace Planner

variable {p p₁ p₂ p' : Planner} {key : PairKey}

/-! ### What an acquisition leaves -/

/-- The targets of `p'` are those of `p`, and new ones. -/
def KeepsTargets (p p' : Planner) : Prop :=
  ∀ key, p'.findTarget key = p.findTarget key ∨
    (p.findTarget key = none ∧ p'.findTarget key = some { key })

lemma KeepsTargets.found (h : KeepsTargets p p') {key : TargetKey} {target : TargetState}
    (hfound : p.findTarget key = some target) : p'.findTarget key = some target := by
  rcases h key with hsame | ⟨hnone, -⟩
  · rw [hsame, hfound]
  · rw [hnone] at hfound
    cases hfound

lemma KeepsTargets.trans (h : KeepsTargets p p₁) (h' : KeepsTargets p₁ p₂) :
    KeepsTargets p p₂ := by
  rintro key
  rcases h key with hsame | ⟨hnone, hnew⟩
  · rw [← hsame]
    exact h' key
  · exact Or.inr ⟨hnone, h'.found hnew⟩

lemma resolve_spec {target : Option TargetKey} {found : Option TargetState}
    (h : p.resolve target = (p', found)) :
    p'.allocator = p.allocator ∧ p'.residencies = p.residencies ∧ KeepsTargets p p' ∧
      (found.isSome = true → target.isSome = true) ∧
      ∀ key state, target = some key → found = some state → p'.findTarget key = some state := by
  cases target with
  | none =>
    obtain ⟨rfl, rfl⟩ := Prod.mk.inj h
    exact ⟨rfl, rfl, fun _ => Or.inl rfl, fun h => h, nofun⟩
  | some key =>
    obtain ⟨hallocator, hresidencies, hfound, htargets⟩ := findOrCreateTarget_spec h
    refine ⟨hallocator, hresidencies, fun key' => ?_, fun _ => rfl, ?_⟩
    · rcases htargets key' with hsame | ⟨rfl, hnone, hnew⟩
      · exact Or.inl hsame
      · exact Or.inr ⟨hnone, hnew⟩
    · rintro _ state ⟨⟩ hstate
      exact hfound state hstate

/-- The targets of a pair have been found, each in the plane of its own. -/
structure Resolved (p : Planner) (key : PairKey) (color depth : Option TargetState) : Prop where
  color : ∀ k, key.color = some k → k.plane = .color ∧
    ∃ t, color = some t ∧ p.findTarget k = some t
  depth : ∀ k, key.depth = some k → k.plane = .depth ∧
    ∃ t, depth = some t ∧ p.findTarget k = some t

lemma Resolved.target {color depth : Option TargetState} (h : Resolved p key color depth)
    {plane : Plane} {k : TargetKey} (hk : key.target plane = some k) :
    k.plane = plane ∧ ∃ t, p.findTarget k = some t := by
  cases plane with
  | color => exact (h.color k hk).imp_right fun ⟨t, _, hfound⟩ => ⟨t, hfound⟩
  | depth => exact (h.depth k hk).imp_right fun ⟨t, _, hfound⟩ => ⟨t, hfound⟩

/-- The ways `Acquire` can end. -/
inductive Acquires (p : Planner) (key : PairKey) : Planner → Option Acquisition → Prop
  /-- Nothing but new targets. -/
  | failed {p' : Planner} (hallocator : p'.allocator = p.allocator)
      (hresidencies : p'.residencies = p.residencies) (htargets : KeepsTargets p p') :
      Acquires p key p' none
  /-- No regions. -/
  | crowded {p' : Planner} {allocator : Allocator} {width height : ℕ}
      (hpair : p.allocator.allocatePair key width height = (allocator, none))
      (hallocator : p'.allocator = allocator) (hresidencies : p'.residencies = p.residencies)
      (htargets : KeepsTargets p p') : Acquires p key p' none
  | found {p' : Planner} {color depth : Option TargetState} {index : ℕ} {r : Residency}
      (hallocator : p'.allocator = p.allocator) (hresidencies : p'.residencies = p.residencies)
      (htargets : KeepsTargets p p') (hresolved : Resolved p' key color depth)
      (hget : p'.residencies[index]? = some r) (hkey : r.key = key) :
      Acquires p key p' (some (acquisition index r color depth false))
  | created {p' : Planner} {color depth : Option TargetState} {allocator : Allocator}
      {width height : ℕ} {colorRegion depthRegion : Region}
      (hpair : p.allocator.allocatePair key width height =
        (allocator, some (colorRegion, depthRegion)))
      (hallocator : p'.allocator = allocator)
      (hresidencies : p'.residencies = p.residencies ++ [⟨key, colorRegion, depthRegion, 0, 0⟩])
      (htargets : KeepsTargets p p') (hresolved : Resolved p' key color depth) :
      Acquires p key p' (some (acquisition p.residencies.length
        ⟨key, colorRegion, depthRegion, 0, 0⟩ color depth true))

lemma acquire_cases (p : Planner) (key : PairKey) (width height : ℕ) :
    Acquires p key (p.acquire key width height).1 (p.acquire key width height).2 := by
  have hrefl : KeepsTargets p p := fun _ => Or.inl rfl
  unfold acquire
  split
  next => exact .failed rfl rfl hrefl
  next =>
    split
    next => exact .failed rfl rfl hrefl
    next hplanes =>
      rcases hcolor : p.resolve key.color with ⟨p₁, color⟩
      rcases hdepth : p₁.resolve key.depth with ⟨p₂, depth⟩
      obtain ⟨hallocator₁, hresidencies₁, htargets₁, -, hfound₁⟩ := resolve_spec hcolor
      obtain ⟨hallocator₂, hresidencies₂, htargets₂, -, hfound₂⟩ := resolve_spec hdepth
      have htargets := htargets₁.trans htargets₂
      have hallocator := hallocator₂.trans hallocator₁
      have hresidencies := hresidencies₂.trans hresidencies₁
      simp only [hdepth]
      split
      next => exact .failed hallocator hresidencies htargets
      next hboth =>
        have hresolved : Resolved p₂ key color depth := by
          refine ⟨fun k hk => ?_, fun k hk => ?_⟩
          · obtain ⟨t, rfl⟩ : ∃ t, color = some t := by
              cases color with
              | none => simp [hk] at hboth
              | some t => exact ⟨t, rfl⟩
            refine ⟨?_, t, rfl, htargets₂.found (hfound₁ k t hk rfl)⟩
            simp only [hk, Option.any_some, Bool.or_eq_true, not_or] at hplanes
            simp [TargetKey.plane, hplanes.1]
          · obtain ⟨t, rfl⟩ : ∃ t, depth = some t := by
              cases depth with
              | none => simp [hk] at hboth
              | some t => exact ⟨t, rfl⟩
            refine ⟨?_, t, rfl, hfound₂ k t hk rfl⟩
            simp only [hk, Option.any_some, Bool.or_eq_true, not_or] at hplanes
            simpa [TargetKey.plane] using hplanes.2
        split
        next index hindex =>
          obtain ⟨hlt, hkey⟩ := List.findIdx?_eq_some_iff_getElem.mp hindex
          rw [List.getElem?_eq_getElem hlt]
          exact .found hallocator hresidencies htargets hresolved (List.getElem?_eq_getElem hlt)
            (by simpa using hkey.1)
        next =>
          split
          next => exact .failed hallocator hresidencies htargets
          next =>
            rw [hallocator]
            split
            next allocator hpair => exact .crowded hpair rfl hresidencies htargets
            next allocator colorRegion depthRegion hpair =>
              rw [hresidencies]
              exact .created hpair rfl rfl htargets ⟨hresolved.color, hresolved.depth⟩

/-- An entry of the table with a new one at its end. -/
lemma getElem?_snoc {residencies : List Residency} {index : ℕ} {r new : Residency}
    (h : (residencies ++ [new])[index]? = some r) :
    residencies[index]? = some r ∨ (index = residencies.length ∧ r = new) := by
  rcases Nat.lt_or_ge index residencies.length with hlt | hge
  · exact Or.inl (List.getElem?_append_left hlt ▸ h)
  · rw [List.getElem?_append_right hge, List.getElem?_singleton] at h
    split at h
    next hzero => exact Or.inr ⟨by omega, (Option.some.inj h).symm⟩
    next => cases h

/-- An entry of the table after one has been replaced. -/
lemma getElem?_set_cases {residencies : List Residency} {index i : ℕ} {r r' : Residency}
    (h : (residencies.set index r)[i]? = some r') :
    (i = index ∧ r' = r) ∨ (i ≠ index ∧ residencies[i]? = some r') := by
  rw [List.getElem?_set] at h
  split at h
  next heq =>
    split at h
    next => exact Or.inl ⟨heq.symm, (Option.some.inj h).symm⟩
    next => cases h
  next hne => exact Or.inr ⟨Ne.symm hne, h⟩

/-! ### The regions of the pairs -/

structure RegionsOk (p : Planner) : Prop where
  allocator : p.allocator.Ok
  live : ∀ (i : ℕ) (r : Residency) plane, p.residencies[i]? = some r →
    (r.key.target plane).isSome = true → p.allocator.IsLive plane (r.region plane)
  slots : ∀ (i j : ℕ) (r r' : Residency) plane, i ≠ j → p.residencies[i]? = some r →
    p.residencies[j]? = some r' → (r.key.target plane).isSome = true → (r'.key.target plane).isSome = true →
      (r.region plane).slot ≠ (r'.region plane).slot
  coincide : ∀ (i : ℕ) (r : Residency), p.residencies[i]? = some r → r.key.color.isSome = true →
    r.key.depth.isSome = true → r.colorRegion.x = r.depthRegion.x ∧
      r.colorRegion.y = r.depthRegion.y ∧ r.colorRegion.width = r.depthRegion.width ∧
        r.colorRegion.height = r.depthRegion.height

lemma fresh_regionsOk : fresh.RegionsOk where
  allocator := Allocator.fresh_ok
  live i r plane h := by simp [fresh] at h
  slots i j r r' plane _ h := by simp [fresh] at h
  coincide i r h := by simp [fresh] at h

/-- Regions do not depend on the targets or the versions. -/
lemma RegionsOk.congr (hok : p.RegionsOk) (hallocator : p'.allocator = p.allocator)
    (hresidencies : ∀ (i : ℕ) (r' : Residency), p'.residencies[i]? = some r' → ∃ r : Residency,
      p.residencies[i]? = some r ∧ r'.key = r.key ∧
        ∀ plane, r'.region plane = r.region plane) : p'.RegionsOk := by
  refine ⟨hallocator ▸ hok.allocator, fun i r' plane hget hsome => ?_,
    fun i j r₁ r₂ plane hij hi hj hsome hsome' => ?_, fun i r' hget hsome hsome' => ?_⟩
  · obtain ⟨r, hr, hkey, hregion⟩ := hresidencies i r' hget
    rw [hallocator, hregion]
    exact hok.live i r plane hr (hkey ▸ hsome)
  · obtain ⟨r, hr, hkey, hregion⟩ := hresidencies i r₁ hi
    obtain ⟨r', hr', hkey', hregion'⟩ := hresidencies j r₂ hj
    rw [hregion, hregion']
    exact hok.slots i j r r' plane hij hr hr' (hkey ▸ hsome) (hkey' ▸ hsome')
  · obtain ⟨r, hr, hkey, hregion⟩ := hresidencies i r' hget
    have hcolor : r'.colorRegion = r.colorRegion := hregion .color
    have hdepth : r'.depthRegion = r.depthRegion := hregion .depth
    rw [hcolor, hdepth]
    exact hok.coincide i r hr (hkey ▸ hsome) (hkey ▸ hsome')

/-- Regions that were live stay so in an allocator that keeps them. -/
lemma RegionsOk.keep (hok : p.RegionsOk) (hresidencies : p'.residencies = p.residencies)
    (hallocator : p'.allocator.Ok)
    (hkept : ∀ plane region, p.allocator.IsLive plane region →
      p'.allocator.IsLive plane region) : p'.RegionsOk := by
  refine ⟨hallocator, fun i r plane hget hsome => ?_, ?_, ?_⟩
  · rw [hresidencies] at hget
    exact hkept _ _ (hok.live i r plane hget hsome)
  · rw [hresidencies]
    exact hok.slots
  · rw [hresidencies]
    exact hok.coincide

/-- A new pair takes regions in slots of its own. -/
lemma RegionsOk.create (hok : p.RegionsOk) {allocator : Allocator}
    {colorRegion depthRegion : Region}
    (hpair : p.allocator.AllocatesPair key allocator (some (colorRegion, depthRegion)))
    (hallocator : p'.allocator = allocator)
    (hresidencies : p'.residencies = p.residencies ++ [⟨key, colorRegion, depthRegion, 0, 0⟩]) :
    p'.RegionsOk := by
  subst hallocator
  -- an entry of the table is an old one or the new one
  have hentry : ∀ (i : ℕ) (r : Residency), p'.residencies[i]? = some r →
      p.residencies[i]? = some r ∨ (i = p.residencies.length ∧ r = ⟨key, colorRegion, depthRegion, 0, 0⟩) :=
    fun i r hget => getElem?_snoc (hresidencies ▸ hget)
  have hnew : ∀ plane, (key.target plane).isSome = true →
      p'.allocator.IsLive plane (Residency.region ⟨key, colorRegion, depthRegion, 0, 0⟩ plane) ∧
      ∀ plane' region, p.allocator.IsLive plane' region →
        region.slot ≠ (Residency.region ⟨key, colorRegion, depthRegion, 0, 0⟩ plane).slot := by
    rintro (_ | _) hsome
    · exact hpair.color _ _ rfl hsome
    · exact hpair.depth _ _ rfl hsome
  refine ⟨hpair.ok, fun i r plane hget hsome => ?_,
    fun i j r r' plane hij hi hj hsome hsome' => ?_, fun i r hget hsome hsome' => ?_⟩
  · rcases hentry i r hget with hold | ⟨-, rfl⟩
    · exact hpair.kept _ _ (hok.live i r plane hold hsome)
    · exact (hnew plane hsome).1
  · rcases hentry i r hi with hold | ⟨rfl, rfl⟩ <;> rcases hentry j r' hj with hold' | ⟨rfl, rfl⟩
    · exact hok.slots i j r r' plane hij hold hold' hsome hsome'
    · exact (hnew plane hsome').2 plane _ (hok.live i r plane hold hsome)
    · exact ((hnew plane hsome).2 plane _ (hok.live j r' plane hold' hsome')).symm
    · exact absurd rfl hij
  · rcases hentry i r hget with hold | ⟨-, rfl⟩
    · exact hok.coincide i r hold hsome hsome'
    · exact hpair.coincide _ _ rfl hsome hsome'

/-- Versions and targets may change at will. -/
lemma RegionsOk.setVersion (hok : p.RegionsOk) {index : ℕ} {r : Residency} {version : BitVec 64}
    {plane : Plane} (hget : p.residencies[index]? = some r) (targets : List TargetState) :
    RegionsOk { p with
      targets := targets
      residencies := p.residencies.set index (r.setVersion version plane) } := by
  refine hok.congr rfl fun i r' hr' => ?_
  rcases getElem?_set_cases hr' with ⟨rfl, rfl⟩ | ⟨-, hr⟩
  · exact ⟨r, hget, r.key_setVersion _ _, r.region_setVersion _ _⟩
  · exact ⟨r', hr, rfl, fun _ => rfl⟩

lemma acquire_regionsOk (hok : p.RegionsOk) (key : PairKey) (width height : ℕ) :
    (p.acquire key width height).1.RegionsOk := by
  have hcases := acquire_cases p key width height
  generalize (p.acquire key width height).1 = p', (p.acquire key width height).2 = result at hcases
  cases hcases with
  | failed hallocator hresidencies | found hallocator hresidencies =>
    refine hok.congr hallocator fun i r hget => ⟨r, hresidencies ▸ hget, rfl, fun _ => rfl⟩
  | crowded hpair hallocator hresidencies =>
    have hpair := Allocator.allocatePair_spec hok.allocator hpair
    exact hok.keep hresidencies (hallocator ▸ hpair.ok) (hallocator ▸ hpair.kept)
  | created hpair hallocator hresidencies =>
    exact hok.create (Allocator.allocatePair_spec hok.allocator hpair) hallocator hresidencies

end Planner

end VitaSX2.RenderStore
