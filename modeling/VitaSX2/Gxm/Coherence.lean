/-
The copies that the planner calls current hold the newest contents.

The planner is run next to the contents it speaks about: a write puts a value
into one copy, a load copies the newest value into a residency, a store copies
the latest residency into the backing.  A copy whose version is the version of
its target has not been overtaken by a write.  This needs that no version comes
twice, and a version comes back after `2 ^ 64 - 1` writes, as zero is left out.
-/
import Mathlib.Logic.Function.Iterate
import VitaSX2.Gxm.ResidencyFacts

namespace VitaSX2.RenderStore

/-- The planner, and the contents of the copies. -/
structure Store (V : Type*) where
  planner : Planner
  copies : ℕ → Plane → V
  backing : TargetKey → V
  newest : TargetKey → V

inductive Op (V : Type*)
  | acquire (key : PairKey) (width height : ℕ)
  | markLoaded (residency : ℕ) (plane : Plane)
  | markWritten (residency : ℕ) (plane : Plane) (value : V)
  | markBackingCurrent (key : TargetKey)
  | markBackingWritten (key : TargetKey) (value : V)

variable {V : Type*}

def Op.writes : Op V → ℕ
  | markWritten _ _ _ | markBackingWritten _ _ => 1
  | _ => 0

/-- The number of writes of a sequence. -/
def writes (ops : List (Op V)) : ℕ := (ops.map Op.writes).sum

namespace Store

def setCopy (s : Store V) (index : ℕ) (plane : Plane) (value : V) : Store V :=
  { s with
    copies := Function.update s.copies index (Function.update (s.copies index) plane value) }

def step (s : Store V) : Op V → Store V
  | .acquire key width height => { s with planner := (s.planner.acquire key width height).1 }
  | .markLoaded index plane =>
    match s.planner.residencyTarget index plane with
    | none => s
    | some (_, target) =>
      { s.setCopy index plane (s.newest target.key) with
        planner := (s.planner.markLoaded index plane).1 }
  | .markWritten index plane value =>
    match s.planner.residencyTarget index plane with
    | none => s
    | some (_, target) =>
      { s.setCopy index plane value with
        planner := (s.planner.markWritten index plane).1
        newest := Function.update s.newest target.key value }
  | .markBackingCurrent key =>
    { s with
      planner := (s.planner.markBackingCurrent key).1
      backing :=
        match s.planner.latestResidency key with
        | none => s.backing
        | some index => Function.update s.backing key (s.copies index key.plane) }
  | .markBackingWritten key value =>
    { s with
      planner := (s.planner.markBackingWritten key).1
      backing := Function.update s.backing key value
      newest := Function.update s.newest key value }

def run (s : Store V) (ops : List (Op V)) : Store V := ops.foldl step s

/-- After `Reset`: the backing holds everything. -/
def reset (copies : ℕ → Plane → V) (contents : TargetKey → V) : Store V where
  planner := Planner.fresh
  copies := copies
  backing := contents
  newest := contents

/-! ### Versions -/

/-- A copy is no newer than its target, and holds the contents if it is as new. -/
def Fresh (stamp version : BitVec 64) (copy contents : V) : Prop :=
  stamp.toNat ≤ version.toNat ∧ (stamp = version → copy = contents)

lemma Fresh.refl (version : BitVec 64) (contents : V) : Fresh version version contents contents :=
  ⟨Nat.le_refl _, fun _ => rfl⟩

/-- A write elsewhere overtakes the copy. -/
lemma Fresh.overtaken {stamp version version' : BitVec 64} {copy contents contents' : V}
    (h : Fresh stamp version copy contents) (hlt : version.toNat < version'.toNat) :
    Fresh stamp version' copy contents' := by
  refine ⟨Nat.le_of_lt (Nat.lt_of_le_of_lt h.1 hlt), ?_⟩
  rintro rfl
  exact absurd h.1 (Nat.not_le_of_gt hlt)

/-- A write raises the version as long as there are versions left. -/
lemma toNat_nextVersion {version : BitVec 64} (h : version.toNat + 1 < 2 ^ 64) :
    (nextVersion version).toNat = version.toNat + 1 := by
  have htoNat : (version + 1).toNat = version.toNat + 1 := by
    rw [BitVec.toNat_add, show (1 : BitVec 64).toNat = 1 from rfl, Nat.mod_eq_of_lt h]
  unfold nextVersion
  split
  next hzero =>
    rw [hzero] at htoNat
    exact absurd htoNat.symm (Nat.succ_ne_zero _)
  next => exact htoNat

/-! ### The invariant -/

/-- The state of a tracked target after `n` writes. -/
structure TargetOk (n : ℕ) (s : Store V) (key : TargetKey) (target : TargetState) : Prop where
  pos : 0 < target.version.toNat
  bound : target.version.toNat ≤ n + 1
  backing : Fresh target.backingVersion target.version (s.backing key) (s.newest key)
  stored : target.latestResidency = none → target.backingVersion = target.version
  latest : ∀ index, target.latestResidency = some index →
    ∃ r : Residency, s.planner.residencies[index]? = some r ∧
      r.key.target key.plane = some key ∧ r.version key.plane = target.version

structure Coherent (n : ℕ) (s : Store V) : Prop where
  target : ∀ key target, s.planner.findTarget key = some target → TargetOk n s key target
  untracked : ∀ key, s.planner.findTarget key = none → s.backing key = s.newest key
  residency : ∀ (index : ℕ) (r : Residency) (plane : Plane) (key : TargetKey),
    s.planner.residencies[index]? = some r → r.key.target plane = some key →
      key.plane = plane ∧ ∃ target, s.planner.findTarget key = some target ∧
        Fresh (r.version plane) target.version (s.copies index plane) (s.newest key)

lemma reset_coherent (copies : ℕ → Plane → V) (contents : TargetKey → V) :
    Coherent 0 (reset copies contents) where
  target key target h := by simp [reset, Planner.fresh, Planner.findTarget] at h
  untracked key h := rfl
  residency index r plane key h := by simp [reset, Planner.fresh] at h

lemma TargetOk.mono {n n' : ℕ} {s : Store V} {key : TargetKey} {target : TargetState}
    (h : TargetOk n s key target) (hle : n ≤ n') : TargetOk n' s key target :=
  ⟨h.pos, Nat.le_trans h.bound (Nat.add_le_add_right hle 1), h.backing, h.stored, h.latest⟩

/-! ### Steps -/

variable {n : ℕ} {s : Store V}

/-- New targets are held by the backing alone, and new residencies hold nothing yet. -/
lemma Coherent.extend (h : Coherent n s) {p' : Planner}
    (htargets : Planner.KeepsTargets s.planner p')
    (hkept : ∀ (index : ℕ) (r : Residency), s.planner.residencies[index]? = some r →
      p'.residencies[index]? = some r)
    (hnew : ∀ (index : ℕ) (r : Residency), p'.residencies[index]? = some r →
      s.planner.residencies[index]? = some r ∨ (∀ plane, r.version plane = 0) ∧
        ∀ plane key, r.key.target plane = some key →
          key.plane = plane ∧ ∃ target, p'.findTarget key = some target) :
    Coherent n { s with planner := p' } := by
  have htarget : ∀ key target, p'.findTarget key = some target →
      TargetOk n { s with planner := p' } key target := fun key target hfound => by
    rcases htargets key with hsame | ⟨hnone, hcreated⟩
    · obtain ⟨hpos, hbound, hbacking, hstored, hlatest⟩ := h.target key target (hsame ▸ hfound)
      refine ⟨hpos, hbound, hbacking, hstored, fun index hindex => ?_⟩
      obtain ⟨r, hr, hrest⟩ := hlatest index hindex
      exact ⟨r, hkept index r hr, hrest⟩
    · obtain rfl := Option.some.inj (hcreated.symm.trans hfound)
      refine ⟨Nat.one_pos, Nat.le_add_left 1 n, ?_, fun _ => rfl, nofun⟩
      rw [show s.backing key = s.newest key from h.untracked key hnone]
      exact Fresh.refl _ _
  refine ⟨htarget, fun key hnone => ?_, fun index r plane key hr hkey => ?_⟩
  · rcases htargets key with hsame | ⟨-, hcreated⟩
    · exact h.untracked key (hsame ▸ hnone)
    · rw [hcreated] at hnone
      cases hnone
  · rcases hnew index r hr with hold | ⟨hzero, hresolved⟩
    · obtain ⟨hplane, target, hfound, hfresh⟩ := h.residency index r plane key hold hkey
      exact ⟨hplane, target, htargets.found hfound, hfresh⟩
    · obtain ⟨hplane, target, hfound⟩ := hresolved plane key hkey
      refine ⟨hplane, target, hfound, ?_⟩
      -- no target has version zero
      have hpos := (htarget key target hfound).pos
      rw [hzero plane]
      refine ⟨Nat.zero_le _, fun heq => ?_⟩
      rw [← heq] at hpos
      exact absurd hpos (Nat.lt_irrefl 0)

lemma Coherent.acquire (h : Coherent n s) (key : PairKey) (width height : ℕ) :
    Coherent n (s.step (.acquire key width height)) := by
  have hcases := s.planner.acquire_cases key width height
  show Coherent n { s with planner := (s.planner.acquire key width height).1 }
  generalize (s.planner.acquire key width height).1 = p',
    (s.planner.acquire key width height).2 = result at hcases
  cases hcases with
  | failed _ hresidencies htargets | crowded _ _ hresidencies htargets
  | found _ hresidencies htargets =>
    exact h.extend htargets (fun _ _ hr => hresidencies ▸ hr)
      fun _ _ hr => Or.inl (hresidencies ▸ hr)
  | created _ _ hresidencies htargets hresolved =>
    refine h.extend htargets (fun index r hr => ?_) fun index r hr => ?_
    · rw [hresidencies]
      exact List.getElem?_append_left (List.getElem?_eq_some_iff.mp hr).1 ▸ hr
    · rw [hresidencies] at hr
      rcases Planner.getElem?_snoc hr with hold | ⟨-, rfl⟩
      · exact Or.inl hold
      · exact Or.inr ⟨fun plane => by cases plane <;> rfl, fun plane k hk => hresolved.target hk⟩

/-- The residency and the target an operation speaks about. -/
lemma residencyTarget_spec {p : Planner} {index : ℕ} {plane : Plane} {r : Residency}
    {target : TargetState} (h : p.residencyTarget index plane = some (r, target)) :
    p.residencies[index]? = some r ∧ r.key.target plane = some target.key ∧
      p.findTarget target.key = some target := by
  unfold Planner.residencyTarget at h
  obtain ⟨r', hr, hrest⟩ := Option.bind_eq_some_iff.mp h
  obtain ⟨target', hfound, heq⟩ := Option.map_eq_some_iff.mp hrest
  obtain ⟨key, hkey, hfound⟩ := Option.bind_eq_some_iff.mp hfound
  obtain ⟨rfl, rfl⟩ := Prod.mk.inj heq
  obtain rfl := Planner.key_of_findTarget hfound
  exact ⟨hr, hkey, hfound⟩

/-- The residency keeps its version in the other plane. -/
lemma version_setVersion {r : Residency} {key key' : TargetKey} {plane : Plane}
    (hkey : r.key.target plane = some key) (hne : key' ≠ key) {plane' : Plane}
    (hkey' : r.key.target plane' = some key') (version : BitVec 64) :
    plane' ≠ plane ∧ (r.setVersion version plane).version plane' = r.version plane' := by
  have hplane : plane' ≠ plane := by
    rintro rfl
    exact hne (Option.some.inj (hkey'.symm.trans hkey))
  exact ⟨hplane, r.version_setVersion_of_ne version hplane⟩

lemma setCopy_self (s : Store V) (index : ℕ) (plane : Plane) (value : V) :
    (s.setCopy index plane value).copies index plane = value := by
  simp [setCopy]

lemma setCopy_of_ne (s : Store V) {index index' : ℕ} {plane plane' : Plane} (value : V)
    (h : index' ≠ index ∨ plane' ≠ plane) :
    (s.setCopy index plane value).copies index' plane' = s.copies index' plane' := by
  by_cases hindex : index' = index
  · subst hindex
    rcases h with h | h
    · exact absurd rfl h
    · simp [setCopy, Function.update_of_ne h]
  · simp [setCopy, Function.update_of_ne hindex]

lemma Coherent.markLoaded (h : Coherent n s) (index : ℕ) (plane : Plane) :
    Coherent n (s.step (.markLoaded index plane)) := by
  rcases htarget : s.planner.residencyTarget index plane with _ | ⟨r, target⟩
  · simpa only [step, htarget] using h
  · obtain ⟨hr, hkey, hfound⟩ := residencyTarget_spec htarget
    simp only [step, htarget, Planner.markLoaded]
    refine ⟨fun key' target' hfound' => ?_, h.untracked, fun i r' plane' key' hr' hkey' => ?_⟩
    · obtain ⟨hpos, hbound, hbacking, hstored, hlatest⟩ := h.target key' target' hfound'
      refine ⟨hpos, hbound, hbacking, hstored, fun i hi => ?_⟩
      obtain ⟨r', hr', hkey', hversion⟩ := hlatest i hi
      by_cases hindex : i = index
      · subst hindex
        obtain rfl := Option.some.inj (hr'.symm.trans hr)
        refine ⟨_, List.getElem?_set_self (List.getElem?_eq_some_iff.mp hr).1, by simpa using hkey',
          ?_⟩
        by_cases hsame : key' = target.key
        · subst hsame
          obtain rfl := Option.some.inj (hfound'.symm.trans hfound)
          rw [(h.residency i _ plane _ hr hkey).1]
          exact Residency.version_setVersion_self _ _ _
        · rw [(version_setVersion hkey hsame hkey' _).2]
          exact hversion
      · exact ⟨r', by rw [List.getElem?_set_ne (Ne.symm hindex)]; exact hr', hkey', hversion⟩
    · rcases Planner.getElem?_set_cases hr' with ⟨rfl, rfl⟩ | ⟨hindex, hr'⟩
      · rw [Residency.key_setVersion] at hkey'
        obtain ⟨hplane', target', hfound', hfresh⟩ := h.residency i r plane' key' hr hkey'
        refine ⟨hplane', target', hfound', ?_⟩
        by_cases hsame : key' = target.key
        · subst hsame
          obtain rfl := Option.some.inj (hfound'.symm.trans hfound)
          obtain rfl := hplane'.symm.trans (h.residency i r plane _ hr hkey).1
          rw [Residency.version_setVersion_self]
          show Fresh _ _ ((s.setCopy i _ (s.newest target'.key)).copies i _) _
          rw [setCopy_self]
          exact Fresh.refl _ _
        · obtain ⟨hplane, hversion⟩ := version_setVersion hkey hsame hkey' target.version
          rw [hversion]
          show Fresh _ _ ((s.setCopy i plane (s.newest target.key)).copies i plane') _
          rw [setCopy_of_ne s _ (Or.inr hplane)]
          exact hfresh
      · obtain ⟨hplane', target', hfound', hfresh⟩ := h.residency i r' plane' key' hr' hkey'
        refine ⟨hplane', target', hfound', ?_⟩
        show Fresh _ _ ((s.setCopy index plane (s.newest target.key)).copies i plane') _
        rw [setCopy_of_ne s _ (Or.inl hindex)]
        exact hfresh

/-- There is a version left for one more write. -/
lemma TargetOk.toNat_nextVersion {key : TargetKey} {target : TargetState}
    (h : TargetOk n s key target) (hwrites : n + 1 < 2 ^ 64 - 1) :
    (nextVersion target.version).toNat = target.version.toNat + 1 := by
  have hbound := h.bound
  exact Store.toNat_nextVersion (by omega)

lemma Coherent.markWritten (h : Coherent n s) (hwrites : n + 1 < 2 ^ 64 - 1) (index : ℕ)
    (plane : Plane) (value : V) : Coherent (n + 1) (s.step (.markWritten index plane value)) := by
  rcases htarget : s.planner.residencyTarget index plane with _ | ⟨r, target⟩
  · simp only [step, htarget]
    exact ⟨fun key target hfound => (h.target key target hfound).mono (Nat.le_succ n), h.untracked,
      h.residency⟩
  · obtain ⟨hr, hkey, hfound⟩ := residencyTarget_spec htarget
    simp only [step, htarget, Planner.markWritten]
    set version := nextVersion target.version
    have hnext : version.toNat = target.version.toNat + 1 :=
      (h.target _ _ hfound).toNat_nextVersion hwrites
    have hplane := (h.residency index r plane _ hr hkey).1
    set p' : Planner := { s.planner.updateTarget target.key fun target =>
      { target with version := version, latestResidency := some index } with
        residencies := s.planner.residencies.set index (r.setVersion version plane) }
    have hself : p'.findTarget target.key =
        some { target with version := version, latestResidency := some index } :=
      Planner.findTarget_updateTarget_self (fun _ => rfl) hfound
    have hother : ∀ key', key' ≠ target.key → p'.findTarget key' = s.planner.findTarget key' :=
      fun key' hne => Planner.findTarget_updateTarget_of_ne (fun _ => rfl) hne
    refine ⟨fun key' target' hfound' => ?_, fun key' hnone => ?_,
      fun i r' plane' key' hr' hkey' => ?_⟩
    · by_cases hsame : key' = target.key
      · subst hsame
        obtain rfl := Option.some.inj (hself.symm.trans hfound')
        obtain ⟨hpos, hbound, hbacking, -, -⟩ := h.target _ _ hfound
        refine ⟨by simp only [hnext]; omega, by simp only [hnext]; omega,
          hbacking.overtaken (by simp only [hnext]; omega), nofun, ?_⟩
        rintro _ ⟨⟩
        refine ⟨_, List.getElem?_set_self (List.getElem?_eq_some_iff.mp hr).1,
          by simpa [hplane] using hkey, ?_⟩
        rw [hplane]
        exact Residency.version_setVersion_self _ _ _
      · rw [hother key' hsame] at hfound'
        obtain ⟨hpos, hbound, hbacking, hstored, hlatest⟩ := h.target key' target' hfound'
        refine ⟨hpos, by omega, ?_, hstored, fun i hi => ?_⟩
        · show Fresh _ _ (s.backing key') (Function.update s.newest target.key value key')
          rw [Function.update_of_ne hsame]
          exact hbacking
        · obtain ⟨r', hr', hkey', hversion⟩ := hlatest i hi
          by_cases hindex : i = index
          · subst hindex
            obtain rfl := Option.some.inj (hr'.symm.trans hr)
            refine ⟨_, List.getElem?_set_self (List.getElem?_eq_some_iff.mp hr).1,
              by simpa using hkey', ?_⟩
            rw [(version_setVersion hkey hsame hkey' _).2]
            exact hversion
          · exact ⟨r', by rw [List.getElem?_set_ne (Ne.symm hindex)]; exact hr', hkey', hversion⟩
    · have hsame : key' ≠ target.key := by
        rintro rfl
        rw [show p'.findTarget target.key = none from hnone] at hself
        cases hself
      show s.backing key' = Function.update s.newest target.key value key'
      rw [Function.update_of_ne hsame]
      exact h.untracked key' (hother key' hsame ▸ hnone)
    · show _ ∧ ∃ target', p'.findTarget key' = some target' ∧
        Fresh _ _ ((s.setCopy index plane value).copies i plane')
          (Function.update s.newest target.key value key')
      by_cases hsame : key' = target.key
      · subst hsame
        rcases Planner.getElem?_set_cases hr' with ⟨rfl, rfl⟩ | ⟨hindex, hr'⟩
        · rw [Residency.key_setVersion] at hkey'
          obtain rfl := (h.residency i r plane' _ hr hkey').1.symm.trans hplane
          refine ⟨hplane, _, hself, ?_⟩
          rw [Residency.version_setVersion_self, setCopy_self, Function.update_self]
          exact Fresh.refl _ _
        · obtain ⟨hplane', target', hfound', hfresh⟩ := h.residency i r' plane' _ hr' hkey'
          obtain rfl := Option.some.inj (hfound'.symm.trans hfound)
          refine ⟨hplane', _, hself, ?_⟩
          rw [setCopy_of_ne s _ (Or.inl hindex)]
          exact hfresh.overtaken (by simp only [hnext]; omega)
      · rw [hother key' hsame, Function.update_of_ne hsame]
        rcases Planner.getElem?_set_cases hr' with ⟨rfl, rfl⟩ | ⟨hindex, hr'⟩
        · rw [Residency.key_setVersion] at hkey'
          obtain ⟨hne, hversion⟩ := version_setVersion hkey hsame hkey' version
          rw [hversion, setCopy_of_ne s _ (Or.inr hne)]
          exact h.residency i r plane' key' hr hkey'
        · rw [setCopy_of_ne s _ (Or.inl hindex)]
          exact h.residency i r' plane' key' hr' hkey'

/-- A change of the versions of one target that leaves the residencies alone. -/
lemma Coherent.updateTarget (h : Coherent n s) {n' : ℕ} (hle : n ≤ n') {key : TargetKey}
    {target : TargetState} (hfound : s.planner.findTarget key = some target)
    {f : TargetState → TargetState} (hf : ∀ target, (f target).key = target.key)
    {backing newest : TargetKey → V} (hbacking : ∀ k, k ≠ key → backing k = s.backing k)
    (hnewest : ∀ k, k ≠ key → newest k = s.newest k)
    (hupdated : ∀ s' : Store V, s'.planner.residencies = s.planner.residencies →
      s'.backing key = backing key → s'.newest key = newest key → TargetOk n' s' key (f target))
    (hfresh : ∀ stamp copy, Fresh stamp target.version copy (s.newest key) →
      Fresh stamp (f target).version copy (newest key)) :
    Coherent n' { s with
      planner := s.planner.updateTarget key f
      backing := backing
      newest := newest } := by
  have hself := Planner.findTarget_updateTarget_self hf hfound
  have hother : ∀ k, k ≠ key →
      (s.planner.updateTarget key f).findTarget k = s.planner.findTarget k :=
    fun k hne => Planner.findTarget_updateTarget_of_ne hf hne
  refine ⟨fun k t hk => ?_, fun k hk => ?_, fun i r plane k hr hkey => ?_⟩
  · by_cases hsame : k = key
    · subst hsame
      obtain rfl := Option.some.inj (hself.symm.trans hk)
      exact hupdated _ rfl rfl rfl
    · obtain ⟨hpos, hbound, hfreshBacking, hstored, hlatest⟩ := h.target k t (hother k hsame ▸ hk)
      refine ⟨hpos, by omega, ?_, hstored, hlatest⟩
      show Fresh _ _ (backing k) (newest k)
      rw [hbacking k hsame, hnewest k hsame]
      exact hfreshBacking
  · have hsame : k ≠ key := by
      rintro rfl
      rw [show (s.planner.updateTarget k f).findTarget k = none from hk] at hself
      cases hself
    show backing k = newest k
    rw [hbacking k hsame, hnewest k hsame]
    exact h.untracked k (hother k hsame ▸ hk)
  · obtain ⟨hplane, t, hk, hcopy⟩ := h.residency i r plane k hr hkey
    refine ⟨hplane, ?_⟩
    show ∃ t, (s.planner.updateTarget key f).findTarget k = some t ∧
      Fresh _ t.version _ (newest k)
    by_cases hsame : k = key
    · subst hsame
      obtain rfl := Option.some.inj (hk.symm.trans hfound)
      exact ⟨_, hself, hfresh _ _ hcopy⟩
    · rw [hother k hsame, hnewest k hsame]
      exact ⟨t, hk, hcopy⟩

/-- The latest residency holds the newest contents, or else the backing does. -/
lemma Coherent.latest (h : Coherent n s) {key : TargetKey} {target : TargetState}
    (hfound : s.planner.findTarget key = some target) :
    (target.latestResidency = none → s.backing key = s.newest key) ∧
      ∀ index, target.latestResidency = some index → s.copies index key.plane = s.newest key := by
  obtain ⟨-, -, hbacking, hstored, hlatest⟩ := h.target key target hfound
  refine ⟨fun hnone => hbacking.2 (hstored hnone), fun index hindex => ?_⟩
  obtain ⟨r, hr, hkey, hversion⟩ := hlatest index hindex
  obtain ⟨-, target', hfound', hfresh⟩ := h.residency index r _ key hr hkey
  obtain rfl := Option.some.inj (hfound.symm.trans hfound')
  exact hfresh.2 hversion

lemma Coherent.markBackingCurrent (h : Coherent n s) (key : TargetKey) :
    Coherent n (s.step (.markBackingCurrent key)) := by
  rcases hfound : s.planner.findTarget key with _ | target
  · simpa only [step, Planner.markBackingCurrent, Planner.latestResidency, hfound,
      Option.bind_none] using h
  · simp only [step, Planner.markBackingCurrent, Planner.latestResidency, hfound, Option.bind_some]
    obtain ⟨hnone, hsome⟩ := h.latest hfound
    have hok := h.target key target hfound
    -- the backing holds the newest contents now
    refine h.updateTarget (Nat.le_refl n) hfound ?_ (fun k hk => ?_) (fun _ _ => rfl)
      (fun s' hresidencies hbacking hnewest => ⟨hok.pos, hok.bound, ?_, fun _ => rfl, ?_⟩)
      fun _ _ hfresh => hfresh
    · exact fun _ => rfl
    · cases target.latestResidency with
      | none => rfl
      | some index => exact Function.update_of_ne hk _ _
    · rw [hbacking, hnewest]
      cases hlatest : target.latestResidency with
      | none =>
        show Fresh _ _ (s.backing key) _
        rw [hnone hlatest]
        exact Fresh.refl _ _
      | some index =>
        show Fresh _ _ (Function.update s.backing key _ key) _
        rw [Function.update_self, hsome index hlatest]
        exact Fresh.refl _ _
    · rw [hresidencies]
      exact hok.latest

lemma Coherent.markBackingWritten (h : Coherent n s) (hwrites : n + 1 < 2 ^ 64 - 1)
    (key : TargetKey) (value : V) :
    Coherent (n + 1) (s.step (.markBackingWritten key value)) := by
  rcases hcreate : s.planner.findOrCreateTarget key with ⟨p', _ | target⟩
  · -- the table of targets is full: nobody tracks this one
    simp only [step, Planner.markBackingWritten, hcreate]
    obtain ⟨hsame, hnone⟩ : p' = s.planner ∧ s.planner.findTarget key = none := by
      unfold Planner.findOrCreateTarget at hcreate
      split at hcreate
      next => cases hcreate
      next hnone =>
        split at hcreate
        next => cases hcreate
        next => exact ⟨(Prod.mk.inj hcreate).1.symm, hnone⟩
    subst hsame
    have hne : ∀ k t, s.planner.findTarget k = some t → k ≠ key := by
      rintro k t hk rfl
      rw [hnone] at hk
      cases hk
    refine ⟨fun k t hk => ?_, fun k hk => ?_, fun i r plane k hr hkey => ?_⟩
    · obtain ⟨hpos, hbound, hbacking, hstored, hlatest⟩ := h.target k t hk
      refine ⟨hpos, by omega, ?_, hstored, hlatest⟩
      show Fresh _ _ (Function.update s.backing key value k) (Function.update s.newest key value k)
      rw [Function.update_of_ne (hne k t hk), Function.update_of_ne (hne k t hk)]
      exact hbacking
    · show Function.update s.backing key value k = Function.update s.newest key value k
      by_cases hkey : k = key
      · subst hkey
        rw [Function.update_self, Function.update_self]
      · rw [Function.update_of_ne hkey, Function.update_of_ne hkey]
        exact h.untracked k hk
    · obtain ⟨hplane, t, hk, hfresh⟩ := h.residency i r plane k hr hkey
      refine ⟨hplane, t, hk, ?_⟩
      show Fresh _ _ _ (Function.update s.newest key value k)
      rw [Function.update_of_ne (hne k t hk)]
      exact hfresh
  · simp only [step, Planner.markBackingWritten, hcreate]
    obtain ⟨-, hresidencies, hfound, htargets⟩ := Planner.findOrCreateTarget_spec hcreate
    have hextended : Coherent n { s with planner := p' } :=
      h.extend (fun k => (htargets k).imp_right fun ⟨hk, hnone, hnew⟩ =>
          ⟨by rw [hk]; exact hnone, by rw [hk]; exact hnew⟩)
        (fun _ _ hr => hresidencies ▸ hr) fun _ _ hr => Or.inl (hresidencies ▸ hr)
    have hfound := hfound target rfl
    have hok := hextended.target key target hfound
    have hnext := hok.toNat_nextVersion hwrites
    refine hextended.updateTarget (Nat.le_succ n) hfound ?_
      (fun k hk => Function.update_of_ne hk _ _) (fun k hk => Function.update_of_ne hk _ _)
      (fun s' hresidencies hbacking hnewest => ⟨?_, ?_, ?_, fun _ => rfl, nofun⟩)
      fun stamp copy hfresh => ?_
    · exact fun _ => rfl
    · show 0 < (nextVersion target.version).toNat
      omega
    · show (nextVersion target.version).toNat ≤ _
      have hbound := hok.bound
      omega
    · rw [hbacking, hnewest, Function.update_self, Function.update_self]
      exact Fresh.refl _ _
    · refine hfresh.overtaken ?_
      show target.version.toNat < (nextVersion target.version).toNat
      omega

/-! ### Runs -/

/-- One step. -/
lemma Coherent.step (h : Coherent n s) (op : Op V) (hwrites : n + op.writes < 2 ^ 64 - 1) :
    Coherent (n + op.writes) (s.step op) := by
  cases op with
  | acquire key width height => exact h.acquire key width height
  | markLoaded index plane => exact h.markLoaded index plane
  | markWritten index plane value => exact h.markWritten hwrites index plane value
  | markBackingCurrent key => exact h.markBackingCurrent key
  | markBackingWritten key value => exact h.markBackingWritten hwrites key value

lemma regionsOk_step (h : s.planner.RegionsOk) (op : Op V) : (s.step op).planner.RegionsOk := by
  cases op with
  | acquire key width height => exact Planner.acquire_regionsOk h key width height
  | markLoaded index plane =>
    rcases htarget : s.planner.residencyTarget index plane with _ | ⟨r, target⟩
    · simpa only [Store.step, htarget] using h
    · simp only [Store.step, htarget, Planner.markLoaded]
      exact h.setVersion (residencyTarget_spec htarget).1 s.planner.targets
  | markWritten index plane value =>
    rcases htarget : s.planner.residencyTarget index plane with _ | ⟨r, target⟩
    · simpa only [Store.step, htarget] using h
    · simp only [Store.step, htarget, Planner.markWritten]
      exact h.setVersion (residencyTarget_spec htarget).1 _
  | markBackingCurrent key =>
    simp only [Store.step, Planner.markBackingCurrent]
    split <;> exact h.congr rfl fun i r hr => ⟨r, hr, rfl, fun _ => rfl⟩
  | markBackingWritten key value =>
    rcases hcreate : s.planner.findOrCreateTarget key with ⟨p', found⟩
    obtain ⟨hallocator, hresidencies, -, -⟩ := Planner.findOrCreateTarget_spec hcreate
    have hplanner : ((s.step (.markBackingWritten key value)).planner.allocator = p'.allocator ∧
        (s.step (.markBackingWritten key value)).planner.residencies = p'.residencies) := by
      cases found <;> simp [Store.step, Planner.markBackingWritten, hcreate, Planner.updateTarget]
    refine h.congr (hplanner.1.trans hallocator) fun i r hr => ⟨r, ?_, rfl, fun _ => rfl⟩
    rw [hplanner.2, hresidencies] at hr
    exact hr

/-- A whole run. -/
lemma Coherent.run (h : Coherent n s) (hregions : s.planner.RegionsOk) (ops : List (Op V))
    (hwrites : n + writes ops < 2 ^ 64 - 1) :
    Coherent (n + writes ops) (s.run ops) ∧ (s.run ops).planner.RegionsOk := by
  induction ops generalizing n s with
  | nil => exact ⟨h, hregions⟩
  | cons op ops ih =>
    have hsum : n + writes (op :: ops) = n + op.writes + writes ops := by
      simp [writes, Nat.add_assoc]
    rw [hsum] at hwrites ⊢
    exact ih (h.step op (by omega)) (regionsOk_step hregions op) hwrites

/-- What the users of the store rely on. -/
structure Promises (s : Store V) : Prop where
  /-- What need not be loaded is there. -/
  acquired : ∀ key width height p' acquisition,
    s.planner.acquire key width height = (p', some acquisition) →
    (∃ r : Residency, p'.residencies[acquisition.residency]? = some r ∧ r.key = key) ∧
    (∀ k, key.color = some k → acquisition.loadColor = false →
      s.copies acquisition.residency .color = s.newest k) ∧
    ∀ k, key.depth = some k → acquisition.loadDepth = false →
      s.copies acquisition.residency .depth = s.newest k
  /-- What need not be stored is in the backing. -/
  stored : ∀ key, s.planner.backingNeedsStore key = false → s.backing key = s.newest key
  /-- What has to be stored is in the latest residency. -/
  latest : ∀ key, s.planner.backingNeedsStore key = true →
    ∃ (index : ℕ) (r : Residency), s.planner.latestResidency key = some index ∧
      s.planner.residencies[index]? = some r ∧ r.key.target key.plane = some key ∧
        s.copies index key.plane = s.newest key
  /-- Two pairs share no pixel of a plane. -/
  disjoint : ∀ (i j : ℕ) (r r' : Residency) (plane : Plane), i ≠ j →
    s.planner.residencies[i]? = some r → s.planner.residencies[j]? = some r' →
      (r.key.target plane).isSome = true → (r'.key.target plane).isSome = true →
        ∀ x y, ¬((r.region plane).HasPixel x y ∧ (r'.region plane).HasPixel x y)
  /-- The regions of a pair coincide. -/
  coincide : ∀ (i : ℕ) (r : Residency), s.planner.residencies[i]? = some r →
    r.key.color.isSome = true → r.key.depth.isSome = true →
      r.colorRegion.x = r.depthRegion.x ∧ r.colorRegion.y = r.depthRegion.y ∧
        r.colorRegion.width = r.depthRegion.width ∧ r.colorRegion.height = r.depthRegion.height

/-- The report of an acquisition compares versions. -/
lemma acquisition_load {p : Planner} {key : PairKey} {color depth : Option TargetState}
    (hresolved : p.Resolved key color depth) (index : ℕ) (r : Residency) (new : Bool) :
    (∀ k, key.color = some k → (Planner.acquisition index r color depth new).loadColor = false →
      ∃ t, p.findTarget k = some t ∧ r.version .color = t.version) ∧
    ∀ k, key.depth = some k → (Planner.acquisition index r color depth new).loadDepth = false →
      ∃ t, p.findTarget k = some t ∧ r.version .depth = t.version := by
  refine ⟨fun k hk hload => ?_, fun k hk hload => ?_⟩
  · obtain ⟨-, t, rfl, hfound⟩ := hresolved.color k hk
    exact ⟨t, hfound, by simpa [Planner.acquisition, Residency.version] using hload⟩
  · obtain ⟨-, t, rfl, hfound⟩ := hresolved.depth k hk
    exact ⟨t, hfound, by simpa [Planner.acquisition, Residency.version] using hload⟩

lemma Coherent.acquired (h : Coherent n s) {key : PairKey} {width height : ℕ} {p' : Planner}
    {acquisition : Acquisition}
    (hacquire : s.planner.acquire key width height = (p', some acquisition)) :
    ∃ r : Residency, p'.residencies[acquisition.residency]? = some r ∧ r.key = key ∧
      (∀ k, key.color = some k → acquisition.loadColor = false →
        s.copies acquisition.residency .color = s.newest k) ∧
      ∀ k, key.depth = some k → acquisition.loadDepth = false →
        s.copies acquisition.residency .depth = s.newest k := by
  have hcoherent : Coherent n { s with planner := p' } := by
    have hstep := h.acquire key width height
    simpa only [Store.step, hacquire] using hstep
  have hcases := s.planner.acquire_cases key width height
  rw [hacquire] at hcases
  -- a version that is current holds the newest contents
  have hcurrent : ∀ (index : ℕ) (r : Residency) (plane : Plane) (k : TargetKey),
      p'.residencies[index]? = some r → r.key.target plane = some k →
        (∃ t, p'.findTarget k = some t ∧ r.version plane = t.version) →
          s.copies index plane = s.newest k := by
    rintro index r plane k hr hk ⟨t, hfound, hversion⟩
    obtain ⟨-, t', hfound', hfresh⟩ := hcoherent.residency index r plane k hr hk
    obtain rfl := Option.some.inj (hfound.symm.trans hfound')
    exact hfresh.2 hversion
  generalize hresult : some acquisition = result at hcases
  cases hcases with
  | failed | crowded => cases hresult
  | @found color depth index r _ _ _ hresolved hget hkey =>
    obtain rfl := Option.some.inj hresult
    obtain ⟨hcolor, hdepth⟩ := acquisition_load hresolved index r false
    subst hkey
    exact ⟨r, hget, rfl, fun k hk hload => hcurrent index r .color k hget hk (hcolor k hk hload),
      fun k hk hload => hcurrent index r .depth k hget hk (hdepth k hk hload)⟩
  | @created color depth _ _ _ colorRegion depthRegion _ _ hresidencies _ hresolved =>
    obtain rfl := Option.some.inj hresult
    set r : Residency := ⟨key, colorRegion, depthRegion, 0, 0⟩
    have hget : p'.residencies[s.planner.residencies.length]? = some r := by
      rw [hresidencies]
      exact List.getElem?_concat_length
    obtain ⟨hcolor, hdepth⟩ :=
      acquisition_load hresolved s.planner.residencies.length r true
    exact ⟨r, hget, rfl, fun k hk hload => hcurrent _ r .color k hget hk (hcolor k hk hload),
      fun k hk hload => hcurrent _ r .depth k hget hk (hdepth k hk hload)⟩

/-- The store keeps its promises for any sequence of operations after a reset, with fewer
than `2 ^ 64 - 1` writes. -/
theorem run_promises (copies : ℕ → Plane → V) (contents : TargetKey → V) (ops : List (Op V))
    (hwrites : writes ops < 2 ^ 64 - 1) : Promises ((reset copies contents).run ops) := by
  obtain ⟨hcoherent, hregions⟩ := (reset_coherent copies contents).run Planner.fresh_regionsOk ops
    (by rw [Nat.zero_add]; exact hwrites)
  refine ⟨fun key width height p' acquisition hacquire => ?_, fun key hneeds => ?_,
    fun key hneeds => ?_, fun i j r r' plane hij hi hj hsome hsome' x y => ?_,
    fun i r hr => hregions.coincide i r hr⟩
  · obtain ⟨r, hr, hkey, hload⟩ := hcoherent.acquired hacquire
    exact ⟨⟨r, hr, hkey⟩, hload⟩
  · rcases hfound : ((reset copies contents).run ops).planner.findTarget key with _ | target
    · exact hcoherent.untracked key hfound
    · simp only [Planner.backingNeedsStore, hfound, Option.any_some, decide_eq_false_iff_not,
        ne_eq, not_not] at hneeds
      exact (hcoherent.target key target hfound).backing.2 hneeds
  · rcases hfound : ((reset copies contents).run ops).planner.findTarget key with _ | target
    · simp [Planner.backingNeedsStore, hfound] at hneeds
    · simp only [Planner.backingNeedsStore, hfound, Option.any_some, decide_eq_true_eq] at hneeds
      have hok := hcoherent.target key target hfound
      rcases hlatest : target.latestResidency with _ | index
      · exact absurd (hok.stored hlatest) hneeds
      · obtain ⟨r, hr, hkey, -⟩ := hok.latest index hlatest
        exact ⟨index, r, by simp [Planner.latestResidency, hfound, hlatest], hr, hkey,
          (hcoherent.latest hfound).2 index hlatest⟩
  · exact hregions.allocator.pixels_disjoint (hregions.live i r plane hi hsome)
      (hregions.live j r' plane hj hsome')
      (hregions.slots i j r r' plane hij hi hj hsome hsome') x y

/-- A frame with its depth buffer. -/
def framePair : PairKey where
  color := some ⟨0, 10, 0, 640, 448, 0, false⟩
  depth := some ⟨0x80, 10, 48, 640, 448, 0, true⟩

/-- The frame is drawn, stored, and drawn once more without its depth buffer. -/
theorem run_promises_frame :
    Promises ((reset (fun _ _ => 0) fun _ => 0).run
      [.acquire framePair 640 448, .markWritten 0 .color 1, .markWritten 0 .depth 2,
        .markBackingCurrent ⟨0, 10, 0, 640, 448, 0, false⟩,
        .acquire { framePair with depth := none } 640 448, .markLoaded 1 .color,
        .markWritten 1 .color 3]) :=
  run_promises _ _ _ (by decide)

/-! ### Too many writes -/

/-- What one write does to its target. -/
lemma step_markWritten {index : ℕ} {plane : Plane} {r : Residency} {key : TargetKey}
    {target : TargetState} (hr : s.planner.residencies[index]? = some r)
    (hkey : r.key.target plane = some key) (hfound : s.planner.findTarget key = some target)
    (value : V) :
    (s.step (.markWritten index plane value)).planner.residencies[index]? =
        some (r.setVersion (nextVersion target.version) plane) ∧
      (s.step (.markWritten index plane value)).planner.findTarget key =
        some { target with
          version := nextVersion target.version, latestResidency := some index } ∧
      (s.step (.markWritten index plane value)).backing = s.backing ∧
      (s.step (.markWritten index plane value)).newest key = value := by
  obtain rfl := Planner.key_of_findTarget hfound
  have htarget : s.planner.residencyTarget index plane = some (r, target) := by
    simp [Planner.residencyTarget, hr, hkey, hfound]
  simp only [step, htarget, Planner.markWritten]
  refine ⟨List.getElem?_set_self (List.getElem?_eq_some_iff.mp hr).1, ?_, rfl,
    Function.update_self _ _ _⟩
  show (s.planner.updateTarget target.key fun t =>
    { t with version := nextVersion target.version, latestResidency := some index }).findTarget
      target.key = _
  exact Planner.findTarget_updateTarget_self (fun _ => rfl) hfound

/-- Writes to one residency count the version of the target up. -/
lemma run_markWritten {index : ℕ} {plane : Plane} {r : Residency} {key : TargetKey}
    {target : TargetState} (hr : s.planner.residencies[index]? = some r)
    (hkey : r.key.target plane = some key) (hfound : s.planner.findTarget key = some target)
    (value : V) (hnewest : s.newest key = value) (m : ℕ) :
    ∃ target' : TargetState,
      (s.run (List.replicate m (.markWritten index plane value))).planner.findTarget key =
        some target' ∧ target'.version = nextVersion^[m] target.version ∧
      target'.backingVersion = target.backingVersion ∧
      (s.run (List.replicate m (.markWritten index plane value))).backing = s.backing ∧
      (s.run (List.replicate m (.markWritten index plane value))).newest key = value := by
  induction m generalizing s r target with
  | zero => exact ⟨target, hfound, rfl, rfl, rfl, hnewest⟩
  | succ m ih =>
    obtain ⟨hr', hfound', hbacking', hnewest'⟩ := step_markWritten hr hkey hfound value
    obtain ⟨target', h, hversion, hbackingVersion, hbacking, hvalue⟩ :=
      ih hr' (by simpa using hkey) hfound' hnewest'
    exact ⟨target', h, hversion, hbackingVersion, hbacking.trans hbacking', hvalue⟩

/-- The versions before the counter is full. -/
lemma iterate_nextVersion (m : ℕ) (h : m < 2 ^ 64 - 1) :
    (nextVersion^[m] 1).toNat = m + 1 := by
  induction m with
  | zero => rfl
  | succ m ih =>
    have hm := ih (by omega)
    rw [Function.iterate_succ_apply', Store.toNat_nextVersion (by omega), hm]

/-- The version comes back. -/
lemma iterate_nextVersion_full {m : ℕ} (hm : m = 2 ^ 64 - 2) :
    nextVersion^[m] (nextVersion 1) = 1 := by
  have hlast : nextVersion^[m] 1 = BitVec.ofNat 64 (2 ^ 64 - 1) := by
    apply BitVec.eq_of_toNat_eq
    rw [iterate_nextVersion m (by omega), hm]
    rfl
  rw [← Function.iterate_succ_apply, Function.iterate_succ_apply', hlast]
  decide

/-- A frame that is drawn again and again, and never stored. -/
def overdrawn (m : ℕ) : List (Op Bool) :=
  .acquire { framePair with depth := none } 640 448 ::
    .markWritten 0 .color true :: List.replicate m (.markWritten 0 .color true)

theorem overdrawn_not_promises :
    writes (overdrawn (2 ^ 64 - 2)) < 2 ^ 64 ∧
      ¬Promises ((reset (fun _ _ => false) fun _ => false).run (overdrawn (2 ^ 64 - 2))) := by
  obtain ⟨m, hm⟩ : ∃ m, m = 2 ^ 64 - 2 := ⟨_, rfl⟩
  rw [← hm]
  refine ⟨?_, fun hpromises => ?_⟩
  · have hsum : writes (overdrawn m) = m + 1 := by
      simp [writes, overdrawn, Op.writes, Nat.add_comm]
    omega
  · set key : TargetKey := ⟨0, 10, 0, 640, 448, 0, false⟩
    set s₁ : Store Bool := (reset (fun _ _ => false) fun _ => false).step
      (.acquire { framePair with depth := none } 640 448)
    obtain ⟨r, hr, hkey⟩ : ∃ r : Residency, s₁.planner.residencies[0]? = some r ∧
        r.key.target .color = some key := ⟨_, rfl, rfl⟩
    have hfound : s₁.planner.findTarget key = some { key } := by rfl
    obtain ⟨hr₂, hfound₂, hbacking₂, hnewest₂⟩ := step_markWritten hr hkey hfound true
    obtain ⟨target, hfound', hversion, hbackingVersion, hbacking, hnewest⟩ :=
      run_markWritten hr₂ (by simpa using hkey) hfound₂ true hnewest₂ m
    have hcomes : target.version = 1 := hversion.trans (iterate_nextVersion_full hm)
    -- the backing seems to be current, and holds what was there at first
    have hrun : (reset (fun _ _ => false) fun _ => false).run (overdrawn m) =
        (s₁.step (.markWritten 0 .color true)).run
          (List.replicate m (.markWritten 0 .color true)) := rfl
    rw [hrun] at hpromises
    have hstored := hpromises.stored key (by
      simp [Planner.backingNeedsStore, hfound', hcomes, hbackingVersion])
    have hold : ((s₁.step (.markWritten 0 .color true)).run
        (List.replicate m (.markWritten 0 .color true))).backing key = false := by
      rw [hbacking, hbacking₂]
      rfl
    have hnew : false = true := hold.symm.trans (hstored.trans hnewest)
    cases hnew

end Store

end VitaSX2.RenderStore
