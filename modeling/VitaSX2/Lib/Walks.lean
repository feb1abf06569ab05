/-
Walks in a graph whose edges are listed, dominance and natural loops.

Several edges may join the same two vertices.  A vertex dominates another one when
every walk from the entry to it visits the vertex, and the natural loop of a header
holds the vertices from which a latch is reached without a visit to the header.
-/
import Mathlib.Data.Fintype.Card
import Mathlib.Data.List.Induction
import Mathlib.Data.Set.Finite.Basic
import Mathlib.Logic.Relation
import Mathlib.Order.RelClasses
import Mathlib.Order.WellFounded

namespace VitaSX2.Walks

/-- A graph with a list of edges. -/
structure Graph (ε ι : Type*) where
  edges : List ε
  source : ε → ι
  target : ε → ι

namespace Graph

variable {ε ι : Type*} (G : Graph ε ι)

/-- Each edge starts where the one before it has led. -/
def IsWalk : ι → ι → List ε → Prop
  | a, b, [] => a = b
  | a, b, e :: walk => e ∈ G.edges ∧ G.source e = a ∧ IsWalk (G.target e) b walk

/-- The vertices of a walk. -/
def visits (a : ι) (walk : List ε) : List ι := a :: walk.map G.target

/-- A walk that is not empty and ends where it starts. -/
def IsCycle (cycle : List ε) : Prop := cycle ≠ [] ∧ ∃ a, G.IsWalk a a cycle

/-- There is a walk. -/
def Reaches (a b : ι) : Prop := ∃ walk, G.IsWalk a b walk

/-- There is a walk that does not visit a vertex. -/
def ReachesAvoiding (header a b : ι) : Prop := ∃ walk, G.IsWalk a b walk ∧ header ∉ G.visits a walk

/-- Every walk from the entry visits a vertex. -/
def Dominates (entry a b : ι) : Prop := ∀ walk, G.IsWalk entry b walk → a ∈ G.visits entry walk

/-- The header, and what reaches one of its latches without it. -/
def NaturalLoop (latch : ε → Prop) (header b : ι) : Prop :=
  b = header ∨ ∃ e ∈ G.edges, latch e ∧ G.target e = header ∧
    G.ReachesAvoiding header b (G.source e)

variable {G} {a b c entry header : ι} {e : ε} {walk walk' : List ε}

/-! ### Walks -/

lemma IsWalk.append (h : G.IsWalk a b walk) (h' : G.IsWalk b c walk') :
    G.IsWalk a c (walk ++ walk') := by
  induction walk generalizing a with
  | nil =>
    obtain rfl : a = b := h
    exact h'
  | cons e walk ih => exact ⟨h.1, h.2.1, ih h.2.2⟩

lemma isWalk_single (he : e ∈ G.edges) : G.IsWalk (G.source e) (G.target e) [e] := ⟨he, rfl, rfl⟩

lemma IsWalk.subset (h : G.IsWalk a b walk) : ∀ e ∈ walk, e ∈ G.edges := by
  induction walk generalizing a with
  | nil => simp
  | cons e walk ih => exact List.forall_mem_cons.mpr ⟨h.1, ih h.2.2⟩

lemma IsWalk.last_mem (h : G.IsWalk a b walk) : b ∈ G.visits a walk := by
  induction walk generalizing a with
  | nil =>
    obtain rfl : a = b := h
    exact List.mem_cons_self
  | cons e walk ih => exact List.mem_cons_of_mem _ (ih h.2.2)

lemma visits_append (h : G.IsWalk a b walk) (v : ι) :
    v ∈ G.visits a (walk ++ walk') ↔ v ∈ G.visits a walk ∨ v ∈ G.visits b walk' := by
  have hlast : v = b → v ∈ G.visits a walk := fun hv => hv ▸ h.last_mem
  simp only [visits, List.map_append, List.mem_cons, List.mem_append] at hlast ⊢
  tauto

lemma isWalk_concat :
    G.IsWalk a b (walk ++ [e]) ↔ G.IsWalk a (G.source e) walk ∧ e ∈ G.edges ∧ G.target e = b := by
  induction walk generalizing a with
  | nil => exact ⟨fun h => ⟨h.2.1.symm, h.1, h.2.2⟩, fun h => ⟨h.2.1, h.1.symm, h.2.2⟩⟩
  | cons e' walk ih =>
    rw [List.cons_append, IsWalk, IsWalk, ih]
    tauto

/-- A chain of edges is a walk. -/
lemma reaches_of_reflTransGen
    (h : Relation.ReflTransGen (fun a b => ∃ e ∈ G.edges, G.source e = a ∧ G.target e = b) a b) :
    G.Reaches a b := by
  induction h with
  | refl => exact ⟨[], rfl⟩
  | tail _ hedge ih =>
    obtain ⟨walk, hwalk⟩ := ih
    obtain ⟨e, he, rfl, rfl⟩ := hedge
    exact ⟨walk ++ [e], hwalk.append (isWalk_single he)⟩

lemma IsWalk.reflTransGen (h : G.IsWalk a b walk) :
    Relation.ReflTransGen (fun a b => ∃ e ∈ G.edges, G.source e = a ∧ G.target e = b) a b := by
  induction walk generalizing a with
  | nil =>
    obtain rfl : a = b := h
    exact .refl
  | cons e walk ih =>
    obtain ⟨he, rfl, hrest⟩ := h
    exact .head ⟨e, he, rfl, rfl⟩ (ih hrest)

/-- A walk is cut in two where it visits a vertex. -/
lemma IsWalk.exists_split (h : G.IsWalk a b walk) (hc : c ∈ G.visits a walk) :
    ∃ front back, walk = front ++ back ∧ G.IsWalk a c front ∧ G.IsWalk c b back := by
  induction walk generalizing a with
  | nil =>
    obtain rfl : c = a := by simpa [visits] using hc
    exact ⟨[], [], rfl, rfl, h⟩
  | cons e walk ih =>
    rcases List.mem_cons.mp hc with rfl | hc
    · exact ⟨[], e :: walk, rfl, rfl, h⟩
    · obtain ⟨front, back, rfl, hfront, hback⟩ := ih h.2.2 hc
      exact ⟨e :: front, back, rfl, ⟨h.1, h.2.1, hfront⟩, hback⟩

/-- Along a walk whose edges raise a rank the rank goes up. -/
lemma IsWalk.rank_lt (rank : ι → ℕ) (h : G.IsWalk a b walk) (hne : walk ≠ [])
    (hrank : ∀ e ∈ walk, rank (G.source e) < rank (G.target e)) : rank a < rank b := by
  induction walk generalizing a with
  | nil => exact absurd rfl hne
  | cons e walk ih =>
    obtain ⟨-, rfl, hrest⟩ := h
    obtain ⟨hlt, hrank⟩ := List.forall_mem_cons.mp hrank
    by_cases hnil : walk = []
    · subst hnil
      obtain rfl : G.target e = b := hrest
      exact hlt
    · exact Nat.lt_trans hlt (ih hrest hnil hrank)

/-- Not every edge of a cycle raises a rank. -/
theorem IsCycle.exists_not_lt {cycle : List ε} (h : G.IsCycle cycle) (rank : ι → ℕ) :
    ∃ e ∈ cycle, ¬ rank (G.source e) < rank (G.target e) := by
  obtain ⟨hne, a, hwalk⟩ := h
  by_contra hnone
  push Not at hnone
  exact Nat.lt_irrefl _ (hwalk.rank_lt rank hne hnone)

/-- A closed chain of edges of one kind is a cycle. -/
theorem exists_cycle {P : ε → Prop}
    (h : Relation.TransGen (fun a b => ∃ e ∈ G.edges, P e ∧ G.source e = a ∧ G.target e = b) a a) :
    ∃ cycle, G.IsCycle cycle ∧ ∀ e ∈ cycle, P e := by
  have hwalk : ∀ {b : ι}, Relation.TransGen
      (fun a b => ∃ e ∈ G.edges, P e ∧ G.source e = a ∧ G.target e = b) a b →
        ∃ walk, walk ≠ [] ∧ G.IsWalk a b walk ∧ ∀ e ∈ walk, P e := by
    intro b hb
    induction hb with
    | single hedge =>
      obtain ⟨e, he, hP, rfl, rfl⟩ := hedge
      exact ⟨[e], by simp, isWalk_single he, by simpa using hP⟩
    | tail _ hedge ih =>
      obtain ⟨e, he, hP, rfl, rfl⟩ := hedge
      obtain ⟨walk, -, hwalk, hall⟩ := ih
      refine ⟨walk ++ [e], by simp, hwalk.append (isWalk_single he), fun e' he' => ?_⟩
      rcases List.mem_append.mp he' with he' | he'
      · exact hall e' he'
      · exact List.mem_singleton.mp he' ▸ hP
  obtain ⟨cycle, hne, hcycle, hall⟩ := hwalk h
  exact ⟨cycle, ⟨hne, a, hcycle⟩, hall⟩

/-! ### Walks without a vertex -/

lemma ReachesAvoiding.last_ne (h : G.ReachesAvoiding header a b) : b ≠ header := by
  obtain ⟨walk, hwalk, havoid⟩ := h
  exact fun heq => havoid (heq ▸ hwalk.last_mem)

lemma ReachesAvoiding.first_ne (h : G.ReachesAvoiding header a b) : a ≠ header := by
  obtain ⟨walk, -, havoid⟩ := h
  exact fun heq => havoid (heq ▸ List.mem_cons_self)

lemma reachesAvoiding_refl (ha : a ≠ header) : G.ReachesAvoiding header a a :=
  ⟨[], rfl, by simpa [visits] using ha.symm⟩

/-- One edge in front. -/
lemma ReachesAvoiding.head (he : e ∈ G.edges) (hsource : G.source e ≠ header)
    (h : G.ReachesAvoiding header (G.target e) b) : G.ReachesAvoiding header (G.source e) b := by
  obtain ⟨walk, hwalk, havoid⟩ := h
  refine ⟨e :: walk, ⟨he, rfl, hwalk⟩, ?_⟩
  rw [visits, List.mem_cons, not_or]
  exact ⟨hsource.symm, havoid⟩

/-- What is found backwards from a vertex, when nothing is followed from the header. -/
theorem reachesAvoiding_iff (hb : b ≠ header) :
    G.ReachesAvoiding header b a ↔ a ≠ header ∧
      Relation.ReflTransGen
        (fun x y => x ≠ header ∧ ∃ e ∈ G.edges, G.target e = x ∧ G.source e = y) a b := by
  constructor
  · intro h
    refine ⟨h.last_ne, ?_⟩
    obtain ⟨walk, hwalk, havoid⟩ := h
    induction walk generalizing b with
    | nil =>
      obtain rfl : b = a := hwalk
      exact .refl
    | cons e walk ih =>
      obtain ⟨he, rfl, hrest⟩ := hwalk
      rw [visits, List.map_cons, List.mem_cons, not_or] at havoid
      have hfirst : G.target e ≠ header := fun heq => havoid.2 (heq ▸ List.mem_cons_self)
      exact (ih hfirst hrest havoid.2).tail ⟨hfirst, e, he, rfl, rfl⟩
  · rintro ⟨ha, h⟩
    induction h with
    | refl => exact reachesAvoiding_refl ha
    | tail _ hedge ih =>
      obtain ⟨hx, e, he, rfl, rfl⟩ := hedge
      exact (ih hx).head he hb

/-! ### Dominance -/

lemma dominates_refl : G.Dominates entry a a := fun _ hwalk => hwalk.last_mem

lemma dominates_entry : G.Dominates entry entry a := fun _ _ => List.mem_cons_self

/-- Only the entry dominates the entry. -/
lemma eq_of_dominates_entry (h : G.Dominates entry a entry) : a = entry := by
  simpa [visits] using h [] rfl

/-- What dominates a vertex is the vertex or dominates its predecessors. -/
lemma Dominates.of_edge (h : G.Dominates entry a (G.target e)) (he : e ∈ G.edges) :
    a = G.target e ∨ G.Dominates entry a (G.source e) := by
  by_cases ha : a = G.target e
  · exact Or.inl ha
  refine Or.inr fun walk hwalk => ?_
  have hmem := h _ (hwalk.append (isWalk_single he))
  rw [visits_append hwalk] at hmem
  rcases hmem with hmem | hmem
  · exact hmem
  · rcases List.mem_cons.mp hmem with heq | hmem
    · exact heq ▸ hwalk.last_mem
    · exact absurd (by simpa using hmem) ha

/-- A table that passes every entry on to the predecessors holds dominators only. -/
theorem dominates_of_table (table : ι → ι → Prop) (hentry : ∀ a, table entry a → a = entry)
    (hstep : ∀ e ∈ G.edges, G.target e ≠ entry → ∀ a, table (G.target e) a →
      a = G.target e ∨ table (G.source e) a) (h : table b a) : G.Dominates entry a b := by
  intro walk hwalk
  induction walk using List.reverseRecOn generalizing b with
  | nil =>
    obtain rfl : entry = b := hwalk
    exact hentry a h ▸ List.mem_cons_self
  | append_singleton walk e ih =>
    obtain ⟨hrest, he, rfl⟩ := isWalk_concat.mp hwalk
    by_cases htarget : G.target e = entry
    · rw [htarget] at h
      exact hentry a h ▸ List.mem_cons_self
    rw [visits_append hrest]
    rcases hstep e he htarget a h with rfl | hsource
    · exact Or.inr (isWalk_single he).last_mem
    · exact Or.inl (ih hsource hrest)

/-- Two vertices that dominate each other are one, when a walk leads to it. -/
theorem dominates_antisymm (hab : G.Dominates entry a b) (hba : G.Dominates entry b a)
    (hreach : G.Reaches entry a) : a = b := by
  by_contra hne
  obtain ⟨walk, hwalk⟩ := hreach
  -- A walk to `a` passes `b`, and the walk to `b` has passed `a` before.
  induction hlength : walk.length using Nat.strongRecOn generalizing walk with
  | ind n ih =>
    subst hlength
    obtain ⟨front, back, rfl, hfront, hback⟩ := hwalk.exists_split (hba walk hwalk)
    obtain ⟨first, second, rfl, hfirst, -⟩ := hfront.exists_split (hab _ hfront)
    refine ih first.length ?_ first hfirst rfl
    have hpos : 0 < back.length := by
      refine List.length_pos_iff.mpr fun hnil => hne ?_
      subst hnil
      exact (show b = a from hback).symm
    simp only [List.length_append]
    omega

/-- The header dominates whatever reaches a latch without it. -/
lemma Dominates.of_reachesAvoiding (h : G.Dominates entry header b)
    (havoid : G.ReachesAvoiding header a b) : G.Dominates entry header a := by
  intro walk hwalk
  obtain ⟨walk', hwalk', hnot⟩ := havoid
  have hmem := h _ (hwalk.append hwalk')
  rw [visits_append hwalk] at hmem
  exact hmem.resolve_right hnot

/-- The header dominates its loop when it dominates its latches. -/
lemma NaturalLoop.dominates {latch : ε → Prop}
    (hlatch : ∀ e ∈ G.edges, latch e → G.Dominates entry (G.target e) (G.source e))
    (h : G.NaturalLoop latch header b) : G.Dominates entry header b := by
  rcases h with rfl | ⟨e, he, hmarked, rfl, havoid⟩
  · exact dominates_refl
  · exact (hlatch e he hmarked).of_reachesAvoiding havoid

/-- What is reached at all is reached by forward edges, when the others lead back to a
dominator of their source. -/
theorem reaches_forward (forward : ε → Prop)
    (hback : ∀ e ∈ G.edges, ¬ forward e → G.Dominates entry (G.target e) (G.source e))
    (h : G.IsWalk entry b walk) :
    Relation.ReflTransGen
      (fun a b => ∃ e ∈ G.edges, forward e ∧ G.source e = a ∧ G.target e = b) entry b := by
  induction hlength : walk.length using Nat.strongRecOn generalizing walk b with
  | ind n ih =>
    subst hlength
    rcases List.eq_nil_or_concat walk with rfl | ⟨front, e, rfl⟩
    · obtain rfl : entry = b := h
      exact .refl
    rw [List.concat_eq_append] at h ih
    obtain ⟨hfront, he, rfl⟩ := isWalk_concat.mp h
    rw [List.length_append, List.length_singleton] at ih
    by_cases hforward : forward e
    · exact (ih front.length (by omega) hfront rfl).tail ⟨e, he, hforward, rfl, rfl⟩
    · -- The walk has visited the target before.
      obtain ⟨first, second, rfl, hfirst, -⟩ := hfront.exists_split (hback e he hforward _ hfront)
      rw [List.length_append] at ih
      exact ih first.length (by omega) hfirst rfl

/-! ### Cycles and loops -/

/-- The first arrival at a vertex. -/
lemma IsWalk.exists_arrival (h : G.IsWalk a b walk) (hc : c ∈ G.visits a walk) (hne : a ≠ c) :
    ∃ e ∈ walk, G.target e = c ∧ G.ReachesAvoiding c a (G.source e) := by
  induction walk generalizing a with
  | nil => exact absurd (by simpa [visits] using hc) hne.symm
  | cons e walk ih =>
    obtain ⟨he, rfl, hrest⟩ := h
    rcases List.mem_cons.mp hc with rfl | hc
    · exact absurd rfl hne
    by_cases htarget : G.target e = c
    · exact ⟨e, List.mem_cons_self, htarget, reachesAvoiding_refl hne⟩
    · obtain ⟨e', he', htarget', havoid⟩ := ih hrest hc htarget
      exact ⟨e', List.mem_cons_of_mem _ he', htarget', havoid.head he hne⟩

/-- Every visited vertex of a closed walk is reached by one of its edges. -/
lemma IsWalk.exists_incoming (h : G.IsWalk a a walk) (hne : walk ≠ []) (hb : b ∈ G.visits a walk) :
    ∃ e ∈ walk, G.target e = b := by
  rcases List.mem_cons.mp hb with rfl | hb
  · obtain ⟨front, e, rfl⟩ := (List.eq_nil_or_concat walk).resolve_left hne
    rw [List.concat_eq_append] at h ⊢
    exact ⟨e, by simp, (isWalk_concat.mp h).2.2⟩
  · exact List.mem_map.mp hb

lemma IsWalk.source_mem (h : G.IsWalk a b walk) : ∀ e ∈ walk, G.source e ∈ G.visits a walk := by
  induction walk generalizing a with
  | nil => simp
  | cons e walk ih =>
    obtain ⟨-, rfl, hrest⟩ := h
    refine List.forall_mem_cons.mpr ⟨List.mem_cons_self, fun e' he' => ?_⟩
    exact List.mem_cons_of_mem _ (ih hrest e' he')

/-- When every cycle of its edges has one that is not forward, some vertex of a closed
walk is entered by such edges only. -/
lemma IsWalk.exists_first (forward : ε → Prop)
    (hacyclic : ∀ cycle, G.IsCycle cycle → (∀ e ∈ cycle, e ∈ walk) → ∃ e ∈ cycle, ¬ forward e)
    (h : G.IsWalk a a walk) :
    ∃ v ∈ G.visits a walk, ∀ e ∈ walk, G.target e = v → ¬ forward e := by
  let visited := {v // v ∈ G.visits a walk}
  have : Finite visited := (G.visits a walk).finite_toSet
  let before : visited → visited → Prop := fun v w =>
    Relation.TransGen (fun x y => ∃ e ∈ G.edges, (e ∈ walk ∧ forward e) ∧
      G.source e = x ∧ G.target e = y) v.1 w.1
  have htrans : IsTrans visited before := ⟨fun _ _ _ => Relation.TransGen.trans⟩
  have hirrefl : Std.Irrefl before := ⟨fun v hcycle => by
    obtain ⟨cycle, hcycle, hall⟩ := exists_cycle hcycle
    obtain ⟨e, he, hnot⟩ := hacyclic cycle hcycle fun e he => (hall e he).1
    exact hnot (hall e he).2⟩
  obtain ⟨v, -, hfirst⟩ := (Finite.wellFounded_of_trans_of_irrefl before).has_min Set.univ
    ⟨⟨a, List.mem_cons_self⟩, trivial⟩
  refine ⟨v.1, v.2, fun e he htarget hforward => ?_⟩
  exact hfirst ⟨G.source e, h.source_mem e he⟩ trivial
    (.single ⟨e, h.subset e he, ⟨he, hforward⟩, rfl, htarget⟩)

/-- A closed walk passes an edge that is not forward and in whose natural loop it
starts. -/
theorem IsWalk.exists_loop (forward : ε → Prop)
    (hacyclic : ∀ cycle, G.IsCycle cycle → (∀ e ∈ cycle, e ∈ walk) → ∃ e ∈ cycle, ¬ forward e)
    (h : G.IsWalk a a walk) (hne : walk ≠ []) :
    ∃ e ∈ walk, ¬ forward e ∧
      (a = G.target e ∨ G.ReachesAvoiding (G.target e) a (G.source e)) := by
  obtain ⟨v, hv, hfirst⟩ := h.exists_first forward hacyclic
  by_cases hav : a = v
  · obtain ⟨e, he, htarget⟩ := h.exists_incoming hne hv
    exact ⟨e, he, hfirst e he htarget, Or.inl (hav.trans htarget.symm)⟩
  · obtain ⟨e, he, htarget, havoid⟩ := h.exists_arrival hv hav
    exact ⟨e, he, hfirst e he htarget, Or.inr (htarget ▸ havoid)⟩

end Graph

end VitaSX2.Walks
