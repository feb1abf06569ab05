/-
Straight-line code in single-assignment form, and the program logic of the
emitters that build it.

An emitter appends nodes to a builder and names each by the next free number.
`Emitted` says what the appended nodes do once the finished code runs: from a
state with `P` they come to a state with `Q`, or the run stops with an outcome
in `X`.  `Triple` says it of an emitter.  Facts about values that have been
emitted are kept for good, since no later node writes them.
-/
import Mathlib.Order.BoundedOrder.Lattice

namespace VitaSX2.StraightLine

/-! ### Facts about emitted values -/

/-- A fact about the values below a bound: it is kept when values are added. -/
@[ext]
structure Facts (V : Type) where
  holds : ℕ → (ℕ → V) → Prop
  mono : ∀ {n n' : ℕ} {v v' : ℕ → V},
    n ≤ n' → (∀ i < n, v' i = v i) → holds n v → holds n' v'

namespace Facts

variable {V : Type}

/-- The value of a number that has been given out. -/
def known (i : ℕ) (x : V) : Facts V where
  holds n v := i < n ∧ v i = x
  mono hn hv h := ⟨h.1.trans_le hn, (hv i h.1).trans h.2⟩

instance : SemilatticeInf (Facts V) where
  le F G := ∀ n v, F.holds n v → G.holds n v
  le_refl _ _ _ h := h
  le_trans _ _ _ h h' n v hF := h' n v (h n v hF)
  le_antisymm _ _ h h' := Facts.ext (funext fun n => funext fun v => propext ⟨h n v, h' n v⟩)
  inf F G :=
    { holds := fun n v => F.holds n v ∧ G.holds n v
      mono := fun hn hv h => ⟨F.mono hn hv h.1, G.mono hn hv h.2⟩ }
  inf_le_left _ _ _ _ h := h.1
  inf_le_right _ _ _ _ h := h.2
  le_inf _ _ _ h h' n v hF := ⟨h n v hF, h' n v hF⟩

instance : OrderBot (Facts V) where
  bot := ⟨fun _ _ => False, fun _ _ h => h⟩
  bot_le _ _ _ h := h.elim

end Facts

/-! ### Emitters -/

/-- Builders `B` of code of nodes `N`, and the machine with states `C` and outcomes `O` that runs
the code of the builder `final`. -/
structure Emitter (B N C O : Type) where
  nodes : B → List N
  next : B → ℕ
  /-- What a builder holds besides its nodes is kept. -/
  Extends : B → B → Prop
  Ok : B → Prop
  /-- A node gives the next state, or the run stops. -/
  exec : N → C → Except O C
  final : B
  refl : ∀ b, Extends b b
  trans : ∀ {b b' b''}, Extends b b' → Extends b' b'' → Extends b b''

variable {B N C O : Type}

/-- A result is a state with `Q` or an outcome in `X`. -/
def Ends (X : O → Prop) (Q : C → Prop) : Except O C → Prop
  | .ok c => Q c
  | .error o => X o

lemma Ends.imp {X X' : O → Prop} {Q Q' : C → Prop} {r : Except O C} (h : Ends X Q r)
    (hX : ∀ o, X o → X' o) (hQ : ∀ c, Q c → Q' c) : Ends X' Q' r := by
  cases r with
  | ok c => exact hQ c h
  | error o => exact hX o h

namespace Emitter

/-- A run of some nodes. -/
def run (E : Emitter B N C O) (nodes : List N) (c : C) : Except O C :=
  nodes.foldlM (fun c node => E.exec node c) c

lemma run_append (E : Emitter B N C O) (nodes nodes' : List N) (c : C) :
    E.run (nodes ++ nodes') c = (E.run nodes c).bind (E.run nodes') :=
  List.foldlM_append ..

lemma run_cons (E : Emitter B N C O) (node : N) (nodes : List N) (c : C) :
    E.run (node :: nodes) c = (E.exec node c).bind (E.run nodes) :=
  List.foldlM_cons ..

/-- A run through the nodes up to an index. -/
lemma run_take_succ (E : Emitter B N C O) {nodes : List N} {k : ℕ} {node : N}
    (hnode : nodes[k]? = some node) (c : C) :
    E.run (nodes.take (k + 1)) c = (E.run (nodes.take k) c).bind (E.exec node) := by
  rw [List.take_add_one, hnode, run_append]
  congr 1
  funext c'
  rw [Option.toList_some, run_cons]
  cases E.exec node c' <;> rfl

/-- A run that stops on the way has stopped for good. -/
lemma run_eq_error (E : Emitter B N C O) {nodes : List N} {k : ℕ} {c : C} {o : O}
    (h : E.run (nodes.take k) c = .error o) : E.run nodes c = .error o := by
  rw [← List.take_append_drop k nodes, run_append, h]
  rfl

/-- What lies between two builders: nodes of the kind `S` that, run from `P`, lead to `Q` or stop
in `X`.  An assertion is about a state and the first number that is not given out. -/
structure Emitted (E : Emitter B N C O) (S : N → Prop) (X : O → Prop) (b b' : B)
    (P Q : ℕ → C → Prop) : Prop where
  le : E.next b ≤ E.next b'
  kept : E.Extends b b'
  ok : E.Ok b'
  emits : ∃ new, E.nodes b' = E.nodes b ++ new ∧ (∀ node ∈ new, S node) ∧
    (E.Extends b' E.final → ∀ c, P (E.next b) c → Ends X (Q (E.next b')) (E.run new c))

namespace Emitted

variable {E : Emitter B N C O} {S S' : N → Prop} {X X' : O → Prop} {b b' b'' : B}
  {P P' Q Q' R : ℕ → C → Prop}

lemma refl (hok : E.Ok b) (h : ∀ c, P (E.next b) c → Q (E.next b) c) : E.Emitted S X b b P Q :=
  ⟨le_rfl, E.refl b, hok, [], by simp, by simp, fun _ c hc => h c hc⟩

lemma trans (h : E.Emitted S X b b' P R) (h' : E.Emitted S X b' b'' R Q) :
    E.Emitted S X b b'' P Q := by
  obtain ⟨new, hnodes, hS, hrun⟩ := h.emits
  obtain ⟨new', hnodes', hS', hrun'⟩ := h'.emits
  refine ⟨h.le.trans h'.le, E.trans h.kept h'.kept, h'.ok, new ++ new', ?_, ?_, ?_⟩
  · rw [hnodes', hnodes, List.append_assoc]
  · exact List.forall_mem_append.mpr ⟨hS, hS'⟩
  · intro hfinal c hc
    have hfirst := hrun (E.trans h'.kept hfinal) c hc
    rw [run_append]
    cases hnew : E.run new c with
    | error o => rwa [hnew] at hfirst
    | ok c' =>
      rw [hnew] at hfirst
      exact hrun' hfinal c' hfirst

lemma conseq (h : E.Emitted S X b b' P Q) (hS : ∀ node, S node → S' node) (hX : ∀ o, X o → X' o)
    (hP : ∀ n c, P' n c → P n c) (hQ : ∀ n c, Q n c → Q' n c) : E.Emitted S' X' b b' P' Q' := by
  obtain ⟨new, hnodes, hnew, hrun⟩ := h.emits
  exact ⟨h.le, h.kept, h.ok, new, hnodes, fun node hnode => hS node (hnew node hnode),
    fun hfinal c hc => (hrun hfinal c (hP _ c hc)).imp hX (hQ _)⟩

lemma pre (h : E.Emitted S X b b' P Q) (hP : ∀ n c, P' n c → P n c) : E.Emitted S X b b' P' Q :=
  h.conseq (fun _ h => h) (fun _ h => h) hP fun _ _ h => h

lemma post (h : E.Emitted S X b b' P Q) (hQ : ∀ n c, Q n c → Q' n c) : E.Emitted S X b b' P Q' :=
  h.conseq (fun _ h => h) (fun _ h => h) (fun _ _ h => h) hQ

/-- What holds for each value of a variable holds when some value is there.  The nodes themselves
do not depend on the variable, so anything known of them gives the rest. -/
lemma exists_of {ι : Type} {p : ι → Prop} {P : ι → ℕ → C → Prop} (h₀ : E.Emitted S X' b b' P' Q')
    (h : ∀ x, p x → E.Emitted S X b b' (P x) Q) :
    E.Emitted S X b b' (fun n c => ∃ x, p x ∧ P x n c) Q := by
  obtain ⟨new, hnodes, hnew, -⟩ := h₀.emits
  refine ⟨h₀.le, h₀.kept, h₀.ok, new, hnodes, hnew, ?_⟩
  rintro hfinal c ⟨x, hx, hc⟩
  obtain ⟨new', hnodes', -, hrun⟩ := (h x hx).emits
  rw [hnodes, List.append_cancel_left_eq] at hnodes'
  exact hnodes' ▸ hrun hfinal c hc

/-- A condition that does not depend on the state. -/
lemma frame (h : E.Emitted S X b b' P Q) (p : Prop) :
    E.Emitted S X b b' (fun n c => p ∧ P n c) (fun n c => p ∧ Q n c) := by
  obtain ⟨new, hnodes, hnew, hrun⟩ := h.emits
  exact ⟨h.le, h.kept, h.ok, new, hnodes, hnew, fun hfinal c hc =>
    (hrun hfinal c hc.2).imp (fun _ h => h) fun _ h => ⟨hc.1, h⟩⟩

/-- Nodes that all keep an assertion keep it together. -/
lemma keep (h : E.Emitted S X b b' P Q) {I : C → Prop}
    (hI : ∀ node c, S node → I c → Ends X' I (E.exec node c)) :
    E.Emitted S X' b b' (fun _ => I) (fun _ => I) := by
  obtain ⟨new, hnodes, hnew, -⟩ := h.emits
  refine ⟨h.le, h.kept, h.ok, new, hnodes, hnew, fun _ c hc => ?_⟩
  clear hnodes
  induction new generalizing c with
  | nil => exact hc
  | cons node rest ih =>
    rw [List.forall_mem_cons] at hnew
    have hnode := hI node c hnew.1 hc
    rw [run_cons]
    cases hexec : E.exec node c with
    | error o => rwa [hexec] at hnode
    | ok c' =>
      rw [hexec] at hnode
      exact ih hnew.2 c' hnode

/-- One node. -/
lemma push {node : N} (hnodes : E.nodes b' = E.nodes b ++ [node]) (hnext : E.next b' = E.next b + 1)
    (hkept : E.Extends b b') (hok : E.Ok b') (hS : S node)
    (hexec : E.Extends b' E.final → ∀ c, P (E.next b) c →
      Ends X (Q (E.next b + 1)) (E.exec node c)) : E.Emitted S X b b' P Q := by
  refine ⟨by omega, hkept, hok, [node], hnodes, by simpa using hS, fun hfinal c hc => ?_⟩
  have hnode := hexec hfinal c hc
  rw [run_cons, hnext]
  cases hexec : E.exec node c with
  | error o => rwa [hexec] at hnode
  | ok c' => rwa [hexec] at hnode

end Emitted

/-- An emitter whose nodes lead from `P` to `Q`, which may depend on its result. -/
def Triple (E : Emitter B N C O) (S : N → Prop) (X : O → Prop) {α : Type} (P : ℕ → C → Prop)
    (m : StateT B Option α) (Q : α → ℕ → C → Prop) : Prop :=
  ∀ b a b', E.Ok b → m b = some (a, b') → E.Emitted S X b b' P (Q a)

namespace Triple

variable {E : Emitter B N C O} {S : N → Prop} {X : O → Prop} {α β : Type}
  {m : StateT B Option α} {f : α → StateT B Option β} {P P' : ℕ → C → Prop}
  {Q Q' : α → ℕ → C → Prop} {R : β → ℕ → C → Prop}

/-- The two parts of a run of a sequence. -/
lemma bind_inv {b b' : B} {a : β} (h : (m >>= f) b = some (a, b')) :
    ∃ x b₁, m b = some (x, b₁) ∧ f x b₁ = some (a, b') := by
  obtain ⟨⟨x, b₁⟩, hm, hf⟩ := Option.bind_eq_some_iff.mp h
  exact ⟨x, b₁, hm, hf⟩

lemma pure {a : α} (h : ∀ n c, P n c → Q a n c) :
    E.Triple S X P (Pure.pure a : StateT B Option α) Q := by
  rintro b _ _ hok ⟨⟩
  exact Emitted.refl hok fun c hc => h _ c hc

lemma bind (hm : E.Triple S X P m Q) (hf : ∀ a, E.Triple S X (Q a) (f a) R) :
    E.Triple S X P (m >>= f) R := by
  intro b a b' hok h
  obtain ⟨x, b₁, hx, ha⟩ := bind_inv h
  have hfirst := hm b x b₁ hok hx
  exact hfirst.trans (hf x b₁ a b' hfirst.ok ha)

lemma fail : E.Triple S X P (failure : StateT B Option α) Q := by
  intro b a b' _ h
  cases h

lemma pre (h : E.Triple S X P m Q) (hP : ∀ n c, P' n c → P n c) : E.Triple S X P' m Q :=
  fun b a b' hok hm => (h b a b' hok hm).pre hP

lemma post (h : E.Triple S X P m Q) (hQ : ∀ a n c, Q a n c → Q' a n c) : E.Triple S X P m Q' :=
  fun b a b' hok hm => (h b a b' hok hm).post (hQ a)

lemma frame (h : E.Triple S X P m Q) (p : Prop) :
    E.Triple S X (fun n c => p ∧ P n c) m (fun a n c => p ∧ Q a n c) :=
  fun b a b' hok hm => (h b a b' hok hm).frame p

end Triple

end Emitter

end VitaSX2.StraightLine
