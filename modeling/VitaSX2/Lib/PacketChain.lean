/-
Packets that lie one behind another in a buffer.

`Holds` says that a buffer holds given words from a position on; `Chain` that it
holds packets back to back between two positions.  A write outside of these
positions changes neither.
-/
import Mathlib.Data.List.Basic
import Mathlib.Data.Nat.Basic
import Mathlib.Logic.Function.Basic

namespace VitaSX2.PacketChain

/-- Words at a position of a buffer. -/
structure Packet (ω : Type*) where
  start : ℕ
  words : List ω

namespace Packet

variable {ω : Type*}

def stop (packet : Packet ω) : ℕ := packet.start + packet.words.length

/-- A position lies in none of the cells of the packet. -/
def Avoids (packet : Packet ω) (position : ℕ) : Prop :=
  position < packet.start ∨ packet.stop ≤ position

end Packet

variable {ω : Type*}

def Holds (buffer : ℕ → ω) : ℕ → List ω → Prop
  | _, [] => True
  | p, word :: words => buffer p = word ∧ Holds buffer (p + 1) words

/-- The packets lie back to back from the first position to the second. -/
def Chain (buffer : ℕ → ω) : ℕ → List (Packet ω) → ℕ → Prop
  | p, [], q => p = q
  | p, packet :: packets, q =>
    packet.start = p ∧ Holds buffer p packet.words ∧ Chain buffer packet.stop packets q

variable {buffer : ℕ → ω} {p q x : ℕ} {v : ω}

lemma holds_append {words words' : List ω} :
    Holds buffer p (words ++ words') ↔
      Holds buffer p words ∧ Holds buffer (p + words.length) words' := by
  induction words generalizing p with
  | nil => simp [Holds]
  | cons word words ih =>
    simp only [List.cons_append, Holds, ih, List.length_cons, and_assoc]
    rw [show p + 1 + words.length = p + (words.length + 1) by omega]

/-- The word behind the words read so far. -/
lemma Holds.read {before after : List ω} (h : Holds buffer p (before ++ v :: after)) :
    buffer (p + before.length) = v :=
  (holds_append.1 h).2.1

lemma Holds.update {words : List ω} (h : Holds buffer p words)
    (hx : x < p ∨ p + words.length ≤ x) : Holds (Function.update buffer x v) p words := by
  induction words generalizing p with
  | nil => trivial
  | cons word words ih =>
    rw [List.length_cons] at hx
    obtain ⟨hword, hwords⟩ := h
    refine ⟨?_, ih hwords (by omega)⟩
    rw [Function.update_of_ne (by omega), hword]

/-- Words are held by every buffer that agrees where they are. -/
lemma Holds.congr {buffer' : ℕ → ω} {words : List ω} (h : Holds buffer p words)
    (hagree : ∀ x, p ≤ x → x < p + words.length → buffer' x = buffer x) :
    Holds buffer' p words := by
  induction words generalizing p with
  | nil => trivial
  | cons word words ih =>
    rw [List.length_cons] at hagree
    obtain ⟨hword, hwords⟩ := h
    exact ⟨(hagree p le_rfl (by omega)).trans hword,
      ih hwords fun x hle hlt => hagree x (by omega) (by omega)⟩

lemma holds_map_range {count : ℕ} {f : ℕ → ω} :
    Holds buffer p ((List.range count).map f) ↔ ∀ i < count, buffer (p + i) = f i := by
  induction count with
  | zero => simp [Holds]
  | succ count ih =>
    rw [List.range_succ, List.map_append, holds_append, ih]
    simp only [List.map_cons, List.map_nil, Holds, List.length_map, List.length_range, and_true]
    constructor
    · rintro ⟨hbefore, hlast⟩ i hi
      rcases Nat.lt_succ_iff_lt_or_eq.mp hi with hlt | rfl
      · exact hbefore i hlt
      · exact hlast
    · exact fun h => ⟨fun i hi => h i (by omega), h count (by omega)⟩

lemma Holds.snoc {words : List ω} (h : Holds buffer p words) :
    Holds (Function.update buffer (p + words.length) v) p (words ++ [v]) :=
  holds_append.2 ⟨h.update (.inr le_rfl), Function.update_self .., trivial⟩

lemma chain_append {packets packets' : List (Packet ω)} :
    Chain buffer p (packets ++ packets') q ↔
      ∃ m, Chain buffer p packets m ∧ Chain buffer m packets' q := by
  induction packets generalizing p with
  | nil => simp [Chain]
  | cons packet packets ih => simp only [List.cons_append, Chain, ih, and_assoc, exists_and_left]

lemma Chain.le {packets : List (Packet ω)} (h : Chain buffer p packets q) : p ≤ q := by
  induction packets generalizing p with
  | nil => exact Nat.le_of_eq h
  | cons packet packets ih =>
    obtain ⟨rfl, -, hrest⟩ := h
    have := ih hrest
    simp only [Packet.stop] at this
    omega

/-- Every packet of a chain lies between its ends. -/
lemma Chain.bounds {packets : List (Packet ω)} (h : Chain buffer p packets q) :
    ∀ packet ∈ packets, p ≤ packet.start ∧ packet.stop ≤ q := by
  induction packets generalizing p with
  | nil => simp
  | cons packet packets ih =>
    obtain ⟨rfl, -, hrest⟩ := h
    intro other hother
    rcases List.mem_cons.1 hother with rfl | hmem
    · exact ⟨le_rfl, hrest.le⟩
    · obtain ⟨hstart, hstop⟩ := ih hrest other hmem
      refine ⟨?_, hstop⟩
      simp only [Packet.stop] at hstart
      omega

/-- A chain is found in every buffer that agrees between its ends. -/
lemma Chain.congr {buffer' : ℕ → ω} {packets : List (Packet ω)} (h : Chain buffer p packets q)
    (hagree : ∀ x, p ≤ x → x < q → buffer' x = buffer x) : Chain buffer' p packets q := by
  induction packets generalizing p with
  | nil => exact h
  | cons packet packets ih =>
    obtain ⟨rfl, hholds, hrest⟩ := h
    have hle := hrest.le
    simp only [Packet.stop] at hle
    refine ⟨rfl, hholds.congr fun x hstart hstop => hagree x hstart (by omega), ih hrest ?_⟩
    intro x hstart hstop
    simp only [Packet.stop] at hstart
    exact hagree x (by omega) hstop

lemma Chain.avoids {packets : List (Packet ω)} (h : Chain buffer p packets q)
    (hx : x < p ∨ q ≤ x) : ∀ packet ∈ packets, packet.Avoids x := by
  intro packet hpacket
  obtain ⟨hstart, hstop⟩ := h.bounds packet hpacket
  simp only [Packet.Avoids]
  omega

lemma Chain.update {packets : List (Packet ω)} (h : Chain buffer p packets q)
    (hx : x < p ∨ q ≤ x) : Chain (Function.update buffer x v) p packets q := by
  induction packets generalizing p with
  | nil => exact h
  | cons packet packets ih =>
    obtain ⟨rfl, hholds, hrest⟩ := h
    have hle := hrest.le
    simp only [Packet.stop] at hle
    refine ⟨rfl, hholds.update (by omega), ih hrest ?_⟩
    simp only [Packet.stop]
    omega

/-- A chain of packets that hold words is empty only between equal positions. -/
lemma Chain.eq_nil {packets : List (Packet ω)} (h : Chain buffer p packets p)
    (hwords : ∀ packet ∈ packets, packet.words ≠ []) : packets = [] := by
  cases packets with
  | nil => rfl
  | cons packet packets =>
    obtain ⟨rfl, -, hrest⟩ := h
    have hle := hrest.le
    have hpos := List.length_pos_iff.2 (hwords packet List.mem_cons_self)
    simp only [Packet.stop] at hle
    omega

lemma chain_snoc {packets : List (Packet ω)} {words : List ω} (h : Chain buffer p packets q)
    (hwords : Holds buffer q words) :
    Chain buffer p (packets ++ [⟨q, words⟩]) (q + words.length) :=
  chain_append.2 ⟨q, h, rfl, hwords, rfl⟩

end VitaSX2.PacketChain
