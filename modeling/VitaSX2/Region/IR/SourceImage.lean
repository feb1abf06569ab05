/-
The immutable source image of a region (`MergeImmutableSourceSpan`).

A vector of spans is a snapshot of guest words at aligned addresses.  A new span
is pushed behind the others, all are sorted by their base, and neighbours that
overlap or touch are merged when they hold the same words.
-/
import VitaSX2.Lib.Runs
import VitaSX2.Region.IR.Program
import Mathlib.Data.BitVec
import Mathlib.Data.List.Sort

namespace VitaSX2.RegionIR

open VitaSX2.Runs

/-! ### The merge -/

deriving instance DecidableEq for SourceSpan

/-- `SourceSpanMergeFailure`. -/
inductive SourceSpanMergeFailure
  | none
  | invalidSource
  | conflictingSource
  | sourceLimit
deriving DecidableEq, Repr

namespace SourceSpan

variable (span : SourceSpan)

/-- The address behind the last word, in 64 bits. -/
def stop : ℕ := span.basePc.toNat + span.words.length * 4

/-- The checks of a pending span. -/
def isValid : Bool :=
  span.basePc &&& 3#32 == 0 && span.words ≠ [] && span.stop ≤ 2 ^ 32

end SourceSpan

/-- `std::sort` by the base of the spans; spans with one base come in any order. -/
structure BaseSort where
  sort : List SourceSpan → List SourceSpan
  perm : ∀ spans, (sort spans).Perm spans
  sorted : ∀ spans, (sort spans).Pairwise fun left right => left.basePc.toNat ≤ right.basePc.toNat

/-- The words of `next` that `current` has already. -/
def spanOverlap (current next : SourceSpan) : ℕ :=
  let offset := (next.basePc - current.basePc).toNat / 4
  if offset < current.words.length then min (current.words.length - offset) next.words.length else 0

/-- One turn with a span that does not start behind `merged.back()`. -/
def extendSpan (current next : SourceSpan) : Option SourceSpan :=
  let offset := (next.basePc - current.basePc).toNat / 4
  let overlap := spanOverlap current next
  if (List.range overlap).all fun index => current.words[offset + index]? = next.words[index]? then
    some { current with words := current.words ++ next.words.drop overlap }
  else none

/-- The loop over the pending spans, from `merged.back()` on. -/
def mergeSorted (current : SourceSpan) : List SourceSpan → Option (List SourceSpan)
  | [] => some [current]
  | next :: rest =>
    if current.stop < next.basePc.toNat then (mergeSorted next rest).map (current :: ·)
    else (extendSpan current next).bind fun extended => mergeSorted extended rest

/-- What `MergeImmutableSourceSpan` leaves behind. -/
structure SourceSpanMerge where
  failure : SourceSpanMergeFailure
  spans : List SourceSpan
  requiredSourceInstructions : ℕ := 0
deriving DecidableEq

/-- `MergeImmutableSourceSpan`. -/
def mergeImmutableSourceSpan (sort : BaseSort) (spans : List SourceSpan) (incoming : SourceSpan)
    (maxSourceInstructions : ℕ) : SourceSpanMerge :=
  if maxSourceInstructions = 0 then { failure := .invalidSource, spans }
  else if !(spans ++ [incoming]).all (·.isValid) then { failure := .invalidSource, spans }
  else
    let merged :=
      match sort.sort (spans ++ [incoming]) with
      | [] => some []
      | first :: rest => mergeSorted first rest
    match merged with
    | none => { failure := .conflictingSource, spans }
    | some merged =>
      let totalWords := (merged.map (·.words.length)).sum
      let required := min totalWords (2 ^ 32 - 1)
      if maxSourceInstructions < totalWords then
        { failure := .sourceLimit, spans, requiredSourceInstructions := required }
      else { failure := .none, spans := merged, requiredSourceInstructions := required }

/-! ### The words of the spans -/

/-- The spans give a word to an address. -/
def SpansGive (spans : List SourceSpan) (address : ℕ) (word : BitVec 32) : Prop :=
  ∃ span ∈ spans, ∃ index, span.words[index]? = some word ∧
    address = span.basePc.toNat + index * 4

/-- No address is given two different words. -/
def SpansAgree (spans : List SourceSpan) : Prop :=
  ∀ address word other, SpansGive spans address word → SpansGive spans address other → word = other

/-- The words of the union. -/
noncomputable def unionWords (spans : List SourceSpan) : ℕ :=
  {address | ∃ word, SpansGive spans address word}.ncard

/-- A span that is aligned, not empty and inside the address space. -/
structure SourceSpan.Valid (span : SourceSpan) : Prop where
  aligned : span.basePc.toNat % 4 = 0
  nonempty : span.words ≠ []
  fits : span.stop ≤ 2 ^ 32

/-- Spans that are sorted, disjoint and valid. -/
structure SourceImage (spans : List SourceSpan) : Prop where
  valid : ∀ span ∈ spans, span.Valid
  disjoint : spans.Pairwise fun span next => span.stop ≤ next.basePc.toNat

/-- Spans that are also not adjacent. -/
structure CanonicalImage (spans : List SourceSpan) : Prop where
  valid : ∀ span ∈ spans, span.Valid
  apart : spans.Pairwise fun span next => span.stop < next.basePc.toNat

/-! ### Spans as runs of words -/

/-- A span in units of words. -/
def SourceSpan.run (span : SourceSpan) : Run (BitVec 32) := ⟨span.basePc.toNat / 4, span.words⟩

section Runs

variable {span current next : SourceSpan} {spans others : List SourceSpan}

lemma isValid_iff : span.isValid ↔ span.Valid := by
  have haligned : span.basePc &&& 3#32 = 0 ↔ span.basePc.toNat % 4 = 0 := by
    rw [← BitVec.toNat_inj, BitVec.toNat_and]
    exact Eq.congr (Nat.and_two_pow_sub_one_eq_mod span.basePc.toNat 2) rfl
  simp only [SourceSpan.isValid, Bool.and_eq_true, beq_iff_eq, decide_eq_true_iff, haligned]
  exact ⟨fun ⟨⟨h, h'⟩, h''⟩ => ⟨h, h', h''⟩, fun ⟨h, h', h''⟩ => ⟨⟨h, h'⟩, h''⟩⟩

lemma SourceSpan.Valid.stop_run (h : span.Valid) : span.stop = span.run.stop * 4 := by
  have := h.aligned
  rw [SourceSpan.stop, Run.stop, SourceSpan.run]
  dsimp only
  omega

lemma spansGive_congr (h : ∀ span, span ∈ spans ↔ span ∈ others) {address : ℕ}
    {word : BitVec 32} : SpansGive spans address word ↔ SpansGive others address word := by
  simp only [SpansGive, h]

lemma spansGive_append {address : ℕ} {word : BitVec 32} :
    SpansGive (spans ++ others) address word ↔
      SpansGive spans address word ∨ SpansGive others address word := by
  simp only [SpansGive, List.mem_append, or_and_right, exists_or]

/-- Valid spans give words to addresses as their runs give them to places. -/
lemma spansGive_iff (h : ∀ span ∈ spans, span.Valid) {address : ℕ} {word : BitVec 32} :
    SpansGive spans address word ↔
      address % 4 = 0 ∧ Gives (spans.map SourceSpan.run) (address / 4) word := by
  constructor
  · rintro ⟨span, hspan, index, hword, rfl⟩
    have := (h span hspan).aligned
    refine ⟨by omega, span.run, List.mem_map_of_mem hspan, ?_⟩
    refine ⟨by rw [SourceSpan.run]; dsimp only; omega, ?_⟩
    rw [SourceSpan.run]
    dsimp only
    rwa [show (span.basePc.toNat + index * 4) / 4 - span.basePc.toNat / 4 = index by omega]
  · rintro ⟨haddress, run, hrun, hstart, hword⟩
    obtain ⟨span, hspan, rfl⟩ := List.mem_map.mp hrun
    have := (h span hspan).aligned
    rw [SourceSpan.run] at hstart hword
    dsimp only at hstart hword
    exact ⟨span, hspan, _, hword, by omega⟩

lemma spansAgree_iff (h : ∀ span ∈ spans, span.Valid) :
    SpansAgree spans ↔ Consistent (spans.map SourceSpan.run) := by
  constructor
  · intro hagree place value other hvalue hother
    have hmul : place * 4 / 4 = place := Nat.mul_div_cancel _ (by decide)
    refine hagree (place * 4) value other ?_ ?_
    · rw [spansGive_iff h, hmul]
      exact ⟨Nat.mul_mod_left _ _, hvalue⟩
    · rw [spansGive_iff h, hmul]
      exact ⟨Nat.mul_mod_left _ _, hother⟩
  · intro hconsistent address word other hword hother
    rw [spansGive_iff h] at hword hother
    exact hconsistent _ _ _ hword.2 hother.2

lemma unionWords_eq (h : ∀ span ∈ spans, span.Valid) :
    unionWords spans = {place | ∃ word, Gives (spans.map SourceSpan.run) place word}.ncard := by
  rw [unionWords]
  refine (Set.ncard_congr (fun place _ => place * 4) ?_ ?_ ?_).symm
  · rintro place ⟨word, hword⟩
    refine ⟨word, (spansGive_iff h).mpr ⟨Nat.mul_mod_left _ _, ?_⟩⟩
    rwa [Nat.mul_div_cancel _ (by decide)]
  · intro place other _ _ heq
    omega
  · rintro address ⟨word, hword⟩
    obtain ⟨haddress, hgives⟩ := (spansGive_iff h).mp hword
    exact ⟨address / 4, ⟨word, hgives⟩, by omega⟩

end Runs

/-! ### The merge of sorted spans -/

section Sorted

variable {current next extended : SourceSpan} {rest merged : List SourceSpan}

lemma offset_eq (hcurrent : current.Valid) (hnext : next.Valid)
    (hbase : current.basePc.toNat ≤ next.basePc.toNat) :
    (next.basePc - current.basePc).toNat / 4 = next.run.start - current.run.start := by
  have := hcurrent.aligned
  have := hnext.aligned
  rw [BitVec.toNat_sub_of_le (BitVec.le_def.mpr hbase), SourceSpan.run, SourceSpan.run]
  dsimp only
  omega

/-- The turn joins the runs of the two spans. -/
lemma extendSpan_eq (hcurrent : current.Valid) (hnext : next.Valid)
    (hbase : current.basePc.toNat ≤ next.basePc.toNat) :
    (extendSpan current next).map SourceSpan.run = absorb current.run next.run := by
  have hoffset := offset_eq hcurrent hnext hbase
  have hstart : current.run.start ≤ next.run.start := Nat.div_le_div_right hbase
  have hoverlap : spanOverlap current next = overlap current.run next.run := by
    have hitems : current.run.items = current.words := rfl
    have hitems' : next.run.items = next.words := rfl
    rw [spanOverlap, overlap, Run.stop, hoffset, hitems, hitems']
    split <;> omega
  rw [extendSpan, absorb, hoffset, hoverlap]
  have hall : ((List.range (overlap current.run next.run)).all fun index =>
      current.words[next.run.start - current.run.start + index]? = next.words[index]?) = true ↔
      ∀ index < overlap current.run next.run,
        current.run.items[next.run.start - current.run.start + index]? =
          next.run.items[index]? := by
    rw [List.all_eq_true]
    exact forall_congr' fun index => imp_congr List.mem_range (decide_eq_true_iff)
  rw [← take_drop_eq_iff] at hall
  split
  next hagree =>
    rw [if_pos (hall.mp hagree)]
    rfl
  next hagree =>
    rw [if_neg fun h => hagree (hall.mpr h)]
    rfl

lemma basePc_extendSpan (h : extendSpan current next = some extended) :
    extended.basePc = current.basePc := by
  unfold extendSpan at h
  dsimp only at h
  split at h
  · cases h
    rfl
  · cases h

/-- The span that a valid one becomes is valid. -/
lemma valid_extendSpan (hcurrent : current.Valid) (hnext : next.Valid)
    (hbase : current.basePc.toNat ≤ next.basePc.toNat) (hstop : next.basePc.toNat ≤ current.stop)
    (h : extendSpan current next = some extended) : extended.Valid := by
  have habsorb : absorb current.run next.run = some extended.run := by
    rw [← extendSpan_eq hcurrent hnext hbase, h]
    rfl
  have hstart : current.run.start ≤ next.run.start := Nat.div_le_div_right hbase
  have htouch : next.run.start ≤ current.run.stop := by
    rw [hcurrent.stop_run] at hstop
    have := hnext.aligned
    rw [SourceSpan.run]
    dsimp only
    omega
  have haligned : extended.basePc.toNat % 4 = 0 := by
    rw [basePc_extendSpan h]
    exact hcurrent.aligned
  have hitems : extended.words ≠ [] := items_absorb_ne_nil habsorb hcurrent.nonempty
  refine ⟨haligned, hitems, ?_⟩
  -- The last word is one of the two spans.
  have hlength := List.length_pos_of_ne_nil hitems
  have hstopRun : extended.run.stop = extended.basePc.toNat / 4 + extended.words.length := rfl
  obtain ⟨word, hword⟩ := Run.exists_at
    (show extended.run.start ≤ extended.run.stop - 1 by rw [hstopRun, SourceSpan.run]; dsimp; omega)
    (show extended.run.stop - 1 < extended.run.stop by omega)
  have hgives := (at_absorb hstart htouch habsorb).mp hword
  simp only [gives_cons, gives_nil, or_false] at hgives
  have hcurrentStop := hcurrent.stop_run
  have hnextStop := hnext.stop_run
  have hcurrentFits := hcurrent.fits
  have hnextFits := hnext.fits
  have hextendedStop : extended.stop = extended.run.stop * 4 := by
    rw [SourceSpan.stop]
    omega
  rcases hgives with hat | hat
  · have := hat.lt_stop
    omega
  · have := hat.lt_stop
    omega

/-- The order of the pending spans. -/
abbrev BaseSorted (spans : List SourceSpan) : Prop :=
  spans.Pairwise fun left right => left.basePc.toNat ≤ right.basePc.toNat

lemma BaseSorted.runs (h : BaseSorted rest) :
    (rest.map SourceSpan.run).Pairwise fun run next => run.start ≤ next.start :=
  List.pairwise_map.mpr (h.imp fun hbase => Nat.div_le_div_right hbase)

/-- The merge keeps the spans valid and coalesces their runs. -/
theorem mergeSorted_eq (hsorted : BaseSorted (current :: rest))
    (hvalid : ∀ span ∈ current :: rest, span.Valid) :
    (mergeSorted current rest).map (·.map SourceSpan.run) =
        coalesce current.run (rest.map SourceSpan.run) ∧
      ∀ merged, mergeSorted current rest = some merged → ∀ span ∈ merged, span.Valid := by
  induction rest generalizing current with
  | nil =>
    refine ⟨rfl, fun merged hmerged => ?_⟩
    cases hmerged
    exact hvalid
  | cons next rest ih =>
    rw [BaseSorted, List.pairwise_cons] at hsorted
    obtain ⟨hfirst, hrest⟩ := hsorted
    have hcurrent := hvalid current List.mem_cons_self
    have hnext := hvalid next (List.mem_cons_of_mem _ List.mem_cons_self)
    have hbase := hfirst next List.mem_cons_self
    have hapart : current.run.stop < next.run.start ↔ current.stop < next.basePc.toNat := by
      have := hnext.aligned
      rw [hcurrent.stop_run, show next.run.start = next.basePc.toNat / 4 from rfl]
      omega
    rw [mergeSorted, List.map_cons, coalesce]
    by_cases hstop : current.stop < next.basePc.toNat
    · rw [if_pos hstop, if_pos (hapart.mpr hstop)]
      obtain ⟨heq, hkept⟩ := ih hrest fun span hspan => hvalid span (List.mem_cons_of_mem _ hspan)
      constructor
      · rw [← heq, Option.map_map, Option.map_map]
        rfl
      · intro merged hmerged span hspan
        obtain ⟨tail, htail, rfl⟩ := Option.map_eq_some_iff.mp hmerged
        rcases List.mem_cons.mp hspan with rfl | hspan
        · exact hcurrent
        · exact hkept tail htail span hspan
    · rw [if_neg hstop, if_neg fun h => hstop (hapart.mp h), ← extendSpan_eq hcurrent hnext hbase]
      cases hextended : extendSpan current next with
      | none => exact ⟨rfl, fun _ h => by cases h⟩
      | some extended =>
        have hextendedValid :=
          valid_extendSpan hcurrent hnext hbase (not_lt.mp hstop) hextended
        refine ih ?_ ?_
        · refine List.pairwise_cons.mpr ⟨fun span hspan => ?_, hrest.of_cons⟩
          rw [basePc_extendSpan hextended]
          exact hfirst span (List.mem_cons_of_mem _ hspan)
        · intro span hspan
          rcases List.mem_cons.mp hspan with rfl | hspan
          · exact hextendedValid
          · exact hvalid span (List.mem_cons_of_mem _ (List.mem_cons_of_mem _ hspan))

end Sorted

/-! ### What a merge does -/

/-- Spans that some pending spans are merged to. -/
structure Merged (pending merged : List SourceSpan) : Prop where
  canonical : CanonicalImage merged
  gives : ∀ address word, SpansGive merged address word ↔ SpansGive pending address word
  total : (merged.map (·.words.length)).sum = unionWords pending

section Merge

variable {current : SourceSpan} {rest merged spans others pending : List SourceSpan}

lemma unionWords_congr
    (h : ∀ address word, SpansGive spans address word ↔ SpansGive others address word) :
    unionWords spans = unionWords others := by
  simp only [unionWords, h]

lemma spansAgree_congr
    (h : ∀ address word, SpansGive spans address word ↔ SpansGive others address word) :
    SpansAgree spans ↔ SpansAgree others := by
  simp only [SpansAgree, h]

lemma finite_addresses (h : ∀ span ∈ spans, span.Valid) :
    {address | ∃ word, SpansGive spans address word}.Finite := by
  refine (Set.finite_Iio (2 ^ 32)).subset ?_
  rintro address ⟨word, span, hspan, index, hword, rfl⟩
  obtain ⟨hlength, -⟩ := List.getElem?_eq_some_iff.mp hword
  have := (h span hspan).fits
  rw [SourceSpan.stop] at this
  rw [Set.mem_Iio]
  omega

/-- The union of valid spans has a word. -/
lemma unionWords_pos (h : ∀ span ∈ spans, span.Valid) (hspans : spans ≠ []) :
    0 < unionWords spans := by
  obtain ⟨span, hspan⟩ := List.exists_mem_of_ne_nil spans hspans
  obtain ⟨word, words, hwords⟩ := List.exists_cons_of_ne_nil (h span hspan).nonempty
  refine (Set.ncard_pos (finite_addresses h)).mpr ⟨span.basePc.toNat, word, span, hspan, 0, ?_⟩
  rw [hwords]
  exact ⟨rfl, rfl⟩

lemma unionWords_mono (h : ∀ span ∈ others, span.Valid)
    (hgives : ∀ address word, SpansGive spans address word → SpansGive others address word) :
    unionWords spans ≤ unionWords others :=
  Set.ncard_le_ncard (fun _ ⟨word, hword⟩ => ⟨word, hgives _ word hword⟩) (finite_addresses h)

lemma canonicalImage_iff (h : ∀ span ∈ spans, span.Valid) :
    CanonicalImage spans ↔ Canonical (spans.map SourceSpan.run) := by
  have hapart : ∀ span ∈ spans, ∀ next ∈ spans,
      (span.run.stop < next.run.start ↔ span.stop < next.basePc.toNat) := by
    intro span hspan next hnext
    have := (h next hnext).aligned
    rw [(h span hspan).stop_run, show next.run.start = next.basePc.toNat / 4 from rfl]
    omega
  constructor
  · intro hcanonical
    refine ⟨fun run hrun => ?_, List.pairwise_map.mpr ?_⟩
    · obtain ⟨span, hspan, rfl⟩ := List.mem_map.mp hrun
      exact (h span hspan).nonempty
    · exact hcanonical.apart.imp_of_mem fun hspan hnext => (hapart _ hspan _ hnext).mpr
  · intro hcanonical
    refine ⟨h, ?_⟩
    exact (List.pairwise_map.mp hcanonical.apart).imp_of_mem fun hspan hnext =>
      (hapart _ hspan _ hnext).mp

lemma CanonicalImage.canonical (h : CanonicalImage spans) : Canonical (spans.map SourceSpan.run) :=
  (canonicalImage_iff h.valid).mp h

lemma eq_of_run_eq {span other : SourceSpan} (h : span.Valid) (hother : other.Valid)
    (heq : span.run = other.run) : span = other := by
  obtain ⟨basePc, words⟩ := span
  obtain ⟨otherPc, otherWords⟩ := other
  obtain ⟨hstart, hitems⟩ := Run.mk.inj heq
  have haligned := h.aligned
  have haligned' := hother.aligned
  dsimp only at hstart hitems haligned haligned'
  have hbase : basePc = otherPc := BitVec.eq_of_toNat_eq (by omega)
  rw [hbase, hitems]

lemma eq_of_runs_eq (h : ∀ span ∈ spans, span.Valid) (hothers : ∀ span ∈ others, span.Valid)
    (heq : spans.map SourceSpan.run = others.map SourceSpan.run) : spans = others := by
  induction spans generalizing others with
  | nil => exact (List.map_eq_nil_iff.mp heq.symm).symm
  | cons span spans ih =>
    cases others with
    | nil => cases heq
    | cons other others =>
      rw [List.forall_mem_cons] at h hothers
      obtain ⟨hrun, hruns⟩ := List.cons.inj heq
      rw [eq_of_run_eq h.1 hothers.1 hrun, ih h.2 hothers.2 hruns]

/-- There is one canonical image for the words that it gives. -/
theorem CanonicalImage.unique (h : CanonicalImage spans) (hothers : CanonicalImage others)
    (hgives : ∀ address word, SpansGive spans address word ↔ SpansGive others address word) :
    spans = others := by
  have hruns : spans.map SourceSpan.run = others.map SourceSpan.run := by
    refine h.canonical.unique hothers.canonical fun place word => ?_
    have hplace := hgives (place * 4) word
    rw [spansGive_iff h.valid, spansGive_iff hothers.valid, Nat.mul_div_cancel _ (by decide)]
      at hplace
    simpa using hplace
  exact eq_of_runs_eq h.valid hothers.valid hruns

/-- Sorted spans are merged exactly when they agree. -/
lemma mergeSorted_isSome_iff (hsorted : BaseSorted (current :: rest))
    (hvalid : ∀ span ∈ current :: rest, span.Valid) :
    (mergeSorted current rest).isSome ↔ SpansAgree (current :: rest) := by
  rw [spansAgree_iff hvalid, List.map_cons, ← coalesce_isSome_iff hsorted.runs,
    ← (mergeSorted_eq hsorted hvalid).1, Option.isSome_map]

lemma merged_of_eq_some (hsorted : BaseSorted (current :: rest))
    (hvalid : ∀ span ∈ current :: rest, span.Valid) (h : mergeSorted current rest = some merged) :
    Merged (current :: rest) merged := by
  obtain ⟨heq, hkept⟩ := mergeSorted_eq hsorted hvalid
  rw [h] at heq
  have hmerged := hkept merged h
  have hcoalesced :
      Coalesced current.run (rest.map SourceSpan.run) (merged.map SourceSpan.run) := by
    refine coalesced_of_eq_some hsorted.runs (fun run hrun => ?_) heq.symm
    obtain ⟨span, hspan, rfl⟩ := List.mem_map.mp (List.map_cons ▸ hrun)
    exact (hvalid span hspan).nonempty
  have hgives : ∀ address word,
      SpansGive merged address word ↔ SpansGive (current :: rest) address word := by
    intro address word
    rw [spansGive_iff hmerged, spansGive_iff hvalid, hcoalesced.gives, List.map_cons]
  refine ⟨(canonicalImage_iff hmerged).mpr hcoalesced.canonical, hgives, ?_⟩
  rw [← unionWords_congr hgives, unionWords_eq hmerged, hcoalesced.canonical.ncard_places,
    List.map_map]
  rfl

end Merge

/-! ### `MergeImmutableSourceSpan` -/

section MergeImmutable

variable (sort : BaseSort) (spans : List SourceSpan) (incoming : SourceSpan)
  (maxSourceInstructions : ℕ)

lemma exists_pending : ∃ first rest, sort.sort (spans ++ [incoming]) = first :: rest ∧
    BaseSorted (first :: rest) ∧ ∀ span, span ∈ first :: rest ↔ span ∈ incoming :: spans := by
  have hperm := sort.perm (spans ++ [incoming])
  have hsorted := sort.sorted (spans ++ [incoming])
  cases hpending : sort.sort (spans ++ [incoming]) with
  | nil =>
    rw [hpending] at hperm
    simpa using hperm.length_eq
  | cons first rest =>
    rw [hpending] at hperm hsorted
    refine ⟨first, rest, rfl, hsorted, fun span => ?_⟩
    rw [hperm.mem_iff, List.mem_append, List.mem_singleton, List.mem_cons, or_comm]

lemma all_isValid_iff :
    (spans ++ [incoming]).all (·.isValid) ↔ ∀ span ∈ incoming :: spans, span.Valid := by
  simp only [List.all_append, List.all_cons, List.all_nil, Bool.and_true, Bool.and_eq_true,
    List.all_eq_true, isValid_iff, List.forall_mem_cons]
  exact and_comm

/-- The outcome of a merge: which checks hold, and what is left behind. -/
theorem mergeImmutableSourceSpan_cases :
    let result := mergeImmutableSourceSpan sort spans incoming maxSourceInstructions
    (result.failure = .none ∧ (∀ span ∈ incoming :: spans, span.Valid) ∧
        SpansAgree (incoming :: spans) ∧
        unionWords (incoming :: spans) ≤ maxSourceInstructions ∧
        Merged (incoming :: spans) result.spans) ∨
      (result.failure ≠ .none ∧ result.spans = spans ∧
        ¬((∀ span ∈ incoming :: spans, span.Valid) ∧ SpansAgree (incoming :: spans) ∧
          unionWords (incoming :: spans) ≤ maxSourceInstructions)) := by
  obtain ⟨first, rest, hpending, hsorted, hmem⟩ := exists_pending sort spans incoming
  have hgives : ∀ address word,
      SpansGive (first :: rest) address word ↔ SpansGive (incoming :: spans) address word :=
    fun _ _ => spansGive_congr hmem
  unfold mergeImmutableSourceSpan
  dsimp only
  rw [hpending]
  dsimp only
  split
  next hmax =>
    -- An empty limit admits no word, but the incoming span has one.
    refine Or.inr ⟨fun h => (nomatch h), rfl, fun ⟨hvalid, _, hlimit⟩ => ?_⟩
    have := unionWords_pos hvalid (List.cons_ne_nil _ _)
    omega
  next hmax =>
    split
    next hinvalid =>
      refine Or.inr ⟨fun h => (nomatch h), rfl, fun ⟨hvalid, _, _⟩ => ?_⟩
      rw [(all_isValid_iff spans incoming).mpr hvalid] at hinvalid
      cases hinvalid
    next hchecked =>
      have hvalid : ∀ span ∈ incoming :: spans, span.Valid :=
        (all_isValid_iff spans incoming).mp (by simpa using hchecked)
      have hvalid' : ∀ span ∈ first :: rest, span.Valid := fun span hspan =>
        hvalid span ((hmem span).mp hspan)
      have hsome := mergeSorted_isSome_iff hsorted hvalid'
      rw [spansAgree_congr hgives] at hsome
      cases hmerge : mergeSorted first rest with
      | none =>
        refine Or.inr ⟨fun h => (nomatch h), rfl, fun ⟨_, hagree, _⟩ => ?_⟩
        rw [← hsome, hmerge] at hagree
        cases hagree
      | some merged =>
        have hmerged := merged_of_eq_some hsorted hvalid' hmerge
        have htotal : (merged.map (·.words.length)).sum = unionWords (incoming :: spans) := by
          rw [hmerged.total, unionWords_congr hgives]
        dsimp only
        rw [htotal]
        split
        next hlimit =>
          exact Or.inr ⟨fun h => (nomatch h), rfl, fun ⟨_, _, hfits⟩ => absurd hfits (by omega)⟩
        next hlimit =>
          refine Or.inl ⟨rfl, hvalid, hsome.mp (by rw [hmerge]; rfl), not_lt.mp hlimit, ?_⟩
          refine ⟨hmerged.canonical, fun address word => ?_, htotal⟩
          rw [hmerged.gives, hgives]

/-- The spans are merged one after the other, as long as none is rejected. -/
def mergeSpans : List SourceSpan → List SourceSpan → Option (List SourceSpan)
  | spans, [] => some spans
  | spans, incoming :: rest =>
    let result := mergeImmutableSourceSpan sort spans incoming maxSourceInstructions
    if result.failure = .none then mergeSpans result.spans rest else none

/-- Spans are all merged exactly when they are valid, agree and keep to the limit. -/
theorem mergeSpans_eq_some_iff {incomings out : List SourceSpan} (h : incomings ≠ []) :
    mergeSpans sort maxSourceInstructions spans incomings = some out ↔
      (∀ span ∈ incomings ++ spans, span.Valid) ∧ SpansAgree (incomings ++ spans) ∧
        unionWords (incomings ++ spans) ≤ maxSourceInstructions ∧ CanonicalImage out ∧
        ∀ address word,
          SpansGive out address word ↔ SpansGive (incomings ++ spans) address word := by
  induction incomings generalizing spans with
  | nil => exact absurd rfl h
  | cons incoming rest ih =>
    have hsub : incoming :: spans ⊆ incoming :: rest ++ spans := by simp
    rw [mergeSpans]
    rcases mergeImmutableSourceSpan_cases sort spans incoming maxSourceInstructions with
      ⟨hnone, hvalid, hagree, hlimit, hmerged⟩ | ⟨hfailed, -, hnot⟩
    · rw [if_pos hnone]
      generalize (mergeImmutableSourceSpan sort spans incoming maxSourceInstructions).spans = next
        at hmerged
      cases rest with
      | nil =>
        refine ⟨fun heq => ?_, fun ⟨_, _, _, hcanonical, hgives⟩ => ?_⟩
        · cases heq
          exact ⟨hvalid, hagree, hlimit, hmerged.canonical, hmerged.gives⟩
        · exact congrArg some (hmerged.canonical.unique hcanonical fun address word =>
            (hmerged.gives address word).trans (hgives address word).symm)
      | cons following rest =>
        have hgives : ∀ address word, SpansGive (following :: rest ++ next) address word ↔
            SpansGive (incoming :: following :: rest ++ spans) address word := by
          intro address word
          rw [spansGive_append, hmerged.gives, ← spansGive_append]
          refine spansGive_congr fun span => ?_
          simp only [List.mem_append, List.mem_cons]
          tauto
        have hvalidIff : (∀ span ∈ following :: rest ++ next, span.Valid) ↔
            ∀ span ∈ incoming :: following :: rest ++ spans, span.Valid := by
          simp only [List.cons_append, List.forall_mem_cons, List.forall_mem_append]
          constructor
          · rintro ⟨hfollowing, hrest, -⟩
            rw [List.forall_mem_cons] at hvalid
            exact ⟨hvalid.1, hfollowing, hrest, hvalid.2⟩
          · rintro ⟨-, hfollowing, hrest, -⟩
            exact ⟨hfollowing, hrest, hmerged.canonical.valid⟩
        rw [ih next (List.cons_ne_nil _ _), hvalidIff, spansAgree_congr hgives,
          unionWords_congr hgives]
        simp only [hgives]
    · rw [if_neg hfailed]
      refine ⟨fun heq => (nomatch heq), fun ⟨hvalid, hagree, hlimit, _⟩ => absurd ?_ hnot⟩
      have hgives : ∀ address word, SpansGive (incoming :: spans) address word →
          SpansGive (incoming :: rest ++ spans) address word :=
        fun _ _ ⟨span, hspan, hword⟩ => ⟨span, hsub hspan, hword⟩
      refine ⟨fun span hspan => hvalid span (hsub hspan), ?_, ?_⟩
      · exact fun address word other hword hother =>
          hagree address word other (hgives _ _ hword) (hgives _ _ hother)
      · exact (unionWords_mono hvalid hgives).trans hlimit

/-- The order of the spans and of the sort leaves no trace. -/
theorem mergeSpans_perm (other : BaseSort) {incomings reordered : List SourceSpan}
    (h : incomings.Perm reordered) :
    mergeSpans sort maxSourceInstructions spans incomings =
      mergeSpans other maxSourceInstructions spans reordered := by
  by_cases hnil : incomings = []
  · rw [hnil] at h ⊢
    rw [h.symm.eq_nil]
    rfl
  · have hnil' : reordered ≠ [] := fun hnone => hnil (hnone ▸ h).eq_nil
    have hmem : ∀ span, span ∈ incomings ++ spans ↔ span ∈ reordered ++ spans := fun span => by
      rw [List.mem_append, List.mem_append, h.mem_iff]
    have hgives : ∀ address word, SpansGive (incomings ++ spans) address word ↔
        SpansGive (reordered ++ spans) address word := fun _ _ => spansGive_congr hmem
    refine Option.ext fun out => ?_
    rw [mergeSpans_eq_some_iff _ _ _ hnil, mergeSpans_eq_some_iff _ _ _ hnil',
      spansAgree_congr hgives, unionWords_congr hgives]
    simp only [hgives, hmem]

end MergeImmutable

lemma unionWords_le (spans : List SourceSpan) :
    unionWords spans ≤ (spans.map (·.words.length)).sum := by
  let addresses := spans.flatMap fun span =>
    (List.range span.words.length).map fun index => span.basePc.toNat + index * 4
  have hsubset : {address | ∃ word, SpansGive spans address word} ⊆ ↑addresses.toFinset := by
    rintro address ⟨word, span, hspan, index, hword, rfl⟩
    obtain ⟨hlength, -⟩ := List.getElem?_eq_some_iff.mp hword
    rw [Finset.mem_coe, List.mem_toFinset]
    exact List.mem_flatMap.mpr ⟨span, hspan, List.mem_map_of_mem (List.mem_range.mpr hlength)⟩
  calc unionWords spans
      ≤ (↑addresses.toFinset : Set ℕ).ncard := Set.ncard_le_ncard hsubset (Finset.finite_toSet _)
    _ = addresses.toFinset.card := Set.ncard_coe_finset _
    _ ≤ addresses.length := List.toFinset_card_le _
    _ = (spans.map (·.words.length)).sum := by simp [addresses, List.length_flatMap]

/-- Valid spans that agree have a canonical image. -/
lemma exists_canonicalImage (sort : BaseSort) {spans : List SourceSpan}
    (hvalid : ∀ span ∈ spans, span.Valid) (hagree : SpansAgree spans) :
    ∃ out, CanonicalImage out ∧
      ∀ address word, SpansGive out address word ↔ SpansGive spans address word := by
  have hmem : ∀ span, span ∈ sort.sort spans ↔ span ∈ spans := fun _ => (sort.perm spans).mem_iff
  have hgives : ∀ address word,
      SpansGive (sort.sort spans) address word ↔ SpansGive spans address word :=
    fun _ _ => spansGive_congr hmem
  have hsorted := sort.sorted spans
  have hvalid' : ∀ span ∈ sort.sort spans, span.Valid := fun span hspan =>
    hvalid span ((hmem span).mp hspan)
  generalize sort.sort spans = pending at hgives hsorted hvalid'
  cases pending with
  | nil => exact ⟨[], ⟨hvalid', List.Pairwise.nil⟩, hgives⟩
  | cons first rest =>
    have hsome :=
      (mergeSorted_isSome_iff hsorted hvalid').mpr ((spansAgree_congr hgives).mpr hagree)
    obtain ⟨merged, hmerge⟩ := Option.isSome_iff_exists.mp hsome
    have hmerged := merged_of_eq_some hsorted hvalid' hmerge
    exact ⟨merged, hmerged.canonical, fun address word => (hmerged.gives _ _).trans (hgives _ _)⟩

/-- A merge into a source image: it succeeds exactly when the incoming span is
valid, agrees with the image and keeps to the limit; the new image is then the
canonical one for the words of both, and otherwise nothing has changed.  So spans
leave the same image in any order. -/
theorem mergeImmutableSourceSpan_exact (sort : BaseSort) {spans : List SourceSpan}
    (himage : SourceImage spans) (maxSourceInstructions : ℕ) :
    (∀ incoming,
      let result := mergeImmutableSourceSpan sort spans incoming maxSourceInstructions
      (result.failure = .none ↔ incoming.Valid ∧ SpansAgree (incoming :: spans) ∧
        unionWords (incoming :: spans) ≤ maxSourceInstructions) ∧
      (result.failure = .none → CanonicalImage result.spans ∧ ∀ address word,
        SpansGive result.spans address word ↔ SpansGive (incoming :: spans) address word) ∧
      (result.failure ≠ .none → result.spans = spans)) ∧
    ∀ (other : BaseSort) (incomings reordered : List SourceSpan), incomings.Perm reordered →
      mergeSpans sort maxSourceInstructions spans incomings =
        mergeSpans other maxSourceInstructions spans reordered ∧
      ((∀ span ∈ incomings, span.Valid) → SpansAgree (incomings ++ spans) →
        unionWords (incomings ++ spans) ≤ maxSourceInstructions →
        (mergeSpans sort maxSourceInstructions spans incomings).isSome) := by
  refine ⟨fun incoming => ?_, fun other incomings reordered hperm => ⟨?_, ?_⟩⟩
  · dsimp only
    have hvalid : (∀ span ∈ incoming :: spans, span.Valid) ↔ incoming.Valid := by
      rw [List.forall_mem_cons]
      exact and_iff_left himage.valid
    rcases mergeImmutableSourceSpan_cases sort spans incoming maxSourceInstructions with
      ⟨hnone, hincoming, hagree, hlimit, hmerged⟩ | ⟨hfailed, hkept, hnot⟩
    · refine ⟨⟨fun _ => ⟨hvalid.mp hincoming, hagree, hlimit⟩, fun _ => hnone⟩, fun _ => ?_, ?_⟩
      · exact ⟨hmerged.canonical, hmerged.gives⟩
      · exact fun hfailed => absurd hnone hfailed
    · rw [hvalid] at hnot
      exact ⟨⟨fun hnone => absurd hnone hfailed, fun h => absurd h hnot⟩,
        fun hnone => absurd hnone hfailed, fun _ => hkept⟩
  · exact mergeSpans_perm sort spans maxSourceInstructions other hperm
  · intro hvalid hagree hlimit
    by_cases hnil : incomings = []
    · rw [hnil]
      rfl
    · have hall : ∀ span ∈ incomings ++ spans, span.Valid :=
        List.forall_mem_append.mpr ⟨hvalid, himage.valid⟩
      obtain ⟨out, hcanonical, hgives⟩ := exists_canonicalImage sort hall hagree
      exact Option.isSome_iff_exists.mpr ⟨out, (mergeSpans_eq_some_iff sort spans
        maxSourceInstructions hnil).mpr ⟨hall, hagree, hlimit, hcanonical, hgives⟩⟩

/-- `std::sort` as an insertion sort. -/
def baseSort : BaseSort where
  sort := List.insertionSort fun left right => left.basePc.toNat ≤ right.basePc.toNat
  perm := List.perm_insertionSort _
  sorted :=
    haveI : Std.Total fun left right : SourceSpan => left.basePc.toNat ≤ right.basePc.toNat :=
      ⟨fun _ _ => Nat.le_total _ _⟩
    haveI : IsTrans SourceSpan fun left right => left.basePc.toNat ≤ right.basePc.toNat :=
      ⟨fun _ _ _ => Nat.le_trans⟩
    List.pairwise_insertionSort _

/-- Two spans that overlap in one word. -/
theorem mergeImmutableSourceSpan_exact_overlap :
    (mergeImmutableSourceSpan baseSort [⟨0x1000#32, [1#32, 2#32]⟩] ⟨0x1004#32, [2#32, 3#32]⟩
        64).spans = [⟨0x1000#32, [1#32, 2#32, 3#32]⟩] ∧
      CanonicalImage (mergeImmutableSourceSpan baseSort [⟨0x1000#32, [1#32, 2#32]⟩]
        ⟨0x1004#32, [2#32, 3#32]⟩ 64).spans := by
  have himage : SourceImage [⟨0x1000#32, [1#32, 2#32]⟩] :=
    ⟨by simpa using ⟨rfl, List.cons_ne_nil _ _, by decide⟩, List.pairwise_singleton _ _⟩
  have hexact := (mergeImmutableSourceSpan_exact baseSort himage 64).1 ⟨0x1004#32, [2#32, 3#32]⟩
  exact ⟨rfl, (hexact.2.1 rfl).1⟩

/-- A span across the end of the address space makes every merge fail. -/
theorem mergeImmutableSourceSpan_beyond_end :
    ¬∀ (sort : BaseSort) (spans : List SourceSpan),
      (∀ span ∈ spans, span.basePc.toNat % 4 = 0 ∧ span.words ≠ []) →
      (spans.Pairwise fun span next => span.stop ≤ next.basePc.toNat) →
      ∀ (incoming : SourceSpan) (maxSourceInstructions : ℕ), incoming.Valid →
        SpansAgree (incoming :: spans) →
        unionWords (incoming :: spans) ≤ maxSourceInstructions →
        (mergeImmutableSourceSpan sort spans incoming maxSourceInstructions).failure = .none := by
  intro h
  have hnone := h baseSort [⟨0xfffffffc#32, [1#32, 2#32]⟩] (by simp) (List.pairwise_singleton _ _)
    ⟨0#32, [5#32]⟩ 64 ⟨rfl, List.cons_ne_nil _ _, by decide⟩ ?_
    ((unionWords_le _).trans (by decide))
  · cases hnone
  · rintro address word other ⟨span, hspan, index, hword, rfl⟩ ⟨span', hspan', index', hother, heq⟩
    obtain ⟨hlength, -⟩ := List.getElem?_eq_some_iff.mp hword
    obtain ⟨hlength', -⟩ := List.getElem?_eq_some_iff.mp hother
    simp only [List.mem_cons, List.not_mem_nil, or_false] at hspan hspan'
    have hsame : span = span' := by
      rcases hspan with rfl | rfl <;> rcases hspan' with rfl | rfl
      · rfl
      · simp at heq hlength
        omega
      · simp at heq hlength'
        omega
      · rfl
    subst hsame
    obtain rfl : index = index' := by omega
    exact Option.some.inj (hword.symm.trans hother)

end VitaSX2.RegionIR
