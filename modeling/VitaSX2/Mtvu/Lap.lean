/-
Where the packets lie that the worker has not passed.

The worker is either in the lap of the EE thread, and the packets lie in one
chain from the read position to the end of the written ones; or it is still in
the lap before, and the EE thread stays behind the read position.
-/
import VitaSX2.Mtvu.Ring

namespace VitaSX2.Mtvu

open PacketChain

variable {ω : Type*} {format : RecordFormat ω} {buffer : ℕ → ω}
  {readPos writePos last x : ℕ} {queue batch : List (Packet ω)}

def RecordFormat.AllRecords (format : RecordFormat ω) (packets : List (Packet ω)) : Prop :=
  ∀ packet ∈ packets, format.IsRecord packet.words

/-- The published packets in `queue` and the unpublished ones in `batch`, between
the published positions and up to `last`. -/
inductive Lap (format : RecordFormat ω) (buffer : ℕ → ω) (readPos writePos last : ℕ)
    (queue batch : List (Packet ω)) : Prop
  | same (records : format.AllRecords queue) (laid : Chain buffer readPos queue writePos)
      (batch_laid : Chain buffer writePos batch last)
  | split (front back : List (Packet ω)) (marker : Packet ω) (wrapPos : ℕ)
      (queue_eq : queue = front ++ marker :: back)
      (marker_eq : marker.words = [format.nullPacket])
      (front_records : format.AllRecords front) (back_records : format.AllRecords back)
      (front_laid : Chain buffer readPos (front ++ [marker]) wrapPos)
      (back_laid : Chain buffer 0 back writePos) (batch_laid : Chain buffer writePos batch last)
      (behind : last < readPos)

lemma RecordFormat.IsRecord.ne_null {words : List ω} (h : format.IsRecord words) :
    words ≠ [format.nullPacket] := by
  rintro rfl
  exact h.not_null rfl

lemma RecordFormat.AllRecords.append {packets packets' : List (Packet ω)}
    (h : format.AllRecords packets) (h' : format.AllRecords packets') :
    format.AllRecords (packets ++ packets') := by
  intro packet hpacket
  rcases List.mem_append.1 hpacket with hmem | hmem
  · exact h packet hmem
  · exact h' packet hmem

namespace Lap

lemma le_last (h : Lap format buffer readPos writePos last queue batch) : writePos ≤ last := by
  cases h with
  | same _ _ hbatch => exact hbatch.le
  | split _ _ _ _ _ _ _ _ _ _ hbatch _ => exact hbatch.le

/-- The worker finds the ring empty only when no packet is left. -/
lemma queue_eq_nil (h : Lap format buffer readPos writePos last queue batch)
    (heq : readPos = writePos) : queue = [] := by
  have hle := h.le_last
  cases h with
  | same hrecords hlaid _ =>
    subst heq
    exact hlaid.eq_nil fun packet hpacket => (hrecords packet hpacket).ne_nil
  | split _ _ _ _ _ _ _ _ _ _ _ hbehind => omega

lemma queue_ne_nil (h : Lap format buffer readPos writePos last queue batch)
    (hne : readPos ≠ writePos) : queue ≠ [] := by
  cases h with
  | same _ hlaid _ =>
    rintro rfl
    exact hne hlaid
  | split front back marker _ hqueue => simp [hqueue]

/-- A position behind the written packets, and before the read position of a
worker in the lap before, lies in no packet. -/
lemma avoids (h : Lap format buffer readPos writePos last queue batch) (hx : last ≤ x)
    (hbehind : last < readPos → x < readPos) : ∀ packet ∈ queue ++ batch, packet.Avoids x := by
  have hle := h.le_last
  intro packet hpacket
  rw [List.mem_append] at hpacket
  cases h with
  | same _ hlaid hbatch =>
    rcases hpacket with hmem | hmem
    · exact hlaid.avoids (.inr (by omega)) packet hmem
    · exact hbatch.avoids (.inr hx) packet hmem
  | split front back marker _ hqueue _ _ _ hfront hback hbatch hlast =>
    rw [hqueue, List.append_cons, List.mem_append, or_assoc] at hpacket
    rcases hpacket with hmem | hmem | hmem
    · exact hfront.avoids (.inl (hbehind hlast)) packet hmem
    · exact hback.avoids (.inr (by omega)) packet hmem
    · exact hbatch.avoids (.inr hx) packet hmem

lemma update {v : ω} (h : Lap format buffer readPos writePos last queue batch) (hx : last ≤ x)
    (hbehind : last < readPos → x < readPos) :
    Lap format (Function.update buffer x v) readPos writePos last queue batch := by
  have hle := h.le_last
  cases h with
  | same hrecords hlaid hbatch =>
    exact .same hrecords (hlaid.update (.inr (by omega))) (hbatch.update (.inr hx))
  | split front back marker wrapPos hqueue hmarker hfrontRecords hbackRecords hfront hback hbatch
      hlast =>
    exact .split front back marker wrapPos hqueue hmarker hfrontRecords hbackRecords
      (hfront.update (.inl (hbehind hlast))) (hback.update (.inr (by omega)))
      (hbatch.update (.inr hx)) hlast

/-- The packet that the worker reads next. -/
lemma head {packet : Packet ω} {rest : List (Packet ω)}
    (h : Lap format buffer readPos writePos last (packet :: rest) batch) :
    packet.start = readPos ∧ Holds buffer readPos packet.words ∧
      (format.IsRecord packet.words ∨ packet.words = [format.nullPacket]) := by
  cases h with
  | same hrecords hlaid _ =>
    obtain ⟨hstart, hholds, -⟩ := hlaid
    exact ⟨hstart, hholds, .inl (hrecords packet List.mem_cons_self)⟩
  | split front back marker _ hqueue hmarker hrecords _ hfront _ _ _ =>
    cases front with
    | nil =>
      obtain ⟨rfl, rfl⟩ := List.cons.inj hqueue
      obtain ⟨hstart, hholds, -⟩ := hfront
      exact ⟨hstart, hholds, .inr hmarker⟩
    | cons first front =>
      obtain ⟨rfl, rfl⟩ := List.cons.inj hqueue
      obtain ⟨hstart, hholds, -⟩ := hfront
      exact ⟨hstart, hholds, .inl (hrecords packet List.mem_cons_self)⟩

/-- Passing a record. -/
lemma pass_record {packet : Packet ω} {rest : List (Packet ω)}
    (h : Lap format buffer readPos writePos last (packet :: rest) batch)
    (hne : packet.words ≠ [format.nullPacket]) :
    Lap format buffer (readPos + packet.words.length) writePos last rest batch := by
  cases h with
  | same hrecords hlaid hbatch =>
    obtain ⟨rfl, -, hrest⟩ := hlaid
    exact .same (fun other hother => hrecords other (List.mem_cons_of_mem _ hother)) hrest hbatch
  | split front back marker wrapPos hqueue hmarker hfrontRecords hbackRecords hfront hback hbatch
      hlast =>
    cases front with
    | nil =>
      obtain ⟨rfl, -⟩ := List.cons.inj hqueue
      exact absurd hmarker hne
    | cons first front =>
      obtain ⟨rfl, hrest⟩ := List.cons.inj hqueue
      obtain ⟨rfl, -, hfront⟩ := hfront
      exact .split front back marker wrapPos hrest hmarker
        (fun other hother => hfrontRecords other (List.mem_cons_of_mem _ hother)) hbackRecords
        hfront hback hbatch (by omega)

/-- A worker that passes a record does not change laps. -/
lemma behind_of_pass {packet : Packet ω} {rest : List (Packet ω)}
    (h : Lap format buffer readPos writePos last (packet :: rest) batch)
    (hlast : last < readPos + packet.words.length) : last < readPos := by
  cases h with
  | same _ hlaid hbatch =>
    obtain ⟨rfl, -, hrest⟩ := hlaid
    have hpassed := hrest.le
    have := hbatch.le
    simp only [Packet.stop] at hpassed
    omega
  | split _ _ _ _ _ _ _ _ _ _ _ hbehind => exact hbehind

/-- Passing the null packet brings the worker into the lap of the EE thread. -/
lemma pass_null {packet : Packet ω} {rest : List (Packet ω)}
    (h : Lap format buffer readPos writePos last (packet :: rest) batch)
    (heq : packet.words = [format.nullPacket]) :
    Lap format buffer 0 writePos last rest batch := by
  cases h with
  | same hrecords _ _ => exact absurd heq (hrecords packet List.mem_cons_self).ne_null
  | split front back marker wrapPos hqueue hmarker hfrontRecords hbackRecords hfront hback hbatch
      hlast =>
    cases front with
    | nil =>
      obtain ⟨-, rfl⟩ := List.cons.inj hqueue
      exact .same hbackRecords hback hbatch
    | cons first front =>
      obtain ⟨rfl, -⟩ := List.cons.inj hqueue
      exact absurd heq (hfrontRecords packet List.mem_cons_self).ne_null

/-- Writing a packet behind the others. -/
lemma snoc {words : List ω} (h : Lap format buffer readPos writePos last queue batch)
    (hwords : Holds buffer last words) (hbehind : last < readPos → last + words.length < readPos) :
    Lap format buffer readPos writePos (last + words.length) queue
      (batch ++ [⟨last, words⟩]) := by
  cases h with
  | same hrecords hlaid hbatch => exact .same hrecords hlaid (chain_snoc hbatch hwords)
  | split front back marker wrapPos hqueue hmarker hfrontRecords hbackRecords hfront hback hbatch
      hlast =>
    exact .split front back marker wrapPos hqueue hmarker hfrontRecords hbackRecords hfront hback
      (chain_snoc hbatch hwords) (hbehind hlast)

/-- Publishing a batch of records. -/
lemma publish (h : Lap format buffer readPos writePos last queue batch)
    (hrecords : format.AllRecords batch) :
    Lap format buffer readPos last last (queue ++ batch) [] := by
  cases h with
  | same hqueueRecords hlaid hbatch =>
    exact .same (hqueueRecords.append hrecords) (chain_append.2 ⟨_, hlaid, hbatch⟩) rfl
  | split front back marker wrapPos hqueue hmarker hfrontRecords hbackRecords hfront hback hbatch
      hlast =>
    exact .split front (back ++ batch) marker wrapPos (by simp [hqueue]) hmarker hfrontRecords
      (hbackRecords.append hrecords) hfront (chain_append.2 ⟨_, hback, hbatch⟩) rfl hlast

/-- Publishing position zero behind the null packet, with a worker in the same
lap that has left position zero. -/
lemma wrap {records : List (Packet ω)} {marker : Packet ω}
    (h : Lap format buffer readPos writePos last queue (records ++ [marker]))
    (hrecords : format.AllRecords records) (hmarker : marker.words = [format.nullPacket])
    (hpos : 0 < readPos) (hsame : readPos ≤ writePos) :
    Lap format buffer readPos 0 0 (queue ++ (records ++ [marker])) [] := by
  have hle := h.le_last
  cases h with
  | same hqueueRecords hlaid hbatch =>
    refine .split (queue ++ records) [] marker last (by simp) hmarker
      (hqueueRecords.append hrecords) (by simp [RecordFormat.AllRecords]) ?_ rfl rfl hpos
    rw [List.append_assoc]
    exact chain_append.2 ⟨_, hlaid, hbatch⟩
  | split _ _ _ _ _ _ _ _ _ _ _ hlast => omega

end Lap

end VitaSX2.Mtvu
