/-
The raw PATH1 export of a command epoch (`VitaGpuVuCommandEpoch.cpp`).

An `XGKICK` names the first tag of a GIF packet in the VU memory.  The packet is
scanned tag by tag before a qword of it is copied, so a packet that does not end
or does not fit leaves the export as it was.  The packets of an export lie one
behind the other, which is what the commit checks.
-/
import VitaSX2.Lib.FixedSize
import VitaSX2.Lib.PacketChain
import VitaSX2.Vu.CommandEpoch

namespace VitaSX2.Vu

/-! ### The export -/

/-- `UniversalRawPath1PacketDescriptor`. -/
structure RawPath1Descriptor where
  sourceByteAddress : ℕ := 0
  outputQwordOffset : ℕ := 0
  qwordCount : ℕ := 0
  tagCount : ℕ := 0
deriving DecidableEq, Repr

/-- `UniversalRawPath1ExportError`. -/
inductive RawPath1Error
  | none
  | invalidState
  | invalidAddress
  | packetExceedsVuMemory
  | packetCapacity
  | descriptorCapacity
deriving DecidableEq, Repr

/-- Four words. -/
abbrev Qword := Fin 4 → BitVec 32

/-- `UniversalRawPath1ExportFormatVersion`. -/
def rawPath1FormatVersion : ℕ := 1

/-- `UniversalRawPath1ExportMaximumPackets`. -/
def rawPath1MaximumPackets : ℕ := 256

/-- `UniversalRawPath1ExportDataWordOffset`. -/
def rawPath1DataWordOffset : ℕ := 16 + rawPath1MaximumPackets * 4 + 16

/-- `UniversalRawPath1ExportDataQwords`. -/
def rawPath1DataQwords : ℕ := (16 * 1024 * 4 - rawPath1DataWordOffset) / 4

/-- `UniversalRawPath1Export`. -/
structure RawPath1Export where
  formatVersion : ℕ := rawPath1FormatVersion
  packetCount : ℕ := 0
  dataQwordCount : ℕ := 0
  error : RawPath1Error := .none
  packets : ℕ → RawPath1Descriptor := fun _ => {}
  data : ℕ → Qword := fun _ _ => 0

/-- Whether a call succeeds, the export that it leaves, and its error text. -/
structure Path1Outcome where
  accepted : Bool
  output : RawPath1Export
  message : String := ""

/-! ### GIF tags -/

/-- A word of the VU memory. -/
def vuWord (memory : ℕ → BitVec 8) (address : ℕ) : BitVec 32 :=
  memory (address + 3) ++ memory (address + 2) ++ memory (address + 1) ++ memory address

/-- A qword of the VU memory, whose addresses wrap. -/
def vuQword (memory : ℕ → BitVec 8) (qword : ℕ) : Qword := fun word =>
  vuWord memory (qword % 1024 * 16 + word * 4)

/-- `vu1MemoryBytes` of the raw export. -/
def path1MemoryBytes : ℕ := 16 * 1024

/-- `Vu1MemoryQwords`. -/
def path1MemoryQwords : ℕ := path1MemoryBytes / 16

/-- The last tag of a packet. -/
def tagEop (tag : Qword) : Bool := tag 0 &&& 0x8000#32 != 0

/-- The qwords behind a tag, in the format of its FLG. -/
def tagPayloadQwords (tag : Qword) : ℕ :=
  let nloop := (tag 0 &&& 0x7fff#32).toNat
  let flg := (tag 1 >>> 26 &&& 3#32).toNat
  let field := (tag 1 >>> 28 &&& 0xf#32).toNat
  let nreg := if field = 0 then 16 else field
  if flg = 0 then nloop * nreg
  else if flg = 1 then (nloop * nreg + 1) / 2
  else nloop

section Append

variable (memory : ℕ → BitVec 8)

/-- The scan of a packet, behind the qwords and the tags so far; the turns left
are never used up before the qwords. -/
def scanTags (sourceQword : ℕ) : ℕ → ℕ → ℕ → Except String (ℕ × ℕ)
  | 0, _, _ => .error "universal PATH1 packet has no bounded EOP tag"
  | turns + 1, packetQwords, tagCount =>
    if packetQwords < path1MemoryQwords then
      let tag := vuQword memory (sourceQword + packetQwords)
      let nextQwords := packetQwords + 1 + tagPayloadQwords tag
      if path1MemoryQwords ≤ nextQwords then
        .error "universal PATH1 packet reaches the VU-memory size limit"
      else if tagEop tag then .ok (nextQwords, tagCount + 1)
      else scanTags sourceQword turns nextQwords (tagCount + 1)
    else .error "universal PATH1 packet has no bounded EOP tag"

/-- `FailPath1`. -/
def failPath1 (output : RawPath1Export) (code : RawPath1Error) (message : String) :
    Path1Outcome where
  accepted := false
  output := { output with error := code }
  message := message

/-- `AppendUniversalRawPath1Packet`. -/
def appendUniversalRawPath1Packet (sourceByteAddress : ℕ) (output : RawPath1Export) :
    Path1Outcome :=
  if output.formatVersion ≠ rawPath1FormatVersion ∨ rawPath1MaximumPackets < output.packetCount ∨
      rawPath1DataQwords < output.dataQwordCount then
    failPath1 output .invalidState "invalid universal PATH1 export state"
  else if sourceByteAddress % 16 ≠ 0 ∨ path1MemoryBytes ≤ sourceByteAddress then
    failPath1 output .invalidAddress "unaligned universal PATH1 source address"
  else
    match scanTags memory (sourceByteAddress / 16) path1MemoryQwords 0 0 with
    | .error message => failPath1 output .packetExceedsVuMemory message
    | .ok (packetQwords, tagCount) =>
      if output.packetCount = rawPath1MaximumPackets then
        failPath1 output .descriptorCapacity "universal PATH1 descriptor buffer is full"
      else if rawPath1DataQwords - output.dataQwordCount < packetQwords then
        failPath1 output .packetCapacity "universal PATH1 payload buffer is full"
      else
        { accepted := true
          output :=
            { output with
              data := fun qword =>
                if output.dataQwordCount ≤ qword ∧
                    qword < output.dataQwordCount + packetQwords then
                  vuQword memory (sourceByteAddress / 16 + (qword - output.dataQwordCount))
                else output.data qword
              packets := Function.update output.packets output.packetCount
                { sourceByteAddress
                  outputQwordOffset := output.dataQwordCount
                  qwordCount := packetQwords
                  tagCount }
              packetCount := output.packetCount + 1
              dataQwordCount := output.dataQwordCount + packetQwords
              error := .none } }

end Append

/-- The loop over the descriptors of a private generation, with the qwords that
the descriptors so far own: the message of the check that fails. -/
def checkDescriptors (privatePath1 : RawPath1Export) : ℕ → ℕ → Option String
  | 0, expectedQwordOffset =>
    if expectedQwordOffset ≠ privatePath1.dataQwordCount then
      some "unowned qwords in private universal PATH1 generation"
    else none
  | left + 1, expectedQwordOffset =>
    let packet := privatePath1.packets (privatePath1.packetCount - (left + 1))
    if packet.sourceByteAddress % 16 ≠ 0 ∨ path1MemoryBytes ≤ packet.sourceByteAddress ∨
        packet.outputQwordOffset ≠ expectedQwordOffset ∨ packet.qwordCount = 0 ∨
        packet.tagCount = 0 ∨
        privatePath1.dataQwordCount - expectedQwordOffset < packet.qwordCount then
      some "invalid descriptor in private universal PATH1 generation"
    else checkDescriptors privatePath1 left (expectedQwordOffset + packet.qwordCount)

/-- `CommitUniversalRawPath1ReferenceTransaction`. -/
def commitUniversalRawPath1ReferenceTransaction (continuation : Continuation)
    (pendingXgkick : Bool) (privatePath1 committedPath1 : RawPath1Export) : Path1Outcome :=
  let reject (message : String) : Path1Outcome := ⟨false, committedPath1, message⟩
  if !continuation.completed || continuation.executeActive || pendingXgkick then
    reject "universal PATH1 transaction has not reached terminal End"
  else if privatePath1.formatVersion ≠ rawPath1FormatVersion ∨ privatePath1.error ≠ .none ∨
      rawPath1MaximumPackets < privatePath1.packetCount ∨
      rawPath1DataQwords < privatePath1.dataQwordCount then
    reject "invalid private universal PATH1 generation"
  else
    match checkDescriptors privatePath1 privatePath1.packetCount 0 with
    | some message => reject message
    | none => { accepted := true, output := privatePath1 }

/-! ### The packets of the GIF -/

/-- A packet of some qwords and tags starts at a qword: tags with their payload
back to back, of which only the last one has EOP. -/
inductive GifPacket (memory : ℕ → BitVec 8) : ℕ → ℕ → ℕ → Prop where
  | last {qword : ℕ} : tagEop (vuQword memory qword) = true →
    GifPacket memory qword (1 + tagPayloadQwords (vuQword memory qword)) 1
  | more {qword qwords tags : ℕ} : tagEop (vuQword memory qword) = false →
    GifPacket memory (qword + (1 + tagPayloadQwords (vuQword memory qword))) qwords tags →
    GifPacket memory qword (1 + tagPayloadQwords (vuQword memory qword) + qwords) (tags + 1)

/-- The qwords of a packet. -/
def gifPacketQwords (memory : ℕ → BitVec 8) (qword count : ℕ) : List Qword :=
  (List.range count).map fun index => vuQword memory (qword + index)

section Scan

variable {memory : ℕ → BitVec 8} {qword count tags : ℕ}

lemma GifPacket.pos (h : GifPacket memory qword count tags) : 0 < count ∧ 0 < tags := by
  cases h with
  | last => omega
  | more => omega

/-- A qword starts at most one packet. -/
lemma GifPacket.unique (h : GifPacket memory qword count tags) {count' tags' : ℕ}
    (h' : GifPacket memory qword count' tags') : count = count' ∧ tags = tags' := by
  induction h generalizing count' tags' with
  | last heop =>
    cases h' with
    | last => exact ⟨rfl, rfl⟩
    | more hmore => simp [heop] at hmore
  | more hmore _ ih =>
    cases h' with
    | last heop => simp [hmore] at heop
    | more _ hrest =>
      obtain ⟨rfl, rfl⟩ := ih hrest
      exact ⟨rfl, rfl⟩

/-- The scan finds a packet behind the qwords so far. -/
lemma packet_of_scanTags {turns before seen found foundTags : ℕ}
    (h : scanTags memory qword turns before seen = .ok (found, foundTags)) :
    ∃ count tags, GifPacket memory (qword + before) count tags ∧ found = before + count ∧
      foundTags = seen + tags ∧ found < path1MemoryQwords := by
  induction turns generalizing before seen with
  | zero => cases h
  | succ turns ih =>
    rw [scanTags] at h
    dsimp only at h
    split at h
    · split at h
      · cases h
      next hfits =>
        split at h
        next heop =>
          cases h
          exact ⟨_, _, .last heop, by omega, rfl, by omega⟩
        next hmore =>
          obtain ⟨count, tags, hpacket, rfl, rfl, hfound⟩ := ih h
          rw [show qword + (before + 1 + tagPayloadQwords (vuQword memory (qword + before))) =
            qword + before + (1 + tagPayloadQwords (vuQword memory (qword + before))) by omega]
            at hpacket
          refine ⟨_, _, .more (Bool.eq_false_iff.mpr hmore) hpacket, ?_, ?_, hfound⟩
          · omega
          · omega
    · cases h

/-- The scan finds every packet that ends in front of the limit. -/
lemma scanTags_of_packet {start : ℕ} (h : GifPacket memory start count tags) {turns before seen : ℕ}
    (hstart : start = qword + before) (hfits : before + count < path1MemoryQwords)
    (hturns : path1MemoryQwords ≤ turns + before) :
    scanTags memory qword turns before seen = .ok (before + count, seen + tags) := by
  induction h generalizing turns before seen with
  | last heop =>
    subst hstart
    cases turns with
    | zero => omega
    | succ turns =>
      rw [scanTags, if_pos (by omega)]
      dsimp only
      rw [if_neg (by omega), if_pos heop, Nat.add_assoc]
  | more hmore hrest ih =>
    subst hstart
    have hpos := hrest.pos
    cases turns with
    | zero => omega
    | succ turns =>
      rw [scanTags, if_pos (by omega)]
      dsimp only
      rw [if_neg (by omega), if_neg (by simp [hmore]), ih (by omega) (by omega) (by omega)]
      congr 2 <;> omega

end Scan

/-! ### Appending a packet -/

namespace RawPath1Export

/-- The counts of an export that keep to its buffers. -/
structure Consistent (output : RawPath1Export) : Prop where
  formatVersion : output.formatVersion = rawPath1FormatVersion
  packetCount : output.packetCount ≤ rawPath1MaximumPackets
  dataQwordCount : output.dataQwordCount ≤ rawPath1DataQwords

/-- A packet of the VU memory that an export has room for. -/
structure Admits (output : RawPath1Export) (memory : ℕ → BitVec 8)
    (sourceByteAddress count tags : ℕ) : Prop where
  consistent : output.Consistent
  aligned : sourceByteAddress % 16 = 0
  inside : sourceByteAddress < path1MemoryBytes
  packet : GifPacket memory (sourceByteAddress / 16) count tags
  bounded : count < path1MemoryQwords
  descriptor : output.packetCount < rawPath1MaximumPackets
  data : output.dataQwordCount + count ≤ rawPath1DataQwords

/-- An export with one packet more: its descriptor, and the qwords of the packet
behind the other qwords. -/
structure Appended (before : RawPath1Export) (memory : ℕ → BitVec 8)
    (sourceByteAddress count tags : ℕ) (after : RawPath1Export) : Prop where
  formatVersion : after.formatVersion = before.formatVersion
  packetCount : after.packetCount = before.packetCount + 1
  dataQwordCount : after.dataQwordCount = before.dataQwordCount + count
  error : after.error = .none
  descriptor : after.packets before.packetCount =
    ⟨sourceByteAddress, before.dataQwordCount, count, tags⟩
  descriptors : ∀ index, index ≠ before.packetCount → after.packets index = before.packets index
  appended : ∀ index < count,
    after.data (before.dataQwordCount + index) = vuQword memory (sourceByteAddress / 16 + index)
  kept : ∀ qword, qword < before.dataQwordCount ∨ before.dataQwordCount + count ≤ qword →
    after.data qword = before.data qword

end RawPath1Export

/-- A packet is either rejected, with nothing but the error changed, or appended. -/
theorem append_cases (memory : ℕ → BitVec 8) (sourceByteAddress : ℕ) (output : RawPath1Export) :
    let outcome := appendUniversalRawPath1Packet memory sourceByteAddress output
    (outcome.accepted = false ∧ outcome.output.error ≠ .none ∧
        outcome.output = { output with error := outcome.output.error } ∧
        ∀ count tags, ¬output.Admits memory sourceByteAddress count tags) ∨
      (outcome.accepted = true ∧ ∃ count tags, output.Admits memory sourceByteAddress count tags ∧
        output.Appended memory sourceByteAddress count tags outcome.output) := by
  unfold appendUniversalRawPath1Packet
  dsimp only
  split
  next hstate =>
    refine Or.inl ⟨rfl, fun hnone => (nomatch hnone), rfl, fun _ _ hadmits => ?_⟩
    have hversion := hadmits.consistent.formatVersion
    have hcount := hadmits.consistent.packetCount
    have hdata := hadmits.consistent.dataQwordCount
    omega
  next hstate =>
    split
    next haddress =>
      exact Or.inl ⟨rfl, fun hnone => (nomatch hnone), rfl, fun _ _ hadmits => by
        have := hadmits.aligned
        have := hadmits.inside
        omega⟩
    next haddress =>
      split
      next message hscan =>
        refine Or.inl ⟨rfl, fun hnone => (nomatch hnone), rfl, fun count tags hadmits => ?_⟩
        have hfound : scanTags memory (sourceByteAddress / 16) path1MemoryQwords 0 0 = _ :=
          scanTags_of_packet hadmits.packet rfl (by have := hadmits.bounded; omega) le_rfl
        rw [hscan] at hfound
        cases hfound
      next found foundTags hscan =>
        obtain ⟨count, tags, hpacket, hcount, htags, hfound⟩ := packet_of_scanTags hscan
        rw [Nat.zero_add] at hcount htags
        subst hcount htags
        have hunique : ∀ count tags, output.Admits memory sourceByteAddress count tags →
            count = found := fun count tags hadmits => (hadmits.packet.unique hpacket).1
        split
        next hfull =>
          exact Or.inl ⟨rfl, fun hnone => (nomatch hnone), rfl, fun _ _ hadmits => by
            have := hadmits.descriptor
            omega⟩
        next hroom =>
          split
          next hlong =>
            exact Or.inl ⟨rfl, fun hnone => (nomatch hnone), rfl, fun _ _ hadmits => by
              have := hadmits.data
              have := hunique _ _ hadmits
              omega⟩
          next hshort =>
            refine Or.inr ⟨rfl, found, foundTags, ?_, ?_⟩
            · exact {
                consistent := ⟨not_not.mp fun hne => hstate (Or.inl hne), by omega, by omega⟩
                aligned := by omega
                inside := by omega
                packet := hpacket
                bounded := hfound
                descriptor := by omega
                data := by omega }
            · exact {
                formatVersion := rfl
                packetCount := rfl
                dataQwordCount := rfl
                error := rfl
                descriptor := Function.update_self ..
                descriptors := fun index hindex => Function.update_of_ne hindex _ _
                appended := fun index hindex => by
                  dsimp only
                  rw [if_pos (by omega), Nat.add_sub_cancel_left]
                kept := fun qword hqword => by
                  dsimp only
                  rw [if_neg (by omega)] }

/-! ### Exports whose packets tile their qwords -/

open PacketChain

/-- A descriptor that names a packet of the export, and where in the VU memory the
packet came from. -/
structure RawPath1Descriptor.Names (descriptor : RawPath1Descriptor) (packet : Packet Qword) :
    Prop where
  aligned : descriptor.sourceByteAddress % 16 = 0
  inside : descriptor.sourceByteAddress < path1MemoryBytes
  offset : descriptor.outputQwordOffset = packet.start
  qwordCount : descriptor.qwordCount = packet.words.length
  pos : 0 < descriptor.qwordCount
  tagCount : 0 < descriptor.tagCount

/-- The packets lie back to back in front of the end of the qwords, each with its
descriptor. -/
structure RawPath1Export.Tiled (output : RawPath1Export) (packets : List (Packet Qword)) :
    Prop where
  counts : output.Consistent
  length : packets.length = output.packetCount
  chain : Chain output.data 0 packets output.dataQwordCount
  named : ∀ index packet, packets[index]? = some packet → (output.packets index).Names packet

section Tiled

variable {memory : ℕ → BitVec 8} {sourceByteAddress count tags : ℕ}
  {before after output : RawPath1Export} {packets : List (Packet Qword)}

lemma tiled_fresh : RawPath1Export.Tiled {} [] where
  counts := ⟨rfl, Nat.zero_le _, Nat.zero_le _⟩
  length := rfl
  chain := rfl
  named := fun _ _ h => nomatch h

/-- A rejected packet leaves the tiles alone. -/
lemma RawPath1Export.Tiled.reject (h : before.Tiled packets) (code : RawPath1Error) :
    RawPath1Export.Tiled { before with error := code } packets :=
  ⟨⟨h.counts.formatVersion, h.counts.packetCount, h.counts.dataQwordCount⟩, h.length, h.chain,
    h.named⟩

/-- An appended packet is one tile more. -/
lemma RawPath1Export.Tiled.append (h : before.Tiled packets)
    (hadmits : before.Admits memory sourceByteAddress count tags)
    (happended : before.Appended memory sourceByteAddress count tags after) :
    after.Tiled (packets ++
      [⟨before.dataQwordCount, gifPacketQwords memory (sourceByteAddress / 16) count⟩]) := by
  have hlength : (gifPacketQwords memory (sourceByteAddress / 16) count).length = count := by
    simp [gifPacketQwords]
  constructor
  · have := hadmits.descriptor
    have := hadmits.data
    exact ⟨happended.formatVersion.trans h.counts.formatVersion,
      by rw [happended.packetCount]; omega, by rw [happended.dataQwordCount]; omega⟩
  · rw [List.length_append, h.length, happended.packetCount]
    rfl
  · have hkept : Chain after.data 0 packets before.dataQwordCount :=
      h.chain.congr fun qword _ hqword => happended.kept qword (Or.inl hqword)
    have hchain := chain_snoc hkept (holds_map_range.mpr happended.appended)
    rwa [List.length_map, List.length_range, ← happended.dataQwordCount] at hchain
  · intro index packet hpacket
    have hlen := h.length
    rw [List.getElem?_append] at hpacket
    split at hpacket
    next hindex =>
      rw [happended.descriptors index (by omega)]
      exact h.named index packet hpacket
    next hindex =>
      obtain ⟨hzero, rfl⟩ := List.getElem?_eq_some_iff.mp hpacket
      rw [List.length_singleton] at hzero
      obtain rfl : index = before.packetCount := by omega
      rw [happended.descriptor]
      have hpos := hadmits.packet.pos
      exact ⟨hadmits.aligned, hadmits.inside, by simp, by simp [hlength], hpos.1, hpos.2⟩

/-- Descriptors that name a chain of packets pass the checks of the commit. -/
lemma checkDescriptors_of_chain {rest : List (Packet Qword)} {expected : ℕ}
    (hcount : rest.length ≤ output.packetCount)
    (hchain : Chain output.data expected rest output.dataQwordCount)
    (hnamed : ∀ index packet, rest[index]? = some packet →
      (output.packets (output.packetCount - rest.length + index)).Names packet) :
    checkDescriptors output rest.length expected = none := by
  induction rest generalizing expected with
  | nil =>
    have hend : expected = output.dataQwordCount := hchain
    rw [List.length_nil, checkDescriptors, if_neg (not_not.mpr hend)]
  | cons packet rest ih =>
    obtain ⟨rfl, -, hrest⟩ := hchain
    have hle := hrest.le
    have hname := hnamed 0 packet rfl
    rw [List.length_cons] at hcount hname
    rw [Nat.add_zero] at hname
    have hstop : packet.stop = packet.start + packet.words.length := rfl
    have := hname.aligned
    have := hname.inside
    have := hname.offset
    have := hname.qwordCount
    have := hname.pos
    have := hname.tagCount
    rw [List.length_cons, checkDescriptors, if_neg (by omega), hname.qwordCount]
    refine ih (by omega) hrest fun index packet' hpacket => ?_
    have hnext := hnamed (index + 1) packet' hpacket
    rwa [List.length_cons, show output.packetCount - (rest.length + 1) + (index + 1) =
      output.packetCount - rest.length + index by omega] at hnext

/-- The structural checks of the commit accept a tiled generation without an error. -/
theorem RawPath1Export.Tiled.commit (h : output.Tiled packets) (herror : output.error = .none)
    {continuation : Continuation} (hcompleted : continuation.completed = true)
    (hactive : continuation.executeActive = false) (committed : RawPath1Export) :
    commitUniversalRawPath1ReferenceTransaction continuation false output committed =
      { accepted := true, output := output } := by
  have hcheck : checkDescriptors output output.packetCount 0 = none := by
    rw [← h.length]
    refine checkDescriptors_of_chain h.length.le h.chain fun index packet hpacket => ?_
    rw [h.length, Nat.sub_self, Nat.zero_add]
    exact h.named index packet hpacket
  have hcounts := h.counts.packetCount
  have hdata := h.counts.dataQwordCount
  unfold commitUniversalRawPath1ReferenceTransaction
  dsimp only
  rw [hcompleted, hactive, if_neg (by decide),
    if_neg (by rw [h.counts.formatVersion, herror]; simp; omega), hcheck]

end Tiled

/-! ### Any sequence of packets -/

/-- The calls of a fresh generation, each with the VU memory that it sees. -/
def appendAll (calls : List ((ℕ → BitVec 8) × ℕ)) : RawPath1Export :=
  calls.foldl (fun output call => (appendUniversalRawPath1Packet call.1 call.2 output).output) {}

/-- The tiles that a call leaves. -/
lemma exists_tiled_append {output : RawPath1Export} {packets : List (Packet Qword)}
    (h : output.Tiled packets) (memory : ℕ → BitVec 8) (sourceByteAddress : ℕ) :
    ∃ packets', (appendUniversalRawPath1Packet memory sourceByteAddress output).output.Tiled
      packets' := by
  rcases append_cases memory sourceByteAddress output with
    ⟨-, -, heq, -⟩ | ⟨-, count, tags, hadmits, happended⟩
  · rw [heq]
    exact ⟨packets, h.reject _⟩
  · exact ⟨_, h.append hadmits happended⟩

/-- The packets of every generation tile its qwords. -/
theorem exists_tiled_appendAll (calls : List ((ℕ → BitVec 8) × ℕ)) :
    ∃ packets, (appendAll calls).Tiled packets := by
  rw [appendAll]
  have hfresh : RawPath1Export.Tiled {} [] := tiled_fresh
  generalize ([] : List (Packet Qword)) = packets at hfresh
  generalize ({} : RawPath1Export) = output at hfresh ⊢
  induction calls generalizing output packets with
  | nil => exact ⟨packets, hfresh⟩
  | cons call calls ih =>
    obtain ⟨packets', htiled⟩ := exists_tiled_append hfresh call.1 call.2
    exact ih packets' _ htiled

/-- A call rejects its packet and changes nothing but the error, or appends the
whole packet and its descriptor; and after any calls the packets tile the qwords,
so that the commit accepts every generation without an error. -/
theorem rawPath1_transaction :
    (∀ memory sourceByteAddress output,
      let outcome := appendUniversalRawPath1Packet memory sourceByteAddress output
      (outcome.accepted = false ∧ outcome.output = { output with error := outcome.output.error } ∧
          ∀ count tags, ¬output.Admits memory sourceByteAddress count tags) ∨
        (outcome.accepted = true ∧ ∃ count tags,
          output.Admits memory sourceByteAddress count tags ∧
          output.Appended memory sourceByteAddress count tags outcome.output)) ∧
    ∀ calls, (∃ packets, (appendAll calls).Tiled packets) ∧
      ((appendAll calls).error = .none → ∀ (continuation : Continuation) committed,
        continuation.completed = true → continuation.executeActive = false →
        commitUniversalRawPath1ReferenceTransaction continuation false (appendAll calls) committed =
          { accepted := true, output := appendAll calls }) := by
  refine ⟨fun memory sourceByteAddress output => ?_, fun calls => ?_⟩
  · rcases append_cases memory sourceByteAddress output with
      ⟨hrejected, -, heq, hnot⟩ | ⟨haccepted, count, tags, hadmits, happended⟩
    · exact Or.inl ⟨hrejected, heq, hnot⟩
    · exact Or.inr ⟨haccepted, count, tags, hadmits, happended⟩
  · obtain ⟨packets, htiled⟩ := exists_tiled_appendAll calls
    exact ⟨⟨packets, htiled⟩, fun herror continuation committed hcompleted hactive =>
      htiled.commit herror hcompleted hactive committed⟩

/-- A memory of EOP tags without a payload. -/
def eopMemory (address : ℕ) : BitVec 8 := if address % 16 = 1 then 0x80 else 0

/-- Two packets around the end of the memory, with a rejected one between them. -/
theorem rawPath1_transaction_three :
    let calls := [(eopMemory, 0x3ff0), (eopMemory, 0x3ff8), (eopMemory, 0)]
    commitUniversalRawPath1ReferenceTransaction { completed := true } false (appendAll calls) {} =
      { accepted := true, output := appendAll calls } :=
  (rawPath1_transaction.2 _).2 rfl { completed := true } {} rfl rfl

end VitaSX2.Vu
