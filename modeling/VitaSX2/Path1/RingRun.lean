/-
What every move keeps of the command ring.

Nothing that has been queued is lost, doubled or reordered: what is queued is
what the worker has done, what remains of the run that it has claimed and what
the commands in the ring stand for.  The EE thread can only extend the last
command, because an open run word stands nowhere else.
-/
import VitaSX2.Path1.Ring
import Mathlib.Data.List.Basic

namespace VitaSX2.Path1

variable {κ : Type} {r r' : Ring κ}

namespace Ring

/-! ### Items -/

lemma itemsFrom_succ (p n : ℕ) :
    r.itemsFrom p (n + 1) = r.itemsAt p ++ r.itemsFrom (p + 1) n := by
  rw [itemsFrom, List.range'_succ, List.flatMap_cons]
  rfl

lemma itemsFrom_succ' (p n : ℕ) :
    r.itemsFrom p (n + 1) = r.itemsFrom p n ++ r.itemsAt (p + n) := by
  rw [itemsFrom, List.range'_concat, List.flatMap_append, List.flatMap_singleton, Nat.one_mul]
  rfl

lemma itemsFrom_congr {p n : ℕ} (h : ∀ q, p ≤ q → q < p + n → r'.itemsAt q = r.itemsAt q) :
    r'.itemsFrom p n = r.itemsFrom p n := by
  induction n with
  | zero => rfl
  | succ n ih =>
    rw [itemsFrom_succ', itemsFrom_succ', h (p + n) (by omega) (by omega),
      ih fun q hq hq' => h q hq (by omega)]

lemma itemsAt_congr {q : ℕ} (hcommand : r'.command q = r.command q) (hrun : r'.run q = r.run q) :
    r'.itemsAt q = r.itemsAt q := by
  rw [itemsAt, itemsAt, hcommand, hrun]

lemma itemsAt_path1 {q : ℕ} (h : r.command q = .path1) :
    r.itemsAt q = List.replicate (r.run q).count .reservation := by
  rw [itemsAt, h]

lemma itemsAt_other {q : ℕ} {command : κ} (h : r.command q = .other command) :
    r.itemsAt q = [.other command] := by
  rw [itemsAt, h]

/-- Only words and commands that the worker has not come to matter. -/
lemma pending_congr (hread : r'.read = r.read) (hwrite : r'.write = r.write)
    (hremaining : r'.remaining = r.remaining)
    (h : ∀ q, r.read ≤ q → q < r.write → r'.itemsAt q = r.itemsAt q) :
    r'.pending = r.pending := by
  rw [pending, pending, hread, hwrite, hremaining]
  exact congrArg _ (itemsFrom_congr fun q hq hq' => h q hq (by omega))

/-- A word of the last command counts at the end of what is pending. -/
lemma pending_updateRun {slot added : ℕ} {word : Run} (hread : r.read ≤ slot)
    (hlast : slot + 1 = r.write) (hpath : r.command slot = .path1)
    (hcount : word.count = (r.run slot).count + added) (hreads : r'.read = r.read)
    (hwrites : r'.write = r.write) (hremaining : r'.remaining = r.remaining)
    (hcommands : r'.command = r.command) (hruns : r'.run = Function.update r.run slot word) :
    r'.pending = r.pending ++ List.replicate added .reservation := by
  obtain ⟨n, hn⟩ : ∃ n, r.write - r.read = n + 1 := ⟨slot - r.read, by omega⟩
  have hend : r.read + n = slot := by omega
  have hbefore : r'.itemsFrom r.read n = r.itemsFrom r.read n := by
    refine itemsFrom_congr fun q _ hq => itemsAt_congr (by rw [hcommands]) ?_
    rw [hruns, Function.update_of_ne (by omega)]
  have hword : r'.itemsAt slot = r.itemsAt slot ++ List.replicate added .reservation := by
    rw [itemsAt_path1 (by rw [hcommands]; exact hpath), itemsAt_path1 hpath, hruns,
      Function.update_self, hcount, List.replicate_append_replicate]
  rw [pending, pending, hreads, hwrites, hremaining, hn, itemsFrom_succ', itemsFrom_succ', hend,
    hbefore, hword, List.append_assoc, List.append_assoc]

/-- A new command counts at the end of what is pending. -/
lemma pending_publish (hle : r.read ≤ r.write) (hreads : r'.read = r.read)
    (hwrites : r'.write = r.write + 1) (hremaining : r'.remaining = r.remaining)
    (hitems : ∀ q, r'.itemsAt q = r.itemsAt q) :
    r'.pending = r.pending ++ r.itemsAt r.write := by
  have hn : r.write + 1 - r.read = (r.write - r.read) + 1 := by omega
  rw [pending, pending, hreads, hwrites, hremaining, hn, itemsFrom_succ',
    show r.read + (r.write - r.read) = r.write by omega, itemsFrom_congr fun q _ _ => hitems q,
    hitems, List.append_assoc]

/-- What is queued is pending. -/
lemma items_append {added : List (Item κ)} (h : r.issued = r.executed ++ r.pending)
    (hissued : r'.issued = r.issued ++ added) (hexecuted : r'.executed = r.executed)
    (hpending : r'.pending = r.pending ++ added) : r'.issued = r'.executed ++ r'.pending := by
  rw [hissued, hexecuted, hpending, h, List.append_assoc]

lemma items_keep (h : r.issued = r.executed ++ r.pending) (hissued : r'.issued = r.issued)
    (hexecuted : r'.executed = r.executed) (hpending : r'.pending = r.pending) :
    r'.issued = r'.executed ++ r'.pending := by
  rw [hissued, hexecuted, hpending, h]

lemma empty_ok : (empty : Ring κ).Ok where
  le := Nat.le_refl _
  items := rfl
  last := fun p hp => nomatch hp
  pos := fun p _ hp => absurd hp (Nat.not_lt_zero p)
  owned := nofun
  free := fun _ => rfl
  pc := fun _ h => nomatch h

/-! ### The EE thread -/

/-- The EE thread goes to another place, and may forget its open run. -/
lemma Ok.goTo (h : r.Ok) {openRun : Option ℕ} {ee : EePc κ} {dispatched : ℕ}
    (hopen : openRun = r.openRun ∨ openRun = none)
    (hpc : PcOk { r with openRun := openRun, ee := ee, dispatched := dispatched }) :
    Ok { r with openRun := openRun, ee := ee, dispatched := dispatched } := by
  refine ⟨h.le, h.items, fun p hp => ?_, h.pos, h.owned, h.free, hpc⟩
  rcases hopen with rfl | rfl
  · exact h.last p hp
  · cases hp

lemma Ok.test (h : r.Ok) {slot : ℕ} (hslot : r.openRun = some slot) (hlt : slot < r.write)
    (state : Run) : Ok (r.test slot state) := by
  unfold Ring.test
  split
  next hopen => exact h.goTo (Or.inl rfl) ⟨hslot, hlt, hopen⟩
  next => exact h.goTo (Or.inr rfl) rfl

lemma Ok.testClose (h : r.Ok) {slot : ℕ} (hslot : r.openRun = some slot) (hlt : slot < r.write)
    (state : Run) (command : κ) : Ok (r.testClose slot state command) := by
  unfold Ring.testClose
  split
  next hopen => exact h.goTo (Or.inl rfl) ⟨hslot, hlt, hopen⟩
  next => exact h.goTo (Or.inr rfl) rfl

/-- A new run word of the last command; `added` is what it stands for in addition. -/
lemma Ok.updateRun (h : r.Ok) {slot : ℕ} (hslot : r.openRun = some slot) (hlt : slot < r.write)
    (hopen : (r.run slot).isOpen = true) {word : Run} {openRun : Option ℕ} {ee : EePc κ}
    {issued : List (Item κ)} (added : ℕ) (hcount : word.count = (r.run slot).count + added)
    (hissued : issued = r.issued ++ List.replicate added .reservation)
    (hkeep : openRun = r.openRun ∨ openRun = none)
    (hpc : PcOk { r with run := Function.update r.run slot word, openRun := openRun, ee := ee }) :
    Ok { r with
      run := Function.update r.run slot word
      openRun := openRun
      ee := ee
      issued := issued } := by
  obtain ⟨hlast, hread, hcommand⟩ := h.last slot hslot hlt hopen
  have hnot : r.owned = true → slot ≠ r.read := by
    rintro howned rfl
    rw [(h.owned howned).2.2] at hopen
    cases hopen
  have hsame : ∀ p, p ≠ slot → Function.update r.run slot word p = r.run p :=
    fun p hp => Function.update_of_ne hp _ _
  refine ⟨h.le, ?_, fun p hp _ _ => ?_, fun p hp hp' hpath hfree => ?_, fun howned => ?_, h.free,
    hpc⟩
  · exact items_append h.items hissued rfl
      (pending_updateRun hread hlast hcommand hcount rfl rfl rfl rfl rfl)
  · rcases hkeep with rfl | rfl
    · obtain rfl := Option.some.inj (hslot.symm.trans hp)
      exact ⟨hlast, hread, hcommand⟩
    · cases hp
  · show 0 < (Function.update r.run slot word p).count
    by_cases hp'' : p = slot
    · subst hp''
      rw [Function.update_self, hcount]
      exact Nat.lt_of_lt_of_le (h.pos p hp hp' hpath hfree) (Nat.le_add_right _ _)
    · rw [hsame p hp'']
      exact h.pos p hp hp' hpath hfree
  · obtain ⟨hlt', hpath, hzero⟩ := h.owned howned
    exact ⟨hlt', hpath, (hsame _ (Ne.symm (hnot howned))).trans hzero⟩

/-- A command is written where no other thread looks. -/
lemma Ok.write (h : r.Ok) {command : ℕ → Command κ} {run : ℕ → Run} {openRun : Option ℕ}
    {ee : EePc κ} (hcommand : ∀ p < r.write, command p = r.command p)
    (hrun : ∀ p < r.write, run p = r.run p) (hkeep : ∀ p ∈ openRun, p = r.write)
    (hpc : PcOk { r with command := command, run := run, openRun := openRun, ee := ee }) :
    Ok { r with command := command, run := run, openRun := openRun, ee := ee } := by
  refine ⟨h.le, ?_, fun p hp hlt => ?_, fun p hp hp' hpath hfree => ?_, fun howned => ?_, h.free,
    hpc⟩
  · refine items_keep h.items rfl rfl (pending_congr rfl rfl rfl ?_)
    exact fun q _ hq => itemsAt_congr (hcommand q hq) (hrun q hq)
  · exact absurd hlt (by rw [hkeep p hp]; exact Nat.lt_irrefl _)
  · show 0 < (run p).count
    rw [hrun p hp']
    exact h.pos p hp hp' ((hcommand p hp').symm.trans hpath) hfree
  · obtain ⟨hlt, hpath, hzero⟩ := h.owned howned
    exact ⟨hlt, (hcommand _ hlt).trans hpath, (hrun _ hlt).trans hzero⟩

/-- A command is published. -/
lemma Ok.publish (h : r.Ok) (hopen : ∀ p ∈ r.openRun, p = r.write ∧ r.command p = .path1)
    (hpos : r.command r.write = .path1 → 0 < (r.run r.write).count) :
    Ok { r with
      write := r.write + 1
      ee := .idle
      issued := r.issued ++ r.itemsAt r.write } := by
  refine ⟨Nat.le_succ_of_le h.le, ?_, fun p hp _ _ => ?_, fun p hp hp' hpath hfree => ?_,
    fun howned => ?_, h.free, fun p hp => ?_⟩
  · exact items_append h.items rfl rfl (pending_publish h.le rfl rfl rfl fun _ => rfl)
  · obtain ⟨rfl, hpath⟩ := hopen p hp
    exact ⟨rfl, h.le, hpath⟩
  · rcases Nat.lt_or_eq_of_le (Nat.le_of_lt_succ hp') with hlt | rfl
    · exact h.pos p hp hlt hpath hfree
    · exact hpos hpath
  · obtain ⟨hlt, hpath, hzero⟩ := h.owned howned
    exact ⟨Nat.lt_succ_of_lt hlt, hpath, hzero⟩
  · rw [(hopen p hp).1]
    exact Nat.lt_succ_self _

end Ring

/-- Every move of the EE thread keeps the account. -/
lemma EeMove.ok (h : r.Ok) (hmove : EeMove r r') : r'.Ok := by
  have hpc := h.pc
  unfold Ring.PcOk at hpc
  cases hmove with
  | dispatch hee =>
    rw [hee] at hpc
    exact h.goTo (Or.inl rfl) hpc
  | load hee hslot =>
    rw [hee] at hpc
    exact h.test hslot (hpc _ hslot) _
  | noRun hee hslot => exact h.goTo (Or.inl rfl) hslot
  | @exchange slot state hee hstate =>
    rw [hee] at hpc
    obtain ⟨hslot, hlt, hopen, hfull⟩ := hpc
    subst hstate
    exact h.updateRun hslot hlt hopen 1 rfl rfl (Or.inl rfl) fun p hp =>
      Option.some.inj (hslot.symm.trans hp) ▸ hlt
  | failExchange hee =>
    rw [hee] at hpc
    exact h.test hpc.1 hpc.2.1 _
  | store hee hroom =>
    refine h.write (fun p hp => Function.update_of_ne (Nat.ne_of_lt hp) _ _)
      (fun p hp => Function.update_of_ne (Nat.ne_of_lt hp) _ _)
      (fun p hp => (Option.some.inj hp).symm) ⟨rfl, ?_, ?_⟩
    · exact Function.update_self _ _ _
    · exact Function.update_self _ _ _
  | finish hee =>
    rw [hee] at hpc
    obtain ⟨hslot, hpath, hword⟩ := hpc
    have hitems : r.itemsAt r.write = [.reservation] := by
      rw [Ring.itemsAt_path1 hpath, hword]
      rfl
    rw [← hitems]
    refine h.publish (fun p hp => ?_) fun _ => by rw [hword]; exact Nat.one_pos
    obtain rfl := Option.some.inj (hslot.symm.trans hp)
    exact ⟨rfl, hpath⟩
  | loadClose hee hslot command =>
    rw [hee] at hpc
    exact h.testClose hslot (hpc _ hslot) _ _
  | noClose hee hslot command => exact h.goTo (Or.inl rfl) hslot
  | @exchangeClose slot state command hee hstate =>
    rw [hee] at hpc
    obtain ⟨hslot, hlt, hopen⟩ := hpc
    subst hstate
    exact h.updateRun hslot hlt hopen 0 rfl (List.append_nil _).symm (Or.inr rfl) rfl
  | failClose hee =>
    rw [hee] at hpc
    exact h.testClose hpc.1 hpc.2.1 _ _
  | @write command hee hroom =>
    rw [hee] at hpc
    refine h.write (fun p hp => Function.update_of_ne (Nat.ne_of_lt hp) _ _) (fun _ _ => rfl)
      (fun p hp => ?_) ⟨hpc, Function.update_self _ _ _⟩
    rw [show r.openRun = none from hpc] at hp
    cases hp
  | @publish command hee =>
    rw [hee] at hpc
    obtain ⟨hslot, hother⟩ := hpc
    rw [← Ring.itemsAt_other hother]
    refine h.publish (fun p hp => ?_) fun hpath => ?_
    · rw [hslot] at hp
      cases hp
    · rw [hother] at hpath
      cases hpath

namespace Ring

/-! ### The GS worker -/

lemma itemsFrom_read (hlt : r.read < r.write) :
    r.itemsFrom r.read (r.write - r.read) =
      r.itemsAt r.read ++ r.itemsFrom (r.read + 1) (r.write - (r.read + 1)) := by
  rw [show r.write - r.read = (r.write - (r.read + 1)) + 1 by omega, itemsFrom_succ]

/-- What is claimed is what the run at the head stood for. -/
lemma claim_spec (h : r.Ok) (hlt : r.read < r.write) (hpath : r.command r.read = .path1)
    (howned : r.owned = true → 0 < r.remaining) :
    (0 < r.remaining ∧ r.owned = true ∧ r.claim = r) ∨
      (r.owned = false ∧ 0 < (r.run r.read).count ∧
        r.claim = { r with
          run := Function.update r.run r.read ⟨false, 0⟩
          remaining := (r.run r.read).count
          owned := true }) := by
  cases hhead : r.owned with
  | true =>
    have hpos := howned hhead
    refine Or.inl ⟨hpos, rfl, ?_⟩
    rw [claim, if_neg (Nat.ne_of_gt hpos)]
  | false =>
    have hcount : 0 < (r.run r.read).count :=
      h.pos _ (Nat.le_refl _) hlt hpath fun howned' => by rw [hhead] at howned'; cases howned'
    refine Or.inr ⟨rfl, hcount, ?_⟩
    rw [claim, if_pos (h.free hhead)]
    simp only [if_neg (Nat.ne_of_gt hcount)]

/-- The place of the EE thread relies on nothing that the worker changes. -/
lemma PcOk.congr (h : r.PcOk) (hee : r'.ee = r.ee) (hopen : r'.openRun = r.openRun)
    (hwrite : r'.write = r.write) (hcommand : r'.command r.write = r.command r.write)
    (hrun : r'.run r.write = r.run r.write) : r'.PcOk := by
  simp only [PcOk, hee, hopen, hwrite, hcommand, hrun]
  exact h

/-- A claim moves reservations from the head to what remains. -/
lemma pending_claim (hlt : r.read < r.write) (hpath : r.command r.read = .path1)
    (hfree : r.remaining = 0) (hreads : r'.read = r.read) (hwrites : r'.write = r.write)
    (hcommands : r'.command = r.command)
    (hruns : r'.run = Function.update r.run r.read ⟨false, 0⟩)
    (hremaining : r'.remaining = (r.run r.read).count) : r'.pending = r.pending := by
  have hrest : r'.itemsFrom (r.read + 1) (r.write - (r.read + 1)) =
      r.itemsFrom (r.read + 1) (r.write - (r.read + 1)) := by
    refine itemsFrom_congr fun q hq _ => itemsAt_congr (by rw [hcommands]) ?_
    rw [hruns, Function.update_of_ne (by omega)]
  have hhead : r'.itemsAt r.read = [] := by
    rw [itemsAt_path1 (by rw [hcommands]; exact hpath), hruns, Function.update_self]
    rfl
  rw [pending, pending, itemsFrom_read hlt, itemsFrom_read (by omega), hreads, hwrites, hrest,
    hhead, hremaining, hfree, itemsAt_path1 hpath]
  rfl

lemma claim_ok (h : r.Ok) (hlt : r.read < r.write) (hpath : r.command r.read = .path1)
    (howned : r.owned = true → 0 < r.remaining) :
    r.claim.Ok ∧ r.claim.owned = true ∧ 0 < r.claim.remaining := by
  rcases claim_spec h hlt hpath howned with ⟨hpos, hhead, hsame⟩ | ⟨hhead, hcount, hclaim⟩
  · rw [hsame]
    exact ⟨h, hhead, hpos⟩
  rw [hclaim]
  have hsame : ∀ p, p ≠ r.read → Function.update r.run r.read ⟨false, 0⟩ p = r.run p :=
    fun p hp => Function.update_of_ne hp _ _
  have hzero := Function.update_self r.read (⟨false, 0⟩ : Run) r.run
  refine ⟨⟨h.le, ?_, fun p hp hlt' hopen => ?_, fun p hp hp' hpath' hfree => ?_,
    fun _ => ⟨hlt, hpath, hzero⟩, nofun, ?_⟩, rfl, hcount⟩
  · exact items_keep h.items rfl rfl (pending_claim hlt hpath (h.free hhead) rfl rfl rfl rfl rfl)
  · refine h.last p hp hlt' ?_
    by_cases hread : p = r.read
    · rw [hread] at hopen
      rw [show Run.isOpen _ = _ from congrArg Run.isOpen hzero] at hopen
      cases hopen
    · exact (congrArg Run.isOpen (hsame p hread)).symm.trans hopen
  · show 0 < (Function.update r.run r.read ⟨false, 0⟩ p).count
    have hread := hfree rfl
    rw [hsame p hread]
    exact h.pos p hp hp' hpath' fun _ => hread
  · exact h.pc.congr rfl rfl rfl rfl (hsame _ (Nat.ne_of_gt hlt))

lemma consume_ok (h : r.Ok) (howned : r.owned = true) {count : ℕ} (hle : count ≤ r.remaining) :
    (r.consume count).Ok := by
  refine ⟨h.le, ?_, h.last, h.pos, h.owned, fun hfree => ?_, h.pc.congr rfl rfl rfl rfl rfl⟩
  · show r.issued = (r.executed ++ List.replicate count .reservation) ++
      (List.replicate (r.remaining - count) .reservation ++ _)
    rw [h.items, pending, List.append_assoc, ← List.append_assoc (List.replicate count _),
      List.replicate_append_replicate, Nat.add_sub_cancel' hle]
    rfl
  · rw [show r.owned = false from hfree] at howned
    cases howned

lemma advance_ok (h : r.Ok) (howned : r.owned = true) :
    r.advance.Ok ∧ (r.advance.owned = true → 0 < r.advance.remaining) := by
  unfold advance
  split
  next hzero =>
    obtain ⟨hlt, hpath, hword⟩ := h.owned howned
    have hhead : r.itemsAt r.read = [] := by
      rw [itemsAt_path1 hpath, hword]
      rfl
    refine ⟨⟨hlt, ?_, fun p hp hlt' hopen => ?_, fun p hp hp' hpath' _ => ?_, nofun,
      fun _ => hzero, h.pc.congr rfl rfl rfl rfl rfl⟩, nofun⟩
    · refine items_keep h.items rfl rfl ?_
      show List.replicate r.remaining _ ++ r.itemsFrom (r.read + 1) (r.write - (r.read + 1)) = _
      rw [pending, itemsFrom_read hlt, hhead, List.nil_append]
    · obtain ⟨hlast, hread, hpath'⟩ := h.last p hp hlt' hopen
      refine ⟨hlast, Nat.lt_of_le_of_ne hread ?_, hpath'⟩
      rintro rfl
      have hclosed : (r.run r.read).isOpen = true := hopen
      rw [hword] at hclosed
      cases hclosed
    · have hread : r.read < p := hp
      exact h.pos p (Nat.le_of_lt hread) hp' hpath' fun _ => Nat.ne_of_gt hread
  next hpos => exact ⟨h, fun _ => Nat.pos_of_ne_zero hpos⟩

lemma execute_ok (h : r.Ok) (hlt : r.read < r.write) {command : κ}
    (hother : r.command r.read = .other command) : (r.execute command).Ok := by
  have hfree : r.owned = false := by
    cases hhead : r.owned with
    | false => rfl
    | true =>
      have hpath := (h.owned hhead).2.1
      rw [hother] at hpath
      cases hpath
  refine ⟨hlt, ?_, fun p hp hlt' hopen => ?_, fun p hp hp' hpath' _ => ?_, fun howned => ?_,
    h.free, h.pc.congr rfl rfl rfl rfl rfl⟩
  · show r.issued = (r.executed ++ [.other command]) ++ (List.replicate r.remaining _ ++
      r.itemsFrom (r.read + 1) (r.write - (r.read + 1)))
    rw [h.items, pending, itemsFrom_read hlt, itemsAt_other hother, h.free hfree, List.append_assoc]
    rfl
  · obtain ⟨hlast, hread, hpath'⟩ := h.last p hp hlt' hopen
    refine ⟨hlast, Nat.lt_of_le_of_ne hread ?_, hpath'⟩
    rintro rfl
    rw [hother] at hpath'
    cases hpath'
  · have hread : r.read < p := hp
    refine h.pos p (Nat.le_of_lt hread) hp' hpath' fun howned => ?_
    rw [hfree] at howned
    cases howned
  · rw [show r.owned = true from howned] at hfree
    cases hfree

end Ring

end VitaSX2.Path1
