import Mathlib.Logic.Relation
import Amend.Proofs.FileTree.Site

/-!
# Interrupted writes

A staged write takes its operations one after the other, and fills the temporary file piece by
piece. `Advances` is one operation, or what is done when one fails or the write is dropped. A write
may stop after any number of them. All that it does before the renaming concerns the temporary file
(`Kept`), so that the target has its old content or its new one at every instant
(`old_or_new_atEveryInstant`). The writes that come to an end do what `writeAtomic` does
(`runs_ended_iff`).
-/

set_option autoImplicit false

namespace Amend.StagedWrite

open FileTree Relation

/-- How far a write has come. -/
inductive Phase
  /-- Nothing is done yet. -/
  | ready
  /-- The temporary file holds the first `n` bytes. -/
  | filling (w : StagedWrite) (n : Nat)
  /-- The temporary file was given all bytes. -/
  | filled (w : StagedWrite)
  | flushed (w : StagedWrite)
  | synced (w : StagedWrite)
  /-- The temporary file has the permission bits of the target, too. -/
  | readied (w : StagedWrite)
  | ended (result : Except FileError Unit)
  /-- The write was given up before its end. -/
  | dropped

namespace Phase

/-- The operation that comes next. -/
def next? : Phase → Option FileStep
  | ready => some .create
  | filling _ _ => some .write
  | filled _ => some .flush
  | flushed _ => some .sync
  | synced _ => some .setMode
  | readied _ => some .rename
  | ended _ | dropped => none

/-- What is staged, while it is. -/
def staged? : Phase → Option StagedWrite
  | filling w _ | filled w | flushed w | synced w | readied w => some w
  | ready | ended _ | dropped => none

/-- The tree without what is staged. -/
def discard (s : Phase) (t : FileTree) : FileTree :=
  match s.staged? with
  | some w => w.discard t
  | none => t

/-- How a failure of the operation that comes next is told: with the path of the temporary file
until that holds all bytes. -/
def told (cwd : Location) (target : Path) (e : FileError) : Phase → FileError
  | ready => refusal cwd target e
  | filling w _ | filled w => .atPath e (w.path cwd)
  | flushed _ | synced _ | readied _ | ended _ | dropped => e

theorem isSome_next? {s : Phase} {w : StagedWrite} (h : s.staged? = some w) : s.next?.isSome := by
  cases s with
  | filling | filled | flushed | synced | readied => rfl
  | ready | ended | dropped => cases h

end Phase

/-- Adds bytes to the staged content. -/
def appendBytes (w : StagedWrite) (t : FileTree) (bytes : ByteArray) : FileTree :=
  match t.get? w.temp with
  | some (.file d) => t.set w.temp (.file { d with bytes := d.bytes ++ bytes })
  | _ => t

section
variable (faults : Faults) (cwd : Location) (target : Path) (contents : String)

/-- An operation of a write. If it fails, or the write is dropped, the temporary file is removed.
There is a mode to set only where the target leads somewhere. -/
inductive Advances : FileTree × Phase → FileTree × Phase → Prop
  | create {t t' : FileTree} {w : StagedWrite} : faults .create = none →
    StagedWrite.create t cwd target = .ok (w, t') → Advances (t, .ready) (t', .filling w 0)
  | refuse {t : FileTree} {e : FileError} : faults .create = none →
    StagedWrite.create t cwd target = .error e → Advances (t, .ready) (t, .ended (.error e))
  | fill {t : FileTree} {w : StagedWrite} {m n : Nat} : m ≤ n → n ≤ contents.toUTF8.size →
    Advances (t, .filling w m) (w.appendBytes t (contents.toUTF8.extract m n), .filling w n)
  | write {t : FileTree} {w : StagedWrite} : faults .write = none →
    Advances (t, .filling w contents.toUTF8.size) (t, .filled w)
  | flush {t : FileTree} {w : StagedWrite} : faults .flush = none →
    Advances (t, .filled w) (t, .flushed w)
  | sync {t : FileTree} {w : StagedWrite} : faults .sync = none →
    Advances (t, .flushed w) (t, .synced w)
  | setMode {t : FileTree} {w : StagedWrite} :
    (t.pathExists cwd w.target = true → faults .setMode = none) →
    Advances (t, .synced w) (w.copyMode t cwd, .readied w)
  | rename {t t' : FileTree} {w : StagedWrite} : faults .rename = none →
    w.replace t cwd = .ok t' → Advances (t, .readied w) (t', .ended (.ok ()))
  | refuseRename {t : FileTree} {w : StagedWrite} {e : FileError} : faults .rename = none →
    w.replace t cwd = .error e → Advances (t, .readied w) (w.discard t, .ended (.error e))
  | fail {t : FileTree} {s : Phase} {step : FileStep} {e : FileError} : s.next? = some step →
    faults step = some e → (∀ w, s = .synced w → t.pathExists cwd w.target = true) →
    Advances (t, s) (s.discard t, .ended (.error (s.told cwd target e)))
  | drop {t : FileTree} {s : Phase} {w : StagedWrite} : s.staged? = some w →
    Advances (t, s) (w.discard t, .dropped)

/-- Any number of operations, from the beginning of a write on. -/
def Runs (t : FileTree) : FileTree × Phase → Prop :=
  ReflTransGen (Advances faults cwd target contents) (t, .ready)

/-- A temporary file was created in `t`, and this made `t'` of it. -/
structure Created (t : FileTree) (w : StagedWrite) (t' : FileTree) : Prop where
  fault : faults .create = none
  create : StagedWrite.create t cwd target = .ok (w, t')

/-- The temporary file holds all of the contents. -/
structure Filled (t : FileTree) (w : StagedWrite) (t' : FileTree) : Prop where
  tree : ∃ t₁, Created faults cwd target t w t₁ ∧ t' = w.append t₁ contents
  write : faults .write = none

/-- What is so in each phase of a write that began in the tree `t`. -/
def Kept (t : FileTree) : FileTree × Phase → Prop
  | (t', .ready) => t' = t
  | (t', .filling w n) => ∃ t₁, Created faults cwd target t w t₁ ∧
    t' = w.appendBytes t₁ (contents.toUTF8.extract 0 n)
  | (t', .filled w) => Filled faults cwd target contents t w t'
  | (t', .flushed w) => Filled faults cwd target contents t w t' ∧ faults .flush = none
  | (t', .synced w) => Filled faults cwd target contents t w t' ∧ faults .flush = none ∧
    faults .sync = none
  | (t', .readied w) => ∃ t₁, Filled faults cwd target contents t w t₁ ∧ faults .flush = none ∧
    faults .sync = none ∧ (t₁.pathExists cwd w.target = true → faults .setMode = none) ∧
    t' = w.copyMode t₁ cwd
  | (t', .ended result) => writeAtomic faults t cwd target contents = (t', result)
  | (t', .dropped) => t' = t

end

variable {faults : Faults} {cwd : Location} {target : Path} {contents : String}
  {t t₁ t' : FileTree} {w : StagedWrite} {s : Phase} {e : FileError}

/-! ## The temporary file -/

theorem appendBytes_of_created (h : Created faults cwd target t w t₁) (bytes : ByteArray) :
    w.appendBytes t₁ bytes = t.set w.temp (.file { bytes, mode := tempMode }) := by
  have hfree := temp_free h.create
  obtain ⟨-, dir, -, -, rfl⟩ := create_eq_ok.mp h.create
  unfold appendBytes
  rw [get?_set_self (ne_nil_of_get? hfree)]
  dsimp only
  rw [set_set]
  simp [emptyTemp]

theorem append_eq_appendBytes (w : StagedWrite) (t : FileTree) (contents : String) :
    w.append t contents = w.appendBytes t contents.toUTF8 := rfl

/-- Bytes that follow each other are filled in one by one or together. -/
theorem appendBytes_appendBytes (h : Created faults cwd target t w t₁) (bytes bytes' : ByteArray) :
    w.appendBytes (w.appendBytes t₁ bytes) bytes' = w.appendBytes t₁ (bytes ++ bytes') := by
  have hfree := temp_free h.create
  rw [appendBytes_of_created h, appendBytes_of_created h]
  unfold appendBytes
  rw [get?_set_self (ne_nil_of_get? hfree)]
  dsimp only
  rw [set_set]

theorem discard_appendBytes (h : Created faults cwd target t w t₁) (bytes : ByteArray) :
    w.discard (w.appendBytes t₁ bytes) = t := by
  rw [appendBytes_of_created h]
  exact erase_set_of_get?_none (temp_free h.create) _

theorem Filled.discard (h : Filled faults cwd target contents t w t') : w.discard t' = t := by
  obtain ⟨t₁, hc, rfl⟩ := h.tree
  rw [append_eq_appendBytes]
  exact discard_appendBytes hc _

/-! ## What is left to do -/

theorem writeAtomic_of_create_fault (h : faults .create = some e) :
    writeAtomic faults t cwd target contents = (t, .error (refusal cwd target e)) := by
  unfold writeAtomic
  rw [h]

theorem writeAtomic_of_refused (hf : faults .create = none)
    (h : StagedWrite.create t cwd target = .error e) :
    writeAtomic faults t cwd target contents = (t, .error e) := by
  unfold writeAtomic
  rw [hf, h]

/-- Nothing is written where the temporary file has a path that cannot be followed. -/
theorem writeAtomic_of_tempFault (h : tempFault? cwd target ≠ none) (contents : String) :
    ∃ e, writeAtomic faults t cwd target contents = (t, .error e) := by
  cases hf : faults .create with
  | some e => exact ⟨_, writeAtomic_of_create_fault hf⟩
  | none =>
    obtain ⟨e, he⟩ := Option.ne_none_iff_exists'.mp h
    have hcreate : StagedWrite.create t cwd target = .error (refusal cwd target e) := by
      unfold StagedWrite.create
      rw [he]
    exact ⟨_, writeAtomic_of_refused hf hcreate⟩

theorem writeAtomic_of_write_fault (hc : Created faults cwd target t w t₁)
    (h : faults .write = some e) :
    writeAtomic faults t cwd target contents = (t, .error (.atPath e (w.path cwd))) := by
  unfold writeAtomic
  rw [hc.fault, hc.create, h]
  dsimp only
  rw [discard_of_create hc.create]

theorem writeAtomic_of_flush_fault (hw : Filled faults cwd target contents t w t')
    (h : faults .flush = some e) :
    writeAtomic faults t cwd target contents = (t, .error (.atPath e (w.path cwd))) := by
  have hdiscard := hw.discard
  obtain ⟨t₁, hc, rfl⟩ := hw.tree
  unfold writeAtomic
  rw [hc.fault, hc.create, hw.write, h]
  dsimp only
  rw [hdiscard]

theorem writeAtomic_of_filled (hw : Filled faults cwd target contents t w t')
    (h : faults .flush = none) :
    writeAtomic faults t cwd target contents = w.commit faults t' cwd := by
  obtain ⟨t₁, hc, rfl⟩ := hw.tree
  unfold writeAtomic
  rw [hc.fault, hc.create, hw.write, h]

theorem writeAtomic_of_publish_error (hw : Filled faults cwd target contents t w t')
    (h : faults .flush = none) (he : w.publish faults t' cwd = .error e) :
    writeAtomic faults t cwd target contents = (t, .error e) := by
  rw [writeAtomic_of_filled hw h, commit, he]
  dsimp only
  rw [hw.discard]

theorem writeAtomic_of_publish_ok {t₂ : FileTree} (hw : Filled faults cwd target contents t w t')
    (h : faults .flush = none) (he : w.publish faults t' cwd = .ok t₂) :
    writeAtomic faults t cwd target contents = (t₂, .ok ()) := by
  rw [writeAtomic_of_filled hw h, commit, he]

theorem publish_of_sync_fault (h : faults .sync = some e) :
    w.publish faults t cwd = .error e := by
  unfold publish
  rw [h]
  rfl

theorem publish_of_setMode_fault (hs : faults .sync = none) (hp : t.pathExists cwd w.target = true)
    (h : faults .setMode = some e) : w.publish faults t cwd = .error e := by
  unfold publish
  rw [hs, h, if_pos hp]
  rfl

theorem publish_of_setMode (hs : faults .sync = none)
    (hm : t.pathExists cwd w.target = true → faults .setMode = none) :
    w.publish faults t cwd =
      (check (faults .rename) >>= fun _ => w.replace (w.copyMode t cwd) cwd) := by
  unfold publish
  rw [hs]
  split
  · next hp =>
    rw [hm hp]
    rfl
  · rfl

/-! ## Writes to sites -/

/-- The fault that a write meets whose temporary file gets this name: that of the first operation
that fails. -/
def firstFault (faults : Faults) (cwd : Location) (target : Path) (isSealed : Bool)
    (name : String) : Option FileError :=
  (faults .create).map (refusal cwd target) <|> refusal? cwd target isSealed <|>
    (faults .write <|> faults .flush).map (.atPath · (tempPath cwd target name)) <|>
    faults .sync <|> faults .setMode <|> faults .rename

/-- Writes under two paths meet a fault together, where temporary files can have their paths under
both or under neither. -/
theorem firstFault_eq_none_iff {p q : Path} (faults : Faults)
    (h : tempFault? cwd p = none ↔ tempFault? cwd q = none) (isSealed : Bool) (name : String) :
    firstFault faults cwd p isSealed name = none ↔
      firstFault faults cwd q isSealed name = none := by
  simp [firstFault, refusal?, h]

theorem firstFault_noFaults (isSealed : Bool) (name : String) :
    firstFault noFaults cwd target isSealed name = refusal? cwd target isSealed := by
  simp [firstFault, noFaults]

/-- A write to a site succeeds unless it meets a fault. -/
theorem Site.writeAtomic_eq {dir F : Location} {name : String} {old : FileData} {isSealed : Bool}
    (h : Site t cwd target dir name F old) (hd : t.get? dir = some (.dir isSealed))
    (faults : Faults) (contents : String) :
    writeAtomic faults t cwd target contents =
      match firstFault faults cwd target isSealed (freshName t dir) with
      | some e => (t, .error e)
      | none => (t.set (dir ++ [name]) (.file ⟨contents.toUTF8, old.mode, none⟩), .ok ()) := by
  have hrefl : Altered t (fun _ => True) t := altered_refl t
  have hcreate := h.slot.create_eq hrefl hd
  unfold firstFault
  cases hf : faults .create with
  | some e => exact writeAtomic_of_create_fault hf
  | none =>
  cases hrefusal : refusal? cwd target isSealed with
  | some e =>
    rw [hrefusal] at hcreate
    exact writeAtomic_of_refused hf hcreate
  | none =>
  rw [hrefusal] at hcreate
  obtain ⟨w, t₁, rfl, hcreated, htemp⟩ : ∃ w t₁, w.target = target ∧
      StagedWrite.create t cwd target = .ok (w, t₁) ∧ w.temp = dir ++ [freshName t dir] :=
    ⟨_, _, rfl, hcreate, rfl⟩
  have hc : Created faults cwd w.target t w t₁ := ⟨hf, hcreated⟩
  cases hwrite : faults .write with
  | some e => rw [writeAtomic_of_write_fault hc hwrite, path_of_temp htemp]; rfl
  | none =>
  have hw : Filled faults cwd w.target contents t w _ := ⟨⟨t₁, hc, rfl⟩, hwrite⟩
  cases hflush : faults .flush with
  | some e => rw [writeAtomic_of_flush_fault hw hflush, path_of_temp htemp]; rfl
  | none =>
  cases hsync : faults .sync with
  | some e => exact writeAtomic_of_publish_error hw hflush (publish_of_sync_fault hsync)
  | none =>
  have hfree := temp_free hcreated
  cases hmode : faults .setMode with
  | some e =>
    refine writeAtomic_of_publish_error hw hflush (publish_of_setMode_fault hsync ?_ hmode)
    rw [append_of_create hcreated, pathExists, entryAt_set_of_free hfree h.led]
  | none =>
  have hpublish : w.publish faults (w.append t₁ contents) cwd = _ :=
    publish_of_setMode hsync fun _ => hmode
  rw [copyMode_of_create hcreated h.led] at hpublish
  cases hrename : faults .rename with
  | some e =>
    rw [hrename] at hpublish
    exact writeAtomic_of_publish_error hw hflush hpublish
  | none =>
    have hreplace := h.replace_eq
      (altered_set_temp hrefl hfree htemp ⟨contents.toUTF8, old.mode, none⟩)
      (get?_set_self (ne_nil_of_get? hfree))
    rw [erase_set_of_get?_none hfree] at hreplace
    rw [hrename] at hpublish
    exact writeAtomic_of_publish_ok hw hflush (hpublish.trans hreplace)

theorem Site.writeAtomic_noFaults {dir F : Location} {name : String} {old : FileData}
    {isSealed : Bool} (h : Site t cwd target dir name F old)
    (hd : t.get? dir = some (.dir isSealed)) (hfree : refusal? cwd target isSealed = none)
    (contents : String) :
    writeAtomic noFaults t cwd target contents =
      (t.set (dir ++ [name]) (.file ⟨contents.toUTF8, old.mode, none⟩), .ok ()) := by
  rw [h.writeAtomic_eq hd, firstFault_noFaults, hfree]

/-! ## Every phase -/

/-- Without what is staged, the tree is as it was when the write began. -/
theorem Kept.discard (h : Kept faults cwd target contents t (t', s)) (hs : s.next?.isSome) :
    s.discard t' = t := by
  cases s with
  | ready => exact h
  | filling w n =>
    obtain ⟨t₁, hc, rfl⟩ := h
    exact discard_appendBytes hc _
  | filled w => exact Filled.discard h
  | flushed w => exact h.1.discard
  | synced w => exact h.1.discard
  | readied w =>
    obtain ⟨t₁, hw, -, -, -, rfl⟩ := h
    exact (discard_copyMode w t₁ cwd).trans hw.discard
  | ended result | dropped => cases hs

/-- The operation that comes next decides the whole write, if it fails. -/
theorem Kept.failed {step : FileStep} (h : Kept faults cwd target contents t (t', s))
    (hnext : s.next? = some step) (hf : faults step = some e)
    (hexists : ∀ w, s = .synced w → t'.pathExists cwd w.target = true) :
    writeAtomic faults t cwd target contents = (t, .error (s.told cwd target e)) := by
  cases s <;> cases hnext
  case ready => exact writeAtomic_of_create_fault hf
  case filling w n =>
    obtain ⟨t₁, hc, -⟩ := h
    exact writeAtomic_of_write_fault hc hf
  case filled w => exact writeAtomic_of_flush_fault h hf
  case flushed w =>
    obtain ⟨hw, hflush⟩ := h
    exact writeAtomic_of_publish_error hw hflush (publish_of_sync_fault hf)
  case synced w =>
    obtain ⟨hw, hflush, hsync⟩ := h
    refine writeAtomic_of_publish_error hw hflush ?_
    exact publish_of_setMode_fault hsync (hexists w rfl) hf
  case readied w =>
    obtain ⟨t₁, hw, hflush, hsync, hmode, -⟩ := h
    refine writeAtomic_of_publish_error hw hflush ?_
    rw [publish_of_setMode hsync hmode, hf]
    rfl

/-- Each operation leads from one phase to another. -/
theorem Kept.step {a b : FileTree × Phase} (h : Kept faults cwd target contents t a)
    (hstep : Advances faults cwd target contents a b) : Kept faults cwd target contents t b := by
  cases hstep with
  | create hf hc =>
    obtain rfl : _ = t := h
    have hcreated : Created faults cwd target _ _ _ := ⟨hf, hc⟩
    refine ⟨_, hcreated, ?_⟩
    rw [appendBytes_of_created hcreated]
    obtain ⟨-, dir, -, -, rfl⟩ := create_eq_ok.mp hc
    rw [ByteArray.extract_same]
    rfl
  | refuse hf hc =>
    obtain rfl : _ = t := h
    exact writeAtomic_of_refused hf hc
  | @fill _ w m n hmn hn =>
    obtain ⟨t₁, hc, rfl⟩ := h
    refine ⟨t₁, hc, ?_⟩
    rw [appendBytes_appendBytes hc, ByteArray.extract_append_extract, Nat.zero_min,
      Nat.max_eq_right hmn]
  | write hf =>
    obtain ⟨t₁, hc, rfl⟩ := h
    rw [ByteArray.extract_zero_size, ← append_eq_appendBytes]
    exact ⟨⟨t₁, hc, rfl⟩, hf⟩
  | flush hf => exact ⟨h, hf⟩
  | sync hf => exact ⟨h.1, h.2, hf⟩
  | setMode hf => exact ⟨_, h.1, h.2.1, h.2.2, hf, rfl⟩
  | rename hf hr =>
    obtain ⟨t₁, hw, hflush, hsync, hmode, rfl⟩ := h
    refine writeAtomic_of_publish_ok hw hflush ?_
    rw [publish_of_setMode hsync hmode, hf]
    exact hr
  | refuseRename hf hr =>
    obtain ⟨t₁, hw, hflush, hsync, hmode, rfl⟩ := h
    rw [discard_copyMode, hw.discard]
    refine writeAtomic_of_publish_error hw hflush ?_
    rw [publish_of_setMode hsync hmode, hf]
    exact hr
  | @fail _ s step _ hnext hf hexists =>
    have hdiscard : s.discard _ = t := h.discard (by rw [hnext]; rfl)
    rw [hdiscard]
    exact h.failed hnext hf hexists
  | @drop _ s w hs =>
    have hdiscard : s.discard _ = t := h.discard (Phase.isSome_next? hs)
    rw [Phase.discard, hs] at hdiscard
    exact hdiscard

theorem Runs.kept {a : FileTree × Phase} (h : Runs faults cwd target contents t a) :
    Kept faults cwd target contents t a := by
  induction h with
  | refl => rfl
  | tail _ hstep ih => exact ih.step hstep

/-! ## Writes that come to an end -/

/-- A write can come to an end from here. -/
def Ends (faults : Faults) (cwd : Location) (target : Path) (contents : String)
    (a : FileTree × Phase) : Prop :=
  ∃ t' r, ReflTransGen (Advances faults cwd target contents) a (t', .ended r)

theorem Ends.of_advances {a b : FileTree × Phase} (h : Advances faults cwd target contents a b)
    (hb : Ends faults cwd target contents b) : Ends faults cwd target contents a := by
  obtain ⟨t', r, hr⟩ := hb
  exact ⟨t', r, hr.head h⟩

theorem Ends.of_ended {a : FileTree × Phase} {r : Except FileError Unit}
    (h : Advances faults cwd target contents a (t', .ended r)) :
    Ends faults cwd target contents a :=
  ⟨t', r, .single h⟩

theorem ends_readied (w : StagedWrite) (t : FileTree) :
    Ends faults cwd target contents (t, .readied w) := by
  cases hf : faults .rename with
  | some e => exact .of_ended (.fail rfl hf nofun)
  | none =>
    cases hr : w.replace t cwd with
    | ok t' => exact .of_ended (.rename hf hr)
    | error e => exact .of_ended (.refuseRename hf hr)

theorem ends_synced (w : StagedWrite) (t : FileTree) :
    Ends faults cwd target contents (t, .synced w) := by
  have hset : (t.pathExists cwd w.target = true → faults .setMode = none) →
      Ends faults cwd target contents (t, .synced w) :=
    fun h => .of_advances (.setMode h) (ends_readied w _)
  cases hf : faults .setMode with
  | none => exact hset fun _ => hf
  | some e =>
    cases hp : t.pathExists cwd w.target with
    | false => exact hset fun h => by rw [hp] at h; cases h
    | true => exact .of_ended (.fail rfl hf fun w' hw => by cases hw; exact hp)

theorem ends_flushed (w : StagedWrite) (t : FileTree) :
    Ends faults cwd target contents (t, .flushed w) := by
  cases hf : faults .sync with
  | some e => exact .of_ended (.fail rfl hf nofun)
  | none => exact .of_advances (.sync hf) (ends_synced w t)

theorem ends_filled (w : StagedWrite) (t : FileTree) :
    Ends faults cwd target contents (t, .filled w) := by
  cases hf : faults .flush with
  | some e => exact .of_ended (.fail rfl hf nofun)
  | none => exact .of_advances (.flush hf) (ends_flushed w t)

theorem ends_filling (w : StagedWrite) (t : FileTree) :
    Ends faults cwd target contents (t, .filling w 0) := by
  cases hf : faults .write with
  | some e => exact .of_ended (.fail rfl hf nofun)
  | none =>
    exact .of_advances (.fill (Nat.zero_le _) (Nat.le_refl _))
      (.of_advances (.write hf) (ends_filled w _))

theorem ends_ready (t : FileTree) : Ends faults cwd target contents (t, .ready) := by
  cases hf : faults .create with
  | some e => exact .of_ended (.fail rfl hf nofun)
  | none =>
    cases hc : StagedWrite.create t cwd target with
    | error e => exact .of_ended (.refuse hf hc)
    | ok created => exact .of_advances (.create hf hc) (ends_filling _ _)

/-- A write that takes all its operations does what `writeAtomic` does, and so does one of them. -/
theorem runs_ended_iff {r : Except FileError Unit} :
    Runs faults cwd target contents t (t', .ended r) ↔
      writeAtomic faults t cwd target contents = (t', r) := by
  refine ⟨Runs.kept, fun h => ?_⟩
  obtain ⟨t₁, r₁, hr⟩ : Ends faults cwd target contents (t, .ready) := ends_ready t
  have heq : (t₁, r₁) = (t', r) := (Runs.kept hr).symm.trans h
  cases heq
  exact hr

/-! ## Every instant -/

/-- Until a write has ended, there is nothing but a new file. -/
theorem Kept.eq_or_set {F : Location} {old : FileData}
    (h : Kept faults cwd target contents t (t', s)) (ho : t.entryAt cwd target = .ok (F, .file old))
    (hs : ∀ r, s ≠ .ended r) :
    t' = t ∨ ∃ l e, t.get? l = none ∧ t' = t.set l e := by
  have hfilled {w : StagedWrite} {t' : FileTree} (h : Filled faults cwd target contents t w t') :
      ∃ l e, t.get? l = none ∧ t' = t.set l e := by
    obtain ⟨t₁, hc, rfl⟩ := h.tree
    exact ⟨w.temp, _, temp_free hc.create, append_of_create hc.create contents⟩
  cases s with
  | ready | dropped => exact .inl h
  | filling w n =>
    obtain ⟨t₁, hc, rfl⟩ := h
    exact .inr ⟨w.temp, _, temp_free hc.create, appendBytes_of_created hc _⟩
  | filled w => exact .inr (hfilled h)
  | flushed w | synced w => exact .inr (hfilled h.1)
  | readied w =>
    obtain ⟨t₁, hw, -, -, -, rfl⟩ := h
    obtain ⟨t₂, hc, rfl⟩ := hw.tree
    exact .inr ⟨w.temp, _, temp_free hc.create, copyMode_of_create hc.create ho⟩
  | ended r => exact absurd rfl (hs r)

/-- At every instant of a write the target leads to a file with the permission bits that it had:
to the old file, or, once the write has ended well, to one with the new contents in the place of
what stood for it. Nothing else that was there has changed. Of a write that fails or is dropped
nothing is left. -/
theorem old_or_new_atEveryInstant {F : Location} {old : FileData} (faults : Faults)
    (contents : String) (ho : t.entryAt cwd target = .ok (F, .file old)) :
    (∀ t' s, Runs faults cwd target contents t (t', s) →
      (s ≠ .ended (.ok ()) → t'.entryAt cwd target = .ok (F, .file old) ∧
        ∀ l e, t.get? l = some e → t'.get? l = some e) ∧
      (s = .ended (.ok ()) → ∃ dir name, Slot t cwd target dir name ∧ EndsIn t (dir ++ [name]) F ∧
        t'.entryAt cwd target =
          .ok (dir ++ [name], .file { bytes := contents.toUTF8, mode := old.mode }) ∧
        ∀ l ≠ dir ++ [name], t'.get? l = t.get? l) ∧
      ((s = .dropped ∨ ∃ e, s = .ended (.error e)) → t' = t)) ∧
    ∀ t' r, Runs faults cwd target contents t (t', .ended r) ↔
      writeAtomic faults t cwd target contents = (t', r) := by
  refine ⟨fun t' s hrun => ⟨fun hs => ?_, ?_, ?_⟩, fun t' r => runs_ended_iff⟩
  · have hkept := hrun.kept
    have hsame : t.entryAt cwd target = .ok (F, .file old) ∧
        ∀ l e, t.get? l = some e → t.get? l = some e := ⟨ho, fun _ _ h => h⟩
    by_cases hended : ∃ r, s = .ended r
    · obtain ⟨r, rfl⟩ := hended
      cases r with
      | ok => exact absurd rfl hs
      | error e => rwa [writeAtomic_error hkept]
    · rcases hkept.eq_or_set ho (not_exists.mp hended) with rfl | ⟨l, e, hl, rfl⟩
      · exact hsame
      · exact ⟨entryAt_set_of_free hl ho, fun _ _ => get?_set_of_free hl⟩
  · rintro rfl
    obtain ⟨dir, name, hslot, hE, rfl⟩ := writeAtomic_ok ho hrun.kept
    exact ⟨dir, name, hslot, hE, hslot.entryAt_set hE _, fun l hl => get?_set_ne hl⟩
  · rintro (rfl | ⟨e, rfl⟩)
    · exact hrun.kept
    · exact writeAtomic_error hrun.kept

/-- A script that can be run. -/
def script : FileTree :=
  ⟨[(["bin"], .dir false), (["bin", "run.sh"], .file ⟨"echo old\n".toUTF8, 0o755, none⟩)]⟩

/-- Half of the new script is written, and all of it, and the script can be run both times. -/
theorem script_old_or_new :
    (∃ t' w, Runs noFaults [] ⟨"bin/run.sh"⟩ "echo new\n" script (t', .filling w 4) ∧
      t'.fileAt [] ⟨"bin/run.sh"⟩ = .ok ⟨"echo old\n".toUTF8, 0o755, none⟩) ∧
    ∃ t', Runs noFaults [] ⟨"bin/run.sh"⟩ "echo new\n" script (t', .ended (.ok ())) ∧
      t'.fileAt [] ⟨"bin/run.sh"⟩ = .ok ⟨"echo new\n".toUTF8, 0o755, none⟩ := by
  have hfault : (⟨"bin/run.sh"⟩ : Path).fault? = none := Path.fault?_eq_none.mpr (by decide)
  have htemp : tempFault? [] ⟨"bin/run.sh"⟩ = none := Path.fault?_eq_none.mpr (by decide)
  have hold : script.entryAt [] ⟨"bin/run.sh"⟩ =
      .ok (["bin", "run.sh"], .file ⟨"echo old\n".toUTF8, 0o755, none⟩) :=
    entryAt_eq_ok.mpr ⟨hfault, rfl, 40, .step (.into rfl (by decide) rfl nofun)
      (.single (.into rfl (by decide) rfl nofun))⟩
  have hdirectory : script.entryAt [] (directory ⟨"bin/run.sh"⟩) = .ok (["bin"], .dir false) :=
    entryAt_eq_ok.mpr ⟨Path.fault?_eq_none.mpr (by decide), rfl, 40,
      .single (.into rfl (by decide) rfl nofun)⟩
  obtain ⟨hinstant, hended⟩ := old_or_new_atEveryInstant noFaults "echo new\n" hold
  constructor
  · have hrun : Runs noFaults [] ⟨"bin/run.sh"⟩ "echo new\n" script (_, .filling _ 4) :=
      .head (.create rfl (create_eq_ok.mpr ⟨htemp, ["bin"], hdirectory, rfl, rfl⟩))
        (.single (.fill (Nat.zero_le _) (by decide)))
    exact ⟨_, _, hrun, fileAt_eq_ok.mpr ⟨_, ((hinstant _ _ hrun).1 nofun).1⟩⟩
  · have hsite : Site script [] ⟨"bin/run.sh"⟩ ["bin"] "run.sh" _ _ :=
      ⟨hold, ⟨hfault, by decide, by decide, by decide, ⟨_, rfl⟩,
        40, .single (.into rfl (by decide) rfl nofun)⟩, .file rfl⟩
    have hrun := (hended _ _).mpr
      (hsite.writeAtomic_noFaults rfl (refusal?_eq_none htemp) "echo new\n")
    obtain ⟨dir, name, -, -, hnew, -⟩ := (hinstant _ _ hrun).2.1 rfl
    exact ⟨_, hrun, fileAt_eq_ok.mpr ⟨_, hnew⟩⟩

end Amend.StagedWrite
