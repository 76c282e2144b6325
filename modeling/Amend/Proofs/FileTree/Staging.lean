import Amend.Proofs.FileTree.Alteration
import Amend.Proofs.Path

/-!
# Staged writes, operation by operation

What each operation of a staged write does to the tree. A name for a temporary file is always free
(`freshName_free`), a renaming puts the temporary file in the slot of the target
(`replace_eq_ok`), and a write that fails leaves the tree as it was (`writeAtomic_error`).
-/

set_option autoImplicit false

namespace Amend.StagedWrite

open FileTree

variable {t t' : FileTree} {cwd dir l : Location} {name : String} {p : Path} {w : StagedWrite}
  {d : FileData}

/-! ## Names of temporary files -/

/-- The number in the name of a temporary file, with zeros before it. -/
theorem ofDigitChars_toString (k n : Nat) :
    Nat.ofDigitChars 10 (List.replicate k '0' ++ (toString n).toList) 0 = n := by
  rw [Nat.toString_eq_ofList_toDigits, String.toList_ofList, Nat.ofDigitChars_append,
    Nat.ofDigitChars_replicate_zero, Nat.mul_zero, Nat.ofDigitChars_ten_toDigits]

theorem toList_tempName (n : Nat) :
    (tempName n).toList = ".sentinel-fix-".toList ++
      ((List.replicate (6 - (toString n).length) '0' ++ (toString n).toList) ++ ".tmp".toList) := by
  -- the definition is opened without its equation, which is costly to derive
  delta tempName
  simp only [String.toList_append, String.toList_ofList, List.append_assoc]

theorem tempName_injective {m n : Nat} (h : tempName m = tempName n) : m = n := by
  have h' := congrArg String.toList h
  rw [toList_tempName, toList_tempName] at h'
  have h' := List.append_cancel_right (List.append_cancel_left h')
  have h' := congrArg (Nat.ofDigitChars 10 · 0) h'
  simpa only [ofDigitChars_toString] using h'

theorem ne_tempName {name : String} (h : name.toList.head? ≠ some '.') (k : Nat) :
    tempName k ≠ name := by
  rintro rfl
  refine h ?_
  rw [toList_tempName]
  rfl

/-- Whether steps ask for no hidden name, as those of temporary files are. -/
def asksVisibly (steps : List PathStep) : Bool :=
  steps.all fun
    | .into name => name.toList.head? != some '.'
    | _ => true

/-- Whether an entry leads on to no hidden name. -/
def leadsVisibly : Entry → Bool
  | .link target => asksVisibly target.steps
  | _ => true

theorem tempName_notMem {steps : List PathStep} (h : asksVisibly steps = true) (k : Nat) :
    .into (tempName k) ∉ steps := by
  intro hmem
  have hvisible := List.all_eq_true.mp h _ hmem
  exact ne_tempName (by simpa using hvisible) k rfl

/-- A walk asks for no temporary file if neither its steps nor the links of the tree ask for hidden
names. -/
theorem avoidsTemps_of_entries {a : Stage} (ha : asksVisibly a.steps = true)
    (ht : ∀ q ∈ t.entries, leadsVisibly q.2 = true) : AvoidsTemps t a := by
  refine avoidsTemps_of_notMem (tempName_notMem ha) fun l target hl => tempName_notMem ?_
  have hne : l ≠ [] := by
    rintro rfl
    cases hl
  exact ht _ (mem_of_get? hne hl)

/-- There is a free name in every directory: there are more names than entries. -/
theorem exists_free (t : FileTree) (dir : Location) :
    ∃ n < t.entries.length + 1, t.get? (dir ++ [tempName n]) = none := by
  by_cases h : ∃ n < t.entries.length + 1, t.get? (dir ++ [tempName n]) = none
  · exact h
  simp only [not_exists, not_and] at h
  have hnodup : ((List.range (t.entries.length + 1)).map fun n => dir ++ [tempName n]).Nodup := by
    refine List.nodup_iff_pairwise_ne.mpr (List.pairwise_map.mpr ?_)
    refine List.nodup_range.imp fun {m n} hmn he => hmn ?_
    exact tempName_injective (List.cons.inj (List.append_cancel_left he)).1
  have hsub : ((List.range (t.entries.length + 1)).map fun n => dir ++ [tempName n]) ⊆
      t.entries.map Prod.fst := by
    intro l hl
    obtain ⟨n, hn, rfl⟩ := List.mem_map.mp hl
    have hsome := h n (List.mem_range.mp hn)
    rw [get?_of_ne_nil (by simp), lookup_eq_none] at hsome
    simp only [ne_eq, Classical.not_forall, Decidable.not_not] at hsome
    obtain ⟨q, hq, heq⟩ := hsome
    exact List.mem_map.mpr ⟨q, hq, heq⟩
  have := hnodup.length_le_of_subset hsub
  simp only [List.length_map, List.length_range] at this
  omega

theorem freshName_free (t : FileTree) (dir : Location) :
    t.get? (dir ++ [freshName t dir]) = none := by
  obtain ⟨n, hn, hfree⟩ := exists_free t dir
  unfold freshName
  cases hf : (List.range (t.entries.length + 1)).find? fun n =>
      (t.get? (dir ++ [tempName n])).isNone with
  | none =>
    have := List.find?_eq_none.mp hf n (List.mem_range.mpr hn)
    simp [hfree] at this
  | some m => simpa using List.find?_some hf

theorem freshName_eq (t : FileTree) (dir : Location) : ∃ k, freshName t dir = tempName k :=
  ⟨_, rfl⟩

/-! ## Creating and filling a temporary file -/

/-- An empty temporary file. -/
def emptyTemp : FileData :=
  { bytes := .empty, mode := tempMode }

theorem create_eq_ok : create t cwd p = .ok (w, t') ↔ tempFault? cwd p = none ∧
    ∃ dir, t.entryAt cwd (directory p) = .ok (dir, .dir false) ∧
      w = ⟨p, dir ++ [freshName t dir]⟩ ∧ t' = t.set w.temp (.file emptyTemp) := by
  unfold create
  cases tempFault? cwd p with
  | some e => simp
  | none =>
  cases h : t.entryAt cwd (directory p) with
  | error e => simp
  | ok found =>
    obtain ⟨loc, e⟩ := found
    cases e with
    | file d | link target => simp
    | dir isSealed =>
      cases isSealed with
      | true => simp
      | false =>
        simp only [freshName_free, Option.isSome_none, Bool.false_eq_true, if_false,
          Except.ok.injEq, Prod.mk.injEq]
        constructor
        · rintro ⟨rfl, rfl⟩
          exact ⟨trivial, loc, ⟨rfl, trivial⟩, rfl, rfl⟩
        · rintro ⟨-, dir, ⟨rfl, -⟩, rfl, rfl⟩
          simp [emptyTemp]

/-- A temporary file that is not created has a fault that tells its path. -/
theorem create_eq_error {e : FileError} (h : create t cwd p = .error e) :
    ∃ e', e = refusal cwd p e' := by
  unfold create at h
  split at h
  · exact ⟨_, (Except.error.inj h).symm⟩
  split at h
  · exact ⟨_, (Except.error.inj h).symm⟩
  · dsimp only at h
    split at h
    · exact ⟨_, (Except.error.inj h).symm⟩
    split at h
    · exact ⟨_, (Except.error.inj h).symm⟩
    · cases h
  · exact ⟨_, (Except.error.inj h).symm⟩

theorem path_of_temp (h : w.temp = dir ++ [name]) (cwd : Location) :
    w.path cwd = tempPath cwd w.target name := by
  rw [path, h, List.getLast?_concat]
  rfl

theorem append_of_file (h : t.get? w.temp = some (.file d)) (contents : String) :
    w.append t contents = t.set w.temp (.file { d with bytes := d.bytes ++ contents.toUTF8 }) := by
  unfold append
  rw [h]

theorem discard_append (w : StagedWrite) (t : FileTree) (contents : String) :
    w.discard (w.append t contents) = w.discard t := by
  unfold append discard
  split
  · exact FileTree.erase_set ..
  · rfl

theorem copyMode_of_file {old : FileData} (h : t.get? w.temp = some (.file d))
    (ho : t.fileAt cwd w.target = .ok old) :
    w.copyMode t cwd = t.set w.temp (.file { d with mode := old.mode }) := by
  obtain ⟨loc, ho⟩ := fileAt_eq_ok.mp ho
  unfold copyMode
  rw [h, ho]

/-! ## Slots -/

/-- The place of a path in the tree: its last step in the directory where the others lead. -/
structure Slot (t : FileTree) (cwd : Location) (p : Path) (dir : Location) (name : String) :
    Prop where
  fault : p.fault? = none
  slash : p.endsInSlash = false
  last : p.innerSteps.getLast? = some (.into name)
  name_le : name.utf8ByteSize ≤ Path.nameLimit
  isDir : ∃ isSealed, t.get? dir = some (.dir isSealed)
  reaches : ∃ m, Reaches t ⟨linkLimit, p.origin cwd, p.innerSteps.dropLast⟩ ⟨m, dir, []⟩

theorem Slot.innerSteps_eq (h : Slot t cwd p dir name) :
    p.innerSteps = p.innerSteps.dropLast ++ [.into name] := by
  obtain ⟨steps, hs⟩ := List.getLast?_eq_some_iff.mp h.last
  rw [hs, List.dropLast_concat]

theorem Slot.steps_eq (h : Slot t cwd p dir name) :
    p.steps = p.innerSteps.dropLast ++ [.into name] := by
  rw [Path.steps, h.slash]
  exact h.innerSteps_eq

/-- A renaming takes the temporary file to the slot of the target, where no directory stands. -/
theorem replace_eq_ok : w.replace t cwd = .ok t' ↔
    ∃ dir name e, Slot t cwd w.target dir name ∧
      (∀ isSealed, t.get? (dir ++ [name]) ≠ some (.dir isSealed)) ∧ t.get? w.temp = some e ∧
      t' = (t.erase w.temp).set (dir ++ [name]) e := by
  constructor
  · intro h
    unfold replace at h
    split at h
    · cases h
    next hfault =>
    dsimp only at h
    split at h
    · cases h
    next last hlast =>
    split at h <;> try cases h
    next loc isSealed hdir =>
    obtain ⟨hd, m, hr⟩ := ending_eq_entry (a := ⟨_, _, _⟩).mp hdir
    split at h <;> try cases h
    next name =>
    split at h
    · cases h
    next hname =>
    split at h
    · cases h
    next hslash =>
    split at h
    · cases h
    · next e he hnd =>
      cases h
      exact ⟨loc, name, e, ⟨hfault, by simpa using hslash, hlast, by omega, ⟨_, hd⟩, m, hr⟩,
        fun s hs => hnd s hs, he, rfl⟩
    · cases h
  · rintro ⟨dir, name, e, hslot, hnd, he, rfl⟩
    obtain ⟨isSealed, hd⟩ := hslot.isDir
    have hdir : t.followSteps true linkLimit (w.target.origin cwd) w.target.innerSteps.dropLast =
        .ok (.entry dir (.dir isSealed)) :=
      ending_eq_entry (a := ⟨_, _, _⟩).mpr ⟨hd, hslot.reaches⟩
    unfold Path.origin at hdir
    unfold replace
    simp only [hslot.fault, hslot.last, hdir, hslot.slash, if_neg (Nat.not_lt.mpr hslot.name_le),
      he, Bool.false_eq_true, if_false]

theorem Slot.mono (ht : ∀ l e, t.get? l = some e → t'.get? l = some e)
    (h : Slot t cwd p dir name) : Slot t' cwd p dir name := by
  obtain ⟨s, hs⟩ := h.isDir
  obtain ⟨m, hr⟩ := h.reaches
  exact ⟨h.fault, h.slash, h.last, h.name_le, ⟨s, ht _ _ hs⟩, m, hr.mono ht⟩

theorem Slot.unique {dir' : Location} {name' : String} (h : Slot t cwd p dir name)
    (h' : Slot t cwd p dir' name') : dir = dir' ∧ name = name' := by
  obtain ⟨m, hr⟩ := h.reaches
  obtain ⟨m', hr'⟩ := h'.reaches
  have hlast := h.last.symm.trans h'.last
  simp only [Option.some.injEq, PathStep.into.injEq] at hlast
  exact ⟨(Reaches.stuck_unique (a := ⟨linkLimit, _, _⟩) hr hr' (stuck_of_steps_nil t rfl)
    (stuck_of_steps_nil t rfl)).1, hlast⟩

/-- A path that leads to a file and ends in a name has a slot, and what stands there leads to the
file. -/
theorem exists_slot {m : Nat} {F : Location} (hf : p.fault? = none) (hs : p.endsInSlash = false)
    (hlast : p.innerSteps.getLast? = some (.into name)) (hF : t.get? F = some (.file d))
    (hr : Reaches t (p.stage linkLimit cwd) ⟨m, F, []⟩) :
    ∃ dir, Slot t cwd p dir name ∧ EndsIn t (dir ++ [name]) F := by
  have hsteps : p.steps = p.innerSteps.dropLast ++ [.into name] := by
    obtain ⟨steps, h⟩ := List.getLast?_eq_some_iff.mp hlast
    rw [Path.steps, hs, h, List.dropLast_concat]
    rfl
  rw [Path.stage, hsteps] at hr
  obtain ⟨⟨k, dir, steps⟩, hdir, hnil, hlast'⟩ :=
    Reaches.split (a := ⟨linkLimit, p.origin cwd, p.innerSteps.dropLast⟩) hr rfl
  obtain rfl : steps = [] := hnil
  refine ⟨dir, ?_⟩
  cases hlast' with
  | step hm hrest =>
    cases hm with
    | into hd hn he hl =>
      refine ⟨⟨hf, hs, hlast, hn, ⟨_, hd⟩, _, hdir⟩, ?_⟩
      obtain rfl : F = dir ++ [name] :=
        (Stage.mk.inj (hrest.eq_of_stuck (stuck_of_steps_nil t rfl))).2.1
      exact .file hF
    | link hd hn he =>
      refine ⟨⟨hf, hs, hlast, hn, ⟨_, hd⟩, _, hdir⟩, ?_⟩
      rw [List.append_nil] at hrest
      exact .link he hF hrest

theorem Slot.entryAt (h : Slot t cwd p dir name) (hd : t.get? (dir ++ [name]) = some (.file d)) :
    t.entryAt cwd p = .ok (dir ++ [name], .file d) := by
  obtain ⟨s, hs⟩ := h.isDir
  obtain ⟨m, hr⟩ := h.reaches
  refine entryAt_eq_ok.mpr ⟨h.fault, hd, m, ?_⟩
  rw [Path.stage, h.steps_eq]
  exact (hr.append [.into name]).trans (.single (.into hs h.name_le hd (by simp)))

/-- Slots stay where they are while files are rewritten. -/
theorem Slot.altered {P : Location → Prop} (h : Slot t cwd p dir name) (ht : Altered t P t') :
    Slot t' cwd p dir name := by
  obtain ⟨s, hs⟩ := h.isDir
  obtain ⟨m, hr⟩ := h.reaches
  exact ⟨h.fault, h.slash, h.last, h.name_le, ⟨s, ht.dir_iff.mpr hs⟩, m, ht.reaches hr hs⟩

theorem Slot.entryAt_set {F : Location} (h : Slot t cwd p dir name)
    (hE : EndsIn t (dir ++ [name]) F) (d : FileData) :
    (t.set (dir ++ [name]) (.file d)).entryAt cwd p = .ok (dir ++ [name], .file d) :=
  (h.altered (altered_set hE)).entryAt (get?_set_self (by simp))

/-! ## Whole writes -/

theorem of_check_bind {α : Type} {f : Option FileError} {x : Except FileError α} {r : α}
    (h : (check f >>= fun _ => x) = .ok r) : x = .ok r := by
  cases f with
  | none => exact h
  | some e => cases h

theorem replace_of_publish {faults : Faults} (h : w.publish faults t cwd = .ok t') :
    w.replace (w.copyMode t cwd) cwd = .ok t' := by
  unfold publish at h
  have h := of_check_bind h
  split at h
  · exact of_check_bind (of_check_bind h)
  · exact of_check_bind h

theorem discard_of_create (h : create t cwd p = .ok (w, t')) : w.discard t' = t := by
  obtain ⟨-, dir, -, rfl, rfl⟩ := create_eq_ok.mp h
  exact erase_set_of_get?_none (freshName_free t dir) _

theorem writeAtomic_error {faults : Faults} {contents : String} {e : FileError}
    (h : writeAtomic faults t cwd p contents = (t', .error e)) : t' = t := by
  unfold writeAtomic at h
  split at h
  · exact (Prod.mk.inj h).1.symm
  split at h
  · exact (Prod.mk.inj h).1.symm
  next w t₁ hc =>
  have hdiscard := discard_of_create hc
  split at h
  · rw [← (Prod.mk.inj h).1, hdiscard]
  · rw [← (Prod.mk.inj h).1, discard_append, hdiscard]
  · unfold commit at h
    split at h
    · cases h
    · rw [← (Prod.mk.inj h).1, discard_append, hdiscard]

theorem temp_free (h : create t cwd p = .ok (w, t')) : t.get? w.temp = none := by
  obtain ⟨-, dir, -, rfl, -⟩ := create_eq_ok.mp h
  exact freshName_free t dir

theorem append_of_create (h : create t cwd p = .ok (w, t')) (contents : String) :
    w.append t' contents = t.set w.temp (.file { bytes := contents.toUTF8, mode := tempMode }) := by
  have hfree := temp_free h
  obtain ⟨-, dir, -, -, rfl⟩ := create_eq_ok.mp h
  rw [append_of_file (get?_set_self (ne_nil_of_get? hfree)), set_set]
  simp [emptyTemp]

/-- A new entry does not change which file a path leads to. -/
theorem entryAt_set_of_free {e e' : Entry} (h : t.get? l = none)
    (ho : t.entryAt cwd p = .ok (dir, e)) : (t.set l e').entryAt cwd p = .ok (dir, e) := by
  obtain ⟨hf, he, m, hr⟩ := entryAt_eq_ok.mp ho
  have ht : ∀ l' e'', t.get? l' = some e'' → (t.set l e').get? l' = some e'' :=
    fun _ _ => get?_set_of_free h
  exact entryAt_eq_ok.mpr ⟨hf, ht _ _ he, m, hr.mono ht⟩

theorem copyMode_of_create {F : Location} {old : FileData} {contents : String}
    (h : create t cwd p = .ok (w, t')) (ho : t.entryAt cwd p = .ok (F, .file old)) :
    w.copyMode (w.append t' contents) cwd =
      t.set w.temp (.file { bytes := contents.toUTF8, mode := old.mode }) := by
  have hfree := temp_free h
  rw [append_of_create h]
  obtain ⟨-, dir, -, hw, -⟩ := create_eq_ok.mp h
  have ho' : (t.set w.temp (.file { bytes := contents.toUTF8, mode := tempMode })).fileAt cwd
      w.target = .ok old := by
    rw [hw]
    exact fileAt_eq_ok.mpr ⟨F, entryAt_set_of_free (hw ▸ hfree) ho⟩
  rw [copyMode_of_file (get?_set_self (ne_nil_of_get? hfree)) ho', set_set]

/-- A temporary file takes the place of what leads to the file that the target leads to. -/
theorem replace_of_free {F : Location} {old : FileData} (hfree : t.get? w.temp = none)
    (ho : t.entryAt cwd w.target = .ok (F, .file old))
    (h : w.replace (t.set w.temp (.file d)) cwd = .ok t') :
    ∃ dir name, Slot t cwd w.target dir name ∧ EndsIn t (dir ++ [name]) F ∧
      t' = t.set (dir ++ [name]) (.file d) := by
  obtain ⟨hf, hF, m, hr⟩ := entryAt_eq_ok.mp ho
  obtain ⟨dir, name, e, hslot, -, he, rfl⟩ := replace_eq_ok.mp h
  obtain ⟨dir', hslot', hE⟩ := exists_slot hf hslot.slash hslot.last hF hr
  obtain ⟨rfl, -⟩ := hslot.unique (hslot'.mono fun l e => get?_set_of_free hfree)
  rw [get?_set_self (ne_nil_of_get? hfree)] at he
  cases he
  exact ⟨dir, name, hslot', hE, by rw [erase_set_of_get?_none hfree]⟩

/-- A write that succeeds changes nothing but what stands in the slot of its target. -/
theorem writeAtomic_ok {faults : Faults} {contents : String} {F : Location} {old : FileData}
    (ho : t.entryAt cwd p = .ok (F, .file old))
    (h : writeAtomic faults t cwd p contents = (t', .ok ())) :
    ∃ dir name, Slot t cwd p dir name ∧ EndsIn t (dir ++ [name]) F ∧
      t' = t.set (dir ++ [name]) (.file { bytes := contents.toUTF8, mode := old.mode }) := by
  unfold writeAtomic at h
  split at h
  · cases h
  split at h
  · cases h
  next w t₁ hc =>
  obtain ⟨-, _, -, hw, -⟩ := create_eq_ok.mp hc
  have hp : w.target = p := by rw [hw]
  split at h
  · cases h
  · cases h
  unfold commit at h
  split at h
  · next t₂ hpub =>
    cases h
    rw [← hp] at ho ⊢
    refine replace_of_free (temp_free hc) ho ?_
    rw [← copyMode_of_create (hp ▸ hc) ho]
    exact replace_of_publish hpub
  · cases h

end Amend.StagedWrite
