import Amend.Proofs.FileTree.Walk

/-!
# What was written is read

Writing the bytes of a file, be it one of several hard links, or creating a file leaves every walk
to it as it was (`Reaches.of_agrees`), so that the path that was written to leads to what was
written (`entryAt_write`).
-/

set_option autoImplicit false

namespace Amend.FileTree

variable {t t' : FileTree} {a b : Stage} {cwd loc l dir : Location} {name : String} {p : Path}
  {d : FileData} {e : Entry} {bytes : ByteArray} {text : String}

/-! ## Bytes of files -/

/-- The same stands everywhere in two trees, files apart, which may differ in what they hold. -/
def Agrees (t t' : FileTree) : Prop :=
  ∀ l e, t.get? l = some e → t'.get? l = some e ∨
    ∃ d d', e = .file d ∧ t'.get? l = some (.file d')

/-- The bytes of a file on a walk do not matter. -/
theorem Reaches.of_agrees (h : Agrees t t') (hr : Reaches t a b) : Reaches t' a b := by
  have hdir {l : Location} {isSealed : Bool} (hl : t.get? l = some (.dir isSealed)) :
      t'.get? l = some (.dir isSealed) := by
    obtain hl' | ⟨d, d', hd, -⟩ := h l _ hl
    · exact hl'
    · cases hd
  induction hr with
  | refl a => exact .refl a
  | step hm _ ih =>
    refine .step ?_ ih
    cases hm with
    | stay hd => exact .stay (hdir hd)
    | up hd => exact .up (hdir hd)
    | into hd hn he hl =>
      obtain he' | ⟨d, d', -, he'⟩ := h _ _ he
      · exact .into (hdir hd) hn he' hl
      · exact .into (hdir hd) hn he' (by simp)
    | link hd hn he =>
      obtain he' | ⟨d, d', hlink, -⟩ := h _ _ he
      · exact .link (hdir hd) hn he'
      · cases hlink

theorem lookup_map_snd (f : Entry → Entry) (entries : List (Location × Entry)) :
    (entries.map fun p => (p.1, f p.2)).lookup l = (entries.lookup l).map f := by
  induction entries with
  | nil => rfl
  | cons p ps ih =>
    rw [List.map_cons, List.lookup_cons, List.lookup_cons, ih]
    split <;> rfl

/-- The entry with new bytes if it is a file of a group. -/
def withBytes (group : Nat) (bytes : ByteArray) : Entry → Entry
  | .file d => .file (if d.group = some group then { d with bytes } else d)
  | e => e

/-- In a group of hard links every file has the bytes that one of them is given. -/
theorem get?_setBytes_group {g : Nat} (hloc : t.get? loc = some (.file d)) (hg : d.group = some g)
    (l : Location) : (t.setBytes loc bytes).get? l = (t.get? l).map (withBytes g bytes) := by
  have hmap : t.setBytes loc bytes = ⟨t.entries.map fun p => (p.1, withBytes g bytes p.2)⟩ := by
    unfold setBytes
    simp only [hloc, hg, mk.injEq]
    refine List.map_congr_left fun ⟨k, e⟩ _ => ?_
    cases e with
    | file d => by_cases h : d.group = some g <;> simp [withBytes, h]
    | dir | link => rfl
  cases l with
  | nil => rfl
  | cons name names =>
    rw [get?_of_ne_nil (by simp), get?_of_ne_nil (by simp), hmap]
    exact lookup_map_snd _ _

theorem get?_setBytes_self (hloc : t.get? loc = some (.file d)) :
    (t.setBytes loc bytes).get? loc = some (.file { d with bytes }) := by
  cases hg : d.group with
  | none =>
    have hne : loc ≠ [] := by
      rintro rfl
      cases hloc
    simp only [setBytes, hloc, hg]
    exact get?_set_self hne
  | some g => rw [get?_setBytes_group hloc hg, hloc]; simp [withBytes, hg]

theorem agrees_setBytes (t : FileTree) (hloc : t.get? loc = some (.file d)) :
    Agrees t (t.setBytes loc bytes) := by
  intro l e he
  cases hg : d.group with
  | none =>
    by_cases hl : l = loc
    · subst hl
      obtain rfl := Option.some.inj (he.symm.trans hloc)
      exact .inr ⟨d, _, rfl, get?_setBytes_self hloc⟩
    · left
      simp only [setBytes, hloc, hg]
      rw [get?_set_ne hl, he]
  | some g =>
    rw [get?_setBytes_group hloc hg, he]
    cases e with
    | file d' => exact .inr ⟨d', _, rfl, rfl⟩
    | dir | link => exact .inl rfl

/-! ## Writing to a path -/

/-- A walk to a free name stands before it in a directory. -/
theorem reaches_free (h : t.ending a = .ok (.free dir name)) :
    ∃ m isSealed, Reaches t a ⟨m, dir, [.into name]⟩ ∧ t.get? dir = some (.dir isSealed) ∧
      name.utf8ByteSize ≤ Path.nameLimit ∧ t.get? (dir ++ [name]) = none := by
  obtain ⟨b, hab, hb⟩ := exists_halts t a
  rw [h] at hb
  generalize hr : (.ok (.free dir name) : Except FileError Destination) = r at hb
  cases hb with
  | @missing n loc name' rest s hd hn hnone =>
    split at hr
    next hrest =>
      obtain rfl := List.isEmpty_iff.mp hrest
      cases hr
      exact ⟨n, s, hab, hd, hn, hnone⟩
    next => cases hr
  | found | lost | noDirectory | longName | tooManyLinks => cases hr

theorem fault?_of_follow {found : Destination} (h : t.follow cwd p = .ok found) :
    p.fault? = none := by
  cases hf : p.fault? with
  | none => rfl
  | some f => simp [follow, hf] at h

theorem fileAt_setBytes (h : t.follow cwd p = .ok (.entry loc (.file d))) :
    (t.setBytes loc bytes).fileAt cwd p = .ok { d with bytes } := by
  have hled : t.entryAt cwd p = .ok (loc, .file d) := by rw [entryAt, h]
  obtain ⟨hf, hloc, m, hr⟩ := entryAt_eq_ok.mp hled
  exact fileAt_eq_ok.mpr ⟨loc, entryAt_eq_ok.mpr
    ⟨hf, get?_setBytes_self hloc, m, hr.of_agrees (agrees_setBytes t hloc)⟩⟩

theorem fileAt_set_free (h : t.follow cwd p = .ok (.free dir name)) (d : FileData) :
    (t.set (dir ++ [name]) (.file d)).fileAt cwd p = .ok d := by
  have hf := fault?_of_follow h
  rw [follow_eq hf] at h
  obtain ⟨m, s, hr, hd, hn, hnone⟩ := reaches_free h
  have hmono {l : Location} {e : Entry} (he : t.get? l = some e) :
      (t.set (dir ++ [name]) (.file d)).get? l = some e := get?_set_of_free hnone he
  have hset : (t.set (dir ++ [name]) (.file d)).get? (dir ++ [name]) = some (.file d) :=
    get?_set_self (by simp)
  refine fileAt_eq_ok.mpr ⟨_, entryAt_eq_ok.mpr ⟨hf, hset, m, ?_⟩⟩
  exact (hr.mono fun _ _ => hmono).trans (.single (.into (hmono hd) hn hset (by simp)))

theorem fileAt_write (h : t.write cwd p bytes = .ok t') :
    ∃ mode group, t'.fileAt cwd p = .ok ⟨bytes, mode, group⟩ := by
  unfold write at h
  split at h
  case h_1 loc d hfollow =>
    cases h
    exact ⟨d.mode, d.group, fileAt_setBytes hfollow⟩
  case h_3 dir name hfollow =>
    split at h
    · cases h
    · cases h
      exact ⟨_, _, fileAt_set_free hfollow _⟩
  all_goals cases h

/-- Whether a path can be written to does not depend on the bytes. -/
theorem write_error {f : FileError} (h : t.write cwd p bytes = .error f) (bytes' : ByteArray) :
    t.write cwd p bytes' = .error f := by
  unfold write at h ⊢
  split at h
  case h_3 =>
    split at h
    · exact h
    · cases h
  case h_1 => cases h
  all_goals exact h

/-- The text that was written to a path is what is read there. -/
theorem readText_write (h : t.write cwd p text.toUTF8 = .ok t') :
    t'.readText cwd p = .ok text := by
  obtain ⟨mode, group, hfile⟩ := fileAt_write h
  exact readText_eq_ok.mpr ⟨_, hfile, FileData.text?_toUTF8 ..⟩

theorem exists_write (h : t.entryAt cwd p = .ok (loc, .file d)) (bytes : ByteArray) :
    ∃ t', t.write cwd p bytes = .ok t' := by
  obtain ⟨hf, hloc, hr⟩ := entryAt_eq_ok.mp h
  have hfollow : t.follow cwd p = .ok (.entry loc (.file d)) := by
    rw [follow_eq hf]
    exact ending_eq_entry.mpr ⟨hloc, hr⟩
  exact ⟨_, by rw [write, hfollow]⟩

end Amend.FileTree
