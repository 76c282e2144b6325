import Amend.Proofs.Toml.Text
import Amend.Run.Config

/-!
# Lines of settings are read as they were written

A document of lines, each a bare key with what is written for its value (`Lines`), is read as the
table of the values under their keys, in the order of the lines (`read_lines`), if no key comes
twice. What is written for a value (`Written`) says where the value ends whatever follows, so that
it can stand before the end of a line and in an array alike.
-/

set_option autoImplicit false

namespace Amend.Toml

variable {key : String} {c : Char} {w rest cs text : List Char} {v : Value} {fuel : Nat}

/-! ## Between values -/

/-- Whether `c` is no blank and starts neither a comment nor a line end. -/
def isSolid (c : Char) : Bool :=
  !Text.isBlank c && c != '#' && c != '\n' && c != '\r'

theorem skipBlanks_cons (h : isSolid c) (cs : List Char) : skipBlanks (c :: cs) = c :: cs := by
  simp only [isSolid, Bool.and_eq_true, Bool.not_eq_true'] at h
  simp [skipBlanks, h.1.1.1]

theorem lineEnd?_cons (h : isSolid c) (cs : List Char) : Text.lineEnd? (c :: cs) = none := by
  simp only [isSolid, Bool.and_eq_true, bne_iff_ne] at h
  exact Text.lineEnd?_cons h.1.2 h.2 cs

theorem skipLines_cons (h : isSolid c) (n : Nat) (cs : List Char) :
    skipLines n (c :: cs) = .ok (c :: cs) := by
  have hhash : c ≠ '#' := by
    rintro rfl
    simp [isSolid] at h
  cases n with
  | zero => rfl
  | succ n =>
    rw [skipLines, skipBlanks_cons h]
    simp [hhash, lineEnd?_cons h]

theorem skipLines_indented (h : isSolid c) (n : Nat) (cs : List Char) :
    skipLines (n + 1) ("    ".toList ++ c :: cs) = .ok (c :: cs) := by
  have hskip : skipBlanks ("    ".toList ++ c :: cs) = skipBlanks (c :: cs) := rfl
  have := skipLines_cons h (n + 1) cs
  rw [skipLines] at this ⊢
  rw [hskip]
  exact this

theorem endLine_lineEnd (cs : List Char) : endLine ('\n' :: cs) = .ok cs := rfl

/-! ## Texts and arrays of texts -/

section
variable {depth : Nat}

theorem readValue_text (s : String) (hdouble : rest.head? ≠ some '"')
    (hsingle : rest.head? ≠ some '\'') :
    readValue depth (fuel + 1) (Text.write s.toList ++ rest) = .ok (.text s, rest) := by
  rw [readValue.eq_def]
  simp [Text.read?_write s.toList hdouble hsingle, Except.map]

theorem head_write (s : List Char) : ∃ c cs, Text.write s = c :: cs ∧ isSolid c ∧ c ≠ ']' := by
  unfold Text.write
  split <;> exact ⟨_, _, rfl, by decide, by decide⟩

theorem readItems_end (depth fuel : Nat) (rest : List Char) :
    readItems depth (fuel + 1) (']' :: rest) = .ok ([], rest) := by
  rw [readItems, skipLines_cons rfl]
  rfl

theorem readItems_skip {cs' : List Char} (h : skipLines cs.length cs = .ok cs')
    (h' : skipLines cs'.length cs' = .ok cs') :
    readItems depth fuel cs = readItems depth fuel cs' := by
  cases fuel with
  | zero => rfl
  | succ fuel => rw [readItems, readItems, h, h']

theorem readItems_comma (s : String) (rest : List Char) :
    readItems depth (fuel + 2) (Text.write s.toList ++ ',' :: rest) =
      (readItems depth (fuel + 1) rest).map fun (vs, rest) => (.text s :: vs, rest) := by
  have hread : readValue depth (fuel + 1) (Text.write s.toList ++ ',' :: rest) =
      .ok (.text s, ',' :: rest) := readValue_text s (by simp) (by simp)
  obtain ⟨c, cs, hc, hsolid, hend⟩ := head_write s.toList
  have hcomma := skipLines_cons (show isSolid ',' by decide)
  rw [hc, List.cons_append] at hread ⊢
  rw [readItems, skipLines_cons hsolid]
  cases hitems : readItems depth (fuel + 1) rest <;>
    simp [bind, Except.bind, pure, Except.pure, Except.map, hread, hend, hcomma, hitems]

theorem readItems_last (s : String) (rest : List Char) :
    readItems depth (fuel + 2) (Text.write s.toList ++ ']' :: rest) = .ok ([.text s], rest) := by
  have hread : readValue depth (fuel + 1) (Text.write s.toList ++ ']' :: rest) =
      .ok (.text s, ']' :: rest) := readValue_text s (by simp) (by simp)
  obtain ⟨c, cs, hc, hsolid, hend⟩ := head_write s.toList
  have hbracket := skipLines_cons (show isSolid ']' by decide)
  rw [hc, List.cons_append] at hread ⊢
  rw [readItems, skipLines_cons hsolid]
  simp [bind, Except.bind, pure, Except.pure, hread, hend, hbracket]

/-- The rows of an array: each text on a line, with a comma after it. -/
def rows (texts : List String) : List Char :=
  texts.flatMap fun s => "    ".toList ++ Text.write s.toList ++ [',', '\n']

theorem rows_cons (s : String) (texts : List String) (rest : List Char) :
    rows (s :: texts) ++ rest =
      "    ".toList ++ (Text.write s.toList ++ ',' :: '\n' :: (rows texts ++ rest)) := by
  simp [rows]

theorem readItems_rows (texts : List String) (rest : List Char) (hfuel : texts.length < fuel) :
    readItems depth fuel ('\n' :: (rows texts ++ ']' :: rest)) =
      .ok (texts.map .text, rest) := by
  induction texts generalizing fuel with
  | nil =>
    obtain ⟨fuel, rfl⟩ : ∃ n, fuel = n + 1 := ⟨fuel - 1, by omega⟩
    exact (readItems_skip rfl (skipLines_cons rfl ..)).trans (readItems_end depth fuel rest)
  | cons s texts ih =>
    simp only [List.length_cons] at hfuel
    obtain ⟨fuel, rfl⟩ : ∃ n, fuel = n + 2 := ⟨fuel - 2, by omega⟩
    have hitem : readItems depth (fuel + 2)
        (Text.write s.toList ++ ',' :: '\n' :: (rows texts ++ ']' :: rest)) = _ :=
      readItems_comma s _
    rw [ih (by omega)] at hitem
    rw [rows_cons]
    refine (readItems_skip ?_ ?_).trans hitem
    all_goals
      obtain ⟨c, cs, hc, hsolid, -⟩ := head_write s.toList
      rw [hc, List.cons_append]
    · exact skipLines_indented hsolid _ _
    · exact skipLines_cons hsolid _ _

end

/-! ## Lines -/

/-- `w` is written for `v`: whatever follows on the next line, the value is read from it. -/
structure Written (w : List Char) (v : Value) : Prop where
  head : ∃ c cs, w = c :: cs ∧ isSolid c
  read {fuel : Nat} (rest : List Char) : w.length < fuel →
    readValue 0 fuel (w ++ '\n' :: rest) = .ok (v, '\n' :: rest)

theorem written_text (s : String) : Written (Text.write s.toList) (.text s) where
  head :=
    have ⟨c, cs, hc, hsolid, _⟩ := head_write s.toList
    ⟨c, cs, hc, hsolid⟩
  read {fuel} rest hfuel := by
    obtain ⟨fuel, rfl⟩ : ∃ n, fuel = n + 1 := ⟨fuel - 1, by omega⟩
    exact readValue_text s (by simp) (by simp)

theorem written_bool (b : Bool) : Written (Config.writeBool b) (.bool b) where
  head := by cases b <;> exact ⟨_, _, rfl, by decide⟩
  read {fuel} rest hfuel := by
    obtain ⟨fuel, rfl⟩ : ∃ n, fuel = n + 1 := ⟨fuel - 1, by omega⟩
    cases b <;> rfl

theorem readValue_array {items : List Value} (h : readItems 1 fuel cs = .ok (items, rest)) :
    readValue 0 (fuel + 1) ('[' :: cs) = .ok (.array items, rest) := by
  have : readValue 0 (fuel + 1) ('[' :: cs) =
      (readItems 1 fuel cs).map fun (items, rest) => (.array items, rest) := rfl
  rw [this, h]
  rfl

theorem length_le_rows (texts : List String) : texts.length ≤ (rows texts).length := by
  induction texts with
  | nil => exact Nat.zero_le _
  | cons s texts ih =>
    simp only [rows, List.flatMap_cons, List.length_append, List.length_cons] at ih ⊢
    omega

/-- A list of texts is written for an array. -/
theorem written_texts (texts : List String) :
    Written (Config.writeTexts texts) (.array (texts.map .text)) where
  head := by
    unfold Config.writeTexts
    dsimp only
    split <;> exact ⟨'[', _, rfl, by decide⟩
  read {fuel} rest hfuel := by
    match texts with
    | [] =>
      obtain ⟨fuel, rfl⟩ : ∃ n, fuel = n + 2 :=
        ⟨fuel - 2, by simp [Config.writeTexts] at hfuel; omega⟩
      exact readValue_array (readItems_end 1 fuel _)
    | [s] =>
      obtain ⟨fuel, rfl⟩ : ∃ n, fuel = n + 3 :=
        ⟨fuel - 3, by simp [Config.writeTexts] at hfuel; omega⟩
      have hshape : Config.writeTexts [s] ++ '\n' :: rest =
          '[' :: (Text.write s.toList ++ ']' :: '\n' :: rest) := by
        simp [Config.writeTexts]
      rw [hshape]
      exact readValue_array (readItems_last s _)
    | s :: t :: texts =>
      have hshape (cs : List Char) : Config.writeTexts (s :: t :: texts) ++ cs =
          '[' :: '\n' :: (rows (s :: t :: texts) ++ ']' :: cs) := by
        simp [Config.writeTexts, rows, List.flatMap_map]
      have hlength := length_le_rows (s :: t :: texts)
      have : (Config.writeTexts (s :: t :: texts)).length =
          (rows (s :: t :: texts)).length + 3 := by
        simpa using congrArg List.length (hshape [])
      obtain ⟨fuel, rfl⟩ : ∃ n, fuel = n + 1 := ⟨fuel - 1, by omega⟩
      rw [hshape]
      exact readValue_array (readItems_rows _ _ (by omega))

/-! ## Statements -/

/-- A key that is written without quotes. -/
def IsBare (key : String) : Prop :=
  key.toList ≠ [] ∧ ∀ c ∈ key.toList, isKeyChar c

instance (key : String) : Decidable (IsBare key) :=
  decidable_of_iff ((!key.toList.isEmpty && key.toList.all isKeyChar) = true) (by simp [IsBare])

theorem ne_of_isKeyChar {d : Char} (h : isKeyChar c) (hd : isKeyChar d = false) : c ≠ d := by
  rintro rfl
  simp [hd] at h

theorem solid_of_isKeyChar (h : isKeyChar c) : isSolid c := by
  have hne (d : Char) (hd : isKeyChar d = false := by decide) : c ≠ d := ne_of_isKeyChar h hd
  simp [isSolid, Text.isBlank, hne ' ', hne '\t', hne '#', hne '\n', hne '\r']

theorem IsBare.exists_cons (h : IsBare key) : ∃ c cs, key.toList = c :: cs ∧ isKeyChar c := by
  obtain ⟨c, cs, hc⟩ := List.exists_cons_of_ne_nil h.1
  exact ⟨c, cs, hc, h.2 c (hc ▸ List.mem_cons_self)⟩

theorem readSimpleKey_bare (h : IsBare key) (rest : List Char) :
    readSimpleKey (key.toList ++ ' ' :: rest) = .ok (key, ' ' :: rest) := by
  have hline : Text.readLine? (key.toList ++ ' ' :: rest) = none := by
    obtain ⟨c, cs, hc, hkey⟩ := h.exists_cons
    have hdouble : c ≠ '"' := ne_of_isKeyChar hkey (by decide)
    have hsingle : c ≠ '\'' := ne_of_isKeyChar hkey (by decide)
    rw [hc, List.cons_append]
    simp [Text.readLine?, hdouble, hsingle]
  have htake : (key.toList ++ ' ' :: rest).takeWhile isKeyChar = key.toList := by
    rw [List.takeWhile_append_of_pos h.2, List.takeWhile_cons_of_neg (by decide), List.append_nil]
  have hdrop : (key.toList ++ ' ' :: rest).dropWhile isKeyChar = ' ' :: rest := by
    rw [List.dropWhile_append_of_pos h.2, List.dropWhile_cons_of_neg (by decide)]
  simp [readSimpleKey, hline, htake, hdrop, h.1]

/-- The key of a line, up to the equals sign after it. -/
theorem readKey_bare (h : IsBare key) (n : Nat) (rest : List Char) :
    readKey (n + 1) (key.toList ++ ' ' :: '=' :: rest) = .ok ([key], '=' :: rest) := by
  have hskip : skipBlanks (key.toList ++ ' ' :: '=' :: rest) =
      key.toList ++ ' ' :: '=' :: rest := by
    obtain ⟨c, cs, hc, hkey⟩ := h.exists_cons
    rw [hc, List.cons_append, skipBlanks_cons (solid_of_isKeyChar hkey)]
  rw [readKey, hskip, readSimpleKey_bare h]
  rfl

theorem head_line (h : IsBare key) (w rest : List Char) :
    ∃ c cs, Config.line key w ++ rest = c :: cs ∧ isKeyChar c := by
  obtain ⟨c, cs, hc, hkey⟩ := h.exists_cons
  exact ⟨c, cs ++ (" = ".toList ++ (w ++ '\n' :: rest)), by simp [Config.line, hc], hkey⟩

/-- The statement of a line. -/
theorem readStatement_line (hkey : IsBare key) (h : Written w v) (rest : List Char) :
    readStatement (Config.line key w ++ rest) = .ok (.assign [key] v, '\n' :: rest) := by
  have hshape : Config.line key w ++ rest =
      key.toList ++ ' ' :: '=' :: ' ' :: (w ++ '\n' :: rest) := by
    simp [Config.line]
  have hskip : skipBlanks (' ' :: (w ++ '\n' :: rest)) = w ++ '\n' :: rest := by
    obtain ⟨c, cs, rfl, hsolid⟩ := h.head
    exact skipBlanks_cons hsolid _
  have hvalue : readValue 0 (w.length + (rest.length + 1) + 1) (w ++ '\n' :: rest) =
      .ok (v, '\n' :: rest) := h.read rest (by omega)
  have hread : readKey (depthLimit - 1) (key.toList ++ ' ' :: '=' :: ' ' :: (w ++ '\n' :: rest)) =
      .ok ([key], '=' :: ' ' :: (w ++ '\n' :: rest)) := readKey_bare hkey (depthLimit - 2) _
  obtain ⟨c, cs, hc, hfirst⟩ := hkey.exists_cons
  have hbracket : c ≠ '[' := ne_of_isKeyChar hfirst (by decide)
  rw [hshape, readStatement.eq_def]
  rw [hc, List.cons_append] at hread ⊢
  simp [bind, Except.bind, pure, Except.pure, hbracket, hread, hskip, hvalue]

/-- `text` is made of lines, each a bare key with what is written for its value. -/
inductive Lines : List Char → List (String × Value) → Prop
  | nil : Lines [] []
  | cons {key : String} {w text : List Char} {v : Value} {members : List (String × Value)} :
      IsBare key → Written w v → Lines text members →
        Lines (Config.line key w ++ text) ((key, v) :: members)

variable {members : List (String × Value)}

theorem readStatements_lines (h : Lines text members) (hfuel : text.length < fuel) :
    readStatements fuel text = .ok (members.map fun m => .assign [m.1] m.2) := by
  induction h generalizing fuel with
  | nil =>
    cases fuel with
    | zero => rfl
    | succ fuel => rfl
  | @cons key w text v members hkey hw htext ih =>
    obtain ⟨fuel, rfl⟩ : ∃ n, fuel = n + 1 := ⟨fuel - 1, by omega⟩
    have hstatement := readStatement_line hkey hw text
    obtain ⟨c, cs, hc, hfirst⟩ := head_line hkey w text
    have hrest := @ih fuel (by simp [Config.line] at hfuel; omega)
    rw [hc] at hstatement ⊢
    rw [readStatements, skipLines_cons (solid_of_isKeyChar hfirst)]
    simp [bind, Except.bind, pure, Except.pure, hstatement, endLine_lineEnd, hrest]

/-! ## Tables -/

/-- A new key comes after those that the current table has. -/
theorem add_assign {current : Members} (h : current.lookup key = none) (v : Value) :
    Builder.add ⟨[], [], false, current⟩ (.assign [key] v) =
      .ok ⟨[], [], false, current ++ [(key, .value v)]⟩ := by
  simp [Builder.add, assign, descend, h, bind, Except.bind, pure, Except.pure]

theorem foldlM_assign {current : Members} (hnodup : (members.map Prod.fst).Nodup)
    (hnew : ∀ m ∈ members, current.lookup m.1 = none) :
    (members.map fun m => Statement.assign [m.1] m.2).foldlM Builder.add
        ⟨[], [], false, current⟩ =
      .ok ⟨[], [], false, current ++ members.map fun m => (m.1, .value m.2)⟩ := by
  induction members generalizing current with
  | nil => simp [pure, Except.pure]
  | cons m members ih =>
    simp only [List.map_cons, List.nodup_cons, List.mem_cons, forall_eq_or_imp] at hnodup hnew
    rw [List.map_cons, List.foldlM_cons, add_assign hnew.1]
    refine (ih hnodup.2 fun n hn => ?_).trans (by simp)
    have hne : n.1 ≠ m.1 := fun h => hnodup.1 (h ▸ List.mem_map_of_mem hn)
    simp [List.lookup_append, hnew.2 n hn, hne]

/-- Lines are read as the table of their values, in their order, if no key comes twice. -/
theorem read_lines (h : Lines text members) (hnodup : (members.map Prod.fst).Nodup) :
    read (.ofList text) = .ok (members.map fun m => (m.1, .value m.2)) := by
  have hmark : text.head? ≠ some '\ufeff' := by
    cases h with
    | nil => simp
    | @cons key w text v members hkey =>
      obtain ⟨c, cs, hc, hfirst⟩ := head_line hkey w text
      have : c ≠ '\ufeff' := ne_of_isKeyChar hfirst (by decide)
      simpa [hc] using this
  have hfold := foldlM_assign hnodup fun m _ => (rfl : List.lookup m.1 ([] : Members) = none)
  simp [read, hmark, readStatements_lines h (Nat.lt_succ_self _), bind, Except.bind,
    Builder.empty, hfold, Builder.close]

end Amend.Toml
