import Amend.Toml.Text

/-!
# TOML strings are read as they were written

Whichever way of writing `quoting` chooses for a text, the reader takes the text back and leaves
what comes after it (`read?_write`), if that does not start with a quote. Inside three double quotes
the reader sees no more than two quotes in front of the next character, so that only the closing
ones close the text (`leading_escape`).
-/

set_option autoImplicit false

namespace Amend.Toml.Text

variable {text rest w : List Char} {c q : Char} {fuel : Nat}

/-! ## Escaped characters -/

theorem hexValue?_hexDigit {n : Nat} (h : n < 16) : hexValue? (hexDigit n) = some n := by
  have : ∀ m : Fin 16, hexValue? (hexDigit m) = some m.val := by decide
  exact this ⟨n, h⟩

/-- A control character is read back from its code. -/
theorem escaped?_code (h : isControl c) (rest : List Char) :
    escaped? ('u' :: '0' :: '0' :: hexDigit (c.toNat / 16) :: hexDigit (c.toNat % 16) :: rest) =
      some (c, 5) := by
  have hc : c.toNat < 128 := by
    simp only [isControl, Bool.or_eq_true, decide_eq_true_eq, beq_iff_eq] at h
    omega
  have hzero : hexValue? '0' = some 0 := by decide
  have hcode : hexNumber? ['0', '0', hexDigit (c.toNat / 16), hexDigit (c.toNat % 16)] =
      some c.toNat := by
    simp only [hexNumber?, List.foldlM_cons, List.foldlM_nil, hzero, hexValue?_hexDigit
      (show c.toNat / 16 < 16 by omega), hexValue?_hexDigit (Nat.mod_lt c.toNat (by decide :
      0 < 16)), Option.map_some, Option.bind_eq_bind, Option.bind_some, Option.pure_def]
    congr 1
    omega
  have hvalid : c.toNat.isValidChar := c.valid
  simp [escaped?, escaped?.coded, hcode, hvalid]

/-- A character other than a quote stands for itself, or for it stands an escape sequence, which the
reader of escape sequences takes back and the reader of line ends does not take. -/
theorem escapeChar_cases (multi : Bool) (hquote : c ≠ '"') :
    escapeChar multi c = [c] ∧ c ≠ '\\' ∧ c ≠ '\r' ∧ (isPlain c ∨ (multi ∧ c = '\n')) ∨
    ∃ sequence, escapeChar multi c = '\\' :: sequence ∧
      ∀ rest, escaped? (sequence ++ rest) = some (c, sequence.length) ∧
        escapedLineEnd? (sequence ++ rest) = none := by
  unfold escapeChar
  split
  case h_3 =>
    cases multi
    · exact .inr ⟨['n'], rfl, fun rest => ⟨rfl, rfl⟩⟩
    · exact .inl (by simp)
  case h_7 hb ht hn hf hr hs =>
    by_cases h : isControl c
    · refine .inr ⟨_, if_pos h, fun rest => ⟨escaped?_code h rest, rfl⟩⟩
    · exact .inl ⟨if_neg h, by simp_all [isPlain]⟩
  all_goals exact .inr ⟨_, rfl, fun rest => ⟨rfl, rfl⟩⟩

/-! ## Double quotes -/

theorem readBasic_cons (hquote : c ≠ '"') (hslash : c ≠ '\\') (h : isPlain c)
    (rest : List Char) : readBasic (c :: rest) = (readBasic rest).cons c := by
  rw [readBasic]
  · exact if_pos h
  · exact hquote
  · exact hslash

theorem readBasic_slash {sequence : List Char}
    (h : escaped? (sequence ++ rest) = some (c, sequence.length)) :
    readBasic ('\\' :: (sequence ++ rest)) = (readBasic rest).cons c := by
  rw [readBasic, h]
  simp

theorem escape_cons (multi : Bool) (quotes : Nat) (hquote : c ≠ '"') (text : List Char) :
    escape multi quotes (c :: text) = escapeChar multi c ++ escape multi 0 text := by
  rw [escape]
  exact hquote

theorem readBasic_escape (text rest : List Char) (quotes : Nat) :
    readBasic (escape false quotes text ++ '"' :: rest) = .ok (text, rest) := by
  induction text generalizing quotes with
  | nil => rw [escape, List.nil_append, readBasic]
  | cons c text ih =>
    by_cases hquote : c = '"'
    · subst hquote
      have : escaped? (['"'] ++ (escape false 0 text ++ '"' :: rest)) = some ('"', 1) := rfl
      rw [escape, if_neg (by simp)]
      exact (readBasic_slash this).trans (by rw [ih]; rfl)
    · rw [escape_cons _ _ hquote]
      obtain ⟨hself, hslash, -, hplain⟩ | ⟨sequence, hself, hread⟩ := escapeChar_cases false hquote
      · rw [hself, List.append_assoc, List.singleton_append,
          readBasic_cons hquote hslash (by simpa using hplain), ih]
        rfl
      · rw [hself, List.append_assoc, List.cons_append, readBasic_slash (hread _).1, ih]
        rfl

/-! ## Single quotes -/

theorem readLiteral_append (hplain : ∀ c ∈ text, isPlain c) (hquote : '\'' ∉ text)
    (rest : List Char) : readLiteral (text ++ '\'' :: rest) = .ok (text, rest) := by
  induction text with
  | nil => rw [List.nil_append, readLiteral]
  | cons c text ih =>
    simp only [List.mem_cons, forall_eq_or_imp, not_or] at hplain hquote
    rw [List.cons_append, readLiteral, if_pos hplain.1, ih hplain.2 hquote.2]
    · rfl
    · exact Ne.symm hquote.1

/-! ## Triple quotes -/

/-- The number of quotes at the front. -/
def leading (q : Char) (w : List Char) : Nat :=
  (w.takeWhile (· == q)).length

/-- Where at most two quotes stand at the front, three quotes after them close the text only if
nothing but quotes is in front of the three. -/
theorem closing?_append (h : leading q w ≤ 2) (hrest : rest.head? ≠ some q) :
    closing? q (w ++ q :: q :: q :: rest) = if w.all (· == q) then some (w, rest) else none := by
  have hnext : (rest.take 2).takeWhile (· == q) = [] := by
    cases rest with
    | nil => rfl
    | cons a rest =>
      have : (a == q) = false := by simpa using hrest
      simp [this]
  have hnext' : (rest.take 1).takeWhile (· == q) = [] := by
    cases rest with
    | nil => rfl
    | cons a rest =>
      have : (a == q) = false := by simpa using hrest
      simp [this]
  match w with
  | [] => simp [closing?, hnext]
  | [a] => by_cases ha : a = q <;> simp [closing?, ha, hnext']
  | [a, b] => by_cases ha : a = q <;> by_cases hb : b = q <;> simp [closing?, ha, hb]
  | a :: b :: c :: w =>
    have : ¬(a = q ∧ b = q ∧ c = q) := by
      rintro ⟨rfl, rfl, rfl⟩
      simp [leading] at h
    rw [if_neg (by simpa using fun ha hb hc => absurd ⟨ha, hb, hc⟩ this)]
    simpa [closing?] using this

/-- Escaped text starts with a quote only where the text does. -/
theorem head_escapeChar (multi : Bool) (hquote : c ≠ '"') :
    ∃ a s, escapeChar multi c = a :: s ∧ a ≠ '"' := by
  obtain ⟨hself, -⟩ | ⟨sequence, hself, -⟩ := escapeChar_cases multi hquote
  · exact ⟨c, [], hself, hquote⟩
  · exact ⟨'\\', sequence, hself, by decide⟩

/-- In three double quotes no more than two quotes in a row stand as they are. -/
theorem leading_escape {quotes : Nat} (h : quotes ≤ 2) (text : List Char) :
    leading '"' (escape true quotes text) ≤ 2 - quotes := by
  induction text generalizing quotes with
  | nil => simp [escape, leading]
  | cons c text ih =>
    by_cases hquote : c = '"'
    · subst hquote
      rw [escape]
      split
      next hfew =>
        have hfew : quotes < 2 := by simpa using hfew
        have := ih (show quotes + 1 ≤ 2 by omega)
        simp only [leading, List.takeWhile_cons, beq_self_eq_true, if_true,
          List.length_cons] at this ⊢
        omega
      next => simp [leading]
    · obtain ⟨a, s, hself, ha⟩ := head_escapeChar true hquote
      rw [escape_cons _ _ hquote, hself]
      simp [leading, ha]

theorem escape_eq_of_all {quotes : Nat} (h : (escape true quotes text).all (· == '"')) :
    escape true quotes text = text := by
  induction text generalizing quotes with
  | nil => rfl
  | cons c text ih =>
    by_cases hquote : c = '"'
    · subst hquote
      rw [escape] at h ⊢
      split at h
      next hfew =>
        rw [if_pos hfew, ih (by simpa using h)]
      next => simp at h
    · obtain ⟨a, s, hself, ha⟩ := head_escapeChar true hquote
      rw [escape_cons _ _ hquote, hself] at h
      simp [ha] at h

theorem lineEnd?_cons (hline : c ≠ '\n') (hreturn : c ≠ '\r') (rest : List Char) :
    lineEnd? (c :: rest) = none := by
  unfold lineEnd?
  split <;> simp_all

theorem readMultiBasic_closing {done : List Char × List Char} {cs : List Char}
    (hclosing : closing? '"' cs = some done) : readMultiBasic (fuel + 1) cs = .ok done := by
  rw [readMultiBasic.eq_def]
  simp only [hclosing]

theorem readMultiBasic_cons (hclosing : closing? '"' (c :: rest) = none) (hslash : c ≠ '\\')
    (hreturn : c ≠ '\r') (h : isPlain c ∨ c = '\n') :
    readMultiBasic (fuel + 1) (c :: rest) = (readMultiBasic fuel rest).cons c := by
  rw [readMultiBasic, hclosing]
  by_cases hline : c = '\n'
  · subst hline
    rfl
  · simp [lineEnd?_cons hline hreturn, h.resolve_right hline]
  · exact hslash

theorem readMultiBasic_slash {sequence : List Char}
    (hclosing : closing? '"' ('\\' :: (sequence ++ rest)) = none)
    (h : escaped? (sequence ++ rest) = some (c, sequence.length))
    (hend : escapedLineEnd? (sequence ++ rest) = none) :
    readMultiBasic (fuel + 1) ('\\' :: (sequence ++ rest)) =
      (readMultiBasic fuel rest).cons c := by
  rw [readMultiBasic, hclosing]
  simp [h, hend]

theorem readMultiBasic_escape (hrest : rest.head? ≠ some '"') {quotes : Nat} (hquotes : quotes ≤ 2)
    (hfuel : text.length < fuel) :
    readMultiBasic fuel (escape true quotes text ++ '"' :: '"' :: '"' :: rest) =
      .ok (text, rest) := by
  induction text generalizing quotes fuel with
  | nil =>
    obtain ⟨fuel, rfl⟩ : ∃ n, fuel = n + 1 := ⟨fuel - 1, by omega⟩
    exact readMultiBasic_closing (closing?_append (w := []) (by simp [leading]) hrest)
  | cons c text ih =>
    obtain ⟨fuel, rfl⟩ : ∃ n, fuel = n + 1 := ⟨fuel - 1, by omega⟩
    have hleading := Nat.le_trans (leading_escape hquotes (c :: text)) (Nat.sub_le ..)
    have hclosing := closing?_append hleading hrest
    replace hfuel : text.length < fuel := by simpa using hfuel
    by_cases hall : (escape true quotes (c :: text)).all (· == '"')
    · rw [readMultiBasic_closing (hclosing.trans (if_pos hall)), escape_eq_of_all hall]
    rw [if_neg hall] at hclosing
    by_cases hquote : c = '"'
    · subst hquote
      by_cases hfew : quotes < 2
      · rw [escape, if_pos (by simpa using hfew), List.cons_append] at hclosing ⊢
        rw [readMultiBasic_cons hclosing (by decide) (by decide) (.inl rfl), ih hfew hfuel]
        rfl
      · have hread (cs : List Char) : escaped? (['"'] ++ cs) = some ('"', 1) := rfl
        rw [escape, if_neg (by simpa using hfew)] at hclosing ⊢
        refine (readMultiBasic_slash ?_ (hread _) rfl).trans ?_
        · exact hclosing
        · exact congrArg (Reading.cons '"') (ih (Nat.zero_le 2) hfuel)
    · rw [escape_cons _ _ hquote] at hclosing ⊢
      obtain ⟨hself, hslash, hreturn, hplain⟩ | ⟨sequence, hself, hread⟩ :=
        escapeChar_cases true hquote
      · rw [hself, List.append_assoc, List.singleton_append] at hclosing ⊢
        rw [readMultiBasic_cons hclosing hslash hreturn (by simpa using hplain),
          ih (Nat.zero_le 2) hfuel]
        rfl
      · rw [hself, List.append_assoc, List.cons_append] at hclosing ⊢
        rw [readMultiBasic_slash hclosing (hread _).1 (hread _).2, ih (Nat.zero_le 2) hfuel]
        rfl

theorem leading_le_of_hasTriple (h : hasTriple q text = false) : leading q text ≤ 2 := by
  match text with
  | [] => simp [leading]
  | [a] => by_cases ha : a = q <;> simp [leading, ha]
  | [a, b] => by_cases ha : a = q <;> by_cases hb : b = q <;> simp [leading, ha, hb]
  | a :: b :: c :: text =>
    simp only [hasTriple, Bool.or_eq_false_iff] at h
    by_cases ha : a = q <;> by_cases hb : b = q <;> by_cases hc : c = q <;>
      simp_all [leading]

theorem hasTriple_tail (h : hasTriple q (c :: text) = false) : hasTriple q text = false := by
  match text with
  | [] | [_] => rfl
  | _ :: _ :: _ => exact (Bool.or_eq_false_iff.mp h).2

theorem readMultiLiteral_closing {done : List Char × List Char} {cs : List Char}
    (hclosing : closing? '\'' cs = some done) : readMultiLiteral (fuel + 1) cs = .ok done := by
  rw [readMultiLiteral.eq_def]
  simp only [hclosing]

theorem readMultiLiteral_cons (hclosing : closing? '\'' (c :: rest) = none)
    (h : isPlain c ∨ c = '\n') :
    readMultiLiteral (fuel + 1) (c :: rest) = (readMultiLiteral fuel rest).cons c := by
  rw [readMultiLiteral, hclosing]
  by_cases hline : c = '\n'
  · subst hline
    rfl
  · have hplain := h.resolve_right hline
    have hreturn : c ≠ '\r' := by
      rintro rfl
      simp [isPlain, isControl] at hplain
    simp [lineEnd?_cons hline hreturn, hplain]

theorem readMultiLiteral_append (hrest : rest.head? ≠ some '\'')
    (hplain : ∀ c ∈ text, isPlain c ∨ c = '\n') (htriple : hasTriple '\'' text = false)
    (hfuel : text.length < fuel) :
    readMultiLiteral fuel (text ++ '\'' :: '\'' :: '\'' :: rest) = .ok (text, rest) := by
  induction text generalizing fuel with
  | nil =>
    obtain ⟨fuel, rfl⟩ : ∃ n, fuel = n + 1 := ⟨fuel - 1, by omega⟩
    exact readMultiLiteral_closing (closing?_append (w := []) (by simp [leading]) hrest)
  | cons c text ih =>
    obtain ⟨fuel, rfl⟩ : ∃ n, fuel = n + 1 := ⟨fuel - 1, by omega⟩
    have hclosing := closing?_append (leading_le_of_hasTriple htriple) hrest
    by_cases hall : (c :: text).all (· == '\'')
    · exact readMultiLiteral_closing (hclosing.trans (if_pos hall))
    rw [if_neg hall, List.cons_append] at hclosing
    simp only [List.mem_cons, forall_eq_or_imp] at hplain
    rw [List.cons_append, readMultiLiteral_cons hclosing hplain.1,
      ih hplain.2 (hasTriple_tail htriple) (by simpa using hfuel)]
    rfl

/-! ## The ways of writing -/

theorem plain_or_lineEnd (h : ¬((isControl c ∧ c != '\t') ∧ c != '\n')) :
    isPlain c ∨ c = '\n' := by
  simp only [isPlain, bne_iff_ne, Bool.or_eq_true, beq_iff_eq, Bool.not_eq_true'] at h ⊢
  grind

theorem plain_of_quoting_literal (h : quoting text = .literal) :
    (∀ c ∈ text, isPlain c) ∧ '\'' ∉ text := by
  simp only [quoting] at h
  split at h
  · cases h
  split at h
  next hliteral =>
    simp only [Bool.and_eq_true, Bool.not_eq_true', List.any_eq_false, List.contains_eq_mem,
      decide_eq_false_iff_not] at hliteral
    obtain ⟨⟨hcontrol, hquote⟩, hline⟩ := hliteral
    refine ⟨fun c hc => ?_, hquote⟩
    have hne : c ≠ '\n' := fun h => hline (h ▸ hc)
    exact (plain_or_lineEnd (hcontrol c hc)).resolve_right hne
  next => repeat' split at h <;> try cases h

theorem plain_of_quoting_multiLiteral (h : quoting text = .multiLiteral) :
    (∀ c ∈ text, isPlain c ∨ c = '\n') ∧ hasTriple '\'' text = false := by
  simp only [quoting] at h
  split at h
  · cases h
  split at h
  · cases h
  split at h
  · cases h
  split at h
  next hmultiLiteral =>
    simp only [Bool.and_eq_true, Bool.not_eq_true', List.any_eq_false] at hmultiLiteral
    exact ⟨fun c hc => plain_or_lineEnd (hmultiLiteral.1 c hc), hmultiLiteral.2⟩
  next => split at h <;> cases h

/-- The line end that is written after opening quotes is passed over, and no other one. -/
theorem skipLineEnd_opening {body : List Char}
    (h : '\n' ∉ text → lineEnd? body = none) :
    skipLineEnd (opening text ++ body) = body := by
  by_cases hline : '\n' ∈ text
  · simp [opening, hline, skipLineEnd, lineEnd?]
  · simp [opening, hline, skipLineEnd, h hline]

theorem length_le_escape (quotes : Nat) (text : List Char) :
    text.length ≤ (escape true quotes text).length := by
  induction text generalizing quotes with
  | nil => exact Nat.zero_le _
  | cons c text ih =>
    by_cases hquote : c = '"'
    · subst hquote
      rw [escape]
      split
      · simpa using ih (quotes + 1)
      · simpa using Nat.le_succ_of_le (ih 0)
    · obtain ⟨a, s, hself, -⟩ := head_escapeChar true hquote
      have := ih 0
      rw [escape_cons _ _ hquote, hself]
      simp only [List.cons_append, List.length_cons, List.length_append]
      omega

theorem lineEnd?_escape (hline : '\n' ∉ text) (rest : List Char) :
    lineEnd? (escape true 0 text ++ '"' :: rest) = none := by
  cases text with
  | nil => rfl
  | cons c text =>
    by_cases hquote : c = '"'
    · subst hquote
      rfl
    · rw [escape_cons _ _ hquote]
      obtain ⟨hself, -, hreturn, -⟩ | ⟨sequence, hself, -⟩ := escapeChar_cases true hquote
      · rw [hself]
        exact lineEnd?_cons (fun h => hline (h ▸ List.mem_cons_self)) hreturn _
      · rw [hself]
        rfl

theorem lineEnd?_plain (hplain : ∀ c ∈ text, isPlain c ∨ c = '\n') (hline : '\n' ∉ text)
    (rest : List Char) : lineEnd? (text ++ '\'' :: rest) = none := by
  cases text with
  | nil => rfl
  | cons c text =>
    have hne : c ≠ '\n' := fun h => hline (h ▸ List.mem_cons_self)
    have hreturn : c ≠ '\r' := by
      rintro rfl
      simpa [isPlain, isControl] using hplain _ List.mem_cons_self
    exact lineEnd?_cons hne hreturn _

theorem read?_basic {cs : List Char} (h : cs.take 2 ≠ ['"', '"']) :
    read? ('"' :: cs) = some (readBasic cs) := by
  unfold read?
  split <;> simp_all [readLine?]

theorem read?_literal {cs : List Char} (h : cs.take 2 ≠ ['\'', '\'']) :
    read? ('\'' :: cs) = some (readLiteral cs) := by
  unfold read?
  split <;> simp_all [readLine?]

/-- What is written is read back, whatever the text, and what comes after it is left. -/
theorem read?_write (text : List Char) (hdouble : rest.head? ≠ some '"')
    (hsingle : rest.head? ≠ some '\'') : read? (write text ++ rest) = some (.ok (text, rest)) := by
  cases hway : quoting text with
  | basic =>
    have hcs : (escape false 0 text ++ '"' :: rest).take 2 ≠ ['"', '"'] := by
      cases text with
      | nil => cases rest <;> simp_all [escape]
      | cons c text =>
        by_cases hquote : c = '"'
        · simp [hquote, escape]
        · obtain ⟨a, s, hself, ha⟩ := head_escapeChar false hquote
          simp [escape_cons _ _ hquote, hself, ha]
    simp only [write, hway, List.cons_append, List.append_assoc, List.nil_append]
    rw [read?_basic hcs, readBasic_escape]
  | literal =>
    obtain ⟨hplain, hquote⟩ := plain_of_quoting_literal hway
    have hcs : (text ++ '\'' :: rest).take 2 ≠ ['\'', '\''] := by
      cases text with
      | nil => cases rest <;> simp_all
      | cons c text => simp [Ne.symm (List.ne_of_not_mem_cons hquote)]
    simp only [write, hway, List.cons_append, List.append_assoc, List.nil_append]
    rw [read?_literal hcs, readLiteral_append hplain hquote]
  | multiBasic =>
    simp only [write, hway, List.cons_append, List.append_assoc, List.nil_append]
    rw [read?, skipLineEnd_opening fun hline => lineEnd?_escape hline _,
      readMultiBasic_escape hdouble (Nat.zero_le 2)]
    have := length_le_escape 0 text
    simp only [List.length_append]
    omega
  | multiLiteral =>
    obtain ⟨hplain, htriple⟩ := plain_of_quoting_multiLiteral hway
    simp only [write, hway, List.cons_append, List.append_assoc, List.nil_append]
    rw [read?, skipLineEnd_opening fun hline => lineEnd?_plain hplain hline _,
      readMultiLiteral_append hsingle hplain htriple]
    simp only [List.length_append]
    omega

end Amend.Toml.Text
