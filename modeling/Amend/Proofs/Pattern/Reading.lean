import Amend.Pattern.Basic
import Mathlib.Algebra.Ring.Nat

/-!
# How patterns are read

A text that is escaped is read into the expression for itself, character by character
(`readFrom_escape`), and so is text without characters that have a meaning of their own as it stands
(`readFrom_append`). What several pieces become as a whole is given by `regexOf_concat`,
`weight_concat` and `depth_concat_le`.
-/

set_option autoImplicit false

namespace Amend.Pattern

/-! ## Plain text -/

/-- The pieces of a text that stands for itself. -/
def literals (w : List Char) : List Piece :=
  w.map fun c => .leaf (.set (· == c)) c.utf8Size

/-- Characters without a meaning of their own stand for themselves. -/
theorem readFrom_cons {c : Char} (hc : isMeta c = false) (fuel : Nat) (st : Reading)
    (hst : st.flags = {}) (rest : List Char) :
    readFrom (fuel + 1) st (c :: rest) =
      readFrom fuel (st.push (.leaf (.set (· == c)) c.utf8Size)) rest := by
  have hskip : skip {} (c :: rest) = c :: rest := rfl
  have hpiece : (Atom.literal c false).piece {} = .ok (.leaf (.set (· == c)) c.utf8Size) := rfl
  rw [readFrom]
  simp only [hst, hskip]
  split
  all_goals first | exact absurd hc (by decide) | rw [hpiece]

theorem isSome_of_mem_literals {w : List Char} {p : Piece} (hp : p ∈ literals w) :
    p.regex.isSome := by
  obtain ⟨c, -, rfl⟩ := List.mem_map.mp hp
  rfl

theorem depth_of_mem_literals {w : List Char} {p : Piece} (hp : p ∈ literals w) :
    p.depth = 0 := by
  obtain ⟨c, -, rfl⟩ := List.mem_map.mp hp
  rfl

theorem map_regexOf_literals (w : List Char) :
    (literals w).map Piece.regexOf = w.map fun c => .set (· == c) := by
  rw [literals, List.map_map]
  rfl

/-! ## Escaped text -/

/-- A character as it is written in an escaped text. -/
def escapeChar (c : Char) : List Char :=
  if isMeta c then ['\\', c] else [c]

theorem toList_escape (text : String) : (escape text).toList = text.toList.flatMap escapeChar := by
  rw [escape, String.toList_ofList]
  rfl

theorem flatMap_escapeChar_of_plain {w : List Char} (h : ∀ c ∈ w, isMeta c = false) :
    w.flatMap escapeChar = w := by
  induction w with
  | nil => rfl
  | cons c w ih =>
    rw [List.flatMap_cons, ih fun x hx => h x (List.mem_cons_of_mem _ hx), escapeChar,
      h c List.mem_cons_self]
    rfl

theorem escape_eq_self {text : String} (h : ∀ c ∈ text.toList, isMeta c = false) :
    escape text = text := by
  rw [← String.toList_inj, toList_escape, flatMap_escapeChar_of_plain h]

theorem isDigit_of_isMeta {c : Char} (h : isMeta c = true) : c.isDigit = false := by
  have hmeta : ("\\.+*?()|[]\x7b\x7d^$#&-~".toList.all fun c => !c.isDigit) = true := by decide
  have hc := List.all_eq_true.mp hmeta c (List.contains_iff_mem.mp h)
  simpa using hc

/-- A character with a meaning of its own stands for itself after a backslash. -/
theorem readFrom_backslash {c : Char} (hc : isMeta c = true) (fuel : Nat) (st : Reading)
    (hst : st.flags = {}) (rest : List Char) :
    readFrom (fuel + 1) st ('\\' :: c :: rest) =
      readFrom fuel (st.push (.leaf (.set (· == c)) c.utf8Size)) rest := by
  have hskip : skip {} ('\\' :: c :: rest) = '\\' :: c :: rest := rfl
  have hescape : readEscape {} (c :: rest) = .ok (.literal c false, rest) := by
    unfold readEscape
    dsimp only
    rw [isDigit_of_isMeta hc, if_neg Bool.false_ne_true, if_pos hc]
  have hpiece : (Atom.literal c false).piece {} = .ok (.leaf (.set (· == c)) c.utf8Size) := rfl
  rw [readFrom]
  simp only [hst, hskip, hescape, hpiece]

theorem readFrom_escapeChar (c : Char) (fuel : Nat) (st : Reading) (hst : st.flags = {})
    (rest : List Char) : readFrom (fuel + 1) st (escapeChar c ++ rest) =
      readFrom fuel (st.push (.leaf (.set (· == c)) c.utf8Size)) rest := by
  rw [escapeChar]
  split
  · next hmeta => exact readFrom_backslash hmeta fuel st hst rest
  · next hplain => exact readFrom_cons (by simpa using hplain) fuel st hst rest

theorem readFrom_escape (w : List Char) (fuel : Nat) (st : Reading) (hst : st.flags = {})
    (rest : List Char) : readFrom (fuel + w.length) st (w.flatMap escapeChar ++ rest) =
      readFrom fuel { st with pieces := (literals w).reverse ++ st.pieces } rest := by
  induction w generalizing st with
  | nil => rfl
  | cons c w ih =>
    rw [List.length_cons, ← Nat.add_assoc, List.flatMap_cons, List.append_assoc,
      readFrom_escapeChar c _ st hst, ih (st.push _) hst]
    simp [literals, Reading.push]

/-- Text without characters that have a meaning of their own need not be escaped. -/
theorem readFrom_append {w : List Char} (hw : ∀ c ∈ w, isMeta c = false) (fuel : Nat)
    (st : Reading) (hst : st.flags = {}) (rest : List Char) :
    readFrom (fuel + w.length) st (w ++ rest) =
      readFrom fuel { st with pieces := (literals w).reverse ++ st.pieces } rest := by
  have hescape := readFrom_escape w fuel st hst rest
  rwa [flatMap_escapeChar_of_plain hw] at hescape

/-! ## Pieces one after the other -/

theorem regexOf_concat (ps : List Piece) (h : ∀ p ∈ ps, p.regex.isSome) :
    (Piece.concat ps).regexOf = .concat (ps.map Piece.regexOf) := by
  have hmap : ∀ ps : List Piece, (∀ p ∈ ps, p.regex.isSome) →
      ps.filterMap Piece.regex = ps.map Piece.regexOf := by
    intro ps hps
    induction ps with
    | nil => rfl
    | cons p ps ih =>
      obtain ⟨r, hr⟩ := Option.isSome_iff_exists.mp (hps p List.mem_cons_self)
      rw [List.filterMap_cons_some hr, ih fun q hq => hps q (List.mem_cons_of_mem _ hq),
        List.map_cons, Piece.regexOf, hr]
      rfl
  match ps, h with
  | [], _ => rfl
  | [p], _ => rfl
  | p :: q :: ps, h => exact congrArg Regex.concat (hmap _ h)

theorem weight_concat (ps : List Piece) (h : ps ≠ []) :
    (Piece.concat ps).weight = (ps.map Piece.weight).sum := by
  have hsum : ∀ (ps : List Piece) (n : Nat),
      ps.foldl (fun w p => w + p.weight) n = n + (ps.map Piece.weight).sum := by
    intro ps
    induction ps with
    | nil => simp
    | cons p ps ih =>
      intro n
      rw [List.foldl_cons, ih, List.map_cons, List.sum_cons, Nat.add_assoc]
  match ps, h with
  | [p], _ => simp [Piece.concat]
  | p :: q :: ps, _ => exact (hsum _ 0).trans (Nat.zero_add _)

theorem depth_concat_le {ps : List Piece} {n : Nat} (h : ∀ p ∈ ps, p.depth ≤ n) :
    (Piece.concat ps).depth ≤ n + 1 := by
  have hmax : ∀ (ps : List Piece) (m : Nat), m ≤ n → (∀ p ∈ ps, p.depth ≤ n) →
      ps.foldl (fun d p => max d p.depth) m ≤ n := by
    intro ps
    induction ps with
    | nil => exact fun m hm _ => hm
    | cons p ps ih =>
      intro m hm hps
      exact ih _ (Nat.max_le.mpr ⟨hm, hps p List.mem_cons_self⟩)
        fun q hq => hps q (List.mem_cons_of_mem _ hq)
  match ps, h with
  | [], _ => exact Nat.zero_le _
  | [p], h => exact Nat.le_succ_of_le (h p List.mem_cons_self)
  | p :: q :: ps, h => exact Nat.succ_le_succ (hmax _ 0 (Nat.zero_le _) h)

theorem mem_groups_concat {rs : List Regex} {r : Regex} {i : Nat} (hr : r ∈ rs)
    (hi : i ∈ r.groups) : i ∈ (Regex.concat rs).groups := by
  induction rs with
  | nil => cases hr
  | cons s rs ih =>
    cases rs with
    | nil =>
      obtain rfl := List.mem_singleton.mp hr
      exact hi
    | cons s' rs =>
      show i ∈ s.groups ++ (Regex.concat (s' :: rs)).groups
      rw [List.mem_append]
      rcases List.mem_cons.mp hr with rfl | hr
      · exact .inl hi
      · exact .inr (ih hr)

end Amend.Pattern
