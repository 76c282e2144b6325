import Mathlib.Computability.Language
import Amend.Proofs.Pattern.Meaning

/-!
# The languages of expressions

An expression without groups and assertions matches the words of a language, wherever it is tried
(`Regex.Denotes`). The language of a concatenation is the product of the languages of its parts.
-/

set_option autoImplicit false

namespace Amend.Regex

/-- Wherever it is tried, the expression matches the words of the language, and saves nothing. -/
def Denotes (r : Regex) (L : Language Char) : Prop :=
  ∀ (before rest : List Char) (saved : List (Nat × Nat)) (b : Point),
    Takes (before ++ rest).toArray r ⟨before.length, saved⟩ b ↔
      ∃ w ∈ L, ∃ rest', rest = w ++ rest' ∧ b = ⟨(before ++ w).length, saved⟩

variable {r s : Regex} {rs ss : List Regex} {L M : Language Char}

theorem denotes_empty : Denotes .empty 1 := by
  intro before rest saved b
  rw [takes_empty]
  simp [Language.mem_one]

theorem denotes_set (p : Char → Bool) :
    Denotes (.set p) {w | ∃ c, p c = true ∧ w = [c]} := by
  intro before rest saved b
  rw [takes_set_of_split rfl]
  constructor
  · rintro ⟨c, rest', rfl, hc, rfl⟩
    exact ⟨[c], ⟨c, hc, rfl⟩, rest', rfl, rfl⟩
  · rintro ⟨_, ⟨c, hc, rfl⟩, rest', rfl, rfl⟩
    exact ⟨c, rest', rfl, hc, rfl⟩

theorem denotes_char (d : Char) : Denotes (.set (· == d)) {[d]} := by
  have hset : ({w | ∃ c, (c == d) = true ∧ w = [c]} : Language Char) = {[d]} := by
    ext w
    constructor
    · rintro ⟨c, hc, rfl⟩
      exact congrArg (fun e => [e]) (eq_of_beq hc)
    · rintro rfl
      exact ⟨d, beq_self_eq_true d, rfl⟩
  exact hset ▸ denotes_set (· == d)

theorem denotes_star_set (greedy : Bool) (p : Char → Bool) :
    Denotes (.star greedy (.set p)) {w | ∀ c ∈ w, p c = true} := by
  intro before rest saved b
  rw [takes_star_set rfl]
  constructor
  · rintro ⟨w, rest', rfl, hw, rfl⟩
    exact ⟨w, hw, rest', rfl, rfl⟩
  · rintro ⟨w, hw, rest', rfl, rfl⟩
    exact ⟨w, rest', rfl, hw, rfl⟩

theorem takes_plus_set {greedy : Bool} {p : Char → Bool} {text : Array Char}
    {before rest : List Char} {saved : List (Nat × Nat)} {b : Point}
    (h : text.toList = before ++ rest) :
    Takes text (.plus greedy (.set p)) ⟨before.length, saved⟩ b ↔
      ∃ w rest', rest = w ++ rest' ∧ w ≠ [] ∧ (∀ c ∈ w, p c = true) ∧
        b = ⟨(before ++ w).length, saved⟩ := by
  have hnext : ∀ c rest', rest = c :: rest' → text.toList = (before ++ [c]) ++ rest' := by
    rintro c rest' rfl
    rw [h, List.append_assoc, List.singleton_append]
  rw [takes_plus, Relation.TransGen.head'_iff]
  simp only [← @takes_star _ _ _ _ greedy]
  constructor
  · rintro ⟨_, hset, hstar⟩
    obtain ⟨c, rest', rfl, hc, rfl⟩ := (takes_set_of_split h).mp hset
    obtain ⟨w, rest, rfl, hw, rfl⟩ := (takes_star_set (hnext c _ rfl)).mp hstar
    exact ⟨c :: w, rest, rfl, List.cons_ne_nil _ _, by simpa using ⟨hc, hw⟩, by simp⟩
  · rintro ⟨_ | ⟨c, w⟩, rest', rfl, hne, hw, rfl⟩
    · exact absurd rfl hne
    · rw [List.forall_mem_cons] at hw
      exact ⟨_, (takes_set_of_split h).mpr ⟨c, _, rfl, hw.1, rfl⟩,
        (takes_star_set (hnext c _ rfl)).mpr ⟨w, rest', rfl, hw.2, by simp⟩⟩

theorem denotes_literal (w : List Char) :
    Denotes (concat (w.map fun c => .set (· == c))) {w} := by
  intro before rest saved b
  rw [takes_literal rfl]
  exact ⟨fun h => ⟨w, rfl, h⟩, fun ⟨_, hw, h⟩ => Set.mem_singleton_iff.mp hw ▸ h⟩

theorem Denotes.of_takes (h : Denotes r L) (h' : Denotes s M) {t : Regex}
    (ht : ∀ text a c, Takes text t a c ↔ ∃ b, Takes text r a b ∧ Takes text s b c) :
    Denotes t (L * M) := by
  intro before rest saved c
  rw [ht]
  constructor
  · rintro ⟨b, hr, hs⟩
    obtain ⟨u, hu, rest', rfl, rfl⟩ := (h ..).mp hr
    rw [← List.append_assoc] at hs
    obtain ⟨v, hv, rest, rfl, rfl⟩ := (h' ..).mp hs
    exact ⟨u ++ v, Language.append_mem_mul hu hv, rest, (List.append_assoc ..).symm,
      by rw [List.append_assoc]⟩
  · rintro ⟨w, hw, rest, rfl, rfl⟩
    obtain ⟨u, hu, v, hv, rfl⟩ := Language.mem_mul.mp hw
    refine ⟨_, (h ..).mpr ⟨u, hu, v ++ rest, List.append_assoc .., rfl⟩, ?_⟩
    rw [List.append_assoc, ← List.append_assoc before]
    exact (h' ..).mpr ⟨v, hv, rest, rfl, by rw [List.append_assoc]⟩

theorem Denotes.cons (h : Denotes r L) (h' : Denotes (concat rs) M) :
    Denotes (concat (r :: rs)) (L * M) :=
  h.of_takes h' fun _ _ _ => takes_concat_cons

theorem Denotes.append (h : Denotes (concat rs) L) (h' : Denotes (concat ss) M) :
    Denotes (concat (rs ++ ss)) (L * M) :=
  h.of_takes h' fun _ _ _ => takes_concat_append

theorem Denotes.opt (h : Denotes r L) (greedy : Bool) : Denotes (.opt greedy r) (L + 1) := by
  intro before rest saved b
  rw [takes_opt, h]
  simp only [Language.mem_add, Language.mem_one]
  constructor
  · rintro (⟨w, hw, rest', hrest, hb⟩ | rfl)
    · exact ⟨w, .inl hw, rest', hrest, hb⟩
    · exact ⟨[], .inr rfl, rest, rfl, by rw [List.append_nil]⟩
  · rintro ⟨w, hw | rfl, rest', hrest, rfl⟩
    · exact .inl ⟨w, hw, rest', hrest, rfl⟩
    · exact .inr (by rw [List.append_nil])

theorem Denotes.upTo_one (h : Denotes r L) (greedy : Bool) : Denotes (upTo greedy r 1) (L + 1) := by
  have hseq := h.of_takes denotes_empty (t := .seq r .empty) fun _ _ _ => takes_seq
  rw [mul_one] at hseq
  exact hseq.opt greedy

end Amend.Regex
