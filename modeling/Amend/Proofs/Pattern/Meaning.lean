import Mathlib.Data.List.Induction
import Mathlib.Logic.Relation
import Amend.Pattern.Search

/-!
# What regular expressions match

`Regex.Takes text r a b`: `r` can match the text between the points `a` and `b`. Which of several
matches is preferred is left open. The relation is what programs are measured by, and for a text
that is split where the matching starts it is read off the rest of the text (`takes_set_of_split`,
`takes_literal`).
-/

set_option autoImplicit false

namespace Amend

/-- A position in a text, and what was saved on the way there. -/
structure Point where
  pos : Nat
  saved : List (Nat × Nat)

namespace Regex

open Search

/-- `r` can match from the first point to the second. -/
inductive Takes (text : Array Char) : Regex → Point → Point → Prop
  | empty (a : Point) : Takes text .empty a a
  | set {p : Char → Bool} {a : Point} {c : Char} : text[a.pos]? = some c → p c = true →
    Takes text (.set p) a ⟨a.pos + 1, a.saved⟩
  | assert {x : Assertion} {a : Point} : assertionAt text a.pos x = true →
    Takes text (.assert x) a a
  | group {i : Nat} {r : Regex} {a b : Point} :
    Takes text r ⟨a.pos, (2 * i, a.pos) :: a.saved⟩ b →
    Takes text (.group i r) a ⟨b.pos, (2 * i + 1, b.pos) :: b.saved⟩
  | seq {r s : Regex} {a b c : Point} : Takes text r a b → Takes text s b c →
    Takes text (.seq r s) a c
  | altLeft {r s : Regex} {a b : Point} : Takes text r a b → Takes text (.alt r s) a b
  | altRight {r s : Regex} {a b : Point} : Takes text s a b → Takes text (.alt r s) a b
  | once {greedy : Bool} {r : Regex} {a b : Point} : Takes text r a b →
    Takes text (.plus greedy r) a b
  | more {greedy : Bool} {r : Regex} {a b c : Point} : Takes text r a b →
    Takes text (.plus greedy r) b c → Takes text (.plus greedy r) a c

variable {text : Array Char} {r s : Regex} {a b c : Point}

theorem Takes.pos_le (h : Takes text r a b) : a.pos ≤ b.pos := by
  induction h with
  | empty | assert => exact Nat.le_refl _
  | set => exact Nat.le_succ _
  | group _ ih | altLeft _ ih | altRight _ ih | once _ ih => exact ih
  | seq _ _ ih ih' | more _ _ ih ih' => exact Nat.le_trans ih ih'

/-! ## Constructs -/

theorem takes_empty : Takes text .empty a b ↔ b = a := by
  constructor
  · rintro ⟨⟩
    rfl
  · rintro rfl
    exact .empty _

theorem takes_set {p : Char → Bool} : Takes text (.set p) a b ↔
    (∃ c, text[a.pos]? = some c ∧ p c = true) ∧ b = ⟨a.pos + 1, a.saved⟩ := by
  constructor
  · rintro ⟨⟩
    exact ⟨⟨_, ‹_›, ‹_›⟩, rfl⟩
  · rintro ⟨⟨c, hc, hp⟩, rfl⟩
    exact .set hc hp

theorem takes_assert {x : Assertion} :
    Takes text (.assert x) a b ↔ assertionAt text a.pos x = true ∧ b = a := by
  constructor
  · rintro ⟨⟩
    exact ⟨‹_›, rfl⟩
  · rintro ⟨hx, rfl⟩
    exact .assert hx

theorem takes_group {i : Nat} : Takes text (.group i r) a b ↔
    ∃ m, Takes text r ⟨a.pos, (2 * i, a.pos) :: a.saved⟩ m ∧
      b = ⟨m.pos, (2 * i + 1, m.pos) :: m.saved⟩ := by
  constructor
  · rintro ⟨⟩
    exact ⟨_, ‹_›, rfl⟩
  · rintro ⟨m, hm, rfl⟩
    exact .group hm

theorem takes_seq : Takes text (.seq r s) a c ↔ ∃ b, Takes text r a b ∧ Takes text s b c := by
  constructor
  · rintro ⟨⟩
    exact ⟨_, ‹_›, ‹_›⟩
  · rintro ⟨b, hr, hs⟩
    exact .seq hr hs

theorem takes_alt : Takes text (.alt r s) a b ↔ Takes text r a b ∨ Takes text s a b := by
  constructor
  · rintro (h | h)
    · exact .inl ‹_›
    · exact .inr ‹_›
  · rintro (h | h)
    · exact .altLeft h
    · exact .altRight h

theorem takes_opt {greedy : Bool} :
    Takes text (.opt greedy r) a b ↔ Takes text r a b ∨ b = a := by
  cases greedy with
  | true => rw [opt, if_pos rfl, takes_alt, takes_empty]
  | false => rw [opt, if_neg Bool.false_ne_true, takes_alt, takes_empty, or_comm]

theorem takes_plus {greedy : Bool} :
    Takes text (.plus greedy r) a b ↔ Relation.TransGen (Takes text r) a b := by
  constructor
  · intro h
    generalize hs : Regex.plus greedy r = s at h
    induction h with
    | once h =>
      obtain ⟨-, rfl⟩ := plus.inj hs
      exact .single h
    | more h _ _ ih =>
      obtain ⟨rfl, rfl⟩ := plus.inj hs
      exact .head h (ih rfl)
    | _ => cases hs
  · intro h
    induction h using Relation.TransGen.head_induction_on with
    | single h => exact .once h
    | head h _ ih => exact .more h ih

theorem takes_star {greedy : Bool} :
    Takes text (.star greedy r) a b ↔ Relation.ReflTransGen (Takes text r) a b := by
  rw [star, takes_opt, takes_plus, Relation.reflTransGen_iff_eq_or_transGen, or_comm]

theorem takes_concat_nil : Takes text (concat []) a b ↔ b = a :=
  takes_empty

theorem takes_concat_cons {rs : List Regex} : Takes text (concat (r :: rs)) a c ↔
    ∃ b, Takes text r a b ∧ Takes text (concat rs) b c := by
  cases rs with
  | nil =>
    simp only [concat, takes_empty]
    exact ⟨fun h => ⟨c, h, rfl⟩, fun ⟨b, h, hc⟩ => hc ▸ h⟩
  | cons r' rs => exact takes_seq

theorem takes_concat_append {rs ss : List Regex} : Takes text (concat (rs ++ ss)) a c ↔
    ∃ b, Takes text (concat rs) a b ∧ Takes text (concat ss) b c := by
  induction rs generalizing a with
  | nil =>
    simp only [List.nil_append, concat, takes_empty]
    exact ⟨fun h => ⟨a, rfl, h⟩, fun ⟨b, hb, h⟩ => hb ▸ h⟩
  | cons r rs ih =>
    simp only [List.cons_append, takes_concat_cons, ih]
    exact ⟨fun ⟨b, hr, b', hrs, hss⟩ => ⟨b', ⟨b, hr, hrs⟩, hss⟩,
      fun ⟨b', ⟨b, hr, hrs⟩, hss⟩ => ⟨b, hr, b', hrs, hss⟩⟩

/-! ## Expressions that match no empty text -/

/-- The expression matches no empty text. -/
def NeverEmpty (text : Array Char) (r : Regex) : Prop :=
  ∀ a b, Takes text r a b → a.pos < b.pos

theorem neverEmpty_set (p : Char → Bool) : NeverEmpty text (.set p) := by
  intro a b h
  obtain ⟨-, rfl⟩ := takes_set.mp h
  exact Nat.lt_succ_self _

theorem neverEmpty_concat {rs : List Regex} (hr : r ∈ rs) (h : NeverEmpty text r) :
    NeverEmpty text (concat rs) := by
  induction rs with
  | nil => cases hr
  | cons s rs ih =>
    intro a c hac
    obtain ⟨b, hab, hbc⟩ := takes_concat_cons.mp hac
    rcases List.mem_cons.mp hr with rfl | hr
    · exact Nat.lt_of_lt_of_le (h _ _ hab) hbc.pos_le
    · exact Nat.lt_of_le_of_lt hab.pos_le (ih hr _ _ hbc)

/-! ## Texts in two parts -/

section
variable {before rest : List Char} {saved : List (Nat × Nat)} (h : text.toList = before ++ rest)
include h

theorem getElem?_of_split : text[before.length]? = rest.head? := by
  rw [← Array.getElem?_toList, h, List.getElem?_append_right (Nat.le_refl _), Nat.sub_self,
    List.head?_eq_getElem?]

theorem assertionAt_of_split (x : Assertion) :
    assertionAt text before.length x = x.holds before.getLast? rest.head? := by
  unfold assertionAt
  rw [getElem?_of_split h]
  congr 1
  cases before using List.reverseRecOn with
  | nil => rfl
  | append_singleton before c =>
    rw [← Array.getElem?_toList, h]
    simp

theorem takes_assert_of_split {x : Assertion} : Takes text (.assert x) ⟨before.length, saved⟩ b ↔
    x.holds before.getLast? rest.head? = true ∧ b = ⟨before.length, saved⟩ := by
  rw [takes_assert, assertionAt_of_split h]

theorem takes_set_of_split {p : Char → Bool} : Takes text (.set p) ⟨before.length, saved⟩ b ↔
    ∃ c rest', rest = c :: rest' ∧ p c = true ∧ b = ⟨(before ++ [c]).length, saved⟩ := by
  rw [takes_set, getElem?_of_split h]
  cases rest with
  | nil => simp
  | cons c rest =>
    simp only [List.head?_cons, Option.some.injEq, exists_eq_left', List.cons.injEq,
      List.length_append, List.length_singleton]
    exact ⟨fun ⟨hp, hb⟩ => ⟨c, rest, ⟨rfl, rfl⟩, hp, hb⟩,
      fun ⟨_, _, ⟨hc, _⟩, hp, hb⟩ => ⟨hc ▸ hp, hb⟩⟩

theorem takes_literal {w : List Char} :
    Takes text (concat (w.map fun c => .set (· == c))) ⟨before.length, saved⟩ b ↔
      ∃ rest', rest = w ++ rest' ∧ b = ⟨(before ++ w).length, saved⟩ := by
  induction w generalizing before rest with
  | nil => simp [concat, takes_empty]
  | cons c w ih =>
    have hnext : ∀ rest', rest = c :: rest' → text.toList = (before ++ [c]) ++ rest' := by
      rintro rest' rfl
      rw [h, List.append_assoc, List.singleton_append]
    rw [List.map_cons, takes_concat_cons]
    constructor
    · rintro ⟨b', hset, hrest⟩
      obtain ⟨d, rest', rfl, hd, rfl⟩ := (takes_set_of_split h).mp hset
      obtain rfl : d = c := eq_of_beq hd
      obtain ⟨rest, rfl, rfl⟩ := (ih (hnext rest' rfl)).mp hrest
      exact ⟨rest, rfl, by simp⟩
    · rintro ⟨rest', rfl, rfl⟩
      refine ⟨_, (takes_set_of_split h).mpr ⟨c, _, rfl, beq_self_eq_true c, rfl⟩, ?_⟩
      exact (ih (hnext _ rfl)).mpr ⟨rest', rfl, by simp⟩

theorem takes_star_set {greedy : Bool} {p : Char → Bool} :
    Takes text (.star greedy (.set p)) ⟨before.length, saved⟩ b ↔
      ∃ w rest', rest = w ++ rest' ∧ (∀ c ∈ w, p c = true) ∧
        b = ⟨(before ++ w).length, saved⟩ := by
  rw [takes_star]
  constructor
  · intro hstar
    generalize ha : (⟨before.length, saved⟩ : Point) = a at hstar
    induction hstar using Relation.ReflTransGen.head_induction_on generalizing before rest with
    | refl => exact ⟨[], rest, rfl, nofun, by simp [← ha]⟩
    | head hset _ ih =>
      subst ha
      obtain ⟨c, rest', rfl, hc, rfl⟩ := (takes_set_of_split h).mp hset
      have hsplit : text.toList = (before ++ [c]) ++ rest' := by
        rw [h, List.append_assoc, List.singleton_append]
      obtain ⟨w, rest, rfl, hw, rfl⟩ := ih hsplit rfl
      refine ⟨c :: w, rest, rfl, fun x hx => ?_, by simp⟩
      rcases List.mem_cons.mp hx with rfl | hx
      · exact hc
      · exact hw x hx
  · rintro ⟨w, rest', rfl, hw, rfl⟩
    induction w generalizing before with
    | nil => simpa using Relation.ReflTransGen.refl
    | cons c w ih =>
      have hset : Takes text (.set p) ⟨before.length, saved⟩ ⟨(before ++ [c]).length, saved⟩ :=
        (takes_set_of_split h).mpr ⟨c, w ++ rest', rfl, hw c List.mem_cons_self, rfl⟩
      refine .head hset ?_
      have hsplit : text.toList = (before ++ [c]) ++ (w ++ rest') := by
        rw [h]
        simp
      have hrest := ih hsplit fun x hx => hw x (List.mem_cons_of_mem _ hx)
      simpa using hrest

end

end Regex

end Amend
