import Mathlib.Logic.Relation
import Amend.Proofs.Enclosure

/-!
# Texts that are reworded

A text is reworded when words of it are swapped for others, one after the other (`Reworded`). What
the text lacks it still lacks afterwards, as long as the new words cannot have brought it about
(`Reworded.lacks`, `Reworded.unenclosed`).
-/

set_option autoImplicit false

namespace Amend

/-- One word of the text is swapped for another. -/
def SwapsWord (swaps : List (List Char × List Char)) (text text' : List Char) : Prop :=
  ∃ s ∈ swaps, ∃ x y, text = x ++ (s.1 ++ y) ∧ text' = x ++ (s.2 ++ y)

/-- Words of the text are swapped for others, one after the other. -/
def Reworded (swaps : List (List Char × List Char)) : List Char → List Char → Prop :=
  Relation.ReflTransGen (SwapsWord swaps)

namespace Reworded

variable {swaps swaps' : List (List Char × List Char)} {text text' text'' v a k : List Char}
  {d : Char}

theorem refl (swaps : List (List Char × List Char)) (text : List Char) : Reworded swaps text text :=
  Relation.ReflTransGen.refl

theorem swap {x y m n : List Char} (h : Reworded swaps text (x ++ (m ++ y)))
    (hmem : (m, n) ∈ swaps) : Reworded swaps text (x ++ (n ++ y)) :=
  h.tail ⟨_, hmem, x, y, rfl, rfl⟩

/-- What each swap preserves is preserved. -/
theorem preserves {P : List Char → Prop} (h : Reworded swaps text text')
    (hswap : ∀ s ∈ swaps, ∀ x y, P (x ++ (s.1 ++ y)) → P (x ++ (s.2 ++ y))) (hp : P text) :
    P text' := by
  induction h with
  | refl => exact hp
  | tail _ hstep ih =>
    obtain ⟨s, hs, x, y, rfl, rfl⟩ := hstep
    exact hswap s hs x y ih

theorem mono (h : Reworded swaps text text') (hsub : swaps ⊆ swaps') :
    Reworded swaps' text text' :=
  h.preserves (P := Reworded swaps' text) (fun _ hs _ _ hold => hold.swap (hsub hs)) (refl _ _)

theorem trans (h : Reworded swaps text text') (h' : Reworded swaps text' text'') :
    Reworded swaps text text'' :=
  Relation.ReflTransGen.trans h h'

theorem append (h : Reworded swaps text text') (h' : Reworded swaps' text' text'') :
    Reworded (swaps ++ swaps') text text'' :=
  (h.mono (List.subset_append_left _ _)).trans (h'.mono (List.subset_append_right _ _))

theorem append_left (h : Reworded swaps text text') (x : List Char) :
    Reworded swaps (x ++ text) (x ++ text') := by
  refine h.preserves (P := fun text' => Reworded swaps (x ++ text) (x ++ text'))
    (fun s hs y z hold => ?_) (refl _ _)
  rw [← List.append_assoc] at hold ⊢
  exact hold.swap hs

/-- A word that overlaps with none of the new ones is still lacking. -/
theorem lacks (h : Reworded swaps text text') (hv : ∀ s ∈ swaps, Apart v s.2)
    (htext : Lacks v text) : Lacks v text' :=
  h.preserves (fun s hs _ _ => (hv s hs).lacks) htext

/-- The swaps make no text that is enclosed by the words. -/
def Keeps (d : Char) (a k : List Char) (swaps : List (List Char × List Char)) : Prop :=
  ∀ s ∈ swaps, Neutral d a k s.2 ∧ (d ∉ s.2 → d ∉ s.1 ∧ s.1 ≠ [])

instance : Decidable (Keeps d a k swaps) :=
  inferInstanceAs (Decidable (∀ s ∈ swaps, _))

theorem unenclosed (h : Reworded swaps text text') (hkeeps : Keeps d a k swaps)
    (htext : Unenclosed d a k text) : Unenclosed d a k text' :=
  h.preserves (fun s hs _ _ => (hkeeps s hs).1.unenclosed (hkeeps s hs).2) htext

theorem not_nested (h : Reworded swaps text text') (hkeeps : Keeps d a k swaps)
    (htext : ¬ Nested d a k text) : ¬ Nested d a k text' :=
  h.preserves (P := fun text => ¬ Nested d a k text)
    (fun s hs _ _ hold hnew => hold ((hkeeps s hs).1.nested (hkeeps s hs).2 hnew)) htext

end Reworded

end Amend
