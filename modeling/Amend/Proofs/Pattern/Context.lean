import Amend.Proofs.Pattern.Scan

/-!
# Matches in another context

An expression without assertions looks at nothing but the characters that it matches: what it
matches in one text it matches wherever these characters stand (`Takes.transfer`). So if it finds
nothing in the empty text, it matches the empty text nowhere
(`neverEmpty_of_matchesIn_nil_eq_nil`).
-/

set_option autoImplicit false

namespace Amend

namespace Regex

/-- No part of the expression is a condition on a position. -/
def assertionFree : Regex → Bool
  | empty | set _ => true
  | assert _ => false
  | group _ r | plus _ r => r.assertionFree
  | seq r s | alt r s => r.assertionFree && s.assertionFree

variable {text text' : Array Char} {r : Regex} {a b : Point}

theorem Takes.pos_le_size (h : Takes text r a b) (ha : a.pos ≤ text.size) : b.pos ≤ text.size := by
  induction h with
  | empty | assert => exact ha
  | set hc => exact (Array.getElem?_eq_some_iff.mp hc).1
  | group _ ih | altLeft _ ih | altRight _ ih | once _ ih => exact ih ha
  | seq _ _ ih ih' | more _ _ ih ih' => exact ih' (ih ha)

theorem add_spans {i j k : Nat} (hij : i ≤ j) (hjk : j ≤ k) (p : Nat) :
    p + (j - i) + (k - j) = p + (k - i) := by
  omega

theorem same_first {i j k p : Nat} (hjk : j ≤ k)
    (hsame : ∀ n < k - i, text'[p + n]? = text[i + n]?) :
    ∀ n < j - i, text'[p + n]? = text[i + n]? :=
  fun n hn => hsame n (by omega)

theorem same_rest {i j k p : Nat} (hij : i ≤ j)
    (hsame : ∀ n < k - i, text'[p + n]? = text[i + n]?) :
    ∀ n < k - j, text'[p + (j - i) + n]? = text[j + n]? := by
  intro n hn
  have h := hsame (j - i + n) (by omega)
  rwa [← Nat.add_assoc, ← Nat.add_assoc, Nat.add_sub_cancel' hij] at h

/-- An expression without assertions matches the same characters in any text. -/
theorem Takes.transfer (h : Takes text r a b) (hr : r.assertionFree = true) {p : Nat}
    (hsame : ∀ i < b.pos - a.pos, text'[p + i]? = text[a.pos + i]?) (saved : List (Nat × Nat)) :
    ∃ saved', Takes text' r ⟨p, saved⟩ ⟨p + (b.pos - a.pos), saved'⟩ := by
  induction h generalizing p saved with
  | empty a => exact ⟨saved, by simpa using Takes.empty _⟩
  | @set q a c hc hq =>
    have hc' : text'[p]? = some c := (hsame 0 (by simp)).trans hc
    exact ⟨saved, by simpa using Takes.set (a := ⟨p, saved⟩) hc' hq⟩
  | assert => cases hr
  | @group i r a b _ ih =>
    obtain ⟨saved', h⟩ := ih hr hsame ((2 * i, p) :: saved)
    exact ⟨_, .group (a := ⟨p, saved⟩) (b := ⟨p + (b.pos - a.pos), saved'⟩) h⟩
  | altLeft _ ih =>
    obtain ⟨saved', h⟩ := ih (Bool.and_elim_left hr) hsame saved
    exact ⟨saved', .altLeft h⟩
  | altRight _ ih =>
    obtain ⟨saved', h⟩ := ih (Bool.and_elim_right hr) hsame saved
    exact ⟨saved', .altRight h⟩
  | once _ ih =>
    obtain ⟨saved', h⟩ := ih hr hsame saved
    exact ⟨saved', .once h⟩
  | seq hab hbc ih ih' =>
    have hfirst := same_first hbc.pos_le hsame
    have hrest := same_rest hab.pos_le hsame
    obtain ⟨saved₁, h₁⟩ := ih (Bool.and_elim_left hr) hfirst saved
    obtain ⟨saved₂, h₂⟩ := ih' (Bool.and_elim_right hr) hrest saved₁
    rw [add_spans hab.pos_le hbc.pos_le] at h₂
    exact ⟨saved₂, .seq h₁ h₂⟩
  | more hab hbc ih ih' =>
    have hfirst := same_first hbc.pos_le hsame
    have hrest := same_rest hab.pos_le hsame
    obtain ⟨saved₁, h₁⟩ := ih hr hfirst saved
    obtain ⟨saved₂, h₂⟩ := ih' hr hrest saved₁
    rw [add_spans hab.pos_le hbc.pos_le] at h₂
    exact ⟨saved₂, .more h₁ h₂⟩

end Regex

/-- A pattern without assertions that finds nothing in the empty text matches no empty text. -/
theorem Pattern.neverEmpty_of_matchesIn_nil_eq_nil {p : Pattern}
    (hfree : p.regex.assertionFree = true) (h : p.matchesIn [] = []) (text : Array Char) :
    Regex.NeverEmpty text p.regex := by
  intro a b hab
  by_contra hle
  have hsame : ∀ i < b.pos - a.pos, #[][0 + i]? = text[a.pos + i]? := by
    intro i hi
    omega
  obtain ⟨saved, hempty⟩ := hab.transfer hfree hsame []
  exact matchesIn_eq_nil_iff.mp h 0 (Nat.le_refl _) _ hempty

end Amend
