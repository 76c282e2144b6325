import Amend.Proofs.Rewording
import Amend.Proofs.Rule.FieldRules

/-!
# What field rules swap

The rules for fields swap a dot and the name of a field for what reads the field
(`FieldSpec.reworded_applyAll`). A word that is foreign to what stands around the name cannot come
about in this way, whatever the fields are (`FieldSpec.apart_of_foreign`,
`FieldSpec.keeps_of_foreign`).
-/

set_option autoImplicit false

namespace Amend.FieldSpec

variable {receiver : Option String} {before : Option Char} {source : String} {names : List String}
  {a f k name v w x y cs out : List Char} {c d : Char}

/-! ## Swaps -/

/-- Where accesses are replaced, the dot and the name are swapped for what is put there. -/
theorem Accessed.reworded (h : Accessed receiver f before cs out) :
    Reworded [('.' :: f, inserted f)] cs out := by
  induction h with
  | nil => exact .refl _ _
  | @skip _ c _ _ _ _ ih => exact ih.append_left [c]
  | @access _ cs w rest out hacc _ ih =>
    obtain rfl := hacc.eq
    have hstart : Reworded [('.' :: f, inserted f)] (w ++ (('.' :: f) ++ rest))
        (w ++ (inserted f ++ rest)) := (Reworded.refl _ _).swap List.mem_cons_self
    have hrest := (ih.append_left (inserted f)).append_left w
    simpa using hstart.trans hrest

/-- What the rules for the fields swap. -/
def swaps (names : List String) : List (List Char × List Char) :=
  names.map fun n => ('.' :: n.toList, inserted n.toList)

theorem reworded_applyAll (hreceiver : ∀ r, receiver = some r → isIdentifier r.toList = true)
    (hnames : ∀ n ∈ names, isIdentifier n.toList = true) (source : String) (text : List Char) :
    Reworded (swaps names) text
      (Rule.applyAll (names.map (fieldRule receiver source)) text).text := by
  induction names generalizing text with
  | nil => exact .refl _ _
  | cons n names ih =>
    obtain ⟨hn, hnames⟩ := List.forall_mem_cons.mp hnames
    have hfirst := (accessed_apply hreceiver hn source text).reworded
    rw [List.map_cons, Rule.text_applyAll_cons]
    exact hfirst.append (ih hnames _)

theorem matchesIn_applyAll_eq_nil
    (hreceiver : ∀ r, receiver = some r → isIdentifier r.toList = true)
    (hnames : ∀ n ∈ names, isIdentifier n.toList = true) (htry : "try_get" ∉ names)
    (source : String) (text : List Char) : ∀ r ∈ names.map (fieldRule receiver source),
      r.pattern.matchesIn
        (Rule.applyAll (names.map (fieldRule receiver source)) text).text = [] := by
  intro r hr
  obtain ⟨n, hn, rfl⟩ := List.mem_map.mp hr
  refine matchesIn_eq_nil hreceiver (hnames n hn) source fun hacc => ?_
  have hne : n ≠ "try_get" := fun heq => htry (heq ▸ hn)
  exact (hasAccess_applyAll hreceiver hnames source text (hnames n hn) hne hacc).1 hn

/-! ## Words that are foreign to accessors -/

/-- What stands before the name of a field where it is read. -/
def beforeName : List Char := ".try_get(".toList

/-- What stands after it. -/
def afterName : List Char := ").unwrap_or_default()".toList

theorem inserted_eq (name : List Char) :
    inserted name = (beforeName ++ ['"']) ++ (name ++ '"' :: afterName) := by
  rfl

/-- The identifier that the word begins with ends in it, but not at a quotation mark. -/
def EndsUnquoted (v : List Char) : Prop :=
  (v.dropWhile isIdentifierChar).head?.any (· != '"') = true

instance : Decidable (EndsUnquoted v) :=
  inferInstanceAs (Decidable (_ = _))

/-- Such a word does not begin a text together with a name that is quoted. -/
theorem EndsUnquoted.clash (h : EndsUnquoted v) (hf : ∀ c ∈ f, isIdentifierChar c = true)
    (x : List Char) : Clash (f ++ '"' :: x) v := by
  have hne : ∀ y z, f ++ '"' :: y ≠ v ++ z := by
    intro y z heq
    have hrun : ∀ c ∈ v.takeWhile isIdentifierChar, isIdentifierChar c = true :=
      List.all_eq_true.mp List.all_takeWhile
    have hends := List.head?_dropWhile_not isIdentifierChar v
    have hsplit := List.takeWhile_append_dropWhile (p := isIdentifierChar) (l := v)
    unfold EndsUnquoted at h
    cases hrest : v.dropWhile isIdentifierChar with
    | nil =>
      rw [hrest] at h
      cases h
    | cons c rest =>
      rw [hrest] at h hends hsplit
      rw [← hsplit, List.append_assoc] at heq
      have hend : EndsRun (c :: (rest ++ z)) := hends
      obtain ⟨-, htail⟩ := run_unique hf hrun (show EndsRun ('"' :: y) from rfl) hend heq
      obtain ⟨rfl, -⟩ := List.cons.inj htail
      cases h
  constructor
  · rintro ⟨z, hz⟩
    exact hne (x ++ z) [] (by simpa using hz)
  · rintro ⟨z, hz⟩
    exact hne x z hz.symm

/-- The word overlaps neither with what stands before a name nor with what stands after it. -/
def Foreign (v : List Char) : Prop :=
  EndsUnquoted v ∧ Apart v (beforeName ++ ['"']) ∧
    EndsClash ('"' :: afterName) v

instance : Decidable (Foreign v) :=
  inferInstanceAs (Decidable (_ ∧ _))

theorem Foreign.apart (h : Foreign v) (hf : ∀ c ∈ f, isIdentifierChar c = true) :
    Apart v (inserted f) := by
  obtain ⟨hends, happart, hafter⟩ := h
  rw [inserted_eq]
  refine ⟨fun t s ht hs => (happart.1 t s ht hs).append_right _, fun t s ht hs => ?_⟩
  -- an end starts before the name, in it or after it
  rcases append_cases ht with ⟨p, -, hp⟩ | ⟨p, hp, rfl, hne⟩
  · rcases append_cases hp with ⟨q, -, hq⟩ | ⟨q, hq, rfl, -⟩
    · exact hafter q s hq hs
    · exact hends.clash (fun c hc => hf c (hq ▸ List.mem_append_right _ hc)) _
  · exact ((happart.2 t p hp hne).symm.append_right _).symm

/-- A word that what is put in the place of an access does not begin or go on. -/
def ForeignEnd (k : List Char) : Prop :=
  EndsUnquoted k ∧ EndsClash k (beforeName ++ ['"'])

instance : Decidable (ForeignEnd k) :=
  inferInstanceAs (Decidable (_ ∧ _))

/-- What is put in the place of an access is neutral for texts between quotation marks. -/
theorem Foreign.neutral (ha : Foreign a) (hk : ForeignEnd k)
    (hf : ∀ c ∈ f, isIdentifierChar c = true) : Neutral '"' a k (inserted f) := by
  refine ⟨List.append_ne_nil_of_right_ne_nil _ ?_, ha.apart hf, fun t s ht hs => ?_, fun _ => ?_⟩
  · simp
  · rw [inserted_eq]
    exact (hk.2 t s ht hs).append_right _
  · have hsplit : inserted f = beforeName ++ '"' :: (f ++ '"' :: afterName) := by
      rw [inserted_eq, List.append_assoc]
      rfl
    rw [hsplit, dropWhile_bne (by decide)]
    have hclash := hk.1.clash hf afterName
    exact ⟨fun hp => hclash.1 (List.cons_prefix_cons.mp hp).2,
      fun hp => hclash.2 (List.cons_prefix_cons.mp hp).2⟩

section
variable (hnames : ∀ n ∈ names, isIdentifier n.toList = true)
include hnames

theorem apart_of_foreign (hv : Foreign v) : ∀ s ∈ swaps names, Apart v s.2 := by
  intro s hs
  obtain ⟨n, hn, rfl⟩ := List.mem_map.mp hs
  exact hv.apart (isIdentifierChar_of_isIdentifier (hnames n hn))

theorem keeps_of_foreign (ha : Foreign a) (hk : ForeignEnd k) :
    Reworded.Keeps '"' a k (swaps names) := by
  intro s hs
  obtain ⟨n, hn, rfl⟩ := List.mem_map.mp hs
  refine ⟨ha.neutral hk (isIdentifierChar_of_isIdentifier (hnames n hn)), fun hquote => ?_⟩
  exact absurd (by simp [inserted_eq]) hquote

end

end Amend.FieldSpec
